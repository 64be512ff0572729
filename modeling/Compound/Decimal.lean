/-!
Decimal spellings of naturals. `spell` writes a natural without leading zeros and
`value` reads digits back; the two are inverse, so a natural has one spelling.
-/
namespace Compound.Decimal

/-- The character of a digit below ten. -/
def digit (d : Nat) : Char := Char.ofNat (48 + d)

/-- The digits of a natural, most significant first. -/
def spell (n : Nat) : List Char :=
  if n < 10 then [digit n] else spell (n / 10) ++ [digit (n % 10)]
termination_by n

/-- The natural that a list of digits spells. -/
def value (cs : List Char) : Nat := cs.foldl (fun n c => 10 * n + (c.toNat - 48)) 0

def text (n : Nat) : String := String.ofList (spell n)

/-- The spelling of an integer: a minus sign stands before a negative one. -/
def intText (i : Int) : String :=
  if i < 0 then "-" ++ text i.natAbs else text i.natAbs

theorem digit_toNat (d : Nat) (h : d < 10) : (digit d).toNat = 48 + d := by
  have : ∀ d : Fin 10, (digit d.val).toNat = 48 + d.val := by decide
  exact this ⟨d, h⟩

theorem digit_isDigit (d : Nat) (h : d < 10) : (digit d).isDigit = true := by
  have : ∀ d : Fin 10, (digit d.val).isDigit = true := by decide
  exact this ⟨d, h⟩

theorem value_append_singleton (cs : List Char) (c : Char) :
    value (cs ++ [c]) = 10 * value cs + (c.toNat - 48) := by
  simp [value, List.foldl_append]

@[simp] theorem value_spell (n : Nat) : value (spell n) = n := by
  induction n using Nat.strongRecOn with
  | ind n ih =>
    rw [spell]
    split
    · rename_i h
      simp [value, digit_toNat n h]
    · rename_i h
      rw [value_append_singleton, ih (n / 10) (by omega),
        digit_toNat (n % 10) (Nat.mod_lt n (by decide))]
      omega

theorem spell_injective {m n : Nat} (h : spell m = spell n) : m = n := by
  rw [← value_spell m, ← value_spell n, h]

theorem isDigit_of_mem_spell {n : Nat} {c : Char} (h : c ∈ spell n) : c.isDigit = true := by
  induction n using Nat.strongRecOn with
  | ind n ih =>
    rw [spell] at h
    split at h
    · rename_i hn
      rw [List.mem_singleton.1 h]
      exact digit_isDigit n hn
    · rename_i hn
      rcases List.mem_append.1 h with h | h
      · exact ih (n / 10) (by omega) h
      · rw [List.mem_singleton.1 h]
        exact digit_isDigit (n % 10) (Nat.mod_lt n (by decide))

theorem spell_ne_nil (n : Nat) : spell n ≠ [] := by
  rw [spell]
  split <;> simp

end Compound.Decimal
