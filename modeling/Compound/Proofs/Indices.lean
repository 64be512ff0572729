import Mathlib.Data.List.Induction
import Compound.Key

/-!
Array indices and their spellings. An index has one spelling, the decimal one without leading
zeros, so a key that is read as an index is the key that spells it, and no two keys have the same
index.
-/
namespace Compound

namespace Decimal

theorem isDigit_bounds {c : Char} (decimal : c.isDigit = true) :
    48 ≤ c.toNat ∧ c.toNat ≤ 57 := by
  simpa [Char.isDigit, UInt32.le_iff_toNat_le] using decimal

theorem digit_of_isDigit {c : Char} (decimal : c.isDigit = true) : digit (c.toNat - 48) = c := by
  rw [digit, Nat.add_sub_cancel' (isDigit_bounds decimal).1, Char.ofNat_toNat]

/-- Only the spelling of zero begins with a zero. -/
theorem spell_zero {n : Nat} {rest : List Char} (zero : spell n = '0' :: rest) : rest = [] := by
  induction n using Nat.strongRecOn generalizing rest with
  | ind n ih =>
    rw [spell] at zero
    split at zero
    · exact (List.cons.inj zero).2.symm
    · rename_i large
      cases front : spell (n / 10) with
      | nil => exact absurd front (spell_ne_nil _)
      | cons c ds =>
        rw [front, List.cons_append, List.cons.injEq] at zero
        obtain ⟨rfl, -⟩ := zero
        have none_left := ih (n / 10) (by omega) front
        subst none_left
        have nothing : n / 10 = 0 := by
          rw [← value_spell (n / 10), front]
          rfl
        omega

/-- Digits without a leading zero are the spelling of what they spell. -/
theorem spell_value {cs : List Char} (some_digit : cs ≠ []) (digits : ∀ c ∈ cs, c.isDigit = true)
    (lead : ∀ rest, cs = '0' :: rest → rest = []) : spell (value cs) = cs := by
  induction cs using List.reverseRecOn with
  | nil => exact absurd rfl some_digit
  | append_singleton ds c ih =>
    have decimal : c.isDigit = true := digits c (by simp)
    have bounds := isDigit_bounds decimal
    have small : c.toNat - 48 < 10 := by omega
    rw [value_append_singleton]
    cases ds with
    | nil =>
      have single : 10 * value [] + (c.toNat - 48) = c.toNat - 48 := by simp [value]
      rw [single, spell, if_pos small, digit_of_isDigit decimal]
      rfl
    | cons d ds =>
      have nonzero : d ≠ '0' := by
        rintro rfl
        simpa using lead _ rfl
      have front : spell (value (d :: ds)) = d :: ds :=
        ih (List.cons_ne_nil d ds) (fun x inside => digits x (List.mem_append_left _ inside))
          fun rest zero => absurd (List.cons.inj zero).1 nonzero
      have positive : value (d :: ds) ≠ 0 := by
        intro zero
        rw [zero, spell] at front
        exact nonzero (List.cons.inj front).1.symm
      have large : ¬10 * value (d :: ds) + (c.toNat - 48) < 10 := by omega
      have quotient : (10 * value (d :: ds) + (c.toNat - 48)) / 10 = value (d :: ds) := by omega
      have remainder : (10 * value (d :: ds) + (c.toNat - 48)) % 10 = c.toNat - 48 := by omega
      rw [spell, if_neg large, quotient, remainder, front, digit_of_isDigit decimal]

theorem digit_eq_digitChar : ∀ d < 10, digit d = Nat.digitChar d := by decide

theorem spell_eq_toDigits (n : Nat) : spell n = Nat.toDigits 10 n := by
  induction n using Nat.strongRecOn with
  | ind n ih =>
    rw [spell]
    split
    · rename_i small
      rw [Nat.toDigits_of_lt_base small, digit_eq_digitChar n small]
    · rename_i large
      rw [Nat.toDigits_of_base_le (by decide) (Nat.le_of_not_lt large), ih (n / 10) (by omega),
        digit_eq_digitChar (n % 10) (Nat.mod_lt n (by decide))]

theorem text_eq_toString (n : Nat) : text n = toString n := by
  rw [text, spell_eq_toDigits, Nat.toString_eq_repr, Nat.repr_eq_ofList_toDigits]

end Decimal

namespace Key

/-- What is read as an index is its spelling, and the spellings of the indices are read. -/
theorem readIndex_eq_some {cs : List Char} {n : Nat} :
    readIndex cs = some n ↔ n ≤ maxIndex ∧ cs = Decimal.spell n := by
  constructor
  · intro read
    cases cs with
    | nil => cases read
    | cons c rest =>
      simp only [readIndex] at read
      split at read
      · cases read
      · rename_i canonical
        split at read
        · rename_i small
          cases read
          simp only [Bool.or_eq_true, Bool.and_eq_true, beq_iff_eq, Bool.not_eq_true',
            not_or, not_and, Bool.not_eq_false, List.isEmpty_iff, List.all_eq_true] at canonical
          refine ⟨small, (Decimal.spell_value (List.cons_ne_nil c rest) canonical.2 ?_).symm⟩
          rintro tail same
          cases same
          exact canonical.1 rfl
        · cases read
  · rintro ⟨small, rfl⟩
    have digits : (Decimal.spell n).all Char.isDigit = true :=
      List.all_eq_true.2 fun c inside => Decimal.isDigit_of_mem_spell inside
    have valued := Decimal.value_spell n
    cases spelled : Decimal.spell n with
    | nil => exact absurd spelled (Decimal.spell_ne_nil n)
    | cons c rest =>
      rw [spelled] at digits valued
      have lead : (c == '0' && !rest.isEmpty) = false := by
        by_cases zero : c = '0'
        · subst zero
          rw [Decimal.spell_zero spelled]
          rfl
        · simp [zero]
      simp only [readIndex, lead, digits, valued, Bool.not_true, Bool.or_self,
        Bool.false_eq_true, if_false, if_pos small]

/-- A key has an index exactly if it spells that index. -/
theorem arrayIndex_eq_some {k : Key} {n : Nat} :
    k.arrayIndex = some n ↔ n ≤ maxIndex ∧ k = ofNat n := by
  cases k with
  | symbol x => simp [arrayIndex, ofNat]
  | name s =>
    have spelled : s.toList = Decimal.spell n ↔ s = Decimal.text n := by
      rw [Decimal.text, ← String.toList_inj, String.toList_ofList]
    rw [arrayIndex, readIndex_eq_some, ofNat, name.injEq, spelled]

/-- Different keys have different indices. -/
theorem arrayIndex_injective {a b : Key} {n : Nat} (first : a.arrayIndex = some n)
    (second : b.arrayIndex = some n) : a = b :=
  (arrayIndex_eq_some.1 first).2.trans (arrayIndex_eq_some.1 second).2.symm

theorem ofNat_injective : Function.Injective ofNat := by
  intro m n same
  have spelled : String.ofList (Decimal.spell m) = String.ofList (Decimal.spell n) :=
    name.inj same
  exact Decimal.spell_injective (String.ofList_injective spelled)

theorem arrayIndex_ofNat (n : Nat) :
    (ofNat n).arrayIndex = if n ≤ maxIndex then some n else none := by
  split
  · rename_i small
    exact arrayIndex_eq_some.2 ⟨small, rfl⟩
  · rename_i large
    rw [Option.eq_none_iff_forall_ne_some]
    intro m index
    obtain ⟨small, same⟩ := arrayIndex_eq_some.1 index
    cases ofNat_injective same
    exact large small

/-- A name has an index exactly if it is the decimal text of that index, which is at most
`2 ^ 32 - 2`; a symbol has none. So the key of a natural has that natural for its index, or none if
it is too great, different naturals have different keys, and different keys have different
indices. -/
theorem arrayIndex_exact :
    (∀ s n, (name s).arrayIndex = some n ↔ n ≤ Nat.pow 2 32 - 2 ∧ s = toString n) ∧
    (∀ x, (symbol x).arrayIndex = none) ∧
    (∀ n, ofNat n = name (toString n) ∧
      (ofNat n).arrayIndex = if n ≤ Nat.pow 2 32 - 2 then some n else none) ∧
    (∀ m n, ofNat m = ofNat n ↔ m = n) ∧
    ∀ (a b : Key) n, a.arrayIndex = some n → b.arrayIndex = some n → a = b := by
  have spelled : ∀ n, ofNat n = name (toString n) := fun n => by
    rw [ofNat, Decimal.text_eq_toString]
  refine ⟨fun s n => ?_, fun x => rfl, fun n => ⟨spelled n, arrayIndex_ofNat n⟩,
    fun m n => ofNat_injective.eq_iff, fun a b n => arrayIndex_injective⟩
  rw [arrayIndex_eq_some, spelled, name.injEq]
  rfl

/-- The greatest index and the natural behind it, and names that look like the index one. -/
theorem arrayIndex_exact_lookalikes :
    (name "4294967294").arrayIndex = some 4294967294 ∧ (ofNat 4294967295).arrayIndex = none ∧
      ofNat 4294967295 = name "4294967295" ∧
      (∀ s ∈ ["01", "+1", "1 ", "1.0", "\u0661", "100000000000000000000000000000001"],
        (name s).arrayIndex ≠ some 1) ∧
      name "1" = ofNat 1 := by
  obtain ⟨exactly, -, made, -, apart⟩ := arrayIndex_exact
  have greatest := (exactly "4294967294" 4294967294).2 (by decide +kernel)
  have one := (exactly "1" 1).2 (by decide +kernel)
  obtain ⟨spelled, behind⟩ := made 4294967295
  refine ⟨greatest, behind, spelled, fun s listed index => ?_, apart _ _ 1 one (made 1).2⟩
  have text := ((exactly s 1).1 index).2
  subst text
  revert listed
  decide +kernel

end Key

end Compound
