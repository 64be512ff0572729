import Mathlib.Data.List.TakeWhile
import Compound.Proofs.Grammar

/-!
What the reader of configurations accepts between tokens and in a string: blanks are skipped, and a
string is read to its closing quote, with every escape for the character that it stands for.
-/
namespace Compound.Config

section Blanks

theorem isBlank_iff {c : Char} : isBlank c = true ↔ c = ' ' ∨ c = '\t' ∨ c = '\n' ∨ c = '\r' := by
  simp [isBlank, or_assoc]

theorem Blanks.nil : Blanks [] := fun _ inside => absurd inside List.not_mem_nil

theorem Blanks.append {b b' : List Char} (blank : Blanks b) (blank' : Blanks b') :
    Blanks (b ++ b') := fun c inside => (List.mem_append.1 inside).elim (blank c) (blank' c)

theorem skip_append {b : List Char} (blank : Blanks b) (cs : List Char) :
    skip (b ++ cs) = skip cs := by
  induction b with
  | nil => rfl
  | cons c rest ih =>
    have first : isBlank c = true := isBlank_iff.2 (blank c List.mem_cons_self)
    rw [List.cons_append, skip, List.dropWhile_cons, if_pos first]
    exact ih fun d inside => blank d (List.mem_cons_of_mem c inside)

theorem skip_cons {c : Char} (filled : isBlank c = false) (cs : List Char) :
    skip (c :: cs) = c :: cs := by
  rw [skip, List.dropWhile_cons, filled]
  rfl

/-- What is skipped is blank. -/
theorem exists_blanks (cs : List Char) : ∃ b, Blanks b ∧ cs = b ++ skip cs := by
  refine ⟨cs.takeWhile isBlank, fun c inside => ?_, (List.takeWhile_append_dropWhile).symm⟩
  exact isBlank_iff.1 (List.mem_takeWhile_imp inside)

theorem filled_of_skip {c : Char} {cs rest : List Char} (skipped : skip cs = c :: rest) :
    isBlank c = false := by
  have head := List.head?_dropWhile_not isBlank cs
  rw [skip] at skipped
  rw [skipped] at head
  exact head

theorem skip_eq_nil {cs : List Char} : skip cs = [] ↔ Blanks cs := by
  constructor
  · intro skipped
    obtain ⟨b, blank, same⟩ := exists_blanks cs
    rw [skipped, List.append_nil] at same
    exact same ▸ blank
  · intro blank
    have skipped := skip_append blank []
    rwa [List.append_nil] at skipped

theorem skip_blanks {b : List Char} (blank : Blanks b) {c : Char} (filled : isBlank c = false)
    (cs : List Char) : skip (b ++ c :: cs) = c :: cs :=
  (skip_append blank _).trans (skip_cons filled cs)

/-- More blanks may stand before an item. -/
theorem Lead.append {first : Bool} {lead b : List Char} (before : Lead first lead)
    (blank : Blanks b) : Lead first (lead ++ b) := by
  cases before with
  | first blank' => exact .first (blank'.append blank)
  | next blank₁ blank₂ =>
    rw [List.append_assoc, List.cons_append]
    exact .next blank₁ (blank₂.append blank)

end Blanks

section Scalars

/-- Among the small characters a table tells which are digits. -/
theorem hexDigit?_small : ∀ m < 128, ∀ n < 16, hexDigit? (Char.ofNat m) = some n ↔
    Char.ofNat m = Nat.digitChar n ∨ Char.ofNat m = (Nat.digitChar n).toUpper := by
  decide +kernel

theorem digitChar_small : ∀ n < 16, (Nat.digitChar n).toNat < 128 ∧
    (Nat.digitChar n).toUpper.toNat < 128 := by
  decide +kernel

theorem hexDigit?_bounds {c : Char} {n : Nat} (read : hexDigit? c = some n) :
    c.toNat < 128 ∧ n < 16 := by
  have range : ∀ {a b : Char}, a ≤ c ∧ c ≤ b → a.toNat ≤ c.toNat ∧ c.toNat ≤ b.toNat := id
  rw [hexDigit?] at read
  split_ifs at read with digit lower upper
  · have := range digit
    simp only [Char.reduceToNat, Option.some.injEq] at this read
    omega
  · have := range lower
    simp only [Char.reduceToNat, Option.some.injEq] at this read
    omega
  · have := range upper
    simp only [Char.reduceToNat, Option.some.injEq] at this read
    omega

theorem hexDigit?_eq_some {c : Char} {n : Nat} : hexDigit? c = some n ↔ HexDigit c n := by
  constructor
  · intro read
    obtain ⟨small, bound⟩ := hexDigit?_bounds read
    rw [← Char.ofNat_toNat c] at read ⊢
    exact ⟨bound, (hexDigit?_small c.toNat small n bound).1 read⟩
  · rintro ⟨bound, digit⟩
    have small : c.toNat < 128 := by
      obtain ⟨lower, upper⟩ := digitChar_small n bound
      rcases digit with rfl | rfl
      · exact lower
      · exact upper
    rw [← Char.ofNat_toNat c] at digit ⊢
    exact (hexDigit?_small c.toNat small n bound).2 digit

theorem codeUnit?_eq_some {a b c d : Char} {n : Nat} :
    codeUnit? a b c d = some n ↔ CodeUnit [a, b, c, d] n := by
  simp only [codeUnit?, Option.bind_eq_bind, Option.bind_eq_some_iff, hexDigit?_eq_some,
    Option.pure_def, Option.some.injEq]
  constructor
  · rintro ⟨i, first, j, second, k, third, l, fourth, rfl⟩
    exact .mk first second third fourth
  · rintro ⟨first, second, third, fourth⟩
    exact ⟨_, first, _, second, _, third, _, fourth, rfl⟩

theorem readUnit_sound {cs : List Char} {n : Nat} {rest : Rest cs}
    (read : readUnit cs = .ok (n, rest)) : ∃ ds, cs = ds ++ rest.val ∧ CodeUnit ds n := by
  rw [readUnit.eq_def] at read
  split at read
  · rename_i a b c d rest'
    split at read
    · rename_i code
      cases read
      exact ⟨[a, b, c, d], rfl, codeUnit?_eq_some.1 code⟩
    · cases read
  · split at read <;> cases read

theorem readUnit_complete {ds : List Char} {n : Nat} (code : CodeUnit ds n) (rest : List Char) :
    ∃ shorter, readUnit (ds ++ rest) = .ok (n, ⟨rest, shorter⟩) := by
  have code' := code
  obtain ⟨first, second, third, fourth⟩ := code'
  refine ⟨by simp; omega, ?_⟩
  simp only [List.cons_append, List.nil_append, readUnit, codeUnit?_eq_some.2 code]

theorem toNat_ofNat {n : Nat} (valid : n.isValidChar) : (Char.ofNat n).toNat = n := by
  rw [Char.ofNat, dif_pos valid]
  rfl

theorem CodeUnit.lt {ds : List Char} {n : Nat} (code : CodeUnit ds n) : n < 0x10000 := by
  obtain ⟨⟨_, -⟩, ⟨_, -⟩, ⟨_, -⟩, ⟨_, -⟩⟩ := code
  omega

/-- No character is half of a pair of surrogates. -/
theorem not_surrogate (c : Char) : ¬(0xd800 ≤ c.toNat ∧ c.toNat ≤ 0xdfff) := by
  have valid := c.valid
  simp only [UInt32.isValidChar, Nat.isValidChar] at valid
  have same : c.toNat = c.val.toNat := rfl
  omega

theorem readLowSurrogate_sound {high : Nat} (is_high : 0xd800 ≤ high ∧ high ≤ 0xdbff)
    {cs : List Char} {c : Char} {rest : Rest cs} (read : readLowSurrogate high cs = .ok (c, rest)) :
    ∃ es low, cs = '\\' :: 'u' :: (es ++ rest.val) ∧ CodeUnit es low ∧
      (0xdc00 ≤ low ∧ low ≤ 0xdfff) ∧
        c.toNat = (high - 0xd800) * 0x400 + (low - 0xdc00) + 0x10000 := by
  rw [readLowSurrogate.eq_def] at read
  split at read
  · cases read
  · cases read
  · rename_i rest'
    split at read
    · cases read
    · rename_i low rest'' unit
      split_ifs at read with is_low
      simp only [Except.ok.injEq, Prod.mk.injEq] at read
      obtain ⟨rfl, rfl⟩ := read
      obtain ⟨es, same, code⟩ := readUnit_sound unit
      refine ⟨es, low, congrArg ('\\' :: 'u' :: ·) same, code, is_low, toNat_ofNat ?_⟩
      simp only [Nat.isValidChar]
      omega
  · cases read

theorem readLowSurrogate_complete {es : List Char} {high low : Nat} {c : Char}
    (code : CodeUnit es low) (is_low : 0xdc00 ≤ low ∧ low ≤ 0xdfff)
    (is : c.toNat = (high - 0xd800) * 0x400 + (low - 0xdc00) + 0x10000) (rest : List Char) :
    ∃ shorter, readLowSurrogate high ('\\' :: 'u' :: (es ++ rest)) = .ok (c, ⟨rest, shorter⟩) := by
  obtain ⟨shorter, unit⟩ := readUnit_complete code rest
  refine ⟨by simp; omega, ?_⟩
  simp only [readLowSurrogate, unit, if_pos is_low, ← is, Char.ofNat_toNat]

theorem readCodePoint_sound {cs : List Char} {c : Char} {rest : Rest cs}
    (read : readCodePoint cs = .ok (c, rest)) :
    ∃ esc, cs = esc ++ rest.val ∧ Escape ('u' :: esc) c := by
  rw [readCodePoint] at read
  split at read
  · cases read
  · rename_i n rest' unit
    obtain ⟨ds, same, code⟩ := readUnit_sound unit
    split_ifs at read with lone is_high
    · split at read
      · cases read
      · rename_i c' rest'' pair
        cases read
        obtain ⟨es, low, same', code', is_low, is⟩ := readLowSurrogate_sound is_high pair
        refine ⟨ds ++ '\\' :: 'u' :: es, ?_, .pair code code' is_high is_low is⟩
        exact same.trans ((congrArg (ds ++ ·) same').trans (by simp))
    · cases read
      -- Outside the surrogates every number of sixteen bits is that of a character.
      have whole : (Char.ofNat n).toNat = n := by
        have := code.lt
        refine toNat_ofNat ?_
        simp only [Nat.isValidChar]
        omega
      exact ⟨ds, same, .unit (whole.symm ▸ code)⟩

theorem readCodePoint_complete {esc : List Char} {c : Char} (is : Escape ('u' :: esc) c)
    (rest : List Char) : ∃ shorter, readCodePoint (esc ++ rest) = .ok (c, ⟨rest, shorter⟩) := by
  cases is with
  | short known => simp at known
  | unit code =>
    obtain ⟨shorter, unit⟩ := readUnit_complete code rest
    have whole := not_surrogate c
    refine ⟨shorter, ?_⟩
    rw [readCodePoint, unit]
    simp only
    rw [if_neg (by omega), if_neg (by omega), Char.ofNat_toNat]
  | @pair ds es high low _ code code' is_high is_low is =>
    have parts : ds ++ '\\' :: 'u' :: es ++ rest = ds ++ '\\' :: 'u' :: (es ++ rest) := by simp
    obtain ⟨shorter, unit⟩ := readUnit_complete code ('\\' :: 'u' :: (es ++ rest))
    obtain ⟨shorter', pair⟩ := readLowSurrogate_complete code' is_low is rest
    rw [parts]
    refine ⟨Nat.lt_trans shorter' shorter, ?_⟩
    rw [readCodePoint, unit]
    simp only
    rw [if_neg (by omega), if_pos is_high, pair]

theorem readEscape_sound {cs : List Char} {c : Char} {rest : Rest cs}
    (read : readEscape cs = .ok (c, rest)) : ∃ esc, cs = esc ++ rest.val ∧ Escape esc c := by
  rw [readEscape.eq_def] at read
  split at read
  · cases read
  · rename_i first rest'
    simp only at read
    split at read
    case h_9 =>
      split at read
      · cases read
      · rename_i c' rest'' point
        cases read
        obtain ⟨esc, same, is⟩ := readCodePoint_sound point
        exact ⟨'u' :: esc, congrArg ('u' :: ·) same, is⟩
    case h_10 => cases read
    all_goals
      cases read
      exact ⟨[_], rfl, .short (by simp)⟩

theorem readEscape_complete {esc : List Char} {c : Char} (is : Escape esc c) (rest : List Char) :
    ∃ shorter, readEscape (esc ++ rest) = .ok (c, ⟨rest, shorter⟩) := by
  have point : ∀ ds, Escape ('u' :: ds) c →
      ∃ shorter, readEscape ('u' :: (ds ++ rest)) = .ok (c, ⟨rest, shorter⟩) := by
    intro ds is
    obtain ⟨shorter, point⟩ := readCodePoint_complete is rest
    refine ⟨Nat.lt_trans shorter (Nat.lt_succ_self _), ?_⟩
    simp only [readEscape, point]
  cases is with
  | short known =>
    refine ⟨Nat.lt_succ_self _, ?_⟩
    simp only [List.mem_cons, Prod.mk.injEq, List.not_mem_nil, or_false] at known
    rcases known with ⟨rfl, rfl⟩ | ⟨rfl, rfl⟩ | ⟨rfl, rfl⟩ | ⟨rfl, rfl⟩ | ⟨rfl, rfl⟩ | ⟨rfl, rfl⟩ |
      ⟨rfl, rfl⟩ | ⟨rfl, rfl⟩ <;> rfl
  | unit code => exact point _ (.unit code)
  | pair code code' is_high is_low is => exact point _ (.pair code code' is_high is_low is)

/-- A string is read to its closing quote. -/
theorem readString_eq_ok {cs s rest : List Char} :
    readString cs = .ok (s, rest) ↔ ∃ raw, cs = raw ++ '"' :: rest ∧ Spells raw s := by
  constructor
  · intro read
    fun_induction readString cs generalizing s with
    | case1 => cases read
    | case2 rest' =>
      cases read
      exact ⟨[], rfl, .nil⟩
    | case3 => cases read
    | case4 => cases read
    | case5 cs' c rest' escaped s' after read' ih =>
      cases read
      obtain ⟨esc, same, is⟩ := readEscape_sound escaped
      obtain ⟨raw, same', spells⟩ := ih read'
      refine ⟨'\\' :: (esc ++ raw), ?_, .escape is spells⟩
      exact congrArg ('\\' :: ·) (same.trans ((congrArg (esc ++ ·) same').trans (by simp)))
    | case6 => cases read
    | case7 => cases read
    | case8 c cs' unquoted unescaped printable s' after read' ih =>
      cases read
      obtain ⟨raw, same, spells⟩ := ih read'
      exact ⟨c :: raw, congrArg (c :: ·) same,
        .plain unquoted unescaped (Nat.le_of_not_lt printable) spells⟩
  · rintro ⟨raw, rfl, spells⟩
    induction spells with
    | nil => rw [List.nil_append, readString]
    | @plain c raw s unquoted unescaped printable spells ih =>
      rw [List.cons_append, readString, if_neg (Nat.not_lt.2 printable), ih]
      · exact unquoted
      · exact unescaped
    | @escape esc raw s c is spells ih =>
      obtain ⟨shorter, escaped⟩ := readEscape_complete is (raw ++ '"' :: rest)
      rw [List.cons_append, List.append_assoc, readString, escaped]
      simp only [ih]

end Scalars

end Compound.Config
