import Mathlib.Order.Monotone.Basic
import Compound.Proofs.Runs

/-!
Equality of values. On numbers it is equality of what their bits stand for, whatever the bits are;
on all other values it is identity or content. So it is no more than a partial equivalence, for a
NaN differs from itself, but whatever is said of values by their kind or by a registry is the same
of equal values.
-/
namespace Compound

namespace Number

/-- How many times a magnitude is the least positive number: below the normal range the fraction,
from there on a significand that each step of the exponent doubles. -/
def unitsOf (m : Nat) : Nat :=
  let exponent := m / Nat.pow 2 52
  let fraction := m % Nat.pow 2 52
  if exponent = 0 then fraction else (Nat.pow 2 52 + fraction) * Nat.pow 2 (exponent - 1)

/-- What a number stands for, in units of the least positive number. An infinity counts as the
power of two after the finite numbers. -/
def units (n : Number) : Int :=
  let size := n.significand * Nat.pow 2 (n.scale + 1074).toNat
  if n.negative then -size else size

theorem unitsOf_lt_succ (m : Nat) : unitsOf m < unitsOf (m + 1) := by
  simp only [unitsOf, Nat.pow_eq]
  have bound := Nat.mod_lt m (Nat.two_pow_pos 52)
  by_cases carry : m % 2 ^ 52 + 1 = 2 ^ 52
  · have exponent : (m + 1) / 2 ^ 52 = m / 2 ^ 52 + 1 := by omega
    have fraction : (m + 1) % 2 ^ 52 = 0 := by omega
    rw [exponent, fraction, if_neg (Nat.succ_ne_zero _)]
    split_ifs with subnormal
    · rw [subnormal]
      omega
    · -- The greatest significand of an exponent is just below twice the least one.
      have step : 2 ^ (m / 2 ^ 52 + 1 - 1) = 2 * 2 ^ (m / 2 ^ 52 - 1) := by
        rw [← Nat.pow_succ']
        congr 1
        omega
      rw [step, ← Nat.mul_assoc]
      exact Nat.mul_lt_mul_of_pos_right (by omega) (Nat.two_pow_pos _)
  · have exponent : (m + 1) / 2 ^ 52 = m / 2 ^ 52 := by omega
    have fraction : (m + 1) % 2 ^ 52 = m % 2 ^ 52 + 1 := by omega
    rw [exponent, fraction]
    split_ifs
    · exact Nat.lt_succ_self _
    · exact Nat.mul_lt_mul_of_pos_right (by omega) (Nat.two_pow_pos _)

/-- The greater magnitude stands for more. -/
theorem unitsOf_strictMono : StrictMono unitsOf := strictMono_nat_of_lt_succ unitsOf_lt_succ

theorem units_eq (n : Number) :
    n.units = if n.negative then -(unitsOf n.magnitude : Int) else unitsOf n.magnitude := by
  have size : n.significand * Nat.pow 2 (n.scale + 1074).toNat = unitsOf n.magnitude := by
    have exponent : n.exponentField = n.magnitude / Nat.pow 2 52 := rfl
    have fraction : n.fraction = n.magnitude % Nat.pow 2 52 := rfl
    simp only [significand, scale, unitsOf, ← exponent, ← fraction]
    split_ifs with subnormal
    · simp
    · have scaled : ((n.exponentField : Int) - 1075 + 1074).toNat = n.exponentField - 1 := by omega
      rw [scaled]
  rw [units, size]

/-- A number is its sign and its magnitude. -/
theorem ext_of_parts {a b : Number} (sign : a.negative = b.negative)
    (magnitude : a.magnitude = b.magnitude) : a = b := by
  have bound := a.bits.toNat_lt
  have bound' := b.bits.toNat_lt
  simp only [negative, Number.magnitude, Nat.pow_eq, decide_eq_decide] at sign magnitude
  obtain ⟨bits⟩ := a
  obtain ⟨bits'⟩ := b
  congr 1
  apply UInt64.toNat_inj.1
  simp only at *
  omega

/-- Two bit patterns stand for the same if they are the same or the two zeros. -/
theorem units_eq_iff {a b : Number} :
    a.units = b.units ↔ a = b ∨ (a.magnitude = 0 ∧ b.magnitude = 0) := by
  have injective : ∀ {m n : Nat}, unitsOf m = unitsOf n → m = n :=
    fun same => unitsOf_strictMono.injective same
  have zero : unitsOf 0 = 0 := rfl
  constructor
  · intro same
    rw [units_eq, units_eq] at same
    by_cases sign : a.negative = b.negative
    · refine .inl (ext_of_parts sign (injective ?_))
      rw [sign] at same
      split_ifs at same <;> omega
    · -- Of two numbers with different signs none stands for more than nothing.
      have nothing : unitsOf a.magnitude = 0 ∧ unitsOf b.magnitude = 0 := by
        cases first : a.negative <;> cases second : b.negative <;>
          simp [first, second] at sign same <;> omega
      exact .inr ⟨injective nothing.1, injective nothing.2⟩
  · rintro (rfl | ⟨empty, empty'⟩)
    · rfl
    · rw [units_eq, units_eq, empty, empty', zero]
      simp

/-- A NaN has the greatest exponent and some fraction. -/
theorem isNaN_iff {n : Number} :
    n.isNaN = true ↔ n.exponentField = 2047 ∧ n.fraction ≠ 0 := by
  have bound : n.magnitude < 2 ^ 63 := Nat.mod_lt _ (Nat.two_pow_pos 63)
  rw [isNaN, decide_eq_true_iff]
  simp only [infinity, exponentField, fraction, Nat.pow_eq]
  omega

/-- Numbers are equal if neither is a NaN and they stand for the same. -/
theorem equal_iff {a b : Number} :
    a.equal b = true ↔ a.isNaN = false ∧ b.isNaN = false ∧ a.units = b.units := by
  have bits : a.bits = b.bits ↔ a = b := by
    cases a
    cases b
    simp
  rw [units_eq_iff, equal]
  simp [isZero, bits, and_assoc]

end Number

namespace Value

/-- Equal values are two numbers that are equal as numbers, or the same value. -/
theorem equal_iff {a b : Value} : a.equal b = true ↔
    (∃ m n, a = .number m ∧ b = .number n ∧ m.equal n = true) ∨ (a = b ∧ a.asNumber = none) := by
  cases a <;> cases b <;> simp [equal, asNumber]

theorem identity_of_equal {a b : Value} (same : a.equal b = true) : a.identity = b.identity := by
  rcases equal_iff.1 same with ⟨m, n, rfl, rfl, -⟩ | ⟨rfl, -⟩ <;> rfl

/-- A value is equal to itself unless it is a NaN. -/
theorem equal_self_iff {a : Value} :
    a.equal a = true ↔ ∀ n, a = .number n → n.isNaN = false := by
  rw [equal_self]
  cases a <;> simp [asNumber]

end Value

/-- Outcomes that give equal values, or the same failure. -/
inductive Outcome.Agree : Outcome Value → Outcome Value → Prop
  | values {v v' : Value} (same : v.equal v' = true) : Agree (.ok v) (.ok v')
  | failures (failure : Failure) : Agree (.error failure) (.error failure)

namespace Host

variable {w : Host} {r : RegistryId} {a b : Value}

theorem kindOf_of_equal (w : Host) (same : a.equal b = true) : w.kindOf a = w.kindOf b := by
  rcases Value.equal_iff.1 same with ⟨m, n, rfl, rfl, -⟩ | ⟨rfl, -⟩ <;> rfl

/-- The class of a value is that of its identity. -/
theorem classOf_congr (same : a.identity = b.identity) : w.classOf r a = w.classOf r b := by
  simp only [classOf, Registry.tagOf, Registry.isBox, same]
  rfl

theorem livingBox_congr (same : a.identity = b.identity) : w.livingBox r a = w.livingBox r b := by
  simp only [livingBox, boxOf?, same]

theorem unbox_congr (same : a.identity = b.identity) : w.unbox r a = w.unbox r b := by
  simp only [unbox, same]

/-- What comes out of a box is equal to itself, for it is an object. -/
theorem agree_unbox (w : Host) (r : RegistryId) (v : Value) :
    Outcome.Agree (w.unbox r v).1 (w.unbox r v).1 := by
  rw [unbox]
  split
  · exact .failures _
  · exact .values (Value.equal_self_iff.2 fun n number => by cases number)

end Host

namespace Session

section Symbols

variable {s : Session} {α : Type}

theorem symbols_after {found : Lookup α} {go : α → Result × Session}
    (same : ∀ a, found = .ok a → (go a).2.symbols = s.symbols) :
    (s.after found go).2.symbols = s.symbols := by
  cases found with
  | error fault => rfl
  | ok a => exact same a rfl

theorem symbols_acting {done : Outcome α × Host} {go : α → Session → Result × Session}
    (same : ∀ a host, (go a { s with host := host }).2.symbols = s.symbols) :
    (s.acting done go).2.symbols = s.symbols := by
  obtain ⟨outcome, host⟩ := done
  cases outcome with
  | error failure => rfl
  | ok a => exact same a host

theorem symbols_hand (s : Session) (keep : Option String) (v : Value) :
    (s.hand keep v).2.symbols = s.symbols := by
  cases keep with
  | none => rfl
  | some name => cases v <;> rfl

theorem symbols_runNative (s : Session) (body : Body) (name : String) (this : Value)
    (args : List Value) : (s.runNative body name this args).2.symbols = s.symbols := by
  rw [runNative]
  split <;> rfl

theorem symbols_body {s' : Session} {d : Draft} {b : Body} (found : s.body d = .ok (b, s')) :
    s'.symbols = s.symbols := by
  obtain ⟨-, counters, rfl⟩ := body_eq_ok found
  rfl

/-- No step but a declaration declares anything. -/
theorem symbols_step (s : Session) (t : Step) :
    (∃ name description, t = .declare name description) ∨ (s.step t).2.symbols = s.symbols := by
  cases t with
  | declare name description => exact .inl ⟨name, description, rfl⟩
  | create keep => exact .inr (symbols_hand _ keep _)
  | function draft name getter keep =>
    refine .inr (symbols_after fun (body, s') found => ?_)
    have made : s'.symbols = s.symbols := symbols_body found
    exact (symbols_hand _ keep _).trans made
  | native draft name this args =>
    refine .inr (symbols_after fun (body, s', this, args) found => ?_)
    obtain ⟨made, -, -⟩ := native_eq_ok.1 found
    exact (symbols_runNative s' body name this args).trans (symbols_body made)
  | recover name keep =>
    refine .inr (symbols_after fun id found => ?_)
    split
    · exact symbols_hand _ keep _
    · rfl
  | livingBox name v keep =>
    refine .inr (symbols_after fun (r, v) found => ?_)
    simp only
    split
    · rfl
    · exact symbols_hand _ keep _
  | openRegistry name config =>
    exact .inr (symbols_after fun config found => symbols_acting fun r host => rfl)
  | createFrom | «alias» => exact .inr (symbols_after fun a found => symbols_hand _ _ _)
  | call | get | validate | box | release | unbox =>
    exact .inr (symbols_after fun a found => symbols_acting fun v host => symbols_hand _ _ _)
  | set | define | install | tagRecord | tagTuple | pair =>
    exact .inr (symbols_after fun a found => symbols_acting fun v host => rfl)
  | _ => exact .inr (symbols_after fun a found => rfl)

/-- Every symbol has the number of the declarations before its own. -/
def Serial (s : Session) : Prop :=
  s.symbols.map (fun d => d.2.serial) = List.range s.symbols.length

theorem Serial.answer (serial : s.Serial) (t : Step) : (s.answer t).2.Serial := by
  have quiet : Serial { s with host := s.host.quiet } := serial
  rcases symbols_step { s with host := s.host.quiet } t with ⟨name, description, rfl⟩ | same
  · let declared : String × Symbol := (name, ⟨s.symbols.length, description⟩)
    show (s.symbols ++ [declared]).map (fun d => d.2.serial) =
      List.range (s.symbols ++ [declared]).length
    rw [List.map_append, List.length_append, serial]
    exact List.range_succ.symm
  · have same' : (s.answer t).2.symbols = s.symbols := same
    rw [Serial, same']
    exact serial

theorem Reachable.serial (reach : s.Reachable) : s.Serial := by
  obtain ⟨reclaiming, ts, rfl⟩ := reach
  induction ts using List.reverseRecOn with
  | nil => cases reclaiming <;> rfl
  | append_singleton ts t ih =>
    rw [run_append]
    exact ih.answer t

/-- Two symbols that were declared are equal if they were declared at once, whatever their
descriptions. -/
theorem equal_symbols_iff (reach : s.Reachable) {d d' : String × Symbol} (declared : d ∈ s.symbols)
    (declared' : d' ∈ s.symbols) :
    (Value.symbol d.2).equal (.symbol d'.2) = true ↔ d = d' := by
  have distinct : (s.symbols.map fun d => d.2.serial).Nodup := by
    rw [reach.serial]
    exact List.nodup_range
  simp only [Value.equal, beq_iff_eq]
  refine ⟨fun same => ?_, congrArg Prod.snd⟩
  exact List.inj_on_of_nodup_map distinct declared declared' (congrArg Symbol.serial same)

end Symbols

/-- What a registry of a session says of two values is the same. -/
structure Alike (s : Session) (r : RegistryId) (a b : Value) : Prop where
  findings : s.findings r a = s.findings r b
  livingBox : s.host.livingBox r a = s.host.livingBox r b
  unbox : Outcome.Agree (s.host.unbox r a).1 (s.host.unbox r b).1
  unboxed : (s.host.unbox r a).2 = (s.host.unbox r b).2

variable {s : Session} {r : RegistryId} {a b : Value}

theorem findings_congr (same : a.identity = b.identity) : s.findings r a = s.findings r b := by
  simp only [findings, Host.classOf_congr same, Registry.isRecord, Registry.isTuple,
    Registry.tupleLength, Registry.isTagged, Registry.tagOf, Registry.isBox, same]

theorem alike_of_equal (s : Session) (r : RegistryId) (same : a.equal b = true) :
    s.Alike r a b := by
  have identity := Value.identity_of_equal same
  refine ⟨findings_congr identity, Host.livingBox_congr identity, ?_,
    congrArg Prod.snd (Host.unbox_congr identity)⟩
  rw [Host.unbox_congr identity]
  exact s.host.agree_unbox r b

/-- Equality of values is a partial equivalence, and a value differs from itself exactly if it is
a NaN: a number with the greatest exponent and some fraction. Numbers are equal if neither is a NaN
and their bits stand for the same, all other values if they are the same; two symbols are so if they
were declared at once. In every session equal values have the same identity and kind, and every
registry says the same of them: the tag, the class, whether they are boxes, which box they have, and
what is in them. -/
theorem equality_respected :
    (∀ a b : Value, a.equal b = true → b.equal a = true) ∧
    (∀ a b c : Value, a.equal b = true → b.equal c = true → a.equal c = true) ∧
    (∀ a : Value, a.equal a = true ↔ ∀ n, a = .number n → n.isNaN = false) ∧
    (∀ n : Number, n.isNaN = true ↔ n.exponentField = 2047 ∧ n.fraction ≠ 0) ∧
    (∀ a b : Value, a.equal b = true ↔
      (∃ m n, a = .number m ∧ b = .number n ∧
        m.isNaN = false ∧ n.isNaN = false ∧ m.units = n.units) ∨
      (a = b ∧ ∀ n, a ≠ .number n)) ∧
    ∀ s : Session, s.Reachable →
      (∀ d ∈ s.symbols, ∀ d' ∈ s.symbols,
        (Value.symbol d.2).equal (.symbol d'.2) = true ↔ d = d') ∧
      ∀ a b : Value, a.equal b = true →
        a.identity = b.identity ∧ s.host.kindOf a = s.host.kindOf b ∧ ∀ r, s.Alike r a b := by
  refine ⟨fun a b same => ?_, fun a b c => Value.equal_trans, fun a => Value.equal_self_iff,
    fun n => Number.isNaN_iff, fun a b => ?_, fun s reach => ⟨fun d declared d' declared' =>
      equal_symbols_iff reach declared declared', fun a b same => ?_⟩⟩
  · rw [Value.equal_comm]
    exact same
  · have other : a.asNumber = none ↔ ∀ n, a ≠ .number n := by
      cases a <;> simp [Value.asNumber]
    simp only [Value.equal_iff, Number.equal_iff, other]
  · exact ⟨Value.identity_of_equal same, s.host.kindOf_of_equal same,
      fun r => s.alike_of_equal r same⟩

/-- The two zeros are equal and the registry cannot tell them apart, a NaN differs from itself, two
symbols of one description differ, and what comes out of a box is equal to itself. -/
theorem equality_respected_zeros :
    let s := (start (some false)).run [.declare "x" (some "t"), .declare "y" (some "t"),
      .create (some "v"), .create (some "b"), .pair "r" "b" (.handle "v")]
    let zero : Value := .number ⟨0⟩
    let negativeZero : Value := .number ⟨0x8000000000000000⟩
    let nan : Value := .number ⟨0x7ff8000000000000⟩
    negativeZero.equal zero = true ∧ zero ≠ negativeZero ∧ s.Alike 0 zero negativeZero ∧
      nan.equal nan = false ∧
      (Value.symbol ⟨1, some "t"⟩).equal (.symbol ⟨2, some "t"⟩) = false ∧
      (s.host.unbox 0 (.object 2)).1 = .ok (.object 1) ∧ s.Alike 0 (.object 2) (.object 2) := by
  intro s zero negativeZero nan
  have reach : s.Reachable := ⟨_, _, rfl⟩
  obtain ⟨symm, -, self, -, -, sessions⟩ := equality_respected
  obtain ⟨symbols, respected⟩ := sessions s reach
  have zeros : zero.equal negativeZero = true := by decide +kernel
  have box : (Value.object 2).equal (.object 2) = true := (self _).2 fun n number => by cases number
  have differs : nan.equal nan = false := by
    rw [← Bool.not_eq_true, self]
    intro real
    exact absurd (real _ rfl) (by decide +kernel)
  have declared := symbols ("x", ⟨1, some "t"⟩) (by decide +kernel) ("y", ⟨2, some "t"⟩)
    (by decide +kernel)
  have apart : (Value.symbol ⟨1, some "t"⟩).equal (.symbol ⟨2, some "t"⟩) = false := by
    rw [← Bool.not_eq_true, declared]
    decide
  exact ⟨symm _ _ zeros, by decide +kernel, (respected _ _ zeros).2.2 0, differs, apart,
    by decide +kernel, (respected _ _ box).2.2 0⟩

end Session

end Compound
