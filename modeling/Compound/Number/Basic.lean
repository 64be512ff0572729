/-!
Numbers are 64-bit binary floating point values, held as their bits: a sign, an
exponent field of eleven bits and a fraction of fifty-two. Equality of numbers is
not equality of bits: a NaN equals nothing and the two zeros are equal.
-/
namespace Compound

/-- A number is its bit pattern. -/
structure Number where
  bits : UInt64
  deriving DecidableEq, Repr

namespace Number

/-- The magnitude of an infinity; everything above it is a NaN. -/
def infinity : Nat := 2047 * Nat.pow 2 52

def negative (n : Number) : Bool := decide (Nat.pow 2 63 ≤ n.bits.toNat)

/-- The bits below the sign. They order the non-negative numbers. -/
def magnitude (n : Number) : Nat := n.bits.toNat % Nat.pow 2 63

def exponentField (n : Number) : Nat := n.magnitude / Nat.pow 2 52

def fraction (n : Number) : Nat := n.magnitude % Nat.pow 2 52

def isNaN (n : Number) : Bool := decide (infinity < n.magnitude)

def isInfinite (n : Number) : Bool := n.magnitude == infinity

def isFinite (n : Number) : Bool := decide (n.magnitude < infinity)

def isZero (n : Number) : Bool := n.magnitude == 0

/-- Put a sign before a magnitude. -/
def pack (negative : Bool) (magnitude : Nat) : Number :=
  ⟨UInt64.ofNat ((if negative then Nat.pow 2 63 else 0) + magnitude)⟩

def zero : Number := ⟨0⟩

/-- A finite number is `significand * 2 ^ scale`, up to its sign. -/
def significand (n : Number) : Nat :=
  if n.exponentField = 0 then n.fraction else Nat.pow 2 52 + n.fraction

def scale (n : Number) : Int :=
  if n.exponentField = 0 then -1074 else (n.exponentField : Int) - 1075

/-- Numeric equality: no NaN equals anything, and the two zeros are equal. -/
def equal (a b : Number) : Bool :=
  !a.isNaN && !b.isNaN && (a.bits == b.bits || (a.isZero && b.isZero))

/-- Twice a number. The exponent steps by one, below the normal range the fraction
shifts, and what leaves the finite range becomes an infinity. -/
def double (n : Number) : Number :=
  if n.isFinite then
    pack n.negative
      (min (if n.exponentField = 0 then 2 * n.magnitude else n.magnitude + Nat.pow 2 52) infinity)
  else n

theorem equal_self (a : Number) : a.equal a = !a.isNaN := by
  cases h : a.isNaN <;> simp [equal, h]

theorem equal_comm (a b : Number) : a.equal b = b.equal a := by
  have hb : (a.bits == b.bits) = (b.bits == a.bits) := by
    rw [Bool.eq_iff_iff, beq_iff_eq, beq_iff_eq]
    exact eq_comm
  simp only [equal, hb]
  cases a.isNaN <;> cases b.isNaN <;> cases a.isZero <;> cases b.isZero <;> simp

theorem isZero_of_bits {a b : Number} (h : a.bits = b.bits) : a.isZero = b.isZero := by
  simp [isZero, magnitude, h]

theorem equal_trans {a b c : Number} (hab : a.equal b = true) (hbc : b.equal c = true) :
    a.equal c = true := by
  simp only [equal, Bool.and_eq_true, Bool.or_eq_true, beq_iff_eq, Bool.not_eq_true'] at *
  obtain ⟨⟨ha, _⟩, hab⟩ := hab
  obtain ⟨⟨_, hc⟩, hbc⟩ := hbc
  refine ⟨⟨ha, hc⟩, ?_⟩
  rcases hab with hab | hab <;> rcases hbc with hbc | hbc
  · exact Or.inl (hab.trans hbc)
  · exact Or.inr ⟨(isZero_of_bits hab).trans hbc.1, hbc.2⟩
  · exact Or.inr ⟨hab.1, (isZero_of_bits hbc).symm.trans hab.2⟩
  · exact Or.inr ⟨hab.1, hbc.2⟩

end Number

end Compound
