import Compound.Number.Basic

/-!
Rounding of exact ratios to numbers: the nearest number wins, a tie goes to the even
significand, and what is too large becomes an infinity. Integers, products and quotients
are rounded this way, each once.
-/
namespace Compound.Number

/-- The natural nearest to `num / den`, the even one of two. -/
def nearest (num den : Nat) : Nat :=
  let below := num / den
  let rest := num % den
  if 2 * rest < den then below
  else if den < 2 * rest then below + 1
  else below + below % 2

/-- The ratio `num / den` divided by `2 ^ e`. -/
def shifted (num den : Nat) (e : Int) : Nat × Nat :=
  if 0 ≤ e then (num, den * Nat.pow 2 e.toNat) else (num * Nat.pow 2 (-e).toNat, den)

/-- The scale at which a positive ratio has a significand of fifty-three bits, but never
below the scale of the least numbers. -/
def scaleOf (num den : Nat) : Int :=
  let e : Int := (num.log2 : Int) - (den.log2 : Int) - 52
  let s := shifted num den e
  max (if s.1 < Nat.pow 2 52 * s.2 then e - 1 else e) (-1074)

/-- The number nearest to `num / den`, for a positive denominator. A carry out of the
significand steps the exponent, because both share one magnitude. -/
def ofRatio (negative : Bool) (num den : Nat) : Number :=
  if num = 0 then pack negative 0
  else
    let e := scaleOf num den
    let s := shifted num den e
    pack negative (min ((e + 1074).toNat * Nat.pow 2 52 + nearest s.1 s.2) infinity)

def ofNat (n : Nat) : Number := ofRatio false n 1

def ofInt (i : Int) : Number := ofRatio (decide (i < 0)) i.natAbs 1

/-- A finite number as a ratio, up to its sign. -/
def ratio (n : Number) : Nat × Nat :=
  if 0 ≤ n.scale then (n.significand * Nat.pow 2 n.scale.toNat, 1)
  else (n.significand, Nat.pow 2 (-n.scale).toNat)

/-- The product of two finite numbers. -/
def mul (a b : Number) : Number :=
  ofRatio (a.negative != b.negative) (a.ratio.1 * b.ratio.1) (a.ratio.2 * b.ratio.2)

/-- The quotient of two finite numbers, the second not zero. -/
def div (a b : Number) : Number :=
  ofRatio (a.negative != b.negative) (a.ratio.1 * b.ratio.2) (a.ratio.2 * b.ratio.1)

/-- The number nearest to a power of ten. -/
def powerOfTen (n : Nat) : Number := ofRatio false (Nat.pow 10 n) 1

end Compound.Number
