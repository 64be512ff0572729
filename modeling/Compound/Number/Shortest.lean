import Compound.Decimal
import Compound.Number.Rounding

/-!
Shortest decimals. Of the decimals that read back as a given finite number, `shortest`
takes one with the fewest digits, and of those the nearest to the number. Two may be
equally near; the format that asks for digits says which of them it wants.
-/
namespace Compound.Number

/-- The decimal `coefficient * 10 ^ exponent`. -/
structure Scaled where
  coefficient : Nat
  exponent : Int
  deriving DecidableEq, Repr

/-- Which of two equally near decimals is taken. -/
inductive Tie where
  | up | even
  deriving DecidableEq, Repr

/-- Compare `a * 10 ^ i` with `b * 2 ^ j`. -/
def compareScaled (a : Nat) (i : Int) (b : Nat) (j : Int) : Ordering :=
  compare (a * Nat.pow 10 i.toNat * Nat.pow 2 (-j).toNat) (b * Nat.pow 2 j.toNat * Nat.pow 10 (-i).toNat)

/-- The number just below is nearer than the number just above. This is so at the least
significand of each normal exponent but the first. -/
def narrowBelow (n : Number) : Bool := n.fraction == 0 && decide (1 < n.exponentField)

/-- A decimal reads back as the positive finite number `n`: it lies between the two
midpoints beside `n`, and a midpoint itself reads back as the even neighbour. -/
def readsBack (n : Number) (d : Scaled) : Bool :=
  let low := 4 * n.significand - (if n.narrowBelow then 1 else 2)
  let high := 4 * n.significand + 2
  let even := n.significand % 2 == 0
  let atLow := compareScaled d.coefficient d.exponent low (n.scale - 2)
  let atHigh := compareScaled d.coefficient d.exponent high (n.scale - 2)
  (atLow == .gt || (even && atLow == .eq)) && (atHigh == .lt || (even && atHigh == .eq))

/-- The least `k` with `num / den < 10 ^ k`, for a positive ratio. -/
def decimalPoint (num den : Nat) : Int :=
  if den ≤ num then ((Decimal.spell (num / den)).length : Int)
  else 1 - ((Decimal.spell ((den - 1) / num)).length : Int)

/-- The decimal of a number on the grid of step `10 ^ p` that reads back, if there is one.
Only the two grid points beside the number can be nearest. -/
def onGrid (n : Number) (tie : Tie) (p : Int) : Option Scaled :=
  let r := n.ratio
  let below := if 0 ≤ p then r.1 / (r.2 * Nat.pow 10 p.toNat) else r.1 * Nat.pow 10 (-p).toNat / r.2
  let low : Scaled := ⟨below, p⟩
  let high : Scaled := ⟨below + 1, p⟩
  match n.readsBack low, n.readsBack high with
  | false, false => none
  | true, false => some low
  | false, true => some high
  | true, true =>
    match compareScaled (2 * below + 1) p (2 * n.significand) n.scale with
    | .gt => some low
    | .lt => some high
    | .eq =>
      match tie with
      | .up => some high
      | .even => some (if below % 2 = 0 then low else high)

/-- Move trailing zeros of the coefficient into the exponent. -/
def Scaled.trim (d : Scaled) : Scaled :=
  if 0 < d.coefficient ∧ d.coefficient % 10 = 0 then
    trim ⟨d.coefficient / 10, d.exponent + 1⟩
  else d
termination_by d.coefficient
decreasing_by omega

/-- All digits of a finite number. -/
def exactDecimal (n : Number) : Scaled :=
  if 0 ≤ n.scale then ⟨n.significand * Nat.pow 2 n.scale.toNat, 0⟩
  else ⟨n.significand * Nat.pow 5 (-n.scale).toNat, n.scale⟩

/-- The shortest decimal of a positive finite number. Seventeen digits suffice for every
number, so the grids of one to seventeen digits are tried. -/
def shortest (n : Number) (tie : Tie) : Scaled :=
  let k := decimalPoint n.ratio.1 n.ratio.2
  let found := (List.range 17).findSome? fun (i : Nat) => n.onGrid tie (k - 1 - (i : Int))
  (found.getD n.exactDecimal).trim

end Compound.Number
