import Compound.Number.Shortest

/-!
The text of numbers. `text` is the text of a value: always positional, without a point
in whole numbers. `pointedText` is the text in configuration errors: a whole number
keeps `.0`, and far from the point the decimal is written with a signed exponent.
-/
namespace Compound.Number

/-- Digits without an exponent. -/
def Scaled.positional (d : Scaled) : List Char :=
  let digits := Decimal.spell d.coefficient
  if 0 ≤ d.exponent then digits ++ List.replicate d.exponent.toNat '0'
  else
    let places := (-d.exponent).toNat
    if places < digits.length then
      digits.take (digits.length - places) ++ '.' :: digits.drop (digits.length - places)
    else '0' :: '.' :: (List.replicate (places - digits.length) '0' ++ digits)

/-- An exponent behind its letter, with its sign: `e+16`, `e-7`. -/
def exponentText (e : Int) : List Char :=
  'e' :: (if e < 0 then '-' else '+') :: Decimal.spell e.natAbs

/-- One digit before the point, the others behind it, then the exponent. -/
def Scaled.scientific (d : Scaled) : List Char :=
  let digits := Decimal.spell d.coefficient
  let exponent := exponentText (d.exponent + (digits.length : Int) - 1)
  match digits with
  | [] => []
  | [c] => c :: exponent
  | c :: rest => c :: '.' :: (rest ++ exponent)

/-- A minus sign before negative numbers, negative zero included. -/
def signed (n : Number) (digits : List Char) : String :=
  String.ofList (if n.negative then '-' :: digits else digits)

/-- The text of a number as a value: of two shortest decimals equally near the larger. -/
def text (n : Number) : String :=
  if n.isNaN then "NaN"
  else if n.isInfinite then n.signed "Infinity".toList
  else if n.isZero then n.signed ['0']
  else n.signed (n.shortest .up).positional

/-- The text of a finite number in which it can be told from an integer: positional, with
a point, from five zeros behind the point up to sixteen digits before it. -/
def pointedText (n : Number) : String :=
  if n.isZero then n.signed "0.0".toList
  else
    let d := n.shortest .even
    let point := d.exponent + ((Decimal.spell d.coefficient).length : Int)
    if -5 < point ∧ point ≤ 16 then
      n.signed (if 0 ≤ d.exponent then d.positional ++ ['.', '0'] else d.positional)
    else n.signed d.scientific

end Compound.Number
