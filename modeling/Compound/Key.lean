import Compound.Decimal
import Compound.Text.Quoted
import Compound.Value

/-!
Property keys and their order. A key is a name or a symbol. A name that spells an array
index in its only canonical way counts as that index, and indices come first, in
ascending order, wherever the keys of an object are listed.
-/
namespace Compound

inductive Key where
  | name (s : String)
  | symbol (s : Symbol)
  deriving DecidableEq, Repr

namespace Key

/-- The greatest array index. -/
def maxIndex : Nat := Nat.pow 2 32 - 2

/-- The index that a spelling stands for: decimal digits without a leading zero. -/
def readIndex (cs : List Char) : Option Nat :=
  match cs with
  | [] => none
  | c :: rest =>
    if (c == '0' && !rest.isEmpty) || !(c :: rest).all Char.isDigit then none
    else if Decimal.value (c :: rest) ≤ maxIndex then some (Decimal.value (c :: rest))
    else none

def arrayIndex : Key → Option Nat
  | name s => readIndex s.toList
  | symbol _ => none

/-- The key that spells a natural. -/
def ofNat (n : Nat) : Key := name (Decimal.text n)

def isSymbol : Key → Bool
  | symbol _ => true
  | name _ => false

def asString : Key → Option String
  | name s => some s
  | symbol _ => none

/-- A key inside a sentence: a name stands as it is, a symbol in square brackets. -/
def display : Key → String
  | name s => s
  | symbol s => "[" ++ s.describe ++ "]"

/-- A key on its own: a name is quoted. -/
def describe : Key → String
  | name s => Text.quoted s
  | symbol s => s.describe

/-- Names that are not array indices. -/
def isPlainName (k : Key) : Bool := k.arrayIndex.isNone && !k.isSymbol

/-- The keys that are array indices, each behind its index. -/
def indexed (keys : List Key) : List (Nat × Key) :=
  keys.filterMap fun k => k.arrayIndex.map (·, k)

/-- The keys that are array indices, each behind its index, the least index first. -/
def byIndex (keys : List Key) : List (Nat × Key) :=
  (indexed keys).mergeSort fun a b => a.1 ≤ b.1

/-- Keys in the order in which an object lists them: array indices ascending, then the
other names and then the symbols, both as they came. -/
def ordered (keys : List Key) : List Key :=
  (byIndex keys).map Prod.snd ++ keys.filter isPlainName ++ keys.filter isSymbol

end Key

end Compound
