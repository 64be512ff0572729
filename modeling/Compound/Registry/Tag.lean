import Compound.Decimal

/-!
Tags make objects Records or Tuples, and classes say what a value is for whoever wants to
embed it in one of them.
-/
namespace Compound

inductive Tag where
  | record
  | tuple (length : Nat)
  deriving DecidableEq, Repr

namespace Tag

def display : Tag → String
  | record => "Record"
  | tuple length => "Tuple(length " ++ Decimal.text length ++ ")"

def isTuple : Tag → Bool
  | tuple _ => true
  | record => false

/-- The recorded length of a Tuple. -/
def length? : Tag → Option Nat
  | tuple length => some length
  | record => none

end Tag

/-- What a value is for a Record or Tuple that would embed it. -/
inductive Class where
  /-- No identity. -/
  | primitive
  | record
  | tuple (length : Nat)
  /-- A registered box. -/
  | box
  /-- A callable object. -/
  | function
  /-- Any other object. -/
  | object
  deriving DecidableEq, Repr

namespace Class

/-- Values of this class may be embedded. -/
def isEmbeddable : Class → Bool
  | function | object => false
  | primitive | record | tuple _ | box => true

def describe : Class → String
  | primitive => "Primitive"
  | record => "Record"
  | tuple length => "Tuple \x7b length: " ++ Decimal.text length ++ " \x7d"
  | box => "Box"
  | function => "Function"
  | object => "Object"

end Class

end Compound
