import Compound.Number.Basic

/-!
Values. All but objects are primitives, which are compared by what they hold; an object
is compared by its identity, so a value holds only the identity. Symbols have an
identity of their own: two symbols with one description are still different.
-/
namespace Compound

/-- The identity of an object: objects are numbered from 1 as they are created. -/
abbrev ObjectId := Nat

/-- A symbol is known by its serial number. The description belongs to the serial. -/
structure Symbol where
  serial : Nat
  description : Option String
  deriving DecidableEq, Repr

/-- The symbol under which an object keeps the function that makes it iterable. -/
def Symbol.iterator : Symbol := ⟨0, some "Symbol.iterator"⟩

/-- The text of a symbol. A missing description reads like an empty one. -/
def Symbol.describe (s : Symbol) : String := "Symbol(" ++ s.description.getD "" ++ ")"

inductive Value where
  | undefined
  | null
  | bool (b : Bool)
  | number (n : Number)
  | bigint (i : Int)
  | string (s : String)
  | symbol (s : Symbol)
  | object (id : ObjectId)
  deriving DecidableEq, Repr

namespace Value

instance : Inhabited Value := ⟨undefined⟩

/-- Strict equality: different kinds are never equal, numbers compare as numbers, all
else by content or identity. -/
def equal : Value → Value → Bool
  | undefined, undefined => true
  | null, null => true
  | bool a, bool b => a == b
  | number a, number b => a.equal b
  | bigint a, bigint b => a == b
  | string a, string b => a == b
  | symbol a, symbol b => a == b
  | object a, object b => a == b
  | _, _ => false

def isUndefined : Value → Bool
  | undefined => true
  | _ => false

/-- The identity of an object; primitives have none. -/
def identity : Value → Option ObjectId
  | object id => some id
  | _ => none

def isPrimitive (v : Value) : Bool := v.identity.isNone

def asNumber : Value → Option Number
  | number n => some n
  | _ => none

def asString : Value → Option String
  | string s => some s
  | _ => none

/-- The objects that a stored value keeps alive. -/
def references (v : Value) : List ObjectId := v.identity.toList

@[simp] theorem identity_object (id : ObjectId) : (object id).identity = some id := rfl

theorem identity_eq_some {v : Value} {id : ObjectId} (h : v.identity = some id) :
    v = object id := by
  cases v <;> simp [identity] at h
  rw [h]

/-- Only a NaN differs from itself. -/
theorem equal_self (v : Value) : v.equal v = !(v.asNumber.any Number.isNaN) := by
  cases v <;> simp [equal, asNumber, Number.equal_self]

theorem equal_comm (a b : Value) : a.equal b = b.equal a := by
  cases a <;> cases b <;> simp only [equal, Number.equal_comm, BEq.comm]

theorem equal_trans {a b c : Value} (hab : a.equal b = true) (hbc : b.equal c = true) :
    a.equal c = true := by
  cases a <;> cases b <;> simp only [equal, Bool.false_eq_true] at hab <;>
    cases c <;> simp only [equal, Bool.false_eq_true] at hbc
  case number.number.number => exact Number.equal_trans hab hbc
  all_goals simp_all [equal]

end Value

end Compound
