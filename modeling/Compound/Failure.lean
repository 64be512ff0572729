import Compound.Config.Basic
import Compound.Config.ReadError
import Compound.Key
import Compound.Registry.Tag

/-!
Failures of the operations on objects and registries, told apart by cause and worded in
one place.
-/
namespace Compound

/-- The kinds of value that error texts name. -/
inductive Kind where
  | undefined | null | boolean | number | bigint | string | symbol | function | object
  deriving DecidableEq, Repr

def Kind.name : Kind → String
  | undefined => "undefined"
  | null => "null"
  | boolean => "boolean"
  | number => "number"
  | bigint => "bigint"
  | string => "string"
  | symbol => "symbol"
  | function => "function"
  | object => "object"

/-- Ways in which an association of a box with a value is not one-to-one. -/
inductive Unpairable where
  /-- The box holds another value. -/
  | boxTaken
  /-- The value has another box. -/
  | valueTaken
  /-- The value has no identity. -/
  | noIdentity
  /-- The value is the box. -/
  | itself
  deriving DecidableEq, Repr

def Unpairable.message : Unpairable → String
  | boxTaken => "box already wraps another value"
  | valueTaken => "value already has a canonical box"
  | noIdentity => "primitive values have no identity to preserve"
  | itself => "an object cannot box itself"

/-- Why an object refuses a definition. -/
inductive Refusal where
  | notConfigurable
  | notExtensible
  deriving DecidableEq, Repr

def Refusal.message : Refusal → String
  | notConfigurable => "property is not configurable"
  | notExtensible => "object is not extensible"

inductive Failure where
  | primitivesMissing (missing : List Capability)
  | objectMember (kind : Kind)
  | functionMember
  | notBox
  | taggedOtherwise (existing requested : Tag)
  | unpairable (conflict : Unpairable)
  | definitionRefused (key : Key) (refusal : Refusal)
  /-- An object that is no function was called. -/
  | notCallable
  /-- A function failed on its own account. -/
  | thrown (message : String)
  | config (error : Config.ReadError)
  /-- Calls are nested deeper than the bound that is set to them. No operation has this failure of
  its own, nor its text: it stands for a call that does not come back. -/
  | tooDeep
  deriving DecidableEq, Repr

def Failure.message : Failure → String
  | primitivesMissing missing =>
    "WeakMap, WeakRef, and FinalizationRegistry are required for record-tuple (missing: "
      ++ ", ".intercalate (missing.map Capability.name) ++ ")"
  | objectMember kind =>
    "TypeError: cannot use an object as a value in a record (got " ++ kind.name ++ ")"
  | functionMember => "TypeError: cannot use a function as a value in a record"
  | notBox => "unboxBox: invalid argument"
  | taggedOtherwise existing requested =>
    "object is already tagged as " ++ existing.display ++ ", cannot re-tag as "
      ++ requested.display
  | unpairable conflict => "cannot register box: " ++ conflict.message
  | definitionRefused key refusal =>
    "cannot define property " ++ key.display ++ ": " ++ refusal.message
  | notCallable => "TypeError: object is not a function"
  | thrown message => "uncaught exception: " ++ message
  | config error => "invalid runtime configuration: " ++ error.message
  | tooDeep => "uncaught exception: calls are nested too deeply"

/-- What an operation gives: a result or a failure. -/
abbrev Outcome (α : Type) := Except Failure α

end Compound
