import Compound.Key

/-!
Functions and their bodies. A body is a small program over its receiver and its
arguments. What a body captures, values and functions to call, it keeps alive.
-/
namespace Compound

/-- What a function does when it is called. -/
inductive Body where
  /-- The receiver. -/
  | receiver
  /-- How many arguments there are. -/
  | argumentCount
  /-- Whether the first argument equals the receiver. -/
  | equalsReceiver
  /-- One more than at the last run of this part. -/
  | count (counter : Nat)
  /-- Freeze the receiver. -/
  | freeze
  /-- A new object. -/
  | create
  /-- A captured value. -/
  | give (v : Value)
  /-- Fail with a message. -/
  | fail (message : String)
  /-- An argument, undefined if there are fewer. -/
  | argument (i : Nat)
  /-- Read a property of the receiver. -/
  | read (k : Key)
  /-- Assign an argument to a property of the receiver. -/
  | assign (k : Key) (i : Nat)
  /-- Define a plain property of the receiver with a captured value. -/
  | define (k : Key) (v : Value)
  /-- Call a captured object with the same receiver and arguments. -/
  | call (target : ObjectId)
  /-- Twice a numeric property of the receiver. -/
  | double (k : Key)
  /-- Put an event into the log. -/
  | note (event : String)
  /-- The value of a cell. -/
  | load (cell : String)
  /-- Put the first argument into a cell. -/
  | store (cell : String)
  /-- Two parts in order. The first result stays alive until the second part is over. -/
  | followedBy (first second : Body)
  deriving DecidableEq, Repr

namespace Body

/-- The objects that a body keeps alive, in the order of its parts. -/
def references : Body → List ObjectId
  | give v => v.references
  | define _ v => v.references
  | call target => [target]
  | followedBy first second => first.references ++ second.references
  | _ => []

end Body

/-- A body with the name that error texts and listings show. -/
structure Function where
  name : String
  /-- A getter is run without the arguments of the call. -/
  ignoresArguments : Bool
  body : Body
  deriving DecidableEq, Repr

/-- The arguments that the body of a function gets to see. -/
def Function.visible (f : Function) (args : List Value) : List Value :=
  if f.ignoresArguments then [] else args

end Compound
