import Compound.Host.Property

/-!
Calls, and the reading and assigning that may call. Reading an accessor runs its getter,
and assigning to one runs its setter; the function is held for as long as it runs. A
body is run by recursion on the body, given what it means to call; calls themselves are
nested at most `maxDepth` deep.
-/
namespace Compound.Host

/-- Calling a function with a receiver and arguments. -/
abbrev Caller := ObjectId → Value → List Value → Host → Outcome Value × Host

/-- Run a getter, held while it runs. -/
def runGetter (call : Caller) (getter id : ObjectId) (w : Host) : Outcome Value × Host :=
  let (result, w) := call getter (.object id) [] (w.retain [getter])
  (result, w.release [getter])

/-- Read a property. One that is missing, or has no getter, reads as undefined. -/
def readWith (call : Caller) (id : ObjectId) (k : Key) (w : Host) : Outcome Value × Host :=
  match w.slot? id k with
  | some (.data v _ _ _) => (.ok v, w.retain v.references)
  | some (.accessor (some getter) _ _ _) => runGetter call getter id w
  | some (.accessor none _ _ _) => (.ok .undefined, w)
  | none => (.ok .undefined, w)

/-- Run a setter, held while it runs, and drop what it returns. -/
def runSetter (call : Caller) (setter id : ObjectId) (v : Value) (w : Host) :
    Outcome Bool × Host :=
  match call setter (.object id) [v] (w.retain [setter]) with
  | (.error e, w) => (.error e, w.release [setter])
  | (.ok result, w) => (.ok true, w.release (result.references ++ [setter]))

/-- Assign to a property. The answer is whether the assignment was accepted; a slot that
may not be written, an accessor without setter, and a new key of an object that may
not grow refuse it. -/
def assignWith (call : Caller) (id : ObjectId) (k : Key) (v : Value) (w : Host) :
    Outcome Bool × Host :=
  match w.slot? id k with
  | some (.data _ writable e c) =>
    if writable then (.ok true, w.writeSlot id k (.data v true e c)) else (.ok false, w)
  | some (.accessor _ (some setter) _ _) => runSetter call setter id v w
  | some (.accessor _ none _ _) => (.ok false, w)
  | none =>
    if w.isExtensible id then (.ok true, w.writeSlot id k (.plain v)) else (.ok false, w)

/-- Why a body cannot go on with a primitive receiver. -/
def receiverFailure : Failure := .thrown "receiver is not an object"

/-- An argument; missing ones are undefined. -/
def argumentAt (args : List Value) (i : Nat) : Value := args.getD i .undefined

/-- Twice the number that was read; what is no number counts as zero. -/
def doubled (v : Value) : Value := .number (v.asNumber.getD .zero).double

/-- Run a body. -/
def run (call : Caller) (this : Value) (args : List Value) : Body → Host → Outcome Value × Host
  | .receiver, w => (.ok this, w.retain this.references)
  | .argumentCount, w => (.ok (.number (.ofNat args.length)), w)
  | .equalsReceiver, w => (.ok (.bool (args.head?.any (·.equal this))), w)
  | .count counter, w =>
    let (n, w) := w.tick counter
    (.ok (.number (.ofNat n)), w)
  | .freeze, w =>
    match this.identity with
    | none => (.error receiverFailure, w)
    | some id => (.ok .undefined, w.freeze id)
  | .create, w =>
    let (id, w) := w.create none
    (.ok (.object id), w)
  | .give v, w => (.ok v, w.retain v.references)
  | .fail message, w => (.error (.thrown message), w)
  | .argument i, w =>
    let v := argumentAt args i
    (.ok v, w.retain v.references)
  | .read k, w =>
    match this.identity with
    | none => (.error receiverFailure, w)
    | some id => readWith call id k w
  | .assign k i, w =>
    match this.identity with
    | none => (.error receiverFailure, w)
    | some id =>
      let (result, w) := assignWith call id k (argumentAt args i) w
      (result.map .bool, w)
  | .define k v, w =>
    match this.identity with
    | none => (.error receiverFailure, w)
    | some id =>
      let (result, w) := w.defineSlot id k (.plain v)
      (result.map fun _ => .undefined, w)
  | .call target, w => call target this args w
  | .double k, w =>
    match this.identity with
    | none => (.error receiverFailure, w)
    | some id =>
      match readWith call id k w with
      | (.error e, w) => (.error e, w)
      | (.ok v, w) => (.ok (doubled v), w.release v.references)
  | .note event, w => (.ok .undefined, w.log event)
  | .load name, w => (.ok (w.cell name), w.retain (w.cell name).references)
  | .store name, w => (.ok .undefined, w.store name (argumentAt args 0))
  | .followedBy first second, w =>
    match run call this args first w with
    | (.error e, w) => (.error e, w)
    | (.ok v, w) =>
      let (result, w) := run call this args second w
      (result, w.release v.references)

/-- How deep calls may be nested. Functions know no such bound. It is set here so that every call
comes back, also that of a function which calls itself without end, and the laws of calls hold
of every depth. -/
def maxDepth : Nat := 10000

/-- Call an object, with a limit on how deep calls are nested inside this one. -/
def invoke : Nat → Caller
  | 0 => fun _ _ _ w => (.error .tooDeep, w)
  | depth + 1 => fun f this args w =>
    match w.function? f with
    | none => (.error .notCallable, w)
    | some function => run (invoke depth) this (function.visible args) function.body w

def call (w : Host) (f : ObjectId) (this : Value) (args : List Value) : Outcome Value × Host :=
  invoke maxDepth f this args w

def read (w : Host) (id : ObjectId) (k : Key) : Outcome Value × Host :=
  readWith (invoke maxDepth) id k w

def assign (w : Host) (id : ObjectId) (k : Key) (v : Value) : Outcome Bool × Host :=
  assignWith (invoke maxDepth) id k v w

/-- Whether an object has a callable iterator. A getter is run to find out. -/
def isIterable (w : Host) (id : ObjectId) : Bool × Host :=
  match w.read id (.symbol .iterator) with
  | (.error _, w) => (false, w)
  | (.ok v, w) => (v.identity.any w.isCallable, w.release v.references)

/-- Whether a value is an iterable object and no function. -/
def isIterableObject (w : Host) (v : Value) : Bool × Host :=
  match v.identity with
  | none => (false, w)
  | some id => if w.isCallable id then (false, w) else w.isIterable id

end Compound.Host
