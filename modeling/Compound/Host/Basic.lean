import Compound.Heap.Settle
import Compound.Registry.Basic
import Compound.Registry.Notice

/-!
The host: a heap with everything around it that refers to objects or hears of their
deaths. Operations on the host borrow their arguments, which the caller keeps alive,
and hand out results with a reference of their own, which the caller lets go. Storing
an object takes a reference and overwriting it lets that reference go.
-/
namespace Compound

structure Host where
  heap : Heap
  /-- Named variables that functions share. One that was never written is undefined. -/
  cells : Table String Value
  /-- How often each counting part of a function has run. -/
  counters : List Nat
  registries : Table RegistryId Registry
  nextRegistry : RegistryId
  /-- What finalizers and functions have logged, oldest first. -/
  events : List String
  /-- What registries have told, oldest first. -/
  notices : List Notice
  deriving DecidableEq

namespace Host

/-- The host before anything has happened. -/
def empty : Host := ⟨.empty, .empty, [], .empty, 0, [], []⟩

instance : Inhabited Host := ⟨empty⟩

def object? (w : Host) (id : ObjectId) : Option Object := w.heap.get? id

def isAlive (w : Host) (id : ObjectId) : Bool := w.heap.isAlive id

def function? (w : Host) (id : ObjectId) : Option Function := (w.object? id).bind Object.function

def isCallable (w : Host) (id : ObjectId) : Bool := (w.function? id).isSome

def registry? (w : Host) (r : RegistryId) : Option Registry := w.registries.get? r

def cell (w : Host) (name : String) : Value := (w.cells.get? name).getD .undefined

def log (w : Host) (event : String) : Host := { w with events := w.events ++ [event] }

def tell (w : Host) (n : Notice) : Host := { w with notices := w.notices ++ [n] }

/-- Forget what was logged and told so far. -/
def quiet (w : Host) : Host := { w with events := [], notices := [] }

/-- Change an object. -/
def modify (w : Host) (id : ObjectId) (f : Object → Object) : Host :=
  { w with heap := w.heap.modify id f }

/-- Change a registry. -/
def modifyRegistry (w : Host) (r : RegistryId) (f : Registry → Registry) : Host :=
  { w with registries := w.registries.modify r f }

/-- Take a reference to each of some objects. -/
def retain (w : Host) (ids : List ObjectId) : Host := { w with heap := w.heap.retain ids }

/-- Hear of something that happened in a cascade of deaths. The queue of a registry that
is gone hears nothing. -/
def hear (w : Host) : Effect → Host
  | .died _ => w
  | .noted label id => w.log (label ++ idText id)
  | .queued r id => w.modifyRegistry r (·.enqueue id)

/-- Let go a reference to each of some objects, one after the other. -/
def release (w : Host) (ids : List ObjectId) : Host :=
  let (heap, effects) := w.heap.release ids
  effects.foldl hear { w with heap := heap }

/-- A new object, with a reference for the caller. -/
def create (w : Host) (function : Option Function) : ObjectId × Host :=
  let (id, heap) := (w.retain (Object.new function).bodyReferences).heap.create (.new function)
  (id, { w with heap := heap })

/-- A finalizer for an object. Finalizers run in the order in which they were added. -/
def addFinalizer (w : Host) (id : ObjectId) (f : Finalizer) : Host :=
  (w.retain f.references).modify id fun o => { o with finalizers := o.finalizers ++ [f] }

/-- Put a value into a cell. -/
def store (w : Host) (name : String) (v : Value) : Host :=
  let old := w.cell name
  let w := w.retain v.references
  { w with cells := w.cells.put name v }.release old.references

/-- The next number of a counter. -/
def tick (w : Host) (counter : Nat) : Nat × Host :=
  let n := w.counters.getD counter 0 + 1
  (n, { w with counters := w.counters.set counter n })

/-- What a value is called in error texts. -/
def kindOf (w : Host) : Value → Kind
  | .undefined => .undefined
  | .null => .null
  | .bool _ => .boolean
  | .number _ => .number
  | .bigint _ => .bigint
  | .string _ => .string
  | .symbol _ => .symbol
  | .object id => if w.isCallable id then .function else .object

/-- The text of a value. -/
def describe (w : Host) : Value → String
  | .undefined => "undefined"
  | .null => "null"
  | .bool b => if b then "true" else "false"
  | .number n => n.text
  | .bigint i => Decimal.intText i ++ "n"
  | .string s => Text.quoted s
  | .symbol s => s.describe
  | .object id =>
    match w.function? id with
    | some f => "[Function " ++ f.name ++ " " ++ idText id ++ "]"
    | none => "[object " ++ idText id ++ "]"

end Host

end Compound
