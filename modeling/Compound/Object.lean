import Compound.Function
import Compound.Slot
import Compound.Table

/-!
Objects: a table of own property slots, whether it may still grow, an optional function,
the finalizers that wait for the object's death, and the number of strong references to
it. The number is kept explicitly; what it counts is stated elsewhere.
-/
namespace Compound

/-- The identity of a registry. -/
abbrev RegistryId := Nat

/-- What happens once when an object dies. -/
inductive Finalizer where
  /-- Put the label into the log; a held object is released right after. -/
  | note (label : String) (held : Option ObjectId)
  /-- Queue the dying object for reclamation in a registry. -/
  | watch (registry : RegistryId)
  deriving DecidableEq, Repr

/-- The objects that a waiting finalizer keeps alive. -/
def Finalizer.references : Finalizer → List ObjectId
  | note _ held => held.toList
  | watch _ => []

structure Object where
  refs : Nat
  slots : Table Key Slot
  extensible : Bool
  function : Option Function
  finalizers : List Finalizer
  deriving DecidableEq

namespace Object

/-- A new object: one reference, no property, extensible. -/
def new (function : Option Function) : Object := ⟨1, .empty, true, function, []⟩

/-- No property may be added, redefined or assigned. -/
def isFrozen (o : Object) : Bool :=
  !o.extensible && o.slots.values.all fun s => !s.isConfigurable && !s.isWritable

/-- Forbid new properties, and freeze every slot. -/
def freeze (o : Object) : Object :=
  { o with slots := o.slots.map Slot.frozen, extensible := false }

/-- Own keys in listing order. -/
def ownKeys (o : Object) : List Key := Key.ordered o.slots.keys

/-- Enumerable names in listing order. -/
def enumerableNames (o : Object) : List Key :=
  Key.ordered
    ((o.slots.entries.filter fun p => !p.1.isSymbol && p.2.isEnumerable).map Prod.fst)

/-- The objects that the function body keeps alive. -/
def bodyReferences (o : Object) : List ObjectId :=
  match o.function with
  | none => []
  | some f => f.body.references

/-- The objects that an object keeps alive, in the order in which its death lets them go:
those of the finalizers, of the slots from the oldest on, and of the function body. -/
def references (o : Object) : List ObjectId :=
  o.finalizers.flatMap Finalizer.references ++ o.slots.values.flatMap Slot.references
    ++ o.bodyReferences

end Object

end Compound
