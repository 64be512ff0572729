import Compound.Registry.Pairing

/-!
Registries. A registry keeps tags and boxes beside the objects, keyed by identity, and
a queue of the watched objects that have died since it was last drained.
-/
namespace Compound

structure Registry where
  config : Config
  tags : Table ObjectId Tag
  pairing : Pairing
  queue : List ObjectId
  deriving DecidableEq

namespace Registry

def new (config : Config) : Registry := ⟨config, .empty, .empty, []⟩

def enqueue (r : Registry) (id : ObjectId) : Registry := { r with queue := r.queue ++ [id] }

/-- The values of the boxes that wait in the queue. -/
def released (r : Registry) : List ObjectId := (r.pairing.removeAll r.queue).1

/-- How many entries there are of objects that wait in the queue: tags and boxes. -/
def removed (r : Registry) : Nat := (r.tags.eraseAll r.queue).1 + r.released.length

/-- The registry after everything in its queue has been taken out. -/
def drained (r : Registry) : Registry :=
  { r with
    tags := (r.tags.eraseAll r.queue).2
    pairing := (r.pairing.removeAll r.queue).2
    queue := [] }

/-- How much a registry holds. -/
structure Sizes where
  records : Nat
  tuples : Nat
  boxes : Nat
  pending : Nat
  deriving DecidableEq, Repr

def sizes (r : Registry) : Sizes where
  records := (r.tags.values.filter fun t => !t.isTuple).length
  tuples := (r.tags.values.filter Tag.isTuple).length
  boxes := r.pairing.size
  pending := r.queue.length

/-- The tag of a value. Primitives have none. -/
def tagOf (r : Registry) (v : Value) : Option Tag := v.identity.bind r.tags.get?

def isRecord (r : Registry) (v : Value) : Bool := r.tagOf v == some .record

def isTuple (r : Registry) (v : Value) : Bool := (r.tagOf v).any Tag.isTuple

def tupleLength (r : Registry) (v : Value) : Option Nat := (r.tagOf v).bind Tag.length?

def isTagged (r : Registry) (v : Value) : Bool := (r.tagOf v).isSome

def isBox (r : Registry) (v : Value) : Bool := v.identity.any r.pairing.hasBox

theorem isRecord_iff {r : Registry} {v : Value} :
    r.isRecord v = true ↔ r.tagOf v = some .record := by
  rw [isRecord, beq_iff_eq]

theorem tupleLength_eq_some {r : Registry} {v : Value} {n : Nat} :
    r.tupleLength v = some n ↔ r.tagOf v = some (.tuple n) := by
  rw [tupleLength, Option.bind_eq_some_iff]
  refine ⟨?_, fun tagged => ⟨.tuple n, tagged, rfl⟩⟩
  rintro ⟨t, tagged, length⟩
  cases t with
  | record => cases length
  | tuple m =>
    cases length
    exact tagged

theorem isTagged_eq_false {r : Registry} {v : Value} :
    r.isTagged v = false ↔ r.tagOf v = none :=
  Option.isSome_eq_false_iff.trans Option.isNone_iff_eq_none

end Registry

end Compound
