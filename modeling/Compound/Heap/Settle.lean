import Compound.Heap.Basic

/-!
Releasing references. An object whose last reference goes dies at once: its finalizers
run in order, each letting go what it held before the next one runs, then its slots go,
oldest first, and then its function body. Whatever dies on the way does the same in
full before anything else happens. The dues that are still open form a stack, and the
open dues together with those of the living objects become fewer with every step, so
the cascade ends on every heap. Cycles do not die.
-/
namespace Compound

/-- Something that remains to be done in a cascade. -/
inductive Due where
  /-- Let go one reference to an object. -/
  | release (id : ObjectId)
  /-- Run a finalizer that logs. -/
  | note (label : String) (id : ObjectId)
  /-- Run a finalizer that queues. -/
  | queue (registry : RegistryId) (id : ObjectId)
  deriving DecidableEq, Repr

/-- Something that has happened in a cascade. -/
inductive Effect where
  | died (id : ObjectId)
  | noted (label : String) (id : ObjectId)
  | queued (registry : RegistryId) (id : ObjectId)
  deriving DecidableEq, Repr

/-- What a finalizer leaves to be done when its object dies. -/
def Finalizer.dues (id : ObjectId) : Finalizer → List Due
  | note label held => .note label id :: held.toList.map .release
  | watch registry => [.queue registry id]

/-- What the death of an object leaves to be done. -/
def Object.dues (id : ObjectId) (o : Object) : List Due :=
  o.finalizers.flatMap (Finalizer.dues id)
    ++ (o.slots.values.flatMap Slot.references ++ o.bodyReferences).map .release

namespace Heap

/-- The number of dues of some objects. -/
def duesCount : List (ObjectId × Object) → Nat
  | [] => 0
  | (id, o) :: rest => (o.dues id).length + duesCount rest

/-- The number of dues of all living objects. -/
def weight (h : Heap) : Nat := duesCount h.live.entries

/-- Let go one of several references. -/
def unref (h : Heap) (id : ObjectId) : Heap :=
  h.modify id fun o => { o with refs := o.refs - 1 }

theorem duesCount_without {l : List (ObjectId × Object)} {id : ObjectId} {o : Object}
    (found : Table.find id l = some o) :
    duesCount (Table.without id l) + (o.dues id).length = duesCount l := by
  induction l with
  | nil => simp [Table.find] at found
  | cons p rest ih =>
    obtain ⟨j, u⟩ := p
    by_cases hj : j = id
    · simp only [Table.find, if_pos hj, Option.some.injEq] at found
      subst hj found
      simp only [Table.without, if_pos, duesCount]
      omega
    · simp only [Table.find, if_neg hj] at found
      have := ih found
      simp only [Table.without, if_neg hj, duesCount]
      omega

theorem duesCount_change (f : Object → Object) (same : ∀ i o, (f o).dues i = o.dues i)
    (id : ObjectId) (l : List (ObjectId × Object)) :
    duesCount (Table.change id f l) = duesCount l := by
  induction l with
  | nil => rfl
  | cons p rest ih =>
    obtain ⟨j, u⟩ := p
    by_cases hj : j = id
    · simp only [Table.change, if_pos hj, duesCount, same]
    · simp only [Table.change, if_neg hj, duesCount, ih]

theorem weight_erase {h : Heap} {id : ObjectId} {o : Object} (found : h.get? id = some o) :
    (h.erase id).weight + (o.dues id).length = h.weight :=
  duesCount_without found

@[simp] theorem weight_unref (h : Heap) (id : ObjectId) : (h.unref id).weight = h.weight :=
  duesCount_change (fun o => { o with refs := o.refs - 1 }) (fun _ _ => rfl) id h.live.entries

/-- Work off the open dues, the first one first, and tell what happened. -/
def settle (h : Heap) (dues : List Due) : Heap × List Effect :=
  match dues with
  | [] => (h, [])
  | .note label id :: rest =>
    let (h', effects) := settle h rest
    (h', .noted label id :: effects)
  | .queue registry id :: rest =>
    let (h', effects) := settle h rest
    (h', .queued registry id :: effects)
  | .release id :: rest =>
    match _found : h.get? id with
    | none => settle h rest
    | some o =>
      if o.refs ≤ 1 then
        let (h', effects) := settle (h.erase id) (o.dues id ++ rest)
        (h', .died id :: effects)
      else settle (h.unref id) rest
termination_by dues.length + h.weight
decreasing_by
  all_goals simp only [List.length_cons, List.length_append, weight_unref]
  · omega
  · omega
  · omega
  · have := weight_erase _found
    omega
  · omega

/-- Let go references one after the other. -/
def release (h : Heap) (ids : List ObjectId) : Heap × List Effect :=
  h.settle (ids.map .release)

end Heap

end Compound
