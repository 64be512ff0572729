import Compound.Host.Basic

/-!
The life of registries: opening one on a host that provides what it needs, closing one,
and reclaiming the entries of objects that have died.
-/
namespace Compound.Host

/-- Refuse a host that lacks a primitive. -/
def require (w : Host) (caps : Capabilities) : Outcome Unit × Host :=
  match caps.missing with
  | [] => (.ok (), w.tell .primitivesPresent)
  | missing => (.error (.primitivesMissing missing), w.tell (.primitivesMissing missing))

/-- Open a registry on a host that has all it needs. -/
def openRegistry (w : Host) (config : Config) : Outcome RegistryId × Host :=
  match w.require config.capabilities with
  | (.error e, w) => (.error e, w)
  | (.ok _, w) =>
    let w := w.tell (.creating config.autoReclaim)
    (.ok w.nextRegistry,
      { w with
        registries := w.registries.put w.nextRegistry (.new config)
        nextRegistry := w.nextRegistry + 1 })

/-- Close a registry: the values of its boxes are let go. -/
def closeRegistry (w : Host) (r : RegistryId) : Host :=
  match w.registry? r with
  | none => w
  | some reg => { w with registries := w.registries.erase r }.release reg.pairing.values.values

/-- Remove the entries of all queued objects, and tell how many there were. The values of
the boxes are let go when the tables are in order again, so what dies of that joins the
emptied queue. -/
def reclaim (w : Host) (r : RegistryId) : Nat × Host :=
  match w.registry? r with
  | none => (0, w)
  | some reg =>
    if reg.queue.isEmpty then (0, w)
    else
      let w := w.modifyRegistry r fun _ => reg.drained
      (reg.removed, (w.release reg.released).tell (.reclaimed reg.removed reg.queue.length))

/-- Reclaim if the registry does so before registrations. -/
def autoReclaim (w : Host) (r : RegistryId) : Host :=
  match w.registry? r with
  | some reg => if reg.config.autoReclaim then (w.reclaim r).2 else w
  | none => w

/-- Have the death of an object queued in a registry. -/
def watch (w : Host) (r : RegistryId) (id : ObjectId) : Host := w.addFinalizer id (.watch r)

/-- All that a reclaim can do: nothing, for want of a registry or of anybody in its queue, or
everything at once. -/
theorem reclaim_cases (w : Host) (r : RegistryId) :
    (w.reclaim r = (0, w) ∧ ∀ reg, w.registry? r = some reg → reg.queue = []) ∨
      ∃ reg, w.registry? r = some reg ∧ reg.queue ≠ [] ∧
        w.reclaim r = (reg.removed, ((w.modifyRegistry r fun _ => reg.drained).release
          reg.released).tell (.reclaimed reg.removed reg.queue.length)) := by
  rw [reclaim]
  cases found : w.registry? r with
  | none => exact .inl ⟨rfl, nofun⟩
  | some reg =>
    by_cases empty : reg.queue = []
    · refine .inl ⟨by simp [empty], ?_⟩
      rintro _ ⟨⟩
      exact empty
    · exact .inr ⟨reg, rfl, empty, by simp [empty]⟩

end Compound.Host
