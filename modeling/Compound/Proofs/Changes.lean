import Compound.Proofs.Moves

/-!
What a move does to one object that survives it. A move writes a slot of the object, freezes
it, forbids it to grow or adds a finalizer, or else it leaves the object alone; the number of
references may be another one in any case. What every change preserves lasts through a run.
-/
namespace Compound

/-- The object that a deed changes in more than the number of references to it. -/
def Deed.changed? : Deed → Option ObjectId
  | write id .. => some id
  | freeze id => some id
  | prevent id => some id
  | finalize id .. => some id
  | tag _ id _ => some id
  | join _ box _ => some box
  | _ => none

/-- What a deed does to an object that survives it: one rule for each kind of change. -/
inductive Object.Change (id : ObjectId) (o : Object) : Deed → Object → Prop
  | elsewhere {d : Deed} {n : Nat} (other : d.changed? ≠ some id) :
      Change id o d { o with refs := n }
  | write {n : Nat} {k : Key} {s : Slot} (permitted : o.Permits k s) :
      Change id o (.write id k s) { o with refs := n, slots := o.slots.put k s }
  | freeze : Change id o (.freeze id) o.freeze
  | prevent : Change id o (.prevent id) { o with extensible := false }
  | finalize {n : Nat} {label : String} {hold : Option ObjectId} :
      Change id o (.finalize id label hold)
        { o with refs := n, finalizers := o.finalizers ++ [.note label hold] }
  | tag {n : Nat} {r : RegistryId} {t : Tag} :
      Change id o (.tag r id t) { o with refs := n, finalizers := o.finalizers ++ [.watch r] }
  | join {n : Nat} {r : RegistryId} {value : ObjectId} :
      Change id o (.join r id value)
        { o with refs := n, finalizers := o.finalizers ++ [.watch r] }

namespace Host

/-- If the object lives in the second host, it is as it was in the first one but for the number
of references to it. -/
def Leaves (w w' : Host) (id : ObjectId) : Prop :=
  ∀ o', w'.object? id = some o' → ∃ o n, w.object? id = some o ∧ o' = { o with refs := n }

namespace Leaves

variable {w w' w'' : Host} {id : ObjectId}

theorem same (same : w'.object? id = w.object? id) : w.Leaves w' id :=
  fun o' found' => ⟨o', o'.refs, same.symm.trans found', rfl⟩

theorem trans (first : w.Leaves w' id) (second : w'.Leaves w'' id) : w.Leaves w'' id := by
  intro o'' found''
  obtain ⟨o', n, found', rfl⟩ := second o'' found''
  obtain ⟨o, m, found, rfl⟩ := first o' found'
  exact ⟨o, n, found, rfl⟩

theorem retain (w : Host) (ids : List ObjectId) (id : ObjectId) : w.Leaves (w.retain ids) id := by
  intro o' found'
  have retained := (Heap.get?_retain w.heap ids id).symm.trans found'
  rw [Option.map_eq_some_iff] at retained
  obtain ⟨o, found, rfl⟩ := retained
  exact ⟨o, _, found, rfl⟩

theorem release (w : Host) (ids : List ObjectId) (id : ObjectId) : w.Leaves (w.release ids) id :=
  fun _ found' => (w.cascade_release ids).survivor found'

theorem modify (w : Host) (f : Object → Object) {j : ObjectId} (ne : id ≠ j) :
    w.Leaves (w.modify j f) id :=
  same (Heap.get?_modify_other w.heap f ne)

theorem writeSlot (w : Host) (k : Key) (s : Slot) {j : ObjectId} (ne : id ≠ j) :
    w.Leaves (w.writeSlot j k s) id :=
  ((retain w _ id).trans (modify _ _ ne)).trans (release _ _ id)

theorem addFinalizer (w : Host) (f : Finalizer) {j : ObjectId} (ne : id ≠ j) :
    w.Leaves (w.addFinalizer j f) id :=
  (retain w _ id).trans (modify _ _ ne)

theorem create (w : Host) (function : Option Function) (old : id < w.heap.next) :
    w.Leaves (w.create function).2 id := by
  have grown := (w.evolves_retain (Object.new function).bodyReferences).next_le
  have old' := Nat.lt_of_lt_of_le old grown
  have created : (w.retain (Object.new function).bodyReferences).Leaves (w.create function).2 id :=
    same (Heap.get?_create_other _ _ (Nat.ne_of_lt old'))
  exact (retain w _ id).trans created

theorem store (w : Host) (cell : String) (v : Value) : w.Leaves (w.store cell v) id :=
  (retain w v.references id).trans (release { w.retain v.references with
    cells := w.cells.put cell v } _ id)

theorem closeRegistry (w : Host) (r : RegistryId) : w.Leaves (w.closeRegistry r) id := by
  rw [Host.closeRegistry]
  cases w.registry? r with
  | none => exact same rfl
  | some reg => exact release { w with registries := w.registries.erase r } _ id

theorem reclaim (w : Host) (r : RegistryId) : w.Leaves (w.reclaim r).2 id := by
  rcases w.reclaim_cases r with ⟨still, -⟩ | ⟨reg, -, -, told⟩
  · rw [still]
    exact same rfl
  · rw [told]
    exact release (w.modifyRegistry r fun _ => reg.drained) _ id

theorem unpair (w : Host) (r : RegistryId) (box : ObjectId) : w.Leaves (w.unpair r box).2 id := by
  rw [Host.unpair]
  split <;> exact same rfl

theorem unwatched_join (w : Host) (r : RegistryId) (box value : ObjectId) (pairs : Pairing)
    (released : Option ObjectId) :
    w.Leaves ((w.enter r box value pairs).release released.toList) id :=
  (retain w [value] id).trans (release (w.enter r box value pairs) _ id)

end Leaves

section Same

variable {w : Host} {id : ObjectId} {o' : Object}

theorem object?_modify_same {f : Object → Object} (found' : (w.modify id f).object? id = some o') :
    ∃ o, w.object? id = some o ∧ o' = f o := by
  have modified := (Heap.get?_modify_same w.heap id f).symm.trans found'
  rw [Option.map_eq_some_iff] at modified
  obtain ⟨o, found, rfl⟩ := modified
  exact ⟨o, found, rfl⟩

/-- What a write leaves of the object that it writes to. -/
theorem object?_writeSlot_same {k : Key} {s : Slot}
    (found' : (w.writeSlot id k s).object? id = some o') :
    ∃ o n, w.object? id = some o ∧ o' = { o with refs := n, slots := o.slots.put k s } := by
  obtain ⟨u, n, written, rfl⟩ := Leaves.release _ _ id o' found'
  obtain ⟨v, retained, rfl⟩ := object?_modify_same written
  obtain ⟨o, m, found, rfl⟩ := Leaves.retain w _ id v retained
  exact ⟨o, n, found, rfl⟩

theorem object?_addFinalizer_same {f : Finalizer}
    (found' : (w.addFinalizer id f).object? id = some o') :
    ∃ o n, w.object? id = some o ∧
      o' = { o with refs := n, finalizers := o.finalizers ++ [f] } := by
  obtain ⟨v, retained, rfl⟩ := object?_modify_same found'
  obtain ⟨o, n, found, rfl⟩ := Leaves.retain w _ id v retained
  exact ⟨o, n, found, rfl⟩

end Same

end Host

namespace Move

variable {d : Deed} {c c' : Client} {id : ObjectId} {o' : Object}

/-- An object that a deed is not done to is left as it is. -/
theorem leaves (m : Move d c c') (old : id < c.host.heap.next) (other : d.changed? ≠ some id) :
    c.host.Leaves c'.host id := by
  have ne : ∀ {j : ObjectId}, d.changed? = some j → id ≠ j := fun is same => other (same ▸ is)
  cases m with
  | retain => exact .retain _ _ id
  | release => exact .release _ _ id
  | create => exact .create _ _ old
  | write => exact .writeSlot _ _ _ (ne rfl)
  | freeze => exact .modify _ _ (ne rfl)
  | prevent => exact .modify _ _ (ne rfl)
  | finalize => exact .addFinalizer _ _ (ne rfl)
  | store => exact .store _ _ _
  | remark => exact .same rfl
  | openRegistry => exact .same rfl
  | closeRegistry => exact .closeRegistry _ _
  | tag => exact .addFinalizer _ _ (ne rfl)
  | join => exact (Host.Leaves.unwatched_join _ _ _ _ _ _).trans (.addFinalizer _ _ (ne rfl))
  | unpair => exact .unpair _ _ _
  | drain => exact .reclaim _ _

/-- All that a move can do to an object that survives it. -/
theorem changes (m : Move d c c') (old : id < c.host.heap.next)
    (found' : c'.host.object? id = some o') :
    ∃ o, c.host.object? id = some o ∧ o.Change id d o' := by
  by_cases changed : d.changed? = some id
  · cases m with
    | @write _ w j k s u found permitted alive =>
      cases changed
      obtain ⟨o, n, found_o, rfl⟩ := Host.object?_writeSlot_same found'
      cases Option.some.inj (found.symm.trans found_o)
      exact ⟨u, found, .write permitted⟩
    | freeze =>
      cases changed
      obtain ⟨o, found, rfl⟩ := Host.object?_modify_same found'
      exact ⟨o, found, .freeze⟩
    | prevent =>
      cases changed
      obtain ⟨o, found, rfl⟩ := Host.object?_modify_same found'
      exact ⟨o, found, .prevent⟩
    | finalize =>
      cases changed
      obtain ⟨o, n, found, rfl⟩ := Host.object?_addFinalizer_same found'
      exact ⟨o, found, .finalize⟩
    | tag =>
      cases changed
      obtain ⟨o, n, found, rfl⟩ := Host.object?_addFinalizer_same found'
      exact ⟨o, found, .tag⟩
    | join =>
      cases changed
      obtain ⟨u, n, unwatched, rfl⟩ := Host.object?_addFinalizer_same found'
      obtain ⟨o, m, found, rfl⟩ := Host.Leaves.unwatched_join _ _ _ _ _ _ u unwatched
      exact ⟨o, found, .join⟩
    | retain | release | create | store | remark | openRegistry | closeRegistry => cases changed
    | unpair | drain => cases changed
  · obtain ⟨o, n, found, rfl⟩ := m.leaves old changed o' found'
    exact ⟨o, found, .elsewhere changed⟩

end Move

/-- What every allowed deed preserves of an object lasts through a run. -/
theorem Moves.lasts {allowed : Deed → Prop} {c c' : Client} {id : ObjectId} {o o' : Object}
    (m : Moves allowed c c') (good : Object → Prop)
    (step : ∀ {d u u'}, allowed d → good u → u.Change id d u' → good u')
    (old : id < c.host.heap.next) (found : c.host.object? id = some o) (start : good o)
    (found' : c'.host.object? id = some o') : good o' := by
  induction m generalizing o' with
  | refl =>
    cases Option.some.inj (found.symm.trans found')
    exact start
  | @tail c₁ c₂ first last ih =>
    obtain ⟨d, ok, move⟩ := last
    have old' := Nat.lt_of_lt_of_le old (Moves.evolves first).next_le
    obtain ⟨u, before, change⟩ := move.changes old' found'
    exact step ok (ih before) change

theorem Slot.frozen_eq_self {s : Slot} (unconfigurable : s.isConfigurable = false)
    (unwritable : s.isWritable = false) : s.frozen = s := by
  cases s with
  | data v writable enumerable configurable =>
    cases unconfigurable
    cases unwritable
    rfl
  | accessor get set enumerable configurable =>
    cases unconfigurable
    rfl

namespace Object

variable {id : ObjectId} {o o' : Object} {d : Deed}

theorem isFrozen_iff (o : Object) :
    o.isFrozen = true ↔ o.extensible = false ∧
      ∀ k s, o.slots.get? k = some s → s.isConfigurable = false ∧ s.isWritable = false := by
  simp only [isFrozen, Bool.and_eq_true, Bool.not_eq_true', List.all_eq_true, Table.mem_values_iff]
  constructor
  · rintro ⟨closed, fixed⟩
    exact ⟨closed, fun k s stored => fixed s ⟨k, stored⟩⟩
  · rintro ⟨closed, fixed⟩
    refine ⟨closed, ?_⟩
    rintro s ⟨k, stored⟩
    exact fixed k s stored

/-- No write to a frozen object is permitted. -/
theorem not_permits_of_frozen (frozen : o.isFrozen = true) (k : Key) (s : Slot) :
    ¬o.Permits k s := by
  obtain ⟨closed, fixed⟩ := o.isFrozen_iff.1 frozen
  intro permitted
  rw [Permits] at permitted
  split at permitted
  · rw [closed] at permitted
    cases permitted
  · rename_i old stored
    obtain ⟨unconfigurable, unwritable⟩ := fixed k old stored
    rcases permitted with configurable | ⟨u, v, enumerable, configurable, rfl, -⟩
    · rw [unconfigurable] at configurable
      cases configurable
    · cases unwritable

/-- Freezing again does nothing. -/
theorem freeze_of_frozen (frozen : o.isFrozen = true) : o.freeze = o := by
  obtain ⟨closed, fixed⟩ := o.isFrozen_iff.1 frozen
  have slots : o.slots.map Slot.frozen = o.slots :=
    o.slots.map_eq_self Slot.frozen fun k s stored =>
      Slot.frozen_eq_self (fixed k s stored).1 (fixed k s stored).2
  rw [freeze, slots, ← closed]

/-- A frozen object keeps its slots and stays frozen, whatever is done to it. -/
theorem Change.frozen (change : o.Change id d o') (frozen : o.isFrozen = true) :
    o'.slots = o.slots ∧ o'.isFrozen = true := by
  cases change with
  | elsewhere | finalize | tag | join => exact ⟨rfl, frozen⟩
  | write permitted => exact absurd permitted (not_permits_of_frozen frozen _ _)
  | freeze =>
    rw [freeze_of_frozen frozen]
    exact ⟨rfl, frozen⟩
  | prevent =>
    have closed := (o.isFrozen_iff.1 frozen).1
    have same : ({ o with extensible := false } : Object) = o := by rw [← closed]
    exact ⟨rfl, same.symm ▸ frozen⟩

end Object

/-- A frozen object keeps its slots through every run that it survives. -/
theorem Moves.frozen_lasts {allowed : Deed → Prop} {c c' : Client} {id : ObjectId} {o o' : Object}
    (m : Moves allowed c c') (s : c.Sound) (found : c.host.object? id = some o)
    (frozen : o.isFrozen = true) (found' : c'.host.object? id = some o') :
    o'.slots = o.slots ∧ o'.isFrozen = true := by
  refine m.lasts (fun u => u.slots = o.slots ∧ u.isFrozen = true) (fun _ start change => ?_)
    (s.accounted.bounded id o found) found ⟨rfl, frozen⟩ found'
  obtain ⟨slots, still⟩ := change.frozen start.2
  exact ⟨slots.trans start.1, still⟩

end Compound
