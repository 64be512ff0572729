import Compound.Host.Property
import Compound.Host.Registries
import Compound.Proofs.Cascade

/-!
How the objects of a host change while its registries look on. Numbers are never given
out twice, so an object that lives below the old next number lived before, with the same
function and with at least the finalizers that it had. Registries change in nothing but
their queues: they hear of those objects that they watched and that died.
-/
namespace Compound

namespace Heap

/-- What every operation keeps of a heap, whatever it does to slots and references. -/
structure Evolves (h h' : Heap) : Prop where
  next_le : h.next ≤ h'.next
  survivor : ∀ id o', id < h.next → h'.get? id = some o' →
    ∃ o, h.get? id = some o ∧ o'.function = o.function ∧ o.finalizers <+: o'.finalizers

namespace Evolves

variable {h h' h'' : Heap}

theorem refl (h : Heap) : h.Evolves h :=
  ⟨Nat.le_refl _, fun _ o' _ found => ⟨o', found, rfl, List.prefix_rfl⟩⟩

theorem trans (e : h.Evolves h') (e' : h'.Evolves h'') : h.Evolves h'' := by
  refine ⟨Nat.le_trans e.next_le e'.next_le, fun id o'' old found => ?_⟩
  obtain ⟨o', found', function', finalizers'⟩ :=
    e'.survivor id o'' (Nat.lt_of_lt_of_le old e.next_le) found
  obtain ⟨o, found, function, finalizers⟩ := e.survivor id o' old found'
  exact ⟨o, found, function'.trans function, finalizers.trans finalizers'⟩

/-- What is gone does not come back. -/
theorem absent (e : h.Evolves h') {id : ObjectId} (old : id < h.next) (gone : h.get? id = none) :
    h'.get? id = none := by
  cases found : h'.get? id with
  | none => rfl
  | some o' =>
    obtain ⟨o, was, -⟩ := e.survivor id o' old found
    rw [gone] at was
    cases was

theorem alive (e : h.Evolves h') {id : ObjectId} (old : id < h.next)
    (lives : h'.isAlive id = true) : h.isAlive id = true := by
  cases found : h.get? id with
  | some o => exact (isAlive_iff h id).2 ⟨o, found⟩
  | none =>
    rw [(isAlive_eq_false h' id).2 (e.absent old found)] at lives
    cases lives

theorem modify (h : Heap) (id : ObjectId) (f : Object → Object)
    (keeps : ∀ o, (f o).function = o.function ∧ o.finalizers <+: (f o).finalizers) :
    h.Evolves (h.modify id f) := by
  refine ⟨Nat.le_refl _, fun j o' _ found => ?_⟩
  by_cases hj : j = id
  · subst hj
    rw [get?_modify_same, Option.map_eq_some_iff] at found
    obtain ⟨o, found, rfl⟩ := found
    exact ⟨o, found, keeps o⟩
  · rw [get?_modify_other h f hj] at found
    exact ⟨o', found, rfl, List.prefix_rfl⟩

theorem create (h : Heap) (o : Object) : h.Evolves (h.create o).2 := by
  refine ⟨Nat.le_succ _, fun id o' old found => ?_⟩
  rw [get?_create_other h o (Nat.ne_of_lt old)] at found
  exact ⟨o', found, rfl, List.prefix_rfl⟩

theorem retain (h : Heap) (ids : List ObjectId) : h.Evolves (h.retain ids) := by
  induction ids generalizing h with
  | nil => exact refl h
  | cons id rest ih =>
    have first : h.Evolves (h.modify id fun o => { o with refs := o.refs + 1 }) :=
      modify h id _ fun o => ⟨rfl, List.prefix_rfl⟩
    exact first.trans (ih _)

theorem cascade {dues : List Due} {effects : List Effect} (c : Cascade h dues h' effects) :
    h.Evolves h' := by
  refine ⟨Nat.le_of_eq c.next_eq.symm, fun id o' _ found => ?_⟩
  obtain ⟨o, n, was, rfl⟩ := c.survivor found
  exact ⟨o, was, rfl, List.prefix_rfl⟩

end Evolves

theorem isAlive_modify (h : Heap) (id : ObjectId) (f : Object → Object) (j : ObjectId) :
    (h.modify id f).isAlive j = h.isAlive j := by
  by_cases hj : j = id
  · subst hj
    simp only [isAlive, Table.contains]
    have := get?_modify_same h j f
    simp only [get?] at this
    rw [this, Option.isSome_map]
  · simp only [isAlive, Table.contains]
    have := get?_modify_other h f hj
    simp only [get?] at this
    rw [this]

theorem isAlive_retain (h : Heap) (ids : List ObjectId) (j : ObjectId) :
    (h.retain ids).isAlive j = h.isAlive j := by
  induction ids generalizing h with
  | nil => rfl
  | cons id rest ih =>
    rw [retain, List.foldl_cons]
    exact (ih _).trans (isAlive_modify h id _ j)

end Heap

/-- A registry that has also heard of some deaths. -/
def Registry.enqueueAll (reg : Registry) (ids : List ObjectId) : Registry :=
  { reg with queue := reg.queue ++ ids }

namespace Host

theorem registry?_modifyRegistry_same (w : Host) (r : RegistryId) (f : Registry → Registry) :
    Host.registry? (w.modifyRegistry r f) r = (w.registry? r).map f :=
  Table.get?_modify_same w.registries r f

theorem registry?_modifyRegistry_other (w : Host) {r q : RegistryId} (f : Registry → Registry)
    (ne : q ≠ r) : Host.registry? (w.modifyRegistry r f) q = w.registry? q :=
  Table.get?_modify_other w.registries f ne

/-- What registries notice of a change of the objects. -/
structure Drifts (w w' : Host) : Prop where
  evolves : w.heap.Evolves w'.heap
  numbering : w'.nextRegistry = w.nextRegistry
  registries : ∀ r, ∃ pushed,
    w'.registry? r = (w.registry? r).map (·.enqueueAll pushed) ∧
      (∀ id ∈ pushed, w'.heap.get? id = none ∧ id < w.heap.next) ∧
      ∀ id o, w.heap.get? id = some o → w'.heap.get? id = none → .watch r ∈ o.finalizers →
        id ∈ pushed

/-- Nothing dies, so registries notice nothing. -/
theorem Drifts.still {w w' : Host} (evolves : w.heap.Evolves w'.heap)
    (numbering : w'.nextRegistry = w.nextRegistry) (registries : w'.registries = w.registries)
    (alive : ∀ id, w.heap.isAlive id = true → w'.heap.isAlive id = true) : w.Drifts w' := by
  refine ⟨evolves, numbering, fun r => ⟨[], ?_, by simp, fun id o found gone _ => ?_⟩⟩
  · have same : w'.registry? r = w.registry? r := congrArg (Table.get? · r) registries
    rw [same]
    cases w.registry? r <;> simp [Registry.enqueueAll]
  · have := alive id ((Heap.isAlive_iff w.heap id).2 ⟨o, found⟩)
    rw [(Heap.isAlive_eq_false w'.heap id).2 gone] at this
    cases this

section Hearing

variable (w : Host) (effects : List Effect)

theorem hear_heap (e : Effect) : (w.hear e).heap = w.heap := by cases e <;> rfl

theorem heard_heap : (effects.foldl hear w).heap = w.heap := by
  induction effects generalizing w with
  | nil => rfl
  | cons e rest ih => rw [List.foldl_cons, ih, hear_heap]

theorem heard_nextRegistry : (effects.foldl hear w).nextRegistry = w.nextRegistry := by
  induction effects generalizing w with
  | nil => rfl
  | cons e rest ih =>
    rw [List.foldl_cons, ih]
    cases e <;> rfl

theorem heard_cells : (effects.foldl hear w).cells = w.cells := by
  induction effects generalizing w with
  | nil => rfl
  | cons e rest ih =>
    rw [List.foldl_cons, ih]
    cases e <;> rfl

theorem heard_counters : (effects.foldl hear w).counters = w.counters := by
  induction effects generalizing w with
  | nil => rfl
  | cons e rest ih =>
    rw [List.foldl_cons, ih]
    cases e <;> rfl

theorem registry?_hear (e : Effect) (r : RegistryId) :
    Host.registry? (w.hear e) r = (w.registry? r).map (·.enqueueAll (Effect.pushes r [e])) := by
  cases e with
  | died id => cases h : w.registry? r <;> simp [hear, h, Registry.enqueueAll]
  | noted label id =>
    have : Host.registry? (w.hear (.noted label id)) r = w.registry? r := rfl
    cases h : w.registry? r <;> simp [this, h, Registry.enqueueAll]
  | queued q id =>
    by_cases hq : q = r
    · subst hq
      rw [hear, registry?_modifyRegistry_same, Effect.pushes_queued_same]
      rfl
    · rw [hear, registry?_modifyRegistry_other w _ (Ne.symm hq),
        Effect.pushes_queued_other r [] id hq]
      cases h : w.registry? r <;> simp [Registry.enqueueAll]

/-- A registry hears exactly what is queued in it, in order. -/
theorem registry?_heard (r : RegistryId) :
    Host.registry? (effects.foldl hear w) r =
      (w.registry? r).map (·.enqueueAll (Effect.pushes r effects)) := by
  induction effects generalizing w with
  | nil => cases h : w.registry? r <;> simp [h, Registry.enqueueAll]
  | cons e rest ih =>
    rw [List.foldl_cons, ih, registry?_hear, Option.map_map]
    congr 1
    funext reg
    simp only [Function.comp_apply, Registry.enqueueAll, List.append_assoc, Registry.mk.injEq,
      true_and, List.append_cancel_left_eq]
    rw [Effect.pushes, Effect.pushes, Effect.pushes, ← List.filterMap_append, List.singleton_append]

end Hearing

section Release

variable (w : Host) (ids : List ObjectId)

theorem release_eq :
    w.release ids = (w.heap.release ids).2.foldl hear { w with heap := (w.heap.release ids).1 } :=
  rfl

@[simp] theorem release_heap : (w.release ids).heap = (w.heap.release ids).1 := by
  rw [release_eq, heard_heap]

@[simp] theorem release_nextRegistry : (w.release ids).nextRegistry = w.nextRegistry := by
  rw [release_eq, heard_nextRegistry]

@[simp] theorem release_cells : (w.release ids).cells = w.cells := by
  rw [release_eq, heard_cells]

@[simp] theorem release_counters : (w.release ids).counters = w.counters := by
  rw [release_eq, heard_counters]

theorem registry?_release (r : RegistryId) :
    Host.registry? (w.release ids) r =
      (w.registry? r).map (·.enqueueAll (Effect.pushes r (w.heap.release ids).2)) :=
  registry?_heard _ _ r

theorem cascade_release :
    Heap.Cascade w.heap (ids.map .release) (w.release ids).heap (w.heap.release ids).2 := by
  rw [release_heap]
  exact Heap.cascade_settle _ _

/-- The deaths of a release are heard by the registries that watched, once for each watch. -/
theorem count_pushes_release (r : RegistryId) (id : ObjectId) :
    (Effect.pushes r (w.heap.release ids).2).count id =
      if (w.release ids).isAlive id then 0 else w.heap.watches r id := by
  rw [isAlive, release_heap, Heap.count_pushes_release]

theorem drifts_release (bounded : ∀ id o, w.heap.get? id = some o → id < w.heap.next) :
    w.Drifts (w.release ids) := by
  refine ⟨.cascade (w.cascade_release ids), w.release_nextRegistry ids, fun r =>
    ⟨_, w.registry?_release ids r, fun id pushed => ?_, fun id o found gone watched => ?_⟩⟩
  · have count := w.count_pushes_release ids r id
    have := List.count_pos_iff.2 pushed
    split at count
    · omega
    · rename_i dead
      refine ⟨(Heap.isAlive_eq_false _ id).1 (Bool.eq_false_iff.2 dead), ?_⟩
      cases found : w.heap.get? id with
      | none =>
        simp only [Heap.watches, found, Option.elim_none] at count
        omega
      | some o => exact bounded id o found
  · have count := w.count_pushes_release ids r id
    have := List.count_pos_iff.2 watched
    rw [isAlive, (Heap.isAlive_eq_false _ id).2 gone] at count
    simp only [Bool.false_eq_true, if_false, Heap.watches, found, Option.elim_some] at count
    exact List.count_pos_iff.1 (by omega)

end Release

end Host

end Compound
