import Compound.Heap.Settle
import Compound.Proofs.Tables

/-!
The course of a cascade of deaths, told by its rules instead of by a recursion over a
measure. Whatever dies, the survivors change in nothing but the number of references to
them, no object comes to life, and every watch of an object that died has been queued,
as often as the object was watched.
-/
namespace Compound

/-- The object that an effect queues in a registry. -/
def Effect.queuedIn? (r : RegistryId) : Effect → Option ObjectId
  | queued q id => if q = r then some id else none
  | died _ => none
  | noted .. => none

/-- What a cascade queues in a registry, in order. -/
def Effect.pushes (r : RegistryId) (effects : List Effect) : List ObjectId :=
  effects.filterMap (queuedIn? r)

namespace Effect

variable (r : RegistryId) (effects : List Effect) (id : ObjectId)

@[simp] theorem pushes_nil : pushes r [] = [] := rfl

@[simp] theorem pushes_died : pushes r (died id :: effects) = pushes r effects := rfl

@[simp] theorem pushes_noted (label : String) :
    pushes r (noted label id :: effects) = pushes r effects := rfl

@[simp] theorem pushes_queued_same :
    pushes r (queued r id :: effects) = id :: pushes r effects := by
  simp [pushes, queuedIn?]

theorem pushes_queued_other {q : RegistryId} (ne : q ≠ r) :
    pushes r (queued q id :: effects) = pushes r effects := by
  simp [pushes, queuedIn?, ne]

end Effect

namespace Heap

theorem isAlive_iff (h : Heap) (id : ObjectId) : h.isAlive id = true ↔ ∃ o, h.get? id = some o :=
  Option.isSome_iff_exists

theorem isAlive_eq_false (h : Heap) (id : ObjectId) : h.isAlive id = false ↔ h.get? id = none :=
  Option.isSome_eq_false_iff.trans Option.isNone_iff_eq_none

/-- How often a registry watches a living object. -/
def watches (h : Heap) (r : RegistryId) (id : ObjectId) : Nat :=
  (h.get? id).elim 0 fun o => o.finalizers.count (.watch r)

/-- One rule for each way in which the first due is worked off. -/
inductive Cascade : Heap → List Due → Heap → List Effect → Prop
  | done (h : Heap) : Cascade h [] h []
  | note {h h' : Heap} {rest : List Due} {effects : List Effect} (label : String) (id : ObjectId)
      (next : Cascade h rest h' effects) :
      Cascade h (.note label id :: rest) h' (.noted label id :: effects)
  | queue {h h' : Heap} {rest : List Due} {effects : List Effect} (r : RegistryId) (id : ObjectId)
      (next : Cascade h rest h' effects) :
      Cascade h (.queue r id :: rest) h' (.queued r id :: effects)
  | gone {h h' : Heap} {rest : List Due} {effects : List Effect} {id : ObjectId}
      (absent : h.get? id = none) (next : Cascade h rest h' effects) :
      Cascade h (.release id :: rest) h' effects
  | last {h h' : Heap} {rest : List Due} {effects : List Effect} {id : ObjectId} {o : Object}
      (found : h.get? id = some o) (one : o.refs ≤ 1)
      (next : Cascade (h.erase id) (o.dues id ++ rest) h' effects) :
      Cascade h (.release id :: rest) h' (.died id :: effects)
  | several {h h' : Heap} {rest : List Due} {effects : List Effect} {id : ObjectId} {o : Object}
      (found : h.get? id = some o) (more : 1 < o.refs)
      (next : Cascade (h.unref id) rest h' effects) :
      Cascade h (.release id :: rest) h' effects

theorem cascade_settle (h : Heap) (dues : List Due) :
    Cascade h dues (h.settle dues).1 (h.settle dues).2 := by
  fun_induction settle h dues with
  | case1 h => exact .done h
  | case2 h label id rest h' effects eq ih =>
    rw [eq] at ih
    exact .note label id ih
  | case3 h r id rest h' effects eq ih =>
    rw [eq] at ih
    exact .queue r id ih
  | case4 h id rest absent ih => exact .gone absent ih
  | case5 h id rest o found one h' effects eq ih =>
    rw [eq] at ih
    exact .last found one ih
  | case6 h id rest o found several ih => exact .several found (Nat.lt_of_not_le several) ih

theorem get?_unref (h : Heap) {id j : ObjectId} {u : Object} (hu : (h.unref id).get? j = some u) :
    ∃ o n, h.get? j = some o ∧ u = { o with refs := n } := by
  by_cases hj : j = id
  · subst hj
    rw [unref, get?_modify_same, Option.map_eq_some_iff] at hu
    obtain ⟨o, found, rfl⟩ := hu
    exact ⟨o, _, found, rfl⟩
  · rw [unref, get?_modify_other h _ hj] at hu
    exact ⟨u, u.refs, hu, rfl⟩

theorem get?_of_get?_erase (h : Heap) {id j : ObjectId} {u : Object}
    (hu : (h.erase id).get? j = some u) : j ≠ id ∧ h.get? j = some u := by
  by_cases hj : j = id
  · subst hj
    rw [get?_erase_same] at hu
    cases hu
  · exact ⟨hj, by rwa [get?_erase_other h hj] at hu⟩

theorem watches_unref (h : Heap) (id : ObjectId) (r : RegistryId) (j : ObjectId) :
    (h.unref id).watches r j = h.watches r j := by
  by_cases hj : j = id
  · subst hj
    rw [watches, unref, get?_modify_same, watches]
    cases h.get? j <;> rfl
  · rw [watches, unref, get?_modify_other h _ hj, watches]

/-- The dues of an object queue the object itself, once for each watch. -/
theorem count_queue_dues (o : Object) (id : ObjectId) (r : RegistryId) (j : ObjectId) :
    (o.dues id).count (.queue r j) = if j = id then o.finalizers.count (.watch r) else 0 := by
  have released : ∀ ids : List ObjectId, (ids.map Due.release).count (.queue r j) = 0 := by
    intro ids
    rw [List.count_eq_zero]
    simp
  have finalizers : ∀ fs : List Finalizer,
      (fs.flatMap (Finalizer.dues id)).count (.queue r j) =
        if j = id then fs.count (.watch r) else 0 := by
    intro fs
    induction fs with
    | nil => simp
    | cons f rest ih =>
      rw [List.flatMap_cons, List.count_append, ih]
      cases f with
      | note label held => simp [Finalizer.dues, released]
      | watch q =>
        by_cases hj : j = id
        · subst hj
          by_cases hq : q = r
          · subst hq
            simp [Finalizer.dues, Nat.add_comm]
          · simp [Finalizer.dues, hq]
        · simp [Finalizer.dues, hj, Ne.symm hj]
  rw [Object.dues, List.count_append, finalizers, released, Nat.add_zero]

namespace Cascade

variable {h h' : Heap} {dues : List Due} {effects : List Effect}

theorem next_eq (c : Cascade h dues h' effects) : h'.next = h.next := by
  induction c with
  | done h => rfl
  | note label id next ih => exact ih
  | queue r id next ih => exact ih
  | gone absent next ih => exact ih
  | last found one next ih => exact ih
  | several found more next ih => exact ih

/-- A survivor was alive before, and is the same but for the number of references to it. -/
theorem survivor (c : Cascade h dues h' effects) {id : ObjectId} {u : Object}
    (hu : h'.get? id = some u) : ∃ o n, h.get? id = some o ∧ u = { o with refs := n } := by
  induction c with
  | done h => exact ⟨u, u.refs, hu, rfl⟩
  | note label id next ih => exact ih hu
  | queue r id next ih => exact ih hu
  | gone absent next ih => exact ih hu
  | last found one next ih =>
    obtain ⟨o, n, ho, same⟩ := ih hu
    exact ⟨o, n, (get?_of_get?_erase _ ho).2, same⟩
  | several found more next ih =>
    obtain ⟨u', n, hu', same⟩ := ih hu
    obtain ⟨o, m, ho, same'⟩ := get?_unref _ hu'
    exact ⟨o, n, ho, by rw [same, same']⟩

theorem absent (c : Cascade h dues h' effects) {id : ObjectId} (gone : h.get? id = none) :
    h'.get? id = none := by
  cases hu : h'.get? id with
  | none => rfl
  | some u =>
    obtain ⟨o, n, found, -⟩ := c.survivor hu
    rw [gone] at found
    cases found

/-- What is queued in a registry is what was due to be queued, and the objects that died,
each as often as the registry watched it. -/
theorem count_pushes (c : Cascade h dues h' effects) (r : RegistryId) (j : ObjectId) :
    (Effect.pushes r effects).count j =
      dues.count (.queue r j) + if h'.isAlive j then 0 else h.watches r j := by
  induction c with
  | done h =>
    cases alive : h.isAlive j with
    | true => simp
    | false => simp [watches, (isAlive_eq_false h j).1 alive]
  | note label id next ih => simpa using ih
  | queue q id next ih =>
    by_cases hq : q = r
    · subst hq
      rw [Effect.pushes_queued_same, List.count_cons, ih, List.count_cons]
      by_cases hj : id = j
      · simp only [hj, beq_self_eq_true, if_true]
        omega
      · simp [hj]
    · rw [Effect.pushes_queued_other r _ id hq, ih]
      simp [hq]
  | gone absent next ih => simpa using ih
  | @last h h' rest effects id o found one next ih =>
    rw [List.count_append, count_queue_dues] at ih
    rw [Effect.pushes_died, ih]
    by_cases hj : j = id
    · subst hj
      have dead := next.absent (get?_erase_same h j)
      simp [(isAlive_eq_false h' j).2 dead, watches, found, Nat.add_comm]
    · simp [watches, get?_erase_other h hj, hj]
  | several found more next ih =>
    rw [watches_unref] at ih
    simpa using ih

end Cascade

/-- What a release queues in a registry are the objects that it kills, each as often as the
registry watched it. -/
theorem count_pushes_release (h : Heap) (ids : List ObjectId) (r : RegistryId) (id : ObjectId) :
    (Effect.pushes r (h.release ids).2).count id =
      if (h.release ids).1.isAlive id then 0 else h.watches r id := by
  have none_due : (ids.map Due.release).count (.queue r id) = 0 := by
    rw [List.count_eq_zero]
    simp
  rw [release, (cascade_settle h _).count_pushes r id, none_due, Nat.zero_add]

end Heap

end Compound
