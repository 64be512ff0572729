import Compound.Proofs.Course
import Compound.Proofs.Soundness

/-!
References that are taken and let go again. Where every living object is referred to, a loan leaves
no trace: the last reference is never the one that goes back, so nothing dies of it.
-/
namespace Compound

namespace Heap

/-- A heap is given by the next number, the numbers of the living in order, and what they are. -/
theorem ext_get? {h h' : Heap} (next : h.next = h'.next) (keys : h.live.keys = h'.live.keys)
    (objects : ∀ id, h.get? id = h'.get? id) : h = h' := by
  obtain ⟨n, live⟩ := h
  obtain ⟨n', live'⟩ := h'
  have same : live = live' := Table.ext_get? keys objects
  cases next
  cases same
  rfl

@[simp] theorem keys_retain (h : Heap) (ids : List ObjectId) :
    (h.retain ids).live.keys = h.live.keys := by
  induction ids generalizing h with
  | nil => rfl
  | cons id rest ih =>
    rw [retain, List.foldl_cons]
    exact (ih (h.modify id _)).trans (Table.keys_modify _ _ _)

/-- The first reference of several goes back. -/
theorem unref_retain (h : Heap) (id : ObjectId) (rest : List ObjectId) :
    (h.retain (id :: rest)).unref id = h.retain rest := by
  apply ext_get?
  · simp [unref, modify]
  · simp [unref, modify]
  · intro j
    by_cases hj : j = id
    · subst hj
      rw [unref, get?_modify_same, get?_retain, get?_retain]
      cases h.get? j <;> simp [List.count_cons_self, ← Nat.add_assoc]
    · rw [unref, get?_modify_other _ _ hj, get?_retain, get?_retain]
      simp [Ne.symm hj]

theorem release_retain (h : Heap) (ids : List ObjectId)
    (referred : ∀ id ∈ ids, ∃ o, h.get? id = some o ∧ 0 < o.refs) :
    (h.retain ids).release ids = (h, []) := by
  induction ids with
  | nil => exact release_nil h
  | cons id rest ih =>
    obtain ⟨o, found, positive⟩ := referred id List.mem_cons_self
    have lent : (h.retain (id :: rest)).get? id =
        some { o with refs := o.refs + (id :: rest).count id } := by
      rw [get?_retain, found, Option.map_some]
    have several : ¬o.refs + (id :: rest).count id ≤ 1 := by
      rw [List.count_cons_self]
      omega
    have back := ih fun j inside => referred j (List.mem_cons_of_mem id inside)
    rw [release, List.map_cons, settle]
    split
    · rename_i absent
      rw [lent] at absent
      cases absent
    · rename_i o' found'
      cases Option.some.inj (lent.symm.trans found')
      rw [if_neg several, unref_retain]
      exact back

end Heap

/-- What is lent to a client and given back changes nothing. -/
theorem Host.release_retain {w : Host} {outside : Multiset ObjectId} {ids : List ObjectId}
    (a : w.heap.Accounted outside) (alive : ∀ id ∈ ids, w.isAlive id = true) :
    (w.retain ids).release ids = w := by
  have back : (w.retain ids).heap.release ids = (w.heap, []) := by
    refine w.heap.release_retain ids fun id inside => ?_
    obtain ⟨o, found⟩ := (Heap.isAlive_iff _ id).1 (alive id inside)
    exact ⟨o, found, a.positive id o found⟩
  rw [Host.release_eq, back]
  rfl

end Compound
