import Compound.Proofs.Soundness

/-!
What survives a cascade of deaths. A set of living objects survives as a whole if each of them is
kept from outside or by another one of the set, whatever else dies. So it is enough to look at
what keeps the objects of the set, and not at the order in which the cascade goes on.
-/
namespace Compound

namespace Heap

/-- Each object of the set is alive, and is kept from outside or by an object of the set. -/
structure Sustained (h : Heap) (outside : Multiset ObjectId) (members : ObjectId → Prop) :
    Prop where
  alive : ∀ id, members id → h.isAlive id = true
  kept : ∀ id, members id →
    id ∈ outside ∨ ∃ j o, members j ∧ h.get? j = some o ∧ id ∈ o.references

namespace Sustained

variable {h h' : Heap} {outside : Multiset ObjectId} {members : ObjectId → Prop}

/-- The objects that keep the members may change in the number of references to them. -/
theorem transfer (s : h.Sustained outside members)
    (same : ∀ j o, members j → h.get? j = some o →
      ∃ o', h'.get? j = some o' ∧ o'.references = o.references) :
    h'.Sustained outside members := by
  refine ⟨fun id inside => ?_, fun id inside => ?_⟩
  · obtain ⟨o, found⟩ := (isAlive_iff h id).1 (s.alive id inside)
    obtain ⟨o', found', -⟩ := same id o inside found
    exact (isAlive_iff h' id).2 ⟨o', found'⟩
  · refine (s.kept id inside).imp_right fun ⟨j, o, member, found, holds⟩ => ?_
    obtain ⟨o', found', references⟩ := same j o member found
    exact ⟨j, o', member, found', references ▸ holds⟩

/-- The last reference to a member is not one that is still to be let go. -/
theorem not_last (s : h.Sustained outside members) {id : ObjectId} {rest : Multiset ObjectId}
    {o : Object} (a : h.Accounted (outside + id ::ₘ rest)) (found : h.get? id = some o)
    (one : o.refs ≤ 1) : ¬members id := by
  intro member
  have exact := a.exact id
  rw [refs_of_get? h found, Multiset.count_add, Multiset.count_cons_self] at exact
  rcases s.kept id member with inside | ⟨j, u, -, living, holds⟩
  · have := Multiset.count_pos.2 inside
    omega
  · have inside : id ∈ h.holdings := Table.mem_gather_of_get? _ _ _ living holds
    have := Multiset.count_pos.2 inside
    omega

theorem cascade {dues : List Due} {effects : List Effect} (c : Cascade h dues h' effects)
    (s : h.Sustained outside members) (a : h.Accounted (outside + Due.owed dues)) :
    h'.Sustained outside members := by
  induction c with
  | done h => exact s
  | note label id next ih =>
    rw [Due.owed_note] at a
    exact ih s a
  | queue r id next ih =>
    rw [Due.owed_queue] at a
    exact ih s a
  | @gone h h' rest effects id absent next ih =>
    rw [Due.owed_release] at a
    have alive : h.isAlive id = true := a.alive_outside (by simp)
    rw [(isAlive_eq_false h id).2 absent] at alive
    cases alive
  | @last h h' rest effects id o found one next ih =>
    rw [Due.owed_release] at a
    have spared := s.not_last a found one
    refine ih (s.transfer fun j u member living => ⟨u, ?_, rfl⟩) ?_
    · rw [get?_erase_other h (by rintro rfl; exact spared member)]
      exact living
    · rw [Multiset.add_cons] at a
      rw [Due.owed_append, Object.owed_dues, add_comm (o.references : Multiset ObjectId),
        ← add_assoc]
      exact a.erase found one
  | @several h h' rest effects id o found more next ih =>
    rw [Due.owed_release, Multiset.add_cons] at a
    refine ih (s.transfer fun j u member living => ?_) (a.unref found more)
    by_cases same : j = id
    · subst same
      refine ⟨_, (get?_modify_same h j _).trans (congrArg _ living), rfl⟩
    · exact ⟨u, (get?_modify_other h _ same).trans living, rfl⟩

end Sustained

end Heap

/-- What is kept survives a release. -/
theorem Host.alive_release {w : Host} {ids : List ObjectId} {outside : Multiset ObjectId}
    {members : ObjectId → Prop} (s : w.heap.Sustained outside members)
    (a : w.heap.Accounted (outside + (ids : Multiset ObjectId))) {id : ObjectId}
    (member : members id) : (w.release ids).isAlive id = true := by
  rw [← Due.owed_map_release] at a
  exact (Heap.Sustained.cascade (w.cascade_release ids) s a).alive id member

end Compound
