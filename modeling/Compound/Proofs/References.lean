import Compound.Proofs.Cascade

/-!
Exact reference counts. The number stored at an object is compared with the number of
references that there really are: those that living objects hold, and those held from
outside the heap. A cascade of deaths takes exactly the open dues off the outside, on
every heap and in whatever order they stand, and keeps the two numbers equal.
-/
namespace Compound

/-- What a cascade still has to let go. -/
def Due.released? : Due → Option ObjectId
  | release id => some id
  | note .. => none
  | queue .. => none

/-- The references that open dues stand for. -/
def Due.owed (dues : List Due) : Multiset ObjectId := (dues.filterMap Due.released? : List ObjectId)

namespace Due

@[simp] theorem owed_nil : owed [] = 0 := rfl

@[simp] theorem owed_release (id : ObjectId) (rest : List Due) :
    owed (release id :: rest) = id ::ₘ owed rest := rfl

@[simp] theorem owed_note (label : String) (id : ObjectId) (rest : List Due) :
    owed (note label id :: rest) = owed rest := rfl

@[simp] theorem owed_queue (r : RegistryId) (id : ObjectId) (rest : List Due) :
    owed (queue r id :: rest) = owed rest := rfl

theorem owed_append (a b : List Due) : owed (a ++ b) = owed a + owed b := by
  simp [owed, List.filterMap_append]

theorem owed_map_release (ids : List ObjectId) : owed (ids.map release) = ids := by
  simp [owed, List.filterMap_map, Function.comp_def, released?]

end Due

theorem Finalizer.owed_dues (id : ObjectId) (f : Finalizer) :
    Due.owed (f.dues id) = f.references := by
  cases f with
  | note label held => simp [Finalizer.dues, Finalizer.references, Due.owed_map_release]
  | watch r => simp [Finalizer.dues, Finalizer.references]

/-- The death of an object lets go exactly what the object held. -/
theorem Object.owed_dues (id : ObjectId) (o : Object) : Due.owed (o.dues id) = o.references := by
  have finalizers : ∀ fs : List Finalizer,
      Due.owed (fs.flatMap (Finalizer.dues id)) = fs.flatMap Finalizer.references := by
    intro fs
    induction fs with
    | nil => rfl
    | cons f rest ih =>
      simp only [List.flatMap_cons, Due.owed_append, ih, Finalizer.owed_dues, Multiset.coe_add]
  simp only [Object.dues, Object.references, Due.owed_append, finalizers, Due.owed_map_release,
    Multiset.coe_add, List.append_assoc]

@[simp] theorem Object.references_refs (o : Object) (n : Nat) :
    ({ o with refs := n } : Object).references = o.references := rfl

namespace Heap

/-- All references that living objects hold. -/
def holdings (h : Heap) : Multiset ObjectId := h.live.gather Object.references

/-- The number that is stored at an object, and none if it is gone. -/
def refs (h : Heap) (id : ObjectId) : Nat := (h.get? id).elim 0 Object.refs

section Views

variable (h : Heap) {id j : ObjectId} {o : Object} (f : Object → Object)

theorem refs_of_get? (found : h.get? id = some o) : h.refs id = o.refs := by
  rw [refs, found, Option.elim_some]

theorem refs_eq_zero (gone : h.get? id = none) : h.refs id = 0 := by
  rw [refs, gone, Option.elim_none]

theorem refs_modify_same (found : h.get? id = some o) : (h.modify id f).refs id = (f o).refs :=
  refs_of_get? _ (by rw [get?_modify_same, found, Option.map_some])

theorem refs_modify_other (ne : j ≠ id) : (h.modify id f).refs j = h.refs j := by
  rw [refs, get?_modify_other h f ne, refs]

theorem refs_erase_other (ne : j ≠ id) : (h.erase id).refs j = h.refs j := by
  rw [refs, get?_erase_other h ne, refs]

theorem holdings_erase (found : h.get? id = some o) :
    h.holdings = (o.references : Multiset ObjectId) + (h.erase id).holdings :=
  Table.gather_erase h.live id Object.references found

theorem holdings_modify (found : h.get? id = some o) :
    (h.modify id f).holdings =
      ((f o).references : Multiset ObjectId) + (h.erase id).holdings :=
  Table.gather_modify h.live id Object.references f found

end Views

theorem alive_of_refs {h : Heap} {id : ObjectId} (pos : 0 < h.refs id) : h.isAlive id = true := by
  cases found : h.get? id with
  | none => exact absurd pos (by rw [refs_eq_zero h found]; exact Nat.lt_irrefl 0)
  | some o => exact (isAlive_iff h id).2 ⟨o, found⟩

/-- The stored numbers are right when the given references are held from outside the heap,
and every living object is numbered below the next one. -/
structure Accounted (h : Heap) (outside : Multiset ObjectId) : Prop where
  exact : ∀ id, outside.count id + h.holdings.count id = h.refs id
  positive : ∀ id o, h.get? id = some o → 0 < o.refs
  bounded : ∀ id o, h.get? id = some o → id < h.next

namespace Accounted

variable {h : Heap} {outside : Multiset ObjectId} {id : ObjectId} {o : Object}

theorem empty : Heap.empty.Accounted 0 where
  exact _ := rfl
  positive _ _ found := by cases found
  bounded _ _ found := by cases found

/-- What is held from outside is alive. -/
theorem alive_outside (a : h.Accounted outside) (held : id ∈ outside) : h.isAlive id = true := by
  apply alive_of_refs
  have := Multiset.count_pos.2 held
  have := a.exact id
  omega

/-- What a living object holds is alive. -/
theorem alive_references (a : h.Accounted outside) {j : ObjectId} (found : h.get? id = some o)
    (held : j ∈ o.references) : h.isAlive j = true := by
  apply alive_of_refs
  have := Multiset.count_pos.2 (Table.mem_gather_of_get? h.live id Object.references found held)
  have := a.exact j
  simp only [holdings] at this
  omega

theorem get?_next (a : h.Accounted outside) : h.get? h.next = none := by
  cases found : h.get? h.next with
  | none => rfl
  | some o => exact absurd (a.bounded _ o found) (Nat.lt_irrefl _)

/-- The next number is nowhere in use. -/
theorem count_next (a : h.Accounted outside) :
    outside.count h.next = 0 ∧ h.holdings.count h.next = 0 := by
  have := a.exact h.next
  rw [refs_eq_zero h a.get?_next] at this
  omega

/-- Change one object. The outside makes up for the difference in what the object holds,
and its number for the difference that this makes to itself. -/
theorem modify (a : h.Accounted outside) (f : Object → Object) (found : h.get? id = some o)
    (pos : 0 < (f o).refs) {outside' : Multiset ObjectId}
    (balance : ∀ j,
      outside'.count j + (f o).references.count j + (if j = id then o.refs else 0) =
        outside.count j + o.references.count j + (if j = id then (f o).refs else 0)) :
    (h.modify id f).Accounted outside' := by
  have change : ∀ j u, (h.modify id f).get? j = some u → 0 < u.refs ∧ j < h.next := by
    intro j u hu
    by_cases hj : j = id
    · subst hj
      rw [get?_modify_same, found, Option.map_some, Option.some.injEq] at hu
      exact ⟨hu ▸ pos, a.bounded j o found⟩
    · rw [get?_modify_other h f hj] at hu
      exact ⟨a.positive j u hu, a.bounded j u hu⟩
  refine ⟨fun j => ?_, fun j u hu => (change j u hu).1, fun j u hu => (change j u hu).2⟩
  have before := a.exact j
  have here := balance j
  rw [holdings_erase h found, Multiset.count_add, Multiset.coe_count] at before
  rw [holdings_modify h f found, Multiset.count_add, Multiset.coe_count]
  by_cases hj : j = id
  · subst hj
    rw [refs_of_get? h found] at before
    rw [refs_modify_same h f found]
    simp only [if_true] at here
    omega
  · rw [refs_modify_other h f hj]
    simp only [if_neg hj] at here
    omega

/-- Change what one object holds, but not its number. -/
theorem modify_held (a : h.Accounted outside) (f : Object → Object) (found : h.get? id = some o)
    (same : (f o).refs = o.refs) {outside' : Multiset ObjectId}
    (balance : outside' + ((f o).references : Multiset ObjectId) =
      outside + (o.references : Multiset ObjectId)) :
    (h.modify id f).Accounted outside' := by
  apply a.modify f found (same ▸ a.positive id o found)
  intro j
  have := congrArg (Multiset.count j) balance
  simp only [Multiset.count_add, Multiset.coe_count] at this
  rw [this, same]

/-- Change an object apart from its number and from what it holds. -/
theorem modify_same (a : h.Accounted outside) (id : ObjectId) (f : Object → Object)
    (same : ∀ o, (f o).refs = o.refs ∧ (f o).references = o.references) :
    (h.modify id f).Accounted outside := by
  cases found : h.get? id with
  | none =>
    rw [Heap.modify, Table.modify_of_none h.live id f found]
    exact a
  | some o => exact a.modify_held f found (same o).1 (by rw [(same o).2])

/-- One more reference to a living object is held outside. -/
theorem retain_one (a : h.Accounted outside) (alive : h.isAlive id = true) :
    (h.modify id fun o => { o with refs := o.refs + 1 }).Accounted (id ::ₘ outside) := by
  obtain ⟨o, found⟩ := (isAlive_iff h id).1 alive
  apply a.modify (fun o => { o with refs := o.refs + 1 }) found (Nat.succ_pos _)
  intro j
  rw [Multiset.count_cons, Object.references_refs]
  by_cases hj : j = id
  · simp only [if_pos hj]
    omega
  · simp only [if_neg hj]
    omega

/-- One reference of several is given up outside. -/
theorem unref (a : h.Accounted (id ::ₘ outside)) (found : h.get? id = some o)
    (several : 1 < o.refs) : (h.unref id).Accounted outside := by
  apply a.modify (fun o => { o with refs := o.refs - 1 }) found (Nat.sub_pos_of_lt several)
  intro j
  rw [Multiset.count_cons, Object.references_refs]
  by_cases hj : j = id
  · simp only [if_pos hj]
    omega
  · simp only [if_neg hj]
    omega

/-- The last reference is given up outside: what the object held is held outside now. -/
theorem erase (a : h.Accounted (id ::ₘ outside)) (found : h.get? id = some o) (last : o.refs ≤ 1) :
    (h.erase id).Accounted (outside + (o.references : Multiset ObjectId)) := by
  have other : ∀ j u, (h.erase id).get? j = some u → h.get? j = some u := by
    intro j u hu
    by_cases hj : j = id
    · subst hj
      rw [get?_erase_same] at hu
      cases hu
    · rwa [get?_erase_other h hj] at hu
  refine ⟨fun j => ?_, fun j u hu => a.positive j u (other j u hu),
    fun j u hu => a.bounded j u (other j u hu)⟩
  have before := a.exact j
  rw [holdings_erase h found, Multiset.count_cons, Multiset.count_add, Multiset.coe_count] at before
  rw [Multiset.count_add, Multiset.coe_count]
  by_cases hj : j = id
  · subst hj
    rw [refs_of_get? h found, if_pos rfl] at before
    rw [refs_eq_zero _ (get?_erase_same h j)]
    omega
  · rw [if_neg hj] at before
    rw [refs_erase_other h hj]
    omega

theorem retain (a : h.Accounted outside) (ids : List ObjectId)
    (alive : ∀ id ∈ ids, h.isAlive id = true) :
    (h.retain ids).Accounted (outside + (ids : Multiset ObjectId)) := by
  induction ids generalizing h outside with
  | nil => simpa [Heap.retain] using a
  | cons id rest ih =>
    have := ih (a.retain_one (alive id (by simp))) (by
      intro j hj
      obtain ⟨u, hu⟩ := (isAlive_iff h j).1 (alive j (by simp [hj]))
      rw [isAlive_iff]
      by_cases same : j = id
      · subst same
        exact ⟨_, by rw [get?_modify_same, hu, Option.map_some]⟩
      · exact ⟨u, by rw [get?_modify_other h _ same, hu]⟩)
    rw [Multiset.cons_add, ← Multiset.add_cons] at this
    simpa [Heap.retain, Multiset.cons_coe] using this

/-- A new object, with one reference outside and with what its body holds taken over. -/
theorem create (function : Option Function) (a : h.Accounted
    (outside + ((Object.new function).references : Multiset ObjectId))) :
    (h.create (.new function)).2.Accounted (h.next ::ₘ outside) := by
  have absent := a.get?_next
  have counts := a.count_next
  constructor
  · intro j
    have before := a.exact j
    have new : (h.create (.new function)).2.holdings =
        ((Object.new function).references : Multiset ObjectId) + h.holdings := by
      rw [holdings, Heap.create, Table.gather_put, Table.erase_of_none _ _ absent, holdings]
    rw [Multiset.count_add] at before counts
    rw [new, Multiset.count_add, Multiset.count_cons]
    by_cases hj : j = h.next
    · subst hj
      rw [refs_of_get? _ (get?_create_same h (.new function)), if_pos rfl]
      simp only [Object.new]
      simp only [Object.new] at counts
      omega
    · rw [refs, get?_create_other h _ hj, if_neg hj]
      rw [refs] at before
      omega
  · intro j u hu
    by_cases hj : j = h.next
    · subst hj
      rw [get?_create_same, Option.some.injEq] at hu
      rw [← hu]
      exact Nat.one_pos
    · rw [get?_create_other h _ hj] at hu
      exact a.positive j u hu
  · intro j u hu
    by_cases hj : j = h.next
    · rw [hj]
      exact Nat.lt_succ_self _
    · rw [get?_create_other h _ hj] at hu
      exact Nat.lt_succ_of_lt (a.bounded j u hu)

/-- A cascade takes the open dues off the outside, whatever dies on the way. -/
theorem cascade {h' : Heap} {dues : List Due} {effects : List Effect}
    (c : Cascade h dues h' effects) (a : h.Accounted (outside + Due.owed dues)) :
    h'.Accounted outside := by
  induction c with
  | done h => simpa using a
  | note label id next ih =>
    rw [Due.owed_note] at a
    exact ih a
  | queue r id next ih =>
    rw [Due.owed_queue] at a
    exact ih a
  | @gone h h' rest effects id absent next ih =>
    -- a reference from outside is always to a living object
    rw [Due.owed_release] at a
    have alive : h.isAlive id = true := a.alive_outside (by simp)
    rw [(isAlive_eq_false h id).2 absent] at alive
    cases alive
  | @last h h' rest effects id o found one next ih =>
    rw [Due.owed_release, Multiset.add_cons] at a
    apply ih
    rw [Due.owed_append, Object.owed_dues, add_comm (o.references : Multiset ObjectId), ← add_assoc]
    exact a.erase found one
  | several found more next ih =>
    rw [Due.owed_release, Multiset.add_cons] at a
    exact ih (a.unref found more)

theorem release (ids : List ObjectId) (a : h.Accounted (outside + (ids : Multiset ObjectId))) :
    (h.release ids).1.Accounted outside := by
  rw [← Due.owed_map_release] at a
  exact cascade (cascade_settle h _) a

end Accounted

end Heap

end Compound
