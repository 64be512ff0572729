import Mathlib.Logic.Function.Iterate
import Compound.Proofs.Drift

/-!
The course of a cascade, due by due. Working off a due takes it away or, at the death of an object,
puts what that leaves to be done in its place; either way there is one due less to come, so every
cascade ends, on whatever heap it is let loose. The course keeps each due with the heap in which it
was worked off. An object that dies does so once: its finalizers run then, all of them and in their
order, and what its slots and its function held is let go after that.
-/
namespace Compound

/-- The due that runs a finalizer for an object. -/
def Finalizer.run (id : ObjectId) : Finalizer → Due
  | note label _ => .note label id
  | watch registry => .queue registry id

/-- What an object keeps alive apart from its finalizers. -/
def Object.belongings (o : Object) : List ObjectId :=
  o.slots.values.flatMap Slot.references ++ o.bodyReferences

namespace Due

/-- The object for which a due runs a finalizer. -/
def subject? : Due → Option ObjectId
  | release _ => none
  | note _ id => some id
  | queue _ id => some id

/-- Those of some dues that run finalizers for an object. -/
def runs (id : ObjectId) (dues : List Due) : List Due :=
  dues.filter fun due => due.subject? == some id

variable (id : ObjectId)

theorem runs_append (a b : List Due) : runs id (a ++ b) = runs id a ++ runs id b :=
  List.filter_append a b

theorem runs_cons (due : Due) (rest : List Due) :
    runs id (due :: rest) = runs id [due] ++ runs id rest :=
  runs_append id [due] rest

@[simp] theorem runs_map_release (ids : List ObjectId) : runs id (ids.map release) = [] := by
  simp [runs, List.filter_eq_nil_iff, subject?]

/-- The finalizers of an object run for the object itself, once each and in their order. -/
theorem runs_finalizers (fs : List Finalizer) :
    runs id (fs.flatMap (Finalizer.dues id)) = fs.map (Finalizer.run id) := by
  induction fs with
  | nil => rfl
  | cons f rest ih =>
    rw [List.flatMap_cons, runs_append, ih, List.map_cons]
    cases f with
    | note label held =>
      rw [Finalizer.dues, runs_cons, runs_map_release, List.append_nil]
      simp [runs, subject?, Finalizer.run]
    | watch r => simp [Finalizer.dues, runs, subject?, Finalizer.run]

theorem runs_finalizers_other {j : ObjectId} (ne : j ≠ id) (fs : List Finalizer) :
    runs id (fs.flatMap (Finalizer.dues j)) = [] := by
  induction fs with
  | nil => rfl
  | cons f rest ih =>
    rw [List.flatMap_cons, runs_append, ih, List.append_nil]
    cases f with
    | note label held =>
      rw [Finalizer.dues, runs_cons, runs_map_release, List.append_nil]
      simp [runs, subject?, ne]
    | watch r => simp [Finalizer.dues, runs, subject?, ne]

end Due

theorem Object.dues_eq (id : ObjectId) (o : Object) :
    o.dues id = o.finalizers.flatMap (Finalizer.dues id) ++ o.belongings.map .release := rfl

theorem Object.runs_dues_other {id j : ObjectId} (ne : j ≠ id) (o : Object) :
    Due.runs id (o.dues j) = [] := by
  rw [dues_eq, Due.runs_append, Due.runs_finalizers_other id ne, Due.runs_map_release,
    List.append_nil]

/-- An object leaves runs of finalizers for itself alone. -/
theorem Object.subject_of_due {id j : ObjectId} (o : Object) {due : Due} (inside : due ∈ o.dues j)
    (run : due.subject? = some id) : id = j := by
  by_contra ne
  have running : due ∈ Due.runs id (o.dues j) := List.mem_filter.2 ⟨inside, by simp [run]⟩
  rw [o.runs_dues_other (Ne.symm ne)] at running
  cases running

/-- The dues of a cascade in the order in which they were worked off, each with the heap in which
that was done. -/
abbrev Course := List (Heap × Due)

/-- The runs of the finalizers of an object in a course. -/
def Course.runs (id : ObjectId) (c : Course) : List Due := Due.runs id (c.map Prod.snd)

namespace Heap

/-- Work off one due: the heap after it, and the dues that come in its place. -/
def work (h : Heap) : Due → Heap × List Due
  | .note .. => (h, [])
  | .queue .. => (h, [])
  | .release id =>
    match h.get? id with
    | none => (h, [])
    | some o => if o.refs ≤ 1 then (h.erase id, o.dues id) else (h.unref id, [])

/-- The dues that come in the place of one are those that an object has left to be done. -/
theorem weight_work (h : Heap) (due : Due) :
    (h.work due).2.length + (h.work due).1.weight = h.weight := by
  cases due with
  | note label id => exact Nat.zero_add _
  | queue r id => exact Nat.zero_add _
  | release id =>
    rw [work]
    cases found : h.get? id with
    | none => exact Nat.zero_add _
    | some o =>
      simp only
      split
      · rw [Nat.add_comm]
        exact weight_erase found
      · rw [weight_unref]
        exact Nat.zero_add _

/-- The course of a cascade. -/
def course (h : Heap) (dues : List Due) : Course :=
  match dues with
  | [] => []
  | due :: rest => (h, due) :: course (h.work due).1 ((h.work due).2 ++ rest)
termination_by dues.length + h.weight
decreasing_by
  have := h.weight_work due
  simp only [List.length_cons, List.length_append]
  omega

/-- Work off the first of the open dues. -/
def advance : Heap × List Due → Heap × List Due
  | (h, []) => (h, [])
  | (h, due :: rest) => ((h.work due).1, (h.work due).2 ++ rest)

@[simp] theorem course_nil (h : Heap) : h.course [] = [] := by rw [course]

theorem course_cons (h : Heap) (due : Due) (rest : List Due) :
    h.course (due :: rest) = (h, due) :: (h.work due).1.course ((h.work due).2 ++ rest) := by
  rw [course]

@[simp] theorem settle_nil (h : Heap) : h.settle [] = (h, []) := by rw [settle]

@[simp] theorem release_nil (h : Heap) : h.release [] = (h, []) := h.settle_nil

/-- A cascade works off its first due and goes on with what is open then. -/
theorem settle_cons (h : Heap) (due : Due) (rest : List Due) :
    (h.settle (due :: rest)).1 = ((h.work due).1.settle ((h.work due).2 ++ rest)).1 := by
  cases due with
  | note label id => rw [settle]; rfl
  | queue r id => rw [settle]; rfl
  | release id =>
    rw [settle, work]
    cases found : h.get? id with
    | none => rfl
    | some o =>
      simp only
      split <;> rfl

/-- The course has as many steps as there were dues, open ones and those of living objects, that
are no more. -/
theorem length_course (h : Heap) (dues : List Due) :
    (h.course dues).length + (h.settle dues).1.weight = dues.length + h.weight := by
  fun_induction course h dues with
  | case1 h => simp
  | case2 h due rest ih =>
    have worked := h.weight_work due
    rw [settle_cons, List.length_cons, List.length_cons]
    rw [List.length_append] at ih
    omega

/-- Working off dues one after the other comes to an end on every heap. -/
theorem advance_iterate (h : Heap) (dues : List Due) :
    advance^[(h.course dues).length] (h, dues) = ((h.settle dues).1, []) := by
  fun_induction course h dues with
  | case1 h => simp
  | case2 h due rest ih =>
    rw [List.length_cons, Function.iterate_succ_apply, advance, ih, settle_cons]

/-- Dues that stand in front are worked off, with all that they bring, before the others. -/
theorem course_append (h : Heap) (a b : List Due) :
    h.course (a ++ b) = h.course a ++ (h.settle a).1.course b := by
  fun_induction course h a with
  | case1 h => simp
  | case2 h due rest ih =>
    rw [List.cons_append, course_cons, ← List.append_assoc, ih, settle_cons, List.cons_append]

theorem settle_append (h : Heap) (a b : List Due) :
    h.settle (a ++ b) =
      (((h.settle a).1.settle b).1, (h.settle a).2 ++ ((h.settle a).1.settle b).2) := by
  fun_induction settle h a with
  | case1 h => rfl
  | case2 h label id rest h' effects eq ih =>
    rw [eq] at ih
    rw [List.cons_append, settle, ih]
    rfl
  | case3 h r id rest h' effects eq ih =>
    rw [eq] at ih
    rw [List.cons_append, settle, ih]
    rfl
  | case4 h id rest absent ih =>
    rw [List.cons_append, settle]
    split
    · exact ih
    · rename_i o found
      rw [absent] at found
      cases found
  | case5 h id rest o found one h' effects eq ih =>
    rw [eq, List.append_assoc] at ih
    rw [List.cons_append, settle]
    split
    · rename_i absent
      rw [found] at absent
      cases absent
    · rename_i o' found'
      cases Option.some.inj (found.symm.trans found')
      rw [if_pos one, ih]
      rfl
  | case6 h id rest o found several ih =>
    rw [List.cons_append, settle]
    split
    · rename_i absent
      rw [found] at absent
      cases absent
    · rename_i o' found'
      cases Option.some.inj (found.symm.trans found')
      rw [if_neg several]
      exact ih

theorem get?_work_of_none {h : Heap} {id : ObjectId} (gone : h.get? id = none) (due : Due) :
    (h.work due).1.get? id = none := by
  cases due with
  | note label j => exact gone
  | queue r j => exact gone
  | release j =>
    rw [work]
    cases found : h.get? j with
    | none => exact gone
    | some u =>
      have other : id ≠ j := by
        rintro rfl
        rw [gone] at found
        cases found
      simp only
      split
      · rwa [get?_erase_other h other]
      · rwa [unref, get?_modify_other h _ other]

/-- One due takes a reference from a living object at most, unless it is the last one. -/
theorem get?_work {h : Heap} {id : ObjectId} {o : Object} (found : h.get? id = some o) (due : Due) :
    (∃ n, (h.work due).1.get? id = some { o with refs := n }) ∨
      due = .release id ∧ o.refs ≤ 1 ∧ h.work due = (h.erase id, o.dues id) := by
  cases due with
  | note label j => exact Or.inl ⟨o.refs, found⟩
  | queue r j => exact Or.inl ⟨o.refs, found⟩
  | release j =>
    rw [work]
    by_cases same : id = j
    · subst same
      rw [found]
      by_cases last : o.refs ≤ 1
      · exact Or.inr ⟨rfl, last, if_pos last⟩
      · refine Or.inl ⟨o.refs - 1, ?_⟩
        simp only [if_neg last]
        rw [unref, get?_modify_same, found, Option.map_some]
    · cases found' : h.get? j with
      | none => exact Or.inl ⟨o.refs, found⟩
      | some u =>
        simp only
        split
        · exact Or.inl ⟨o.refs, by rw [get?_erase_other h same, found]⟩
        · exact Or.inl ⟨o.refs, by rw [unref, get?_modify_other h _ same, found]⟩

/-- Only the death of an object puts runs of its finalizers before what is open. -/
theorem runs_work {h : Heap} {id : ObjectId} {due : Due}
    (spared : (h.work due).1.get? id = none → h.get? id = none) :
    Due.runs id (h.work due).2 = [] := by
  cases due with
  | note label j => rfl
  | queue r j => rfl
  | release j =>
    rw [work] at spared ⊢
    cases found : h.get? j with
    | none => rfl
    | some u =>
      rw [found] at spared
      simp only at spared ⊢
      split
      · rename_i last
        rw [if_pos last] at spared
        refine u.runs_dues_other ?_
        rintro rfl
        rw [spared (get?_erase_same h j)] at found
        cases found
      · rfl

/-- Runs of finalizers are put there for nobody but the object that dies. -/
theorem get?_work_of_run {h : Heap} {due due' : Due} (brought : due' ∈ (h.work due).2)
    {id : ObjectId} (run : due'.subject? = some id) : (h.work due).1.get? id = none := by
  cases due with
  | note label j => cases brought
  | queue r j => cases brought
  | release j =>
    rw [work] at brought ⊢
    cases found : h.get? j with
    | none =>
      rw [found] at brought
      cases brought
    | some u =>
      rw [found] at brought
      simp only at brought ⊢
      split
      · rename_i last
        rw [if_pos last] at brought
        rw [u.subject_of_due brought run]
        exact get?_erase_same h j
      · rename_i several
        rw [if_neg several] at brought
        cases brought

end Heap

namespace Course

theorem runs_append (id : ObjectId) (a b : Course) : runs id (a ++ b) = runs id a ++ runs id b := by
  rw [runs, List.map_append, Due.runs_append]
  rfl

theorem runs_cons (id : ObjectId) (h : Heap) (due : Due) (c : Course) :
    runs id ((h, due) :: c) = Due.runs id [due] ++ runs id c :=
  Due.runs_cons id due _

end Course

namespace Heap

/-- A cascade runs those finalizers of a dead object that are open already, and no others. -/
theorem runs_of_dead {h : Heap} {id : ObjectId} (gone : h.get? id = none) (dues : List Due) :
    (h.course dues).runs id = Due.runs id dues := by
  fun_induction course h dues with
  | case1 h => rfl
  | case2 h due rest ih =>
    rw [Course.runs_cons, ih (get?_work_of_none gone due), Due.runs_append,
      runs_work fun _ => gone, List.nil_append, ← Due.runs_cons]

/-- Nor does it run finalizers of an object that is alive when it ends. -/
theorem runs_of_survivor {h : Heap} {id : ObjectId} {dues : List Due}
    (alive : (h.settle dues).1.isAlive id = true) :
    (h.course dues).runs id = Due.runs id dues := by
  fun_induction course h dues with
  | case1 h => rfl
  | case2 h due rest ih =>
    rw [settle_cons] at alive
    obtain ⟨o, living⟩ := (isAlive_iff _ id).1 alive
    have spared : (h.work due).1.get? id ≠ none := fun gone => by
      rw [(cascade_settle _ _).absent gone] at living
      cases living
    rw [Course.runs_cons, ih alive, Due.runs_append, runs_work fun gone => absurd gone spared,
      List.nil_append, ← Due.runs_cons]

/-- An object that dies in a cascade dies when its last reference is let go, and what it leaves
to be done is done next. -/
theorem course_of_death {h : Heap} {id : ObjectId} {o : Object} {dues : List Due}
    (found : h.get? id = some o) (dead : (h.settle dues).1.get? id = none) :
    ∃ before h' n rest,
      h.course dues = before ++ (h', .release id) :: (h'.erase id).course (o.dues id ++ rest) ∧
        h'.get? id = some { o with refs := n } ∧ n ≤ 1 ∧
          Course.runs id before ++ Due.runs id rest = Due.runs id dues := by
  fun_induction course h dues generalizing o with
  | case1 h =>
    rw [settle_nil, found] at dead
    cases dead
  | case2 h due rest ih =>
    rw [settle_cons] at dead
    rcases get?_work found due with ⟨n, left⟩ | ⟨rfl, last, worked⟩
    · obtain ⟨before, h', m, rest', parts, living, one, runs⟩ := ih left dead
      have silent : Due.runs id (h.work due).2 = [] := runs_work fun gone => by
        rw [left] at gone
        cases gone
      refine ⟨(h, due) :: before, h', m, rest', ?_, living, one, ?_⟩
      · rw [parts]
        rfl
      · rw [Course.runs_cons, List.append_assoc, runs, Due.runs_append, silent, List.nil_append,
          ← Due.runs_cons]
    · exact ⟨[], h, o.refs, rest, by rw [worked]; rfl, found, last, rfl⟩

/-- No finalizer runs before the death of its object. -/
theorem dead_of_run {h : Heap} {dues : List Due}
    (late : ∀ due ∈ dues, ∀ id, due.subject? = some id → h.get? id = none) {step : Heap × Due}
    (inside : step ∈ h.course dues) {id : ObjectId} (run : step.2.subject? = some id) :
    step.1.get? id = none := by
  fun_induction course h dues with
  | case1 h => cases inside
  | case2 h due rest ih =>
    rcases List.mem_cons.1 inside with rfl | inside
    · exact late due List.mem_cons_self id run
    · refine ih (fun due' opened j subject => ?_) inside
      rcases List.mem_append.1 opened with brought | waited
      · exact get?_work_of_run brought subject
      · exact get?_work_of_none (late due' (List.mem_cons_of_mem due waited) j subject) due

end Heap

/-- A course buries an object: the last reference is let go in a heap where the object is alive,
then its finalizers run, each with whatever follows from what it held, and only then goes what
the slots and the function of the object held. -/
structure Course.Buries (c : Course) (id : ObjectId) (o : Object) (before : Course) (h : Heap)
    (finals drops rest : Course) : Prop where
  parts : c = before ++ (h, .release id) :: (finals ++ (drops ++ rest))
  living : ∃ n ≤ 1, h.get? id = some { o with refs := n }
  finals_eq : finals = (h.erase id).course (o.finalizers.flatMap (Finalizer.dues id))
  drops_eq : drops = ((h.erase id).settle (o.finalizers.flatMap (Finalizer.dues id))).1.course
    (o.belongings.map .release)
  once : finals.runs id = o.finalizers.map (Finalizer.run id)
  silent : before.runs id = [] ∧ drops.runs id = [] ∧ rest.runs id = []

namespace Heap

/-- A release that an object does not survive buries it. -/
theorem buries {h : Heap} {id : ObjectId} {o : Object} {ids : List ObjectId}
    (found : h.get? id = some o) (dead : (h.release ids).1.get? id = none) :
    ∃ before h' finals drops rest,
      (h.course (ids.map .release)).Buries id o before h' finals drops rest := by
  obtain ⟨before, h', n, rest, parts, living, one, runs⟩ := course_of_death found dead
  rw [Due.runs_map_release, List.append_eq_nil_iff] at runs
  rw [Object.dues_eq, List.append_assoc, course_append, course_append] at parts
  have gone := get?_erase_same h' id
  have gone' := (cascade_settle _ (o.finalizers.flatMap (Finalizer.dues id))).absent gone
  have gone'' := (cascade_settle _ (o.belongings.map .release)).absent gone'
  refine ⟨before, h', _, _, _, parts, ⟨n, one, living⟩, rfl, rfl, ?_, runs.1, ?_, ?_⟩
  · rw [runs_of_dead gone, Due.runs_finalizers]
  · rw [runs_of_dead gone', Due.runs_map_release]
  · rw [runs_of_dead gone'', runs.2]

/-- The finalizers that a release runs for an object are all that it had if it dies, and none if
it survives. -/
theorem runs_release {h : Heap} {id : ObjectId} (ids : List ObjectId) :
    (h.course (ids.map .release)).runs id =
      if (h.release ids).1.isAlive id then []
      else ((h.get? id).elim [] Object.finalizers).map (Finalizer.run id) := by
  cases alive : (h.release ids).1.isAlive id with
  | true => rw [if_pos rfl, runs_of_survivor alive, Due.runs_map_release]
  | false =>
    rw [if_neg Bool.false_ne_true]
    have dead := (isAlive_eq_false _ id).1 alive
    cases found : h.get? id with
    | none => rw [runs_of_dead found, Due.runs_map_release]; rfl
    | some o =>
      obtain ⟨before, h', finals, drops, rest, b⟩ := buries found dead
      rw [b.parts, Course.runs_append, Course.runs_cons, Course.runs_append, Course.runs_append,
        b.silent.1, b.silent.2.1, b.silent.2.2, b.once]
      simp [Due.runs, Due.subject?]

end Heap

/-- What a due puts into the log. -/
def Due.event? : Due → Option String
  | note label id => some (label ++ idText id)
  | _ => none

/-- The object that a due queues in a registry. -/
def Due.queuedIn? (r : RegistryId) : Due → Option ObjectId
  | queue q id => if q = r then some id else none
  | _ => none

/-- The run of a finalizer that an effect tells of. -/
def Effect.due? : Effect → Option Due
  | died _ => none
  | noted label id => some (.note label id)
  | queued r id => some (.queue r id)

namespace Heap

/-- The effects of a cascade tell of the finalizers that its course runs, in the same order. -/
theorem effects_eq {α : Type} (f : Due → Option α) (silent : ∀ id, f (.release id) = none)
    (h : Heap) (dues : List Due) :
    (h.settle dues).2.filterMap (fun e => e.due?.bind f) =
      (h.course dues).filterMap fun step => f step.2 := by
  have passed : ∀ (h : Heap) (id : ObjectId) (c : Course),
      List.filterMap (fun step => f step.2) ((h, Due.release id) :: c) =
        c.filterMap fun step => f step.2 := fun h id c =>
    List.filterMap_cons_none (silent id)
  fun_induction settle h dues with
  | case1 h => rw [course_nil, List.filterMap_nil, List.filterMap_nil]
  | case2 h label id rest h' effects eq ih =>
    rw [eq] at ih
    have first : (Effect.noted label id).due?.bind f = f (.note label id) := rfl
    rw [course_cons, List.filterMap_cons, first, ih, List.filterMap_cons]
    rfl
  | case3 h r id rest h' effects eq ih =>
    rw [eq] at ih
    have first : (Effect.queued r id).due?.bind f = f (.queue r id) := rfl
    rw [course_cons, List.filterMap_cons, first, ih, List.filterMap_cons]
    rfl
  | case4 h id rest absent ih =>
    rw [course_cons, passed, work, absent]
    exact ih
  | case5 h id rest o found one h' effects eq ih =>
    rw [eq] at ih
    rw [course_cons, passed, work, found]
    simp only [if_pos one]
    exact ih
  | case6 h id rest o found several ih =>
    rw [course_cons, passed, work, found]
    simp only [if_neg several]
    exact ih

/-- What a release queues in a registry is what its course queues there. -/
theorem pushes_release (h : Heap) (ids : List ObjectId) (r : RegistryId) :
    Effect.pushes r (h.release ids).2 =
      (h.course (ids.map .release)).filterMap fun step => step.2.queuedIn? r := by
  have same : Effect.queuedIn? r = fun e => e.due?.bind (Due.queuedIn? r) := by
    funext e
    cases e <;> rfl
  rw [Effect.pushes, same, ← effects_eq (Due.queuedIn? r) fun _ => rfl]
  rfl

end Heap

namespace Host

variable (w : Host)

@[simp] theorem release_nil : w.release [] = w := by
  rw [release_eq, Heap.release_nil]
  rfl

theorem events_heard (effects : List Effect) :
    (effects.foldl hear w).events =
      w.events ++ effects.filterMap fun e => e.due?.bind Due.event? := by
  induction effects generalizing w with
  | nil => rw [List.foldl_nil, List.filterMap_nil, List.append_nil]
  | cons e rest ih =>
    rw [List.foldl_cons, ih]
    cases e with
    | died id => rfl
    | noted label id => exact List.append_assoc _ _ _
    | queued r id => rfl

/-- What a release logs is what its course runs. -/
theorem events_release (ids : List ObjectId) :
    (w.release ids).events =
      w.events ++ (w.heap.course (ids.map .release)).filterMap fun step => step.2.event? := by
  rw [release_eq, events_heard, ← Heap.effects_eq Due.event? fun _ => rfl]
  rfl

theorem queued_release (ids : List ObjectId) (r : RegistryId) :
    Host.registry? (w.release ids) r = (w.registry? r).map
      (·.enqueueAll ((w.heap.course (ids.map .release)).filterMap fun step =>
        step.2.queuedIn? r)) := by
  rw [registry?_release, Heap.pushes_release]

end Host

end Compound
