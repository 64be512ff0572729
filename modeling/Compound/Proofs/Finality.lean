import Compound.Proofs.Partings
import Compound.Proofs.Tags

/-!
Death is final, and it is the moment of the finalizers. A history is a run of moves with all its
deeds, and its course is what their releases have done, one due after the other. Of every object
the course runs no finalizer before the death, and at the death all those that were ever added, once
each and in their order, before anything goes that the object held by its slots or its function.
Whoever is dead stays dead, and says so through every weak name.
-/
namespace Compound

/-- A deed with the clients before and after it. -/
structure Doing where
  before : Client
  deed : Deed
  after : Client

/-- What the release of a deed has done, due by due. -/
def Doing.course (x : Doing) : Course :=
  (x.deed.letting x.before.host).1.course ((x.deed.letting x.before.host).2.map .release)

/-- What a deed logs and queues is what its course runs. A remark logs what it likes, and a registry
that the deed is about is not left as it was anyway. -/
structure Doing.Reports (x : Doing) : Prop where
  logged : x.deed ≠ .remark →
    x.after.host.events = x.before.host.events ++ x.course.filterMap fun step => step.2.event?
  queued : ∀ q, x.deed.Spares x.before.host q →
    x.after.host.registry? q = (x.before.host.registry? q).map
      (·.enqueueAll (x.course.filterMap fun step => step.2.queuedIn? q))

/-- A run of moves with all its deeds. -/
inductive History : Client → List Doing → Client → Prop
  | start (c : Client) : History c [] c
  | next {c c' c'' : Client} {past : List Doing} {d : Deed} (before : History c past c')
      (m : Move d c' c'') : History c (past ++ [⟨c', d, c''⟩]) c''

namespace History

/-- What the releases of a history have done. -/
def course (l : List Doing) : Course := l.flatMap Doing.course

/-- The finalizers that a history has added to an object. -/
def registered (id : ObjectId) (l : List Doing) : List Finalizer :=
  l.flatMap fun x => x.deed.registered id

theorem runs_course (id : ObjectId) (l : List Doing) :
    (course l).runs id = l.flatMap fun x => x.course.runs id := by
  induction l with
  | nil => rfl
  | cons x rest ih =>
    rw [course, List.flatMap_cons, Course.runs_append, List.flatMap_cons]
    exact congrArg _ ih

end History

/-- A run of moves has a history. -/
theorem Moves.history {allowed : Deed → Prop} {c c' : Client} (m : Moves allowed c c') :
    ∃ l, History c l c' := by
  induction m with
  | refl => exact ⟨[], .start c⟩
  | tail _ last ih =>
    obtain ⟨l, past⟩ := ih
    obtain ⟨d, -, move⟩ := last
    exact ⟨_, past.next move⟩

/-- The finalizers that wait at an object. At a dead one none does. -/
def Heap.pending (h : Heap) (id : ObjectId) : List Finalizer := (h.waiting id).getD []

theorem Heap.pending_of_dead {h : Heap} {id : ObjectId} (dead : h.isAlive id = false) :
    h.pending id = [] := by
  rw [pending, waiting, (isAlive_eq_false h id).1 dead]
  rfl

theorem Heap.pending_eq (h : Heap) (id : ObjectId) :
    h.pending id = (h.get? id).elim [] Object.finalizers := by
  rw [pending, waiting]
  cases h.get? id <;> rfl

/-- The finalizers that a deed runs for an object are all that waited if the object dies of it, and
none if it does not. -/
theorem Doing.runs_course (x : Doing) (id : ObjectId) :
    x.course.runs id =
      if (x.deed.parted x.before.host).isAlive id then []
      else (x.before.host.heap.pending id).map (Finalizer.run id) := by
  have same : (x.deed.letting x.before.host).1.pending id = x.before.host.heap.pending id := by
    rw [Heap.pending, x.deed.waiting_letting, Heap.pending]
  rw [course, Heap.runs_release, ← Heap.pending_eq, same]
  rfl

namespace Move

variable {d : Deed} {c c' : Client} {id : ObjectId}

/-- A deed that an object survives keeps the order of its finalizers, and adds after them. -/
theorem pending_of_alive (m : Move d c c') (s : c.Sound) (alive : c'.host.isAlive id = true) :
    c'.host.heap.pending id = c.host.heap.pending id ++ d.registered id := by
  by_cases born : d.born? c.host = some id
  · have none_added : d.registered id = [] := by
      cases d with
      | create function => rfl
      | _ => cases born
    rw [Heap.pending_of_dead (d.dead_of_born s born), none_added, Heap.pending, m.waiting_born born]
    rfl
  · have parted := (m.alive_eq born).symm.trans alive
    have same := Deed.waiting_parted parted
    rw [Heap.isAlive_eq_waiting, same] at parted
    obtain ⟨fs, waits⟩ := Option.isSome_iff_exists.1 parted
    rw [Heap.pending, m.waiting_eq born, same, Heap.pending, waits]
    rfl

/-- A deed that an object does not survive adds no finalizer, and runs those that waited. -/
theorem runs_of_dead (m : Move d c c') (s : c.Sound) (dead : c'.host.isAlive id = false) :
    (Doing.course ⟨c, d, c'⟩).runs id = (c.host.heap.pending id).map (Finalizer.run id) ∧
      d.registered id = [] := by
  constructor
  · have other : d.born? c.host ≠ some id := fun born => by
      rw [Host.isAlive, Heap.isAlive_eq_waiting, m.waiting_born born] at dead
      cases dead
    rw [Doing.runs_course, ← m.alive_eq other, dead, if_neg Bool.false_ne_true]
  · by_contra added
    rw [m.alive_of_registered s added] at dead
    cases dead

/-- A deed runs no finalizer of an object that is alive after it or was not alive before it. -/
theorem silent (m : Move d c c') (s : c.Sound)
    (spared : c'.host.isAlive id = true ∨ c.host.isAlive id = false) :
    (Doing.course ⟨c, d, c'⟩).runs id = [] := by
  rw [Doing.runs_course]
  cases before : c.host.isAlive id with
  | false => rw [Heap.pending_of_dead before, List.map_nil, ite_self]
  | true =>
    rw [before] at spared
    have other : d.born? c.host ≠ some id := fun born => by
      rw [d.dead_of_born s born] at before
      cases before
    rw [← m.alive_eq other, spared.resolve_right Bool.false_ne_true.symm, if_pos rfl]

theorem reports (m : Move d c c') : Doing.Reports ⟨c, d, c'⟩ := by
  refine ⟨m.logs, fun q spares => ?_⟩
  rw [m.hears spares, Heap.pushes_release]
  rfl

/-- A deed that kills an object buries it, with the finalizers that it had. -/
theorem buries (m : Move d c c') {o : Object} (found : c.host.object? id = some o)
    (old : id < c.host.heap.next) (dead : c'.host.isAlive id = false) :
    ∃ o' before h finals drops rest, (d.letting c.host).1.get? id = some o' ∧
      o'.finalizers = o.finalizers ∧
        (Doing.course ⟨c, d, c'⟩).Buries id o' before h finals drops rest := by
  have other : d.born? c.host ≠ some id := fun born => by
    cases d with
    | create function =>
      cases born
      exact Nat.lt_irrefl _ old
    | _ => cases born
  have waits := d.waiting_letting c.host id
  have found' : c.host.heap.get? id = some o := found
  rw [Heap.waiting, Heap.waiting, found', Option.map_some, Option.map_eq_some_iff] at waits
  obtain ⟨o', letting, finalizers⟩ := waits
  have gone := (Heap.isAlive_eq_false _ id).1 ((m.alive_eq other).symm.trans dead)
  obtain ⟨before, h, finals, drops, rest, buried⟩ := Heap.buries letting gone
  exact ⟨o', before, h, finals, drops, rest, letting, finalizers, buried⟩

end Move

namespace History

variable {c c' : Client} {l : List Doing} {id : ObjectId}

/-- Each deed of a history is a move between sound clients, and the objects evolve from there to
the end. -/
theorem inside (h : History c l c') (s : c.Sound) :
    c'.Sound ∧ ∀ x ∈ l, x.before.Sound ∧ Move x.deed x.before x.after ∧
      x.after.host.heap.Evolves c'.host.heap := by
  induction h with
  | start => exact ⟨s, fun x hx => (List.not_mem_nil hx).elim⟩
  | @next c' c'' past d before m ih =>
    obtain ⟨sound, deeds⟩ := ih
    refine ⟨m.sound sound, fun x hx => ?_⟩
    rcases List.mem_append.1 hx with earlier | last
    · obtain ⟨sound_x, move, evolves⟩ := deeds x earlier
      exact ⟨sound_x, move, evolves.trans m.evolves⟩
    · rw [List.mem_singleton.1 last]
      exact ⟨sound, m, .refl _⟩

/-- No finalizer of an object has run if the object is alive. -/
theorem silent (h : History c l c') (s : c.Sound) (alive : c'.host.isAlive id = true) :
    (course l).runs id = [] := by
  rw [runs_course, List.flatMap_eq_nil_iff]
  intro x hx
  obtain ⟨sound, move, evolves⟩ := (h.inside s).2 x hx
  refine move.silent sound ?_
  cases before : x.before.host.isAlive id with
  | false => exact Or.inr rfl
  | true =>
    -- it is alive at the end, so it did not die in between
    obtain ⟨o, found⟩ := (Heap.isAlive_iff _ id).1 before
    have old := Nat.lt_of_lt_of_le (sound.accounted.bounded id o found) move.evolves.next_le
    exact Or.inl (evolves.alive old alive)

/-- What waits at a living object is what waited at the start and what was added, in order; and
these are the finalizers that have run if the object is dead. -/
theorem kept (h : History c l c') (s : c.Sound) (id : ObjectId) :
    (c'.host.isAlive id = true →
        c'.host.heap.pending id = c.host.heap.pending id ++ registered id l) ∧
      (c'.host.isAlive id = false →
        (course l).runs id =
          (c.host.heap.pending id ++ registered id l).map (Finalizer.run id)) := by
  induction h with
  | start =>
    refine ⟨fun _ => (List.append_nil _).symm, fun dead => ?_⟩
    rw [Heap.pending_of_dead dead]
    rfl
  | @next c' c'' past d before m ih =>
    have sound := (before.inside s).1
    obtain ⟨waits, ran⟩ := ih
    have added : registered id (past ++ [⟨c', d, c''⟩]) =
        registered id past ++ d.registered id := by
      rw [registered, List.flatMap_append]
      exact congrArg _ (List.append_nil _)
    have split : (course (past ++ [⟨c', d, c''⟩])).runs id =
        (course past).runs id ++ (Doing.course ⟨c', d, c''⟩).runs id := by
      rw [course, List.flatMap_append, Course.runs_append]
      exact congrArg _ (congrArg _ (List.append_nil _))
    rw [added]
    constructor
    · intro alive
      rw [m.pending_of_alive sound alive]
      cases lived : c'.host.isAlive id with
      | true => rw [waits lived, List.append_assoc]
      | false =>
        -- it is new, so nothing has run for it, and nothing was added to it before
        have none_ran := (before.next m).silent s alive
        rw [split, List.append_eq_nil_iff, ran lived, List.map_eq_nil_iff] at none_ran
        rw [Heap.pending_of_dead lived, ← List.append_assoc, none_ran.1]
    · intro dead
      obtain ⟨runs, none_added⟩ := m.runs_of_dead sound dead
      rw [split, runs, none_added, List.append_nil]
      cases lived : c'.host.isAlive id with
      | true => rw [before.silent s lived, List.nil_append, waits lived]
      | false => rw [ran lived, Heap.pending_of_dead lived, List.map_nil, List.append_nil]

end History

/-- How a history treats the finalizers of an object, from its first host to its last one. -/
structure History.Finalizes (l : List Doing) (w w' : Host) (id : ObjectId) : Prop where
  /-- A finalizer runs in a heap from which its object is gone. -/
  late : ∀ step ∈ course l, step.2.subject? = some id → step.1.get? id = none
  /-- While the object lives, none has run, and all wait in the order in which they were added. -/
  silent : w'.isAlive id = true → (course l).runs id = [] ∧
    w'.heap.pending id = w.heap.pending id ++ registered id l
  /-- When it is dead, each of them has run once, in that order and for no other object. -/
  once : w'.isAlive id = false →
    (course l).runs id = (w.heap.pending id ++ registered id l).map (Finalizer.run id)
  /-- The deed that killed the object has run them before it let go anything that the slots and
  the function of the object held. -/
  buried : ∀ x ∈ l, ∀ o, x.before.host.object? id = some o → x.after.host.isAlive id = false →
    ∃ o' before h finals drops rest, (x.deed.letting x.before.host).1.get? id = some o' ∧
      o'.finalizers = o.finalizers ∧ x.course.Buries id o' before h finals drops rest

/-- Every history from a sound client treats finalizers so. -/
theorem History.finalizes {c c' : Client} {l : List Doing} (h : History c l c') (s : c.Sound)
    (id : ObjectId) : Finalizes l c.host c'.host id := by
  obtain ⟨waits, ran⟩ := h.kept s id
  refine ⟨fun step hs run => ?_, fun alive => ⟨h.silent s alive, waits alive⟩, ran,
    fun x hx o found dead => ?_⟩
  · obtain ⟨x, -, inside⟩ := List.mem_flatMap.1 hs
    refine Heap.dead_of_run (fun due opened j subject => ?_) inside run
    obtain ⟨k, -, rfl⟩ := List.mem_map.1 opened
    cases subject
  · obtain ⟨sound, move, -⟩ := (h.inside s).2 x hx
    exact move.buries found (sound.accounted.bounded id o found) dead

namespace Session

variable {s : Session} {id : ObjectId}

/-- What a session says of an object that is alive or not: every weak name tells which, and a
reference is had through it exactly if the object is alive. -/
structure Tells (s : Session) (id : ObjectId) (lives : Bool) : Prop where
  isAlive : s.host.isAlive id = lives
  alive : ∀ name, s.weak.get? name = some id → (s.answer (.alive name)).1.result =
    .ok (.weak lives id ("WeakObject(" ++ idText id ++ ")"))
  recover : ∀ name keep, s.weak.get? name = some id → (s.answer (.recover name keep)).1.result =
    .ok (if lives then .value (s.view (.object id)) else .nothing)

theorem tells (s : Session) (id : ObjectId) : s.Tells id (s.host.isAlive id) := by
  refine ⟨rfl, fun name found => ?_, fun name keep found => ?_⟩
  · rw [answer_result, step, weakName, found]
    rfl
  · rw [answer_result, step, weakName, found]
    have view : view { s with host := s.host.quiet.retain [id] } (.object id) =
        s.view (.object id) := by
      have kept : Host.isCallable (s.host.quiet.retain [id]) id = s.host.isCallable id := by
        have retained : Host.object? (s.host.quiet.retain [id]) id = _ :=
          s.host.heap.get?_retain [id] id
        rw [Host.isCallable, Host.function?, retained, Host.isCallable, Host.function?,
          Host.object?]
        cases s.host.heap.get? id <;> rfl
      simp only [Session.view, kept]
    have same : s.host.quiet.isAlive id = s.host.isAlive id := rfl
    simp only [after, same]
    cases s.host.isAlive id with
    | true =>
      rw [if_pos rfl, if_pos rfl, ← view]
      rfl
    | false => rfl

/-- In every session that a script reaches, whatever is done next comes to a history of deeds, and
every such history treats the finalizers of each object as it should: none runs while the object
lives, and at its death each runs once for the object, in order, and before the object lets go what
it held by its slots and its function. What the deeds log and queue is what their courses run, and
so it is of every release. At all times weak names tell who is alive, and whoever has died is dead
ever after. The cascade that a release sets off ends on every heap. -/
theorem finalizers_run_once_at_death (reach : s.Reachable) (ts : List Step) :
    (∃ l, History s.client l (s.run ts).client) ∧
      (∀ l, History s.client l (s.run ts).client → (∀ x ∈ l, x.Reports) ∧
        ∀ id, History.Finalizes l s.host (s.run ts).host id) ∧
      (∀ (w : Host) (ids : List ObjectId),
        (w.release ids).events =
          w.events ++ (w.heap.course (ids.map .release)).filterMap (fun step => step.2.event?) ∧
        ∀ r, Host.registry? (w.release ids) r = (w.registry? r).map
          (·.enqueueAll ((w.heap.course (ids.map .release)).filterMap fun step =>
            step.2.queuedIn? r))) ∧
      (∀ id, (s.run ts).Tells id ((s.run ts).host.isAlive id)) ∧
      (∀ id, (s.run ts).host.heap.Buried id → ∀ us, (s.run (ts ++ us)).Tells id false) ∧
      ∀ (h : Heap) (dues : List Due), ∃ n ≤ dues.length + h.weight,
        Heap.advance^[n] (h, dues) = ((h.settle dues).1, []) := by
  have sound := reach.sound
  refine ⟨(moves_run sound ts).history, fun l history => ⟨fun x inside => ?_, fun id =>
      history.finalizes sound.client id⟩,
    fun w ids => ⟨w.events_release ids, w.queued_release ids⟩, fun id => tells _ id,
    fun id buried us => ?_, fun h dues => ⟨_, ?_, h.advance_iterate dues⟩⟩
  · exact ((history.inside sound.client).2 x inside).2.1.reports
  · have later := (moves_run (sound_run sound ts) us).evolves.buried buried
    rw [run_append, ← (Heap.isAlive_eq_false _ id).2 later.1]
    exact tells _ id
  · have := h.length_course dues
    omega

/-- An object with two notes and a watch between them is dropped. The first note holds an object and
lets it go before the next finalizer runs, and the slot of the object is let go at the end. -/
theorem finalizers_run_once_at_death_dropped :
    let s := (start (some false)).run [.create (some "a"), .create (some "captured"),
      .create (some "child"), .onDrop "captured" none "captured", .onDrop "child" none "child",
      .onDrop "first" (some "captured") "a", .tagRecord "r" "a", .onDrop "second" none "a",
      .set "a" (.name "k") (.handle "child"), .weaken "a" "w", .drop "captured", .drop "child"]
    let quiet : Client := ⟨s.handles.values, s.host.quiet⟩
    let l : List Doing := [⟨s.client, .remark, quiet⟩,
      ⟨quiet, .release [1], (s.run [.drop "a"]).client⟩]
    History s.client l (s.run [.drop "a"]).client ∧
      (History.course l).runs 1 = [.note "first" 1, .queue 0 1, .note "second" 1] ∧
      (s.answer (.drop "a")).1.events = ["first#1", "captured#2", "second#1", "child#3"] ∧
      ((s.run [.drop "a"]).answer (.alive "w")).1.result =
        .ok (.weak false 1 "WeakObject(#1)") ∧
      ((s.run [.drop "a"]).answer (.recover "w" none)).1.result = .ok .nothing := by
  intro s quiet l
  have reach : s.Reachable := ⟨_, _, rfl⟩
  obtain ⟨-, finalizes, -, -, buried, -⟩ := finalizers_run_once_at_death reach [.drop "a"]
  have held : s.handles.values = [1] ∧ (s.handles.erase "a").values = [] := by decide +kernel
  have found : s.handle "a" = .ok 1 := by decide +kernel
  have dropped : s.run [.drop "a"] = dropHandle { s with host := s.host.quiet } "a" 1 := by
    have found' : handle { s with host := s.host.quiet } "a" = .ok 1 := found
    rw [run_cons, answer_session, step, found']
    rfl
  have history : History s.client l (s.run [.drop "a"]).client := by
    have quieted : Move .remark s.client quiet := .remark s.host.counters [] []
    have released : Move (.release [1]) quiet (s.run [.drop "a"]).client := by
      have before : quiet = ⟨0 + (([1] : List ObjectId) : Multiset ObjectId), s.host.quiet⟩ := by
        rw [zero_add, ← held.1]
      have after : (s.run [.drop "a"]).client = ⟨0, s.host.quiet.release [1]⟩ := by
        rw [dropped]
        exact congrArg (Client.mk · _) (congrArg _ held.2)
      rw [before, after]
      exact .release
    exact ((History.start _).next quieted).next released
  have dead : (s.run [.drop "a"]).host.isAlive 1 = false := by decide +kernel
  have waited : s.host.heap.pending 1 =
      [.note "first" (some 2), .watch 0, .note "second" none] := by decide +kernel
  have tells := buried 1 ⟨(Heap.isAlive_eq_false _ 1).1 dead, by decide +kernel⟩ []
  have named : (s.run ([.drop "a"] ++ [])).weak.get? "w" = some 1 := by decide +kernel
  have text : "WeakObject(" ++ idText 1 ++ ")" = "WeakObject(#1)" := by decide +kernel
  refine ⟨history, ?_, by decide +kernel, text ▸ tells.alive "w" named,
    tells.recover "w" none named⟩
  rw [((finalizes l history).2 1).once dead, waited]
  rfl

end Session

end Compound
