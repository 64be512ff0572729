import Compound.Proofs.Course
import Compound.Proofs.Runs
import Compound.Proofs.Survivors

/-!
Releases in any order. Whoever lets go the same references in another order may see other objects
die first, but the same objects die: those that survive the one order are kept by each other and
from outside, so they survive every order. What the survivors hold fixes their reference counts,
and every finalizer runs for the death of its object, so the two orders end in one heap and differ
in nothing but the order in which logs and queues hear of the deaths.
-/
namespace Compound

namespace Heap

namespace Cascade

variable {h h₁ h₂ : Heap} {dues dues₁ dues₂ : List Due} {effects effects₁ effects₂ : List Effect}

/-- No cascade changes the order in which objects were made. -/
theorem keys_sublist (c : Cascade h dues h₁ effects) : h₁.live.keys.Sublist h.live.keys := by
  induction c with
  | done h => exact List.Sublist.refl _
  | note label id next ih => exact ih
  | queue r id next ih => exact ih
  | gone absent next ih => exact ih
  | @last h h' rest effects id o found one next ih =>
    exact ih.trans (Table.keys_erase_sublist h.live id)
  | @several h h' rest effects id o found more next ih =>
    have same : (h.unref id).live.keys = h.live.keys := Table.keys_modify h.live id _
    rwa [same] at ih

/-- Two cascades with the same survivors leave them in the same order. -/
theorem keys_eq (c₁ : Cascade h dues₁ h₁ effects₁) (c₂ : Cascade h dues₂ h₂ effects₂)
    (alive : ∀ id, h₁.isAlive id = h₂.isAlive id) : h₁.live.keys = h₂.live.keys := by
  have living : ∀ (h : Heap) (id : ObjectId), id ∈ h.live.keys ↔ h.isAlive id = true :=
    fun h id => by
      rw [Table.mem_keys, isAlive_iff]
      rfl
  refine Table.eq_of_sublists h.live.keys_nodup c₁.keys_sublist c₂.keys_sublist fun id => ?_
  rw [living, living, alive]

/-- They leave each of them alike, but for the number of references to it. -/
theorem uncounted_eq (c₁ : Cascade h dues₁ h₁ effects₁) (c₂ : Cascade h dues₂ h₂ effects₂)
    (alive : ∀ id, h₁.isAlive id = h₂.isAlive id) (id : ObjectId) :
    (h₁.get? id).map (fun o => { o with refs := 0 }) =
      (h₂.get? id).map fun o => { o with refs := 0 } := by
  have lives := alive id
  cases found : h₁.get? id with
  | none =>
    rw [(isAlive_eq_false _ id).2 found] at lives
    rw [(isAlive_eq_false _ id).1 lives.symm]
  | some u =>
    rw [(isAlive_iff _ id).2 ⟨u, found⟩] at lives
    obtain ⟨u', found'⟩ := (isAlive_iff _ id).1 lives.symm
    obtain ⟨o, n, was, rfl⟩ := c₁.survivor found
    obtain ⟨o', n', was', rfl⟩ := c₂.survivor found'
    cases Option.some.inj (was.symm.trans was')
    rw [found']
    rfl

/-- So if the same is held from outside afterwards, they end in the same heap: what the survivors
hold fixes the counts. -/
theorem eq_of_alive (c₁ : Cascade h dues₁ h₁ effects₁) (c₂ : Cascade h dues₂ h₂ effects₂)
    {outside : Multiset ObjectId} (a₁ : h₁.Accounted outside) (a₂ : h₂.Accounted outside)
    (alive : ∀ id, h₁.isAlive id = h₂.isAlive id) : h₁ = h₂ := by
  have keys := c₁.keys_eq c₂ alive
  have uncounted := c₁.uncounted_eq c₂ alive
  have holdings : h₁.holdings = h₂.holdings := by
    refine Table.gather_congr _ keys fun id => ?_
    have held := congrArg (Option.map Object.references) (uncounted id)
    rwa [Option.map_map, Option.map_map] at held
  have counts : ∀ id, h₁.refs id = h₂.refs id := fun id => by
    rw [← a₁.exact id, ← a₂.exact id, holdings]
  have objects : ∀ id, h₁.get? id = h₂.get? id := fun id => by
    have shape := uncounted id
    have count := counts id
    cases found : h₁.get? id with
    | none =>
      rw [found] at shape
      exact (Option.map_eq_none_iff.1 shape.symm).symm
    | some u =>
      rw [found, Option.map_some] at shape
      obtain ⟨u', found', same⟩ := Option.map_eq_some_iff.1 shape.symm
      rw [refs_of_get? _ found, refs_of_get? _ found'] at count
      rw [found']
      obtain ⟨refs, slots, extensible, function, finalizers⟩ := u
      obtain ⟨refs', slots', extensible', function', finalizers'⟩ := u'
      cases same
      cases count
      rfl
  have next : h₁.next = h₂.next := c₁.next_eq.trans c₂.next_eq.symm
  have live : h₁.live = h₂.live := Table.ext_get? keys objects
  calc h₁ = ⟨h₁.next, h₁.live⟩ := rfl
    _ = h₂ := by rw [next, live]

end Cascade

section Orders

variable {h : Heap} {outside : Multiset ObjectId} {ids ids' : List ObjectId}

/-- The survivors of a release keep each other, with what is held from outside. -/
theorem Accounted.sustained (a : h.Accounted (outside + (ids : Multiset ObjectId))) :
    h.Sustained outside fun id => (h.release ids).1.isAlive id = true := by
  have settled := a.release ids
  have survivor : ∀ {id : ObjectId} {u : Object}, (h.release ids).1.get? id = some u →
      ∃ o n, h.get? id = some o ∧ u = { o with refs := n } :=
    (cascade_settle h (ids.map .release)).survivor
  refine ⟨fun id alive => ?_, fun id alive => ?_⟩
  · obtain ⟨u, living⟩ := (isAlive_iff _ id).1 alive
    obtain ⟨o, n, found, -⟩ := survivor living
    exact (isAlive_iff h id).2 ⟨o, found⟩
  · obtain ⟨u, living⟩ := (isAlive_iff _ id).1 alive
    have counted := settled.exact id
    rw [refs_of_get? _ living] at counted
    have positive := settled.positive id u living
    by_cases inside : id ∈ outside
    · exact Or.inl inside
    · rw [Multiset.count_eq_zero_of_notMem inside, Nat.zero_add] at counted
      have held : id ∈ (h.release ids).1.holdings := Multiset.count_pos.1 (by omega)
      obtain ⟨v, stored, holds⟩ := (Table.mem_gather _ _).1 held
      obtain ⟨j, living'⟩ := (Table.mem_values_iff _).1 stored
      obtain ⟨o, n, found, rfl⟩ := survivor living'
      exact Or.inr ⟨j, o, (isAlive_iff _ j).2 ⟨_, living'⟩, found, holds⟩

theorem alive_of_perm (a : h.Accounted (outside + (ids : Multiset ObjectId)))
    (perm : ids.Perm ids') {id : ObjectId} (alive : (h.release ids).1.isAlive id = true) :
    (h.release ids').1.isAlive id = true := by
  have a' := a
  rw [Multiset.coe_eq_coe.2 perm, ← Due.owed_map_release] at a'
  exact (Sustained.cascade (cascade_settle h _) a.sustained a').alive id alive

/-- Whatever the order of a release, it ends in the same heap. -/
theorem release_perm (a : h.Accounted (outside + (ids : Multiset ObjectId)))
    (perm : ids.Perm ids') : (h.release ids).1 = (h.release ids').1 := by
  have a' := a
  rw [Multiset.coe_eq_coe.2 perm] at a'
  exact Cascade.eq_of_alive (cascade_settle h _) (cascade_settle h _) (a.release ids)
    (a'.release ids') fun id =>
      Bool.eq_iff_iff.2 ⟨alive_of_perm a perm, alive_of_perm a' perm.symm⟩

/-- Whatever the order of a release, it runs the finalizers of each object alike. -/
theorem runs_perm (a : h.Accounted (outside + (ids : Multiset ObjectId)))
    (perm : ids.Perm ids') (id : ObjectId) :
    (h.course (ids.map .release)).runs id = (h.course (ids'.map .release)).runs id := by
  rw [runs_release, runs_release, release_perm a perm]

end Orders

end Heap

/-- Courses that run the finalizers of each object alike tell the same, in some order. -/
theorem Course.told_perm {c c' : Course} (same : ∀ id, c.runs id = c'.runs id) {α : Type}
    (f : Due → Option α) (silent : ∀ id, f (.release id) = none) :
    (c.filterMap fun step => f step.2).Perm (c'.filterMap fun step => f step.2) := by
  have told : ∀ c : Course, (c.filterMap fun step => f step.2) =
      ((c.map Prod.snd).filter (·.subject?.isSome)).filterMap f := fun c => by
    rw [List.filterMap_filter, List.filterMap_map]
    refine List.filterMap_congr fun step _ => ?_
    rw [Function.comp_apply]
    cases step.2 with
    | release id => exact silent id
    | note label id => rfl
    | queue r id => rfl
  rw [told, told]
  refine List.Perm.filterMap f (List.perm_iff_count.2 fun due => ?_)
  cases subject : due.subject? with
  | none =>
    have absent : ∀ l : List Due, (l.filter (·.subject?.isSome)).count due = 0 := fun l =>
      List.count_eq_zero.2 fun inside => by
        rw [List.mem_filter, subject] at inside
        cases inside.2
    rw [absent, absent]
  | some id =>
    have counted : ∀ c : Course, ((c.map Prod.snd).filter (·.subject?.isSome)).count due =
        (c.runs id).count due := fun c => by
      rw [Course.runs, Due.runs, List.count_filter (by simp [subject]),
        List.count_filter (by simp [subject])]
    rw [counted, counted, same]

/-- Two registries that have heard of the same deaths, in some order. -/
structure Registry.Coincides (reg reg' : Registry) : Prop where
  config : reg'.config = reg.config
  tags : reg'.tags = reg.tags
  pairing : reg'.pairing = reg.pairing
  queue : reg'.queue.Perm reg.queue

namespace Host

/-- Two hosts that differ at most in the order of what was logged and queued. -/
structure Coincides (w w' : Host) : Prop where
  heap : w'.heap = w.heap
  cells : w'.cells = w.cells
  counters : w'.counters = w.counters
  numbering : w'.nextRegistry = w.nextRegistry
  notices : w'.notices = w.notices
  events : w'.events.Perm w.events
  registries : ∀ r, Option.Rel Registry.Coincides (w.registry? r) (w'.registry? r)

theorem heard_notices (w : Host) (effects : List Effect) :
    (effects.foldl hear w).notices = w.notices := by
  induction effects generalizing w with
  | nil => rfl
  | cons e rest ih =>
    rw [List.foldl_cons, ih]
    cases e <;> rfl

theorem release_notices (w : Host) (ids : List ObjectId) : (w.release ids).notices = w.notices := by
  rw [release_eq, heard_notices]

/-- References that are let go in another order leave a host that coincides. -/
theorem coincides_release {w : Host} {outside : Multiset ObjectId} {ids ids' : List ObjectId}
    (a : w.heap.Accounted (outside + (ids : Multiset ObjectId))) (perm : ids.Perm ids') :
    (w.release ids).Coincides (w.release ids') := by
  have runs := Heap.runs_perm a perm
  refine ⟨?_, ?_, ?_, ?_, ?_, ?_, fun r => ?_⟩
  · rw [release_heap, release_heap, Heap.release_perm a perm]
  · rw [release_cells, release_cells]
  · rw [release_counters, release_counters]
  · rw [release_nextRegistry, release_nextRegistry]
  · rw [release_notices, release_notices]
  · rw [events_release, events_release]
    exact (Course.told_perm runs Due.event? fun _ => rfl).symm.append_left _
  · rw [queued_release, queued_release]
    cases w.registry? r with
    | none => exact .none
    | some reg =>
      refine .some ⟨rfl, rfl, rfl, ?_⟩
      exact (Course.told_perm runs (Due.queuedIn? r) fun _ => rfl).symm.append_left _

/-- Close a registry, and let the values of its boxes go in a given order. -/
def closeIn (w : Host) (r : RegistryId) (order : List ObjectId) : Host :=
  { w with registries := w.registries.erase r }.release order

/-- The order of a registry that is closed is the one of its table. -/
theorem closeRegistry_eq {w : Host} {r : RegistryId} {reg : Registry}
    (found : w.registry? r = some reg) :
    w.closeRegistry r = w.closeIn r reg.pairing.values.values := by
  rw [closeRegistry, found]
  rfl

section Parts

variable (w : Host)

theorem heard_withHeap (h : Heap) (effects : List Effect) :
    effects.foldl hear { w with heap := h } = { effects.foldl hear w with heap := h } := by
  induction effects generalizing w with
  | nil => rfl
  | cons e rest ih =>
    rw [List.foldl_cons, List.foldl_cons, ← ih]
    cases e <;> rfl

/-- References may be let go in parts. -/
theorem release_append (a b : List ObjectId) : w.release (a ++ b) = (w.release a).release b := by
  have parts : w.heap.release (a ++ b) = (((w.heap.release a).1.release b).1,
      (w.heap.release a).2 ++ ((w.heap.release a).1.release b).2) := by
    rw [Heap.release, List.map_append, Heap.settle_append]
    rfl
  have first := heard_withHeap w (w.heap.release a).1 (w.heap.release a).2
  have both := heard_withHeap w ((w.heap.release a).1.release b).1 (w.heap.release a).2
  calc w.release (a ++ b)
      = ((w.heap.release a).1.release b).2.foldl hear ((w.heap.release a).2.foldl hear
          { w with heap := ((w.heap.release a).1.release b).1 }) := by
        rw [release_eq, parts, List.foldl_append]
    _ = ((w.heap.release a).1.release b).2.foldl hear
          { w.release a with heap := ((w.heap.release a).1.release b).1 } := by
        rw [both, release_eq w a, first]
    _ = (w.release a).release b := by
        rw [release_eq (w.release a) b, release_heap]

/-- What was logged before does not matter to who hears of a release. -/
theorem quiet_release (ids : List ObjectId) :
    (w.quiet.release ids).quiet = (w.release ids).quiet := by
  have heard : ∀ (effects : List Effect) (u u' : Host), u.quiet = u'.quiet →
      (effects.foldl hear u).quiet = (effects.foldl hear u').quiet := by
    intro effects
    induction effects with
    | nil => exact fun u u' same => same
    | cons e rest ih =>
      refine fun u u' same => ih _ _ ?_
      cases e with
      | died id => exact same
      | noted label id => exact same
      | queued r id => exact congrArg (fun v : Host => v.modifyRegistry r (·.enqueue id)) same
  exact heard _ _ _ rfl

theorem Coincides.quiet {w w' : Host} (c : w.Coincides w') : w.quiet.Coincides w'.quiet :=
  ⟨c.heap, c.cells, c.counters, c.numbering, rfl, .refl _, c.registries⟩

end Parts

end Host

namespace Session

variable {s : Session}

/-- The objects of some handles. -/
def objects (s : Session) (names : List String) : List ObjectId :=
  names.filterMap s.handles.get?

/-- What comes of dropping a handle. -/
theorem answer_drop {name : String} {id : ObjectId} (found : s.handles.get? name = some id) :
    (s.answer (.drop name)).2 =
        { s with handles := s.handles.erase name, host := s.host.quiet.release [id] } ∧
      (s.answer (.drop name)).1.events = (s.host.quiet.release [id]).events := by
  have step : Session.step { s with host := s.host.quiet } (.drop name) =
      (.ok .nothing,
        { s with handles := s.handles.erase name, host := s.host.quiet.release [id] }) := by
    rw [Session.step, handle, found]
    rfl
  rw [answer, step]
  exact ⟨rfl, rfl⟩

/-- Handles that are dropped one after the other let go their objects in that order. -/
theorem run_drops (names : List String) (nodup : names.Nodup)
    (bound : ∀ n ∈ names, (s.handles.get? n).isSome = true) :
    s.run (names.map .drop) =
        { s with
          handles := names.foldl Table.erase s.handles
          host := (s.run (names.map .drop)).host } ∧
      (s.run (names.map .drop)).host.quiet = (s.host.release (s.objects names)).quiet ∧
      (s.answers (names.map .drop)).flatMap Answer.events =
        (s.host.quiet.release (s.objects names)).events := by
  induction names generalizing s with
  | nil =>
    refine ⟨rfl, ?_, ?_⟩
    · exact congrArg Host.quiet (s.host.release_nil).symm
    · exact congrArg Host.events (s.host.quiet.release_nil).symm
  | cons name rest ih =>
    obtain ⟨fresh, nodup⟩ := List.nodup_cons.1 nodup
    obtain ⟨id, found⟩ := Option.isSome_iff_exists.1 (bound name List.mem_cons_self)
    obtain ⟨dropped, told⟩ := answer_drop found
    -- the other handles stay bound as they were
    have others : ∀ n ∈ rest, (s.answer (.drop name)).2.handles.get? n = s.handles.get? n := by
      intro n inside
      rw [dropped]
      exact Table.get?_erase_other _ fun same => fresh (same ▸ inside)
    have first : s.objects (name :: rest) = [id] ++ s.objects rest := by
      rw [objects, List.filterMap_cons_some found]
      rfl
    have later : (s.answer (.drop name)).2.objects rest = s.objects rest :=
      List.filterMap_congr others
    obtain ⟨shape, host, events⟩ := ih nodup fun n inside => by
      rw [others n inside]
      exact bound n (List.mem_cons_of_mem name inside)
    have run : s.run ((name :: rest).map .drop) =
        (s.answer (.drop name)).2.run (rest.map .drop) := rfl
    have answers : (s.answers ((name :: rest).map .drop)).flatMap Answer.events =
        (s.answer (.drop name)).1.events ++
          ((s.answer (.drop name)).2.answers (rest.map .drop)).flatMap Answer.events := rfl
    rw [later] at host events
    rw [run, answers, first]
    refine ⟨?_, ?_, ?_⟩
    · rw [shape, dropped]
      rfl
    · rw [host, dropped, ← Host.release_append, Host.quiet_release]
    · have tail := Host.events_release (s.host.quiet.release [id]).quiet (s.objects rest)
      rw [told, events, dropped, Host.release_append,
        Host.events_release (s.host.quiet.release [id])]
      exact congrArg _ tail

/-- In every session that a script reaches, references may be let go in any order: those to the
values of the boxes of a registry that is closed, and those of handles that are dropped. The same
objects live on as they were, other registries have the same entries, and only the order in which
logs and queues hear of the deaths may differ. -/
theorem release_order_irrelevant (reach : s.Reachable) :
    (∀ r reg, s.host.registry? r = some reg →
      s.host.closeRegistry r = s.host.closeIn r reg.pairing.values.values ∧
      ∀ order order' : List ObjectId, order.Perm reg.pairing.values.values →
        order'.Perm reg.pairing.values.values →
          (s.host.closeIn r order).Coincides (s.host.closeIn r order')) ∧
    ∀ names names' : List String, names.Nodup →
      (∀ n ∈ names, (s.handles.get? n).isSome = true) → names.Perm names' →
        let dropped := s.run (names.map .drop)
        let dropped' := s.run (names'.map .drop)
        dropped' = { dropped with host := dropped'.host } ∧
          dropped.host.quiet.Coincides dropped'.host.quiet ∧
          ((s.answers (names'.map .drop)).flatMap Answer.events).Perm
            ((s.answers (names.map .drop)).flatMap Answer.events) := by
  have sound := reach.sound.client
  refine ⟨fun r reg found => ⟨Host.closeRegistry_eq found, fun order order' perm perm' => ?_⟩,
    fun names names' nodup bound perm => ?_⟩
  · have erased := (sound.eraseRegistry found).accounted
    rw [← Multiset.coe_eq_coe.2 perm, add_right_comm] at erased
    exact Host.coincides_release erased (perm.trans perm'.symm)
  · have accounted := sound.accounted
    have held := s.handles.values_foldl_erase names nodup bound
    have objects : (s.objects names).Perm (s.objects names') := perm.filterMap _
    rw [client, held, add_right_comm] at accounted
    have nodup' := perm.nodup_iff.1 nodup
    have bound' : ∀ n ∈ names', (s.handles.get? n).isSome = true := fun n inside =>
      bound n (perm.mem_iff.2 inside)
    obtain ⟨shape, host, events⟩ := run_drops names nodup bound
    obtain ⟨shape', host', events'⟩ := run_drops names' nodup' bound'
    refine ⟨?_, ?_, ?_⟩
    · have whole := congrArg (fun d : Session => { d with
        host := (s.run (names'.map .drop)).host }) shape.symm
      rw [s.handles.foldl_erase_perm perm] at whole
      exact shape'.trans whole
    · rw [host, host']
      exact (Host.coincides_release accounted objects).quiet
    · rw [events, events']
      exact (Host.coincides_release (w := s.host.quiet) accounted objects).events

/-- Two values share an object and hold each one half of what keeps it. Which of them goes first
shows in the log and in the queue, and nowhere else; so it is with the handles of two objects. -/
theorem release_order_irrelevant_shared :
    let s := (start (some false)).run [.openRegistry "other" (.reclaiming false),
      .create (some "u"), .create (some "v"), .create (some "shared"), .create (some "box"),
      .create (some "box'"), .set "u" (.name "k") (.handle "shared"),
      .set "v" (.name "k") (.handle "shared"), .onDrop "u" none "u", .onDrop "v" none "v",
      .onDrop "shared" none "shared", .onDrop "box" none "box", .onDrop "box'" none "box'",
      .tagRecord "other" "u", .tagRecord "other" "v", .tagRecord "other" "shared",
      .pair "r" "box" (.handle "u"), .pair "r" "box'" (.handle "v"), .drop "u", .drop "v",
      .drop "shared"]
    (s.host.closeIn 0 [1, 2]).events = ["u#1", "v#2", "shared#3"] ∧
      (s.host.closeIn 0 [2, 1]).events = ["v#2", "u#1", "shared#3"] ∧
      (s.host.closeIn 0 [1, 2]).Coincides (s.host.closeIn 0 [2, 1]) ∧
      (s.answers [.drop "box", .drop "box'"]).flatMap Answer.events = ["box#4", "box'#5"] ∧
      ((s.answers [.drop "box'", .drop "box"]).flatMap Answer.events).Perm ["box#4", "box'#5"] ∧
      (s.run [.drop "box", .drop "box'"]).host.quiet.Coincides
        (s.run [.drop "box'", .drop "box"]).host.quiet := by
  intro s
  have reach : s.Reachable := ⟨_, _, rfl⟩
  obtain ⟨closes, drops⟩ := release_order_irrelevant reach
  obtain ⟨reg, found⟩ : ∃ reg, s.host.registry? 0 = some reg :=
    Option.isSome_iff_exists.1 (by decide +kernel)
  have table : (s.host.registry? 0).map (·.pairing.values.values) = some [1, 2] := by decide +kernel
  rw [found, Option.map_some, Option.some.injEq] at table
  have events : (s.answers [.drop "box", .drop "box'"]).flatMap Answer.events =
      ["box#4", "box'#5"] := by decide +kernel
  obtain ⟨-, coincides, told⟩ := drops ["box", "box'"] ["box'", "box"] (by decide)
    (by decide +kernel) (List.Perm.swap _ _ _)
  refine ⟨by decide +kernel, by decide +kernel, ?_, events, events ▸ told, coincides⟩
  exact (closes 0 reg found).2 [1, 2] [2, 1] (table ▸ .refl _) (table ▸ List.Perm.swap _ _ _)

end Session

end Compound
