import Compound.Proofs.Boxes

/-!
Tags, in every session that a script can reach. Registries are asked only about objects that
may still live and only while they may still be open; for these, a move changes a tag only by
tagging the object in that registry, and only if it had none. So the tag of an object is the
one that was asked for first in the script, and all that a registry says about it follows.
-/
namespace Compound

/-- The object has lived and is gone. -/
def Heap.Buried (h : Heap) (id : ObjectId) : Prop := h.get? id = none ∧ id < h.next

theorem Heap.Evolves.buried {h h' : Heap} (e : h.Evolves h') {id : ObjectId} (b : h.Buried id) :
    h'.Buried id :=
  ⟨e.absent b.2 b.1, Nat.lt_of_lt_of_le b.2 e.next_le⟩

theorem Heap.not_buried_of_alive {h : Heap} {id : ObjectId} (alive : h.isAlive id = true) :
    ¬h.Buried id := by
  rintro ⟨gone, -⟩
  rw [(isAlive_eq_false h id).2 gone] at alive
  cases alive

/-- The registry was open and is gone. -/
def Host.Closed (w : Host) (r : RegistryId) : Prop := w.registry? r = none ∧ r < w.nextRegistry

theorem Host.not_closed_of_found {w : Host} {r : RegistryId}
    (found : ∃ reg, w.registry? r = some reg) : ¬w.Closed r := by
  rintro ⟨gone, -⟩
  obtain ⟨reg, found⟩ := found
  rw [gone] at found
  cases found

/-- The tag of an object in a registry. -/
def Host.tagOf? (w : Host) (r : RegistryId) (id : ObjectId) : Option Tag :=
  (w.registry? r).bind (·.tags.get? id)

theorem Host.tagOf?_of_found {w : Host} {r : RegistryId} {reg : Registry}
    (found : w.registry? r = some reg) (id : ObjectId) : w.tagOf? r id = reg.tags.get? id := by
  rw [tagOf?, found, Option.bind_some]

/-- The tag that a deed puts on an object in a registry. -/
def Deed.tagFor? (r : RegistryId) (id : ObjectId) : Deed → Option Tag
  | tag q j t => if q = r ∧ j = id then some t else none
  | _ => none

theorem Deed.tagFor?_eq_some {d : Deed} {r : RegistryId} {id : ObjectId} {t : Tag}
    (tags : d.tagFor? r id = some t) : d = .tag r id t := by
  cases d with
  | tag q j u =>
    obtain ⟨⟨rfl, rfl⟩, same⟩ := Option.ite_none_right_eq_some.1 tags
    cases same
    rfl
  | _ => cases tags

theorem Deed.tagFor?_of_elsewhere {d : Deed} {r : RegistryId} (other : d.edited? ≠ some r)
    (id : ObjectId) : d.tagFor? r id = none := by
  cases tags : d.tagFor? r id with
  | none => rfl
  | some t =>
    rw [tagFor?_eq_some tags] at other
    exact absurd rfl other

/-- An edit adds the tag of its deed if there is none, and takes out queued tags only. -/
theorem Registry.Edit.tag_eq {reg edited : Registry} {r : RegistryId} {alive : ObjectId → Bool}
    {d : Deed} {id : ObjectId} (e : reg.Edit r alive d edited) (unqueued : id ∉ reg.queue) :
    edited.tags.get? id = (reg.tags.get? id).or (d.tagFor? r id) := by
  cases e with
  | elsewhere other => rw [Deed.tagFor?_of_elsewhere other, Option.or_none]
  | @tag j t free =>
    by_cases same : id = j
    · subst same
      simp [free, Deed.tagFor?]
    · simp [Deed.tagFor?, Ne.symm same, Table.get?_put_other _ _ same]
  | join | unpair => simp [Deed.tagFor?]
  | drain =>
    rw [Registry.get?_tags_drained, if_neg unqueued]
    simp [Deed.tagFor?]

section Lasting

variable {allowed : Deed → Prop} {c c' : Client} {r : RegistryId} {id : ObjectId}

theorem Move.closed_of_closed {d : Deed} (m : Move d c c') (closed : c.host.Closed r) :
    c'.host.Closed r :=
  ⟨m.closed closed.2 closed.1, Nat.lt_of_lt_of_le closed.2 m.nextRegistry_le⟩

theorem Moves.closed_of_closed (m : Moves allowed c c') (closed : c.host.Closed r) :
    c'.host.Closed r := by
  induction m with
  | refl => exact closed
  | tail _ last ih =>
    obtain ⟨d, -, move⟩ := last
    exact move.closed_of_closed ih

/-- After a move an object has the tag that it had, or else the one that the move puts on it. -/
theorem Move.tag_eq {d : Deed} (m : Move d c c') (s : c.Sound)
    (unburied : ¬c'.host.heap.Buried id) (unclosed : ¬c'.host.Closed r) :
    c'.host.tagOf? r id = (c.host.tagOf? r id).or (d.tagFor? r id) := by
  cases found : c.host.registry? r with
  | some reg =>
    have unqueued : id ∉ reg.queue := fun queued =>
      unburied (m.evolves.buried ((s.attended r reg found).buried id queued))
    rcases m.edits s found with ⟨-, gone⟩ | ⟨edited, pushed, edit, found'⟩
    · exact absurd ⟨gone, Nat.lt_of_lt_of_le (s.numbered r reg found) m.nextRegistry_le⟩ unclosed
    · rw [Host.tagOf?_of_found found, Host.tagOf?_of_found found', Registry.enqueueAll_tags,
        edit.tag_eq unqueued]
  | none =>
    have untagged : c.host.tagOf? r id = none := by rw [Host.tagOf?, found, Option.bind_none]
    -- a registry that is not open is not tagged in, and a new one has no tags
    have asked : d.tagFor? r id = none := by
      cases tags : d.tagFor? r id with
      | none => rfl
      | some t =>
        cases Deed.tagFor?_eq_some tags
        cases m with
        | tag found' =>
          rw [found] at found'
          cases found'
    rw [untagged, asked, Option.or_none, Host.tagOf?]
    rcases m.absent found with gone | ⟨config, -, -, new⟩
    · rw [gone, Option.bind_none]
    · rw [new, Option.bind_some]
      rfl

/-- After a run of moves an object has the tag that it had, or else one that the run puts on it. -/
theorem Moves.tag_or (m : Moves allowed c c') (s : c.Sound) (unburied : ¬c'.host.heap.Buried id)
    (unclosed : ¬c'.host.Closed r) :
    ∃ later, c'.host.tagOf? r id = (c.host.tagOf? r id).or later ∧
      ∀ t, later = some t → allowed (.tag r id t) := by
  induction m with
  | refl => exact ⟨none, by rw [Option.or_none], by simp⟩
  | @tail c₁ c₂ first last ih =>
    obtain ⟨d, ok, move⟩ := last
    obtain ⟨later, before, asked⟩ := ih (fun b => unburied (move.evolves.buried b))
      fun closed => unclosed (move.closed_of_closed closed)
    refine ⟨later.or (d.tagFor? r id), ?_, fun t is => ?_⟩
    · rw [move.tag_eq (Moves.sound first s) unburied unclosed, before, Option.or_assoc]
    · rcases Option.or_eq_some_iff.1 is with is | ⟨-, is⟩
      · exact asked t is
      · exact Deed.tagFor?_eq_some is ▸ ok

/-- A tag lasts, whatever the moves. -/
theorem Moves.tag_lasts (m : Moves allowed c c') (s : c.Sound) {t : Tag}
    (tagged : c.host.tagOf? r id = some t) (unburied : ¬c'.host.heap.Buried id)
    (unclosed : ¬c'.host.Closed r) : c'.host.tagOf? r id = some t := by
  obtain ⟨later, after, -⟩ := m.tag_or s unburied unclosed
  rw [after, tagged, Option.some_or]

/-- Without a deed that tags the object its tag is the same. -/
theorem Moves.tag_same (m : Moves allowed c c') (s : c.Sound)
    (unasked : ∀ t, ¬allowed (.tag r id t)) (unburied : ¬c'.host.heap.Buried id)
    (unclosed : ¬c'.host.Closed r) : c'.host.tagOf? r id = c.host.tagOf? r id := by
  obtain ⟨later, after, asked⟩ := m.tag_or s unburied unclosed
  cases later with
  | none => rw [after, Option.or_none]
  | some t => exact absurd (asked t rfl) (unasked t)

end Lasting

namespace Host

variable {held : Multiset ObjectId} {w : Host} {r : RegistryId} {id : ObjectId}

/-- A reclaim takes out no tag of a living object. -/
theorem tagOf?_reclaim (s : Client.Sound ⟨held, w⟩) (alive : w.isAlive id = true) :
    (w.reclaim r).2.tagOf? r id = w.tagOf? r id := by
  cases found : w.registry? r with
  | none => simp only [reclaim, found]
  | some reg =>
    obtain ⟨pushed, swept, -⟩ := registry?_reclaim_same found
    rw [tagOf?_of_found swept, tagOf?_of_found found, Registry.enqueueAll_tags,
      Registry.get?_tags_drained, if_neg (s.unqueued_of_alive found alive)]

theorem tagOf?_autoReclaim (s : Client.Sound ⟨held, w⟩) (alive : w.isAlive id = true) :
    (w.autoReclaim r).tagOf? r id = w.tagOf? r id := by
  rw [autoReclaim]
  cases w.registry? r with
  | none => rfl
  | some reg =>
    simp only
    split
    · exact tagOf?_reclaim s alive
    · rfl

/-- Tagging again is accepted or refused, and does nothing but the automatic reclaim. -/
theorem tag_of_tagged (s : Client.Sound ⟨held, w⟩) (alive : w.isAlive id = true) {existing : Tag}
    (tagged : w.tagOf? r id = some existing) (t : Tag) :
    w.tag r id t =
      (if existing = t then .ok () else .error (.taggedOtherwise existing t), w.autoReclaim r) := by
  have still : (Host.registry? (w.autoReclaim r) r).bind (·.tags.get? id) = some existing :=
    (tagOf?_autoReclaim s alive).trans tagged
  simp only [tag, still]
  split <;> rfl

/-- Tagging for the first time succeeds. -/
theorem tag_of_untagged (s : Client.Sound ⟨held, w⟩) (opened : ∃ reg, w.registry? r = some reg)
    (alive : w.isAlive id = true) (untagged : w.tagOf? r id = none) (t : Tag) :
    (w.tag r id t).1 = .ok () ∧ (w.tag r id t).2.tagOf? r id = some t := by
  have still : (Host.registry? (w.autoReclaim r) r).bind (·.tags.get? id) = none :=
    (tagOf?_autoReclaim s alive).trans untagged
  obtain ⟨reg, found⟩ := found_autoReclaim s opened
  have tagged := registry?_modifyRegistry_same (w.autoReclaim r) r
    fun reg => { reg with tags := reg.tags.put id t }
  rw [found, Option.map_some] at tagged
  simp only [tag, still]
  refine ⟨trivial, (tagOf?_of_found tagged id).trans ?_⟩
  exact Table.get?_put_same _ _ _

/-- After a request for a tag the object has the tag that it had, or else the one asked for. -/
theorem tagOf?_tag (s : Client.Sound ⟨held, w⟩) (opened : ∃ reg, w.registry? r = some reg)
    (alive : w.isAlive id = true) (t : Tag) :
    (w.tag r id t).2.tagOf? r id = (w.tagOf? r id).or (some t) := by
  cases tagged : w.tagOf? r id with
  | none => exact (tag_of_untagged s opened alive tagged t).2
  | some existing =>
    rw [tag_of_tagged s alive tagged t]
    exact (tagOf?_autoReclaim s alive).trans tagged

/-- All that a host says about the tag of an object, and how it takes another request for one. -/
structure Honors (w : Host) (r : RegistryId) (id : ObjectId) (t : Option Tag) : Prop where
  tagOf : (w.registry? r).bind (·.tagOf (.object id)) = t
  isRecord : (w.registry? r).any (·.isRecord (.object id)) = true ↔ t = some .record
  isTuple : (w.registry? r).any (·.isTuple (.object id)) = true ↔ ∃ n, t = some (.tuple n)
  tupleLength : ∀ n,
    (w.registry? r).bind (·.tupleLength (.object id)) = some n ↔ t = some (.tuple n)
  isTagged : (w.registry? r).any (·.isTagged (.object id)) = true ↔ t ≠ none
  tagRecord : (w.tagRecord r id).1 = .ok () ↔ t = none ∨ t = some .record
  tagTuple : ∀ n, (w.tagTuple r id n).1 = .ok () ↔ t = none ∨ t = some (.tuple n)
  again : ∀ existing, t = some existing → w.tag r id existing = (.ok (), w.autoReclaim r)
  refused : ∀ existing requested, t = some existing → existing ≠ requested →
    w.tag r id requested = (.error (.taggedOtherwise existing requested), w.autoReclaim r)

/-- A request for a tag succeeds if the object has no other. -/
theorem tag_eq_ok (s : Client.Sound ⟨held, w⟩) (opened : ∃ reg, w.registry? r = some reg)
    (alive : w.isAlive id = true) (t : Tag) :
    (w.tag r id t).1 = .ok () ↔ w.tagOf? r id = none ∨ w.tagOf? r id = some t := by
  cases tagged : w.tagOf? r id with
  | none => simp [(tag_of_untagged s opened alive tagged t).1]
  | some existing =>
    rw [tag_of_tagged s alive tagged t]
    by_cases same : existing = t <;> simp [same]

theorem honors (s : Client.Sound ⟨held, w⟩) {reg : Registry} (found : w.registry? r = some reg)
    (alive : w.isAlive id = true) : w.Honors r id (w.tagOf? r id) := by
  have tag := tagOf?_of_found found id
  have tagOf : reg.tagOf (.object id) = w.tagOf? r id := tag.symm
  constructor
  · rw [found, Option.bind_some, tagOf]
  · rw [found, Option.any_some, Registry.isRecord_iff, tagOf]
  · rw [found, Option.any_some, Registry.isTuple, tagOf, Option.any_eq_true]
    constructor
    · rintro ⟨t, is, tuple⟩
      cases t with
      | record => cases tuple
      | tuple n => exact ⟨n, is⟩
    · rintro ⟨n, is⟩
      exact ⟨_, is, rfl⟩
  · intro n
    rw [found, Option.bind_some, Registry.tupleLength_eq_some, tagOf]
  · rw [found, Option.any_some, Registry.isTagged, tagOf, Option.isSome_iff_ne_none]
  · exact tag_eq_ok s ⟨reg, found⟩ alive .record
  · exact fun n => tag_eq_ok s ⟨reg, found⟩ alive (.tuple n)
  · intro existing is
    rw [tag_of_tagged s alive is, if_pos rfl]
  · intro existing requested is ne
    rw [tag_of_tagged s alive is, if_neg ne]

end Host

namespace Session

variable {s : Session} {r : RegistryId} {id : ObjectId}

/-- The tag that a step asks for, if it is for the object and in the registry. -/
def tagAsked (s : Session) (r : RegistryId) (id : ObjectId) : Step → Option Tag
  | .tagRecord name h => if s.target name h = .ok (r, id) then some .record else none
  | .tagTuple name h length => if s.target name h = .ok (r, id) then some (.tuple length) else none
  | _ => none

/-- The tag that the steps of a script ask for first. -/
def firstTag (r : RegistryId) (id : ObjectId) : Session → List Step → Option Tag
  | _, [] => none
  | s, t :: ts => (s.tagAsked r id t).or (firstTag r id (s.answer t).2 ts)

theorem tagAsked_of_allows {t : Step} {tag : Tag} (allows : s.Allows t (.tag r id tag)) :
    s.tagAsked r id t = some tag := by
  rcases allows with plain | asks
  · cases plain
  · cases t with
    | tagRecord name h =>
      obtain ⟨q, j, found, same | same⟩ := asks
      · cases same
      · cases same
        exact if_pos found
    | tagTuple name h length =>
      obtain ⟨q, j, found, same | same⟩ := asks
      · cases same
      · cases same
        exact if_pos found
    | openRegistry | closeRegistry | pair | box | release | reclaim => simp [Asks] at asks
    | _ => exact asks.elim

theorem host_acting (s : Session) {α : Type} (done : Outcome α × Host) :
    (s.acting done fun _ s => s.done).2.host = done.2 := by
  obtain ⟨outcome, host⟩ := done
  cases outcome <;> rfl

/-- A step that asks for a tag is a request to the host, for an object that a handle holds. -/
theorem step_of_tagAsked {t : Step} {tag : Tag} (asked : s.tagAsked r id t = some tag) :
    (∃ name h, s.target name h = .ok (r, id)) ∧ (s.step t).2.host = (s.host.tag r id tag).2 := by
  cases t with
  | tagRecord name h =>
    obtain ⟨found, same⟩ := Option.ite_none_right_eq_some.1 asked
    cases same
    refine ⟨⟨name, h, found⟩, ?_⟩
    rw [step, found]
    exact host_acting s _
  | tagTuple name h length =>
    obtain ⟨found, same⟩ := Option.ite_none_right_eq_some.1 asked
    cases same
    refine ⟨⟨name, h, found⟩, ?_⟩
    rw [step, found]
    exact host_acting s _
  | _ => cases asked

/-- After a step an object has the tag that it had, or else the one that the step asks for. -/
theorem tagOf?_answer (sound : s.Sound) (t : Step)
    (unburied : ¬(s.answer t).2.host.heap.Buried id) (unclosed : ¬(s.answer t).2.host.Closed r) :
    (s.answer t).2.host.tagOf? r id = (s.host.tagOf? r id).or (s.tagAsked r id t) := by
  cases asked : s.tagAsked r id t with
  | none =>
    rw [Option.or_none]
    refine (moves_answer sound t).tag_same sound.client (fun tag allows => ?_) unburied unclosed
    rw [tagAsked_of_allows allows] at asked
    cases asked
  | some tag =>
    have quiet := sound_quiet sound
    obtain ⟨⟨name, h, found⟩, stepped⟩ :=
      @step_of_tagAsked { s with host := s.host.quiet } r id t tag asked
    obtain ⟨found_r, found_id⟩ := target_eq_ok.1 found
    have alive := quiet.alive_handle found_id
    rw [answer_session, stepped]
    exact Host.tagOf?_tag quiet.client (quiet.open_registry found_r) alive tag

/-- After a script an object has the tag that it had, or else the one asked for first. -/
theorem tagOf?_run (sound : s.Sound) (ts : List Step) (unburied : ¬(s.run ts).host.heap.Buried id)
    (unclosed : ¬(s.run ts).host.Closed r) :
    (s.run ts).host.tagOf? r id = (s.host.tagOf? r id).or (firstTag r id s ts) := by
  induction ts generalizing s with
  | nil =>
    rw [firstTag, Option.or_none]
    rfl
  | cons t rest ih =>
    have answered := sound_answer sound t
    have later := moves_run answered rest
    have first := tagOf?_answer sound t (fun b => unburied (later.evolves.buried b))
      fun closed => unclosed (later.closed_of_closed closed)
    rw [run_cons, ih answered unburied unclosed, first, firstTag, Option.or_assoc]

/-- Nothing is tagged when a script starts. -/
theorem tagOf?_start (reclaiming : Option Bool) (r : RegistryId) (id : ObjectId) :
    (start reclaiming).host.tagOf? r id = none := by
  cases reclaiming with
  | none => rfl
  | some b =>
    by_cases zero : r = 0
    · subst zero
      rfl
    · have other : (start (some b)).host.registry? r = none :=
        Table.get?_put_other Table.empty _ zero
      rw [Host.tagOf?, other, Option.bind_none]

/-- After every script, a living object has in an open registry the tag that the script asked for
first, or none if it asked for none: the host says so, takes the same tag again, refuses every
other one, and takes any as long as there is none. -/
theorem first_tag_lasts (reclaiming : Option Bool) (ts : List Step) (r : RegistryId)
    (id : ObjectId) (opened : ∃ reg, ((start reclaiming).run ts).host.registry? r = some reg)
    (alive : ((start reclaiming).run ts).host.isAlive id = true) :
    ((start reclaiming).run ts).host.Honors r id (firstTag r id (start reclaiming) ts) := by
  have sound := sound_start reclaiming
  have same := tagOf?_run sound ts (Heap.not_buried_of_alive alive)
    (Host.not_closed_of_found opened)
  rw [tagOf?_start, Option.none_or] at same
  obtain ⟨reg, found⟩ := opened
  exact same ▸ Host.honors (sound_run sound ts).client found alive

/-- A Tuple is asked to be a Record and to be longer, is frozen, boxed and released, tagged in
another registry and left to a reclaim: it is the Tuple that it was. -/
theorem first_tag_lasts_contested :
    let s := start (some true)
    let ts : List Step := [.create (some "tuple"), .create (some "value"), .tagTuple "r" "tuple" 2,
      .tagRecord "r" "tuple", .tagTuple "r" "tuple" 3, .freeze "tuple",
      .pair "r" "tuple" (.handle "value"), .release "r" "tuple" none,
      .openRegistry "q" .standard, .tagRecord "q" "tuple", .reclaim "r"]
    firstTag 0 1 s ts = some (.tuple 2) ∧ (s.run ts).host.Honors 0 1 (some (.tuple 2)) ∧
      (s.run ts).host.Honors 1 1 (some .record) := by
  intro s ts
  have first : firstTag 0 1 s ts = some (.tuple 2) := by decide +kernel
  have first' : firstTag 1 1 s ts = some .record := by decide +kernel
  have opened : ∃ reg, (s.run ts).host.registry? 0 = some reg :=
    Option.isSome_iff_exists.1 (by decide +kernel)
  have opened' : ∃ reg, (s.run ts).host.registry? 1 = some reg :=
    Option.isSome_iff_exists.1 (by decide +kernel)
  have alive : (s.run ts).host.isAlive 1 = true := by decide +kernel
  refine ⟨first, ?_, ?_⟩
  · rw [← first]
    exact first_tag_lasts (some true) ts 0 1 opened alive
  · rw [← first']
    exact first_tag_lasts (some true) ts 1 1 opened' alive

end Session

end Compound
