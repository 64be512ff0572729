import Compound.Proofs.Backlog

/-!
What the dead leave behind in a registry that reclaims before registrations, in every session that a
script can reach. A registration empties the queue before it judges anything, and whatever it
enrolls is alive. So it leaves no entry about those who were dead before it, also when it is
refused. To release a box is no registration, and leaves every entry about the dead where it was.
-/
namespace Compound

/-- What is enrolled was not dead when the moves began. -/
theorem Enrolling.unburied {kind asked : Deed → Prop} {c c' : Client} {r : RegistryId}
    {id : ObjectId} (e : Enrolling kind asked (some (r, id)) c c') (s : c.Sound) :
    ¬c.host.heap.Buried id := by
  cases e with
  | one before m ok enrolls after =>
    have alive := m.alive_of_enrolls (before.sound s) enrolls
    exact fun buried =>
      Heap.not_buried_of_alive alive (m.evolves.buried (before.evolves.buried buried))

/-- Light moves do no more to a registry than tell it of the dead. -/
theorem Moves.heard_of_light {c c' : Client} (m : Moves Deed.Light c c') (r : RegistryId) :
    ∃ ids, c'.host.registry? r = (c.host.registry? r).map (·.enqueueAll ids) := by
  induction m with
  | refl => exact ⟨[], by cases c.host.registry? r <;> simp⟩
  | @tail c₁ c₂ first last ih =>
    obtain ⟨d, light, move⟩ := last
    obtain ⟨ids, before⟩ := ih
    obtain ⟨ids', heard⟩ := move.elsewhere (r := r) (fun _ opens => by subst opens; cases light)
      (by cases light <;> nofun) (by cases light <;> nofun)
    refine ⟨ids ++ ids', ?_⟩
    rw [heard, before]
    cases c.host.registry? r <;> simp [Registry.enqueueAll]

namespace Host

variable {held : Multiset ObjectId} {w : Host} {r : RegistryId} {reg : Registry} {id : ObjectId}

theorem mentions_eq_false (found : w.registry? r = some reg) :
    reg.mentions id = false ↔ w.isUntagged (r, id) = true ∧ w.isUnboxed (r, id) = true := by
  simp [Registry.mentions, isUntagged, isUnboxed, tagOf?_of_found found, pairing_of_found found,
    Table.contains]

/-- A reclaim leaves no entry about those who were dead before it: they all waited. -/
theorem forgotten_reclaim (s : Client.Sound ⟨held, w⟩) (found : w.registry? r = some reg)
    (dead : w.isAlive id = false) :
    (w.reclaim r).2.isUntagged (r, id) = true ∧ (w.reclaim r).2.isUnboxed (r, id) = true := by
  obtain ⟨pushed, swept, -⟩ := registry?_reclaim_same found
  have queued : reg.mentions id = true → id ∈ reg.queue := fun mentioned =>
    ((s.attended r reg found).minded id mentioned not_false).noticed
      ((Heap.isAlive_eq_false _ id).1 dead)
  have heard : (reg.drained.enqueueAll pushed).mentions id = reg.drained.mentions id := rfl
  rw [← mentions_eq_false swept, heard, Bool.eq_false_iff, ne_eq, Registry.mentions_drained]
  rintro ⟨unqueued, mentioned⟩
  exact unqueued (queued mentioned)

/-- To undo a pair leaves the tags as they are, and every other pair. -/
theorem entries_unpair (found : w.registry? r = some reg) (box : ObjectId) :
    ∃ reg', Host.registry? (w.unpair r box).2 r = some reg' ∧ reg'.tags = reg.tags ∧
      ∀ b, b ≠ box → reg'.pairing.values.get? b = reg.pairing.values.get? b := by
  cases paired : reg.pairing.values.get? box with
  | some value =>
    refine ⟨_, registry?_unpair_same found paired, rfl, fun b ne => ?_⟩
    rw [Pairing.get?_values_remove, if_neg ne]
  | none =>
    have refused : (w.unpair r box).1 = .error .notBox := by
      rw [unpair, pairing_of_found found, Pairing.remove_of_none paired]
    rw [unpair_refused refused]
    exact ⟨reg, found, rfl, fun _ _ => rfl⟩

end Host

namespace Session

variable {s : Session} {t : Step} {name : String} {r : RegistryId} {reg : Registry}

/-- The step is carried out: no name is missing that it looks up. What it calls may still fail. -/
def CarriesOut (s : Session) (t : Step) : Prop :=
  ∀ fault, (s.answer t).1.result = .error fault → ∃ f, fault = .failure f

theorem found_of_carried {α : Type} {found : Lookup α} {go : α → Result × Session}
    (carried : ∀ fault, (s.after found go).1 = .error fault → ∃ f, fault = .failure f)
    (named : ∀ f, found ≠ .error (.failure f)) : ∃ a, found = .ok a := by
  cases found with
  | ok a => exact ⟨a, rfl⟩
  | error fault =>
    obtain ⟨f, same⟩ := carried fault rfl
    exact absurd (congrArg Except.error same) (named f)

/-- A registration that is carried out empties the queue of a registry that reclaims. -/
theorem drained?_of_registration (named : s.registry name = .ok r)
    (registers : t.registration? = some name) (reclaims : s.host.autoReclaims r = true)
    (carried : s.CarriesOut t) : s.drained? t = some r := by
  have filtered : ∀ q, s.registry name = .ok q →
      (some q).filter s.host.autoReclaims = some r := fun q found => by
    cases named.symm.trans found
    exact Option.filter_eq_some_iff.2 ⟨rfl, reclaims⟩
  cases t with
  | tagRecord name' h | tagTuple name' h length =>
    cases registers
    obtain ⟨p, found⟩ := found_of_carried carried (s.target_ne_failure name h)
    have found : s.target name h = .ok p := found
    rw [drained?, found]
    exact filtered p.1 (target_eq_ok.1 found).1
  | pair name' h v =>
    cases registers
    obtain ⟨⟨p, u⟩, found⟩ := found_of_carried carried fun f =>
      pair_ne_failure (s.target_ne_failure name h f) (s.value_ne_failure v f)
    have found : s.target name h = .ok p ∧ s.value v = .ok u := Lookup.pair_eq_ok.1 found
    obtain ⟨found, found_v⟩ := found
    rw [drained?, found, Lookup.ok_bind, found_v]
    exact filtered p.1 (target_eq_ok.1 found).1
  | box name' v keep =>
    cases registers
    obtain ⟨p, found⟩ := found_of_carried carried (s.subject_ne_failure name v)
    have found : s.subject name v = .ok p := found
    rw [drained?, found]
    exact filtered p.1 (subject_eq_ok.1 found).1
  | _ => cases registers

/-- What a registration leaves of the entries about the dead: nothing. -/
theorem forgotten_registration (sound : s.Sound) (named : s.registry name = .ok r)
    (found : s.host.registry? r = some reg) (reclaims : reg.config.autoReclaim = true)
    (registers : t.registration? = some name) (carried : s.CarriesOut t) {id : ObjectId}
    (buried : s.host.heap.Buried id) :
    (s.answer t).2.host.isUntagged (r, id) = true ∧
      (s.answer t).2.host.isUnboxed (r, id) = true := by
  have reclaims' : s.host.autoReclaims r = true := by rw [Host.autoReclaims, found]; exact reclaims
  have drained := drained?_of_registration named registers reclaims' carried
  have prelude : s.prelude t = (s.host.quiet.reclaim r).2 := by
    have same : drained? { s with host := s.host.quiet } t = s.drained? t := rfl
    rw [Session.prelude, swept, same, drained, Option.elim_some]
  have sound' := (moves_prelude s t).sound sound.client
  have call := enrolling_answer sound t
  -- Behind the prelude only an enrollment makes an entry, and what is enrolled is alive.
  have omits : (s.prelude t).Omits (s.answer t).2.host (r, id) := by
    refine call.omits sound' fun enrolls => ?_
    rw [enrolls] at call
    exact call.unburied sound' ((moves_prelude s t).evolves.buried buried)
  have swept := Host.forgotten_reclaim (sound_quiet sound).client found
    ((Heap.isAlive_eq_false _ id).2 buried.1)
  rw [prelude] at omits
  exact ⟨omits.untagged swept.1, omits.unboxed swept.2⟩

/-- What a step that undoes a pair leaves of the entries in its registry, once its names are
found: all but that pair. -/
theorem entries_unpairing (sound : s.Sound) (found : s.host.registry? r = some reg)
    (box : ObjectId) (keep : Option String) :
    ∃ reg', Host.registry? (s.acting (s.host.unpair r box) fun v s => s.hand keep v).2.host r =
        some reg' ∧ reg'.tags = reg.tags ∧
      ∀ b, b ≠ box → reg'.pairing.values.get? b = reg.pairing.values.get? b := by
  obtain ⟨reg₁, unpaired, tags, pairs⟩ := Host.entries_unpair found box
  have moves : Moves (· = .unpair r box) s.client ⟨s.handles.values +
      (handed (s.host.unpair r box).1 : Multiset ObjectId), (s.host.unpair r box).2⟩ :=
    Host.moves_unpair rfl
  have sound₁ := moves.sound sound.client
  cases result : s.host.unpair r box with
  | mk outcome w =>
    rw [result] at unpaired sound₁
    cases outcome with
    | error f => exact ⟨reg₁, unpaired, tags, pairs⟩
    | ok v =>
      obtain ⟨ids, heard⟩ := (moves_hand { s with host := w } keep sound₁).heard_of_light r
      have unpaired : w.registry? r = some reg₁ := unpaired
      exact ⟨_, heard.trans (congrArg _ unpaired), tags, pairs⟩

/-- What a release leaves of the entries about the dead: everything. -/
theorem kept_release (sound : s.Sound) (named : s.registry name = .ok r)
    (found : s.host.registry? r = some reg) (h : String) (keep : Option String) :
    ∃ reg', Host.registry? (s.answer (.release name h keep)).2.host r = some reg' ∧
      reg'.tags = reg.tags ∧ ∀ id, s.host.heap.Buried id →
        reg'.pairing.values.get? id = reg.pairing.values.get? id := by
  have quiet := sound_quiet sound
  rw [answer_session, step]
  cases subject : target { s with host := s.host.quiet } name h with
  | error fault => exact ⟨reg, found, rfl, fun _ _ => rfl⟩
  | ok p =>
    obtain ⟨q, box⟩ := p
    obtain ⟨named', held⟩ := target_eq_ok.1 subject
    cases Except.ok.inj (named.symm.trans named')
    have alive : s.host.isAlive box = true := quiet.alive_handle held
    obtain ⟨reg', found', tags, pairs⟩ := entries_unpairing quiet found box keep
    refine ⟨reg', found', tags, fun id buried => pairs id ?_⟩
    rintro rfl
    exact Heap.not_buried_of_alive alive buried

/-- In every session that a script reaches, a registration that is carried out on a registry that
reclaims leaves no tag and no pair of an object that was dead before, whether it is accepted or
refused. A release leaves every tag and every pair of the dead as it was, also in such a
registry. -/
theorem registration_forgets_dead (reach : s.Reachable) (named : s.registry name = .ok r)
    (found : s.host.registry? r = some reg) (reclaims : reg.config.autoReclaim = true) :
    (t.registration? = some name → s.CarriesOut t →
      ∃ reg', Host.registry? (s.answer t).2.host r = some reg' ∧
        ∀ id, s.host.heap.Buried id → reg'.mentions id = false) ∧
    ∀ h keep, ∃ reg', Host.registry? (s.answer (.release name h keep)).2.host r = some reg' ∧
      reg'.tags = reg.tags ∧ ∀ id, s.host.heap.Buried id →
        reg'.pairing.values.get? id = reg.pairing.values.get? id := by
  have sound := reach.sound
  refine ⟨fun registers carried => ?_, kept_release sound named found⟩
  have spared : ¬s.Allows t (.closeRegistry r) := by
    cases t with
    | tagRecord | tagTuple | pair | box => simp [Allows, Asks, Deed.plain, Deed.isPlain]
    | _ => cases registers
  obtain ⟨reg', found'⟩ := (moves_answer sound t).stays_open sound.client spared ⟨reg, found⟩
  exact ⟨reg', found', fun id buried => (Host.mentions_eq_false found').2
    (forgotten_registration sound named found reclaims registers carried buried)⟩

/-- A dead Record and a dead box are forgotten by a registration, although that is refused. A
release that is refused keeps what there is about them. -/
theorem registration_forgets_dead_refused :
    let s := (start (some true)).run [.create (some "a"), .create (some "b"), .create (some "v"),
      .create (some "c"), .tagRecord "r" "a", .tagRecord "r" "c", .pair "r" "b" (.handle "v"),
      .drop "a", .drop "b"]
    ∃ reg reg' reg'', s.host.registry? 0 = some reg ∧ reg.mentions 1 = true ∧
      reg.mentions 2 = true ∧
      (s.answer (.tagTuple "r" "c" 1)).1.result =
        .error (.failure (.taggedOtherwise .record (.tuple 1))) ∧
      Host.registry? (s.answer (.tagTuple "r" "c" 1)).2.host 0 = some reg' ∧
      reg'.mentions 1 = false ∧ reg'.mentions 2 = false ∧
      Host.registry? (s.answer (.release "r" "c" none)).2.host 0 = some reg'' ∧
      reg''.tags = reg.tags := by
  intro s
  have reach : s.Reachable := ⟨_, _, rfl⟩
  have entries : (s.host.registry? 0).any (fun reg => reg.config.autoReclaim && reg.mentions 1 &&
      reg.mentions 2) = true := by decide +kernel
  obtain ⟨reg, found, facts⟩ := (Option.any_eq_true _ _).1 entries
  simp only [Bool.and_eq_true] at facts
  obtain ⟨⟨reclaims, first⟩, second⟩ := facts
  have named : s.registry "r" = .ok 0 := by decide +kernel
  have refused : (s.answer (.tagTuple "r" "c" 1)).1.result =
      .error (.failure (.taggedOtherwise .record (.tuple 1))) := by decide +kernel
  have carried : s.CarriesOut (.tagTuple "r" "c" 1) := fun fault failed => by
    rw [refused] at failed
    exact ⟨_, (Except.error.inj failed).symm⟩
  have dead : s.host.isAlive 1 = false ∧ s.host.isAlive 2 = false ∧ 2 < s.host.heap.next := by
    decide +kernel
  obtain ⟨dead₁, dead₂, lt⟩ := dead
  obtain ⟨drains, keeps⟩ := registration_forgets_dead reach named found reclaims
  obtain ⟨reg', found', forgets⟩ := drains rfl carried
  obtain ⟨reg'', found'', tags, -⟩ := keeps "c" none
  refine ⟨reg, reg', reg'', found, first, second, refused, found',
    forgets 1 ⟨?_, Nat.lt_of_succ_lt lt⟩, forgets 2 ⟨?_, lt⟩, found'', tags⟩
  · exact (Heap.isAlive_eq_false _ 1).1 dead₁
  · exact (Heap.isAlive_eq_false _ 2).1 dead₂

/-- A registry that reclaims still has the tag of a dead Record after a box was released in it. -/
theorem release_forgets_nothing :
    let s := (start (some true)).run [.create (some "a"), .create (some "b"), .create (some "v"),
      .tagRecord "r" "a", .pair "r" "b" (.handle "v"), .drop "a"]
    s.host.heap.Buried 1 ∧ s.host.autoReclaims 0 = true ∧
      (s.answer (.release "r" "b" none)).1.result = .ok (.value (.object 3)) ∧
      (Host.registry? (s.answer (.release "r" "b" none)).2.host 0).any (·.mentions 1) = true := by
  decide +kernel

end Session

end Compound
