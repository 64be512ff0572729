import Compound.Proofs.Draining
import Compound.Proofs.Rulings

/-!
Undoing a pair, in every session that a script can reach. The pair goes from both directions and
nothing else does, so a pair that has just joined leaves behind what there was before it, but for
pairs of dead boxes. The box goes on being watched, and when it dies its number will wait in the
queue with no entry to take out. A pair that the value has joined by then is of another box, and
stands as long as that one lives.
-/
namespace Compound

namespace Host

variable {held : Multiset ObjectId} {w w' : Host} {r : RegistryId} {reg : Registry}
  {box value : ObjectId}

/-- From one host to the other a pair has been taken out of a registry, in both directions. No other
pair has changed, no tag, no queue and no other registry, and no object. -/
structure Parts (w w' : Host) (r : RegistryId) (box value : ObjectId) : Prop where
  values : ∀ b, (w'.pairing r).values.get? b =
    if b = box then none else (w.pairing r).values.get? b
  boxes : ∀ v, (w'.pairing r).boxes.get? v =
    if v = value then none else (w.pairing r).boxes.get? v
  registries : ∀ q, w'.registry? q = (w.registry? q).map fun reg =>
    if q = r then { reg with pairing := w'.pairing r } else reg
  others : w' = { w with registries := w'.registries, notices := w'.notices }

/-- The pairs of a registry are those that there were, in both directions, but for some of dead
boxes: those that the automatic reclaim took out, and the one of the value. -/
structure Sheds (w w' : Host) (r : RegistryId) (value : ObjectId) : Prop where
  swept : ∀ b v, (w'.pairing r).values.get? b = some v ↔
    ((w.autoReclaim r).pairing r).values.get? b = some v ∧ v ≠ value
  before : ∀ b v, (w'.pairing r).values.get? b = some v → (w.pairing r).values.get? b = some v
  living : ∀ b v, (w.pairing r).values.get? b = some v → w'.isAlive b = true →
    (w'.pairing r).values.get? b = some v
  mirrored : ∀ b v, (w'.pairing r).boxes.get? v = some b ↔ (w'.pairing r).values.get? b = some v

theorem parts_unpair (s : Client.Sound ⟨held, w⟩)
    (paired : (w.pairing r).values.get? box = some value) :
    (w.unpair r box).1 = .ok (.object value) ∧ w.Parts (w.unpair r box).2 r box value := by
  obtain ⟨reg, found, entry⟩ := found_of_paired paired
  have mirrored := (s.attended r reg found).mirrored
  have before : w.pairing r = reg.pairing := pairing_of_found found
  have after : (w.unpair r box).2.pairing r = (reg.pairing.remove box).2 :=
    pairing_of_found (registry?_unpair_same found entry)
  refine ⟨by rw [unpair_of_paired w found entry], ?_, fun v => ?_, fun q => ?_, ?_⟩
  · rw [after, before]
    exact Pairing.get?_values_remove reg.pairing box
  · rw [after, before, mirrored.remove_of_some entry]
    by_cases same : v = value
    · subst same
      rw [if_pos rfl]
      exact Table.get?_erase_same _ _
    · rw [if_neg same]
      exact Table.get?_erase_other _ same
  · rw [after]
    by_cases same : q = r
    · subst same
      rw [registry?_unpair_same found entry, found, Option.map_some, if_pos rfl]
    · rw [funext fun reg => if_neg same, Option.map_id']
      exact w.registry?_unpair_other same box
  · rw [unpair_of_paired w found entry]
    rfl

theorem Parts.isAlive (parts : w.Parts w' r box value) (id : ObjectId) :
    w'.isAlive id = w.isAlive id := by
  rw [parts.others]
  rfl

/-- Nobody dies or is born when a pair joins. -/
theorem Joins.isAlive (joins : w.Joins w' r box value) (id : ObjectId) :
    w'.isAlive id = w.isAlive id := by
  have same := congrArg Option.isSome (joins.finalizers id)
  rwa [Option.isSome_map, Option.isSome_map] at same

theorem boxOf?_of_none (absent : (w.pairing r).boxes.get? value = none) :
    w.boxOf? r (.object value) = none := by
  rw [boxOf?, Value.identity_object, Option.bind_some, Pairing.livingBox?, absent,
    Option.filter_none]

theorem pairing_of_heard {ids : List ObjectId}
    (heard : w'.registry? r = (w.registry? r).map (·.enqueueAll ids)) :
    w'.pairing r = w.pairing r := by
  rw [pairing, pairing, heard]
  cases w.registry? r <;> rfl

/-- What is registered for the first time has joined the pairs that the automatic reclaim left. -/
theorem Ruling.joins_of_ok {outcome : Outcome Unit}
    (rule : w.Ruling r box (.object value) outcome w')
    (free : (w.pairing r).values.get? box = none) (ok : outcome = .ok ()) :
    w.Joins w' r box value := by
  cases rule with
  | noIdentity without => cases without
  | itself | boxTaken | valueTaken => cases ok
  | known ne paired => cases free.symm.trans paired
  | joined ne free orphan joins => exact joins

/-- A free box is accepted for another object that has no living box. -/
theorem Ruling.ok_of_free {outcome : Outcome Unit}
    (rule : w.Ruling r box (.object value) outcome w') (ne : value ≠ box)
    (free : (w.pairing r).values.get? box = none)
    (orphan : ∀ b, (w.pairing r).values.get? b = some value → w.isAlive b = false) :
    outcome = .ok () := by
  cases rule with
  | noIdentity without => cases without
  | itself => exact absurd rfl ne
  | known ne paired => rfl
  | boxTaken ne paired other => cases free.symm.trans paired
  | valueTaken ne free paired alive => cases alive.symm.trans (orphan _ paired)
  | joined ne free orphan joins => rfl

/-- The automatic reclaim makes no pairs. -/
theorem paired_of_autoReclaim
    (paired : ((w.autoReclaim r).pairing r).values.get? box = some value) :
    (w.pairing r).values.get? box = some value := by
  cases found : w.registry? r with
  | none =>
    rw [autoReclaim, found] at paired
    exact paired
  | some reg =>
    rw [autoReclaim_of_found found] at paired
    split at paired
    · obtain ⟨pushed, swept, -⟩ := registry?_reclaim_same found
      rw [pairing_of_found swept, Registry.enqueueAll_pairing,
        Registry.get?_values_drained] at paired
      split at paired
      · cases paired
      · rwa [pairing_of_found found]
    · exact paired

/-- A box that was none before has joined the pairs that the automatic reclaim left. -/
theorem joins_of_pair (s : Client.Sound ⟨held, w⟩) (opened : ∃ reg, w.registry? r = some reg)
    (inside : box ∈ held) (kept : ∀ id ∈ (Value.object value).references, Client.Keeps ⟨held, w⟩ id)
    (free : (w.pairing r).values.get? box = none)
    (ok : (w.pair r box (.object value)).1 = .ok ()) :
    ((w.autoReclaim r).pairing r).values.get? box = none ∧
      (w.autoReclaim r).Joins (w.pair r box (.object value)).2 r box value := by
  have drained : Moves (· = .drain r) ⟨held, w⟩ ⟨held, w.autoReclaim r⟩ := moves_autoReclaim rfl
  have sound := drained.sound s
  obtain ⟨reg, found⟩ := found_autoReclaim s opened
  have rule := ruling_pair sound found box fun id there =>
    ((kept id there).after drained s le_rfl).alive sound
  have still := (get?_values_autoReclaim s (Client.Keeps.alive (.held inside) s)).trans free
  exact ⟨still, rule.joins_of_ok still ok⟩

/-- A pair that joins and is undone at once leaves the pairs that there were, but for some of dead
boxes. -/
theorem sheds_unpair_pair (s : Client.Sound ⟨held, w⟩) (opened : ∃ reg, w.registry? r = some reg)
    (inside : box ∈ held) (kept : ∀ id ∈ (Value.object value).references, Client.Keeps ⟨held, w⟩ id)
    (free : (w.pairing r).values.get? box = none)
    (ok : (w.pair r box (.object value)).1 = .ok ()) :
    ((w.pair r box (.object value)).2.unpair r box).1 = .ok (.object value) ∧
      w.Sheds ((w.pair r box (.object value)).2.unpair r box).2 r value := by
  obtain ⟨still, joins⟩ := joins_of_pair s opened inside kept free ok
  have drained : Moves (· = .drain r) ⟨held, w⟩ ⟨held, w.autoReclaim r⟩ := moves_autoReclaim rfl
  have moves : Moves (fun _ => True) ⟨held, w⟩ ⟨held, (w.pair r box (.object value)).2⟩ :=
    moves_pair (fun _ _ => trivial) trivial (fun _ _ => trivial) s opened inside kept
  have sound := moves.sound s
  have joined := (joins.pairs box value).2 (.inl ⟨rfl, rfl⟩)
  obtain ⟨outcome, parts⟩ := parts_unpair sound joined
  have swept : ∀ b v, (((w.pair r box (.object value)).2.unpair r box).2.pairing r).values.get? b =
      some v ↔ ((w.autoReclaim r).pairing r).values.get? b = some v ∧ v ≠ value := by
    intro b v
    rw [parts.values]
    by_cases same : b = box
    · simp [same, still]
    · simp [same, joins.pairs]
  refine ⟨outcome, swept, fun b v there => ?_, fun b v there survives => ?_, fun b v => ?_⟩
  · exact paired_of_autoReclaim ((swept b v).1 there).1
  · obtain ⟨reg, found, entry⟩ := found_of_paired there
    rw [parts.isAlive, joins.isAlive] at survives
    have lived := drained.evolves.alive (s.known_of_paired found entry) survives
    have spared := (get?_values_autoReclaim s lived).trans there
    refine (swept b v).2 ⟨spared, ?_⟩
    rintro rfl
    cases survives.symm.trans (joins.replaced b spared)
  · obtain ⟨reg, found, entry⟩ := found_of_paired joined
    exact (((sound.unpair found entry).mirrored r).inverse b v).symm

end Host

namespace Session

variable {s : Session} {name h : String} {r : RegistryId} {box value : ObjectId}

theorem step_release (keep : Option String) (found : s.target name h = .ok (r, box)) :
    s.step (.release name h keep) =
      s.acting (s.host.unpair r box) fun v s => s.hand keep v := by
  rw [step, found]
  rfl

/-- When a step has undone a pair, only the handles are left to see to. -/
theorem pairing_release (sound : s.Sound) (found : s.target name h = .ok (r, box))
    (keep : Option String) : (s.answer (.release name h keep)).2.host.pairing r =
      (s.host.quiet.unpair r box).2.pairing r := by
  have quiet := sound_quiet sound
  have moves : Moves (fun _ => True) ⟨s.handles.values, s.host.quiet⟩ ⟨s.handles.values +
      (handed (s.host.quiet.unpair r box).1 : Multiset ObjectId), (s.host.quiet.unpair r box).2⟩ :=
    Host.moves_unpair trivial
  have sound' := moves.sound quiet.client
  have found' : target { s with host := s.host.quiet } name h = .ok (r, box) := found
  rw [answer_session, step_release keep found']
  cases result : s.host.quiet.unpair r box with
  | mk outcome w =>
    rw [result] at sound'
    cases outcome with
    | error f => rfl
    | ok v =>
      obtain ⟨ids, heard⟩ := (moves_hand { s with host := w } keep sound').heard_of_light r
      exact Host.pairing_of_heard heard

/-- A box and another object are accepted, if the one is no box and the other has none that is
alive. -/
theorem answer_pair_free (reach : s.Reachable) {term : ValueTerm}
    (found : s.target name h = .ok (r, box)) (found_v : s.value term = .ok (.object value))
    (ne : value ≠ box) (free : (s.host.pairing r).values.get? box = none)
    (lonely : s.host.boxOf? r (.object value) = none) :
    (s.answer (.pair name h term)).1.result = .ok .nothing := by
  have quiet := (sound_quiet reach.sound).client
  have drained : Moves (· = .drain r) ⟨s.handles.values, s.host.quiet⟩
      ⟨s.handles.values, s.host.quiet.autoReclaim r⟩ := Host.moves_autoReclaim rfl
  have lives : s.host.quiet.isAlive box = true :=
    (sound_quiet reach.sound).alive_handle (target_eq_ok.1 found).2
  have granted := (ruling_answer reach found found_v).ok_of_free ne
    ((Host.get?_values_autoReclaim quiet lives).trans free) fun b paired => by
      by_contra alive
      have known := (Host.boxOf?_iff (drained.sound quiet)).2 ⟨paired, by simpa using alive⟩
      cases lonely.symm.trans (Host.boxOf?_autoReclaim quiet known)
  rw [(answer_pair found found_v).1, granted]
  rfl

/-- A pair that a step has made stands in whatever follows, if the box is not released and is alive
at the end. -/
theorem recognizes_of_associates (sound : s.Sound) {t : Step} (made : s.Associates t r box value)
    {ts : List Step} (spares : Spares r box (s.answer t).2 ts)
    (opened : ∃ reg, ((s.answer t).2.run ts).host.registry? r = some reg)
    (alive : ((s.answer t).2.run ts).host.isAlive box = true) :
    ((s.answer t).2.run ts).host.Recognizes r box value := by
  obtain ⟨c, reg, sound_c, found, paired, rest⟩ := paired_of_associates sound made
  have answered := sound_answer sound t
  have later : Moves (· ≠ .unpair r box) c ((s.answer t).2.run ts).client :=
    (rest.mono fun d (plain : d.plain) => by rintro rfl; cases plain).trans
      (moves_run_sparing answered ts spares)
  obtain ⟨reg', found'⟩ := opened
  exact Host.recognizes (sound_run answered ts).client found'
    (later.pair_lasts sound_c found found' paired alive) alive

/-- A box and a value are free to be paired with others. Once the value has another box, the pair
of the two stands for as long as that box lives and is not released. -/
structure Freed (s : Session) (r : RegistryId) (box value : ObjectId) : Prop where
  box_free : ∀ name h term u, s.target name h = .ok (r, box) → s.value term = .ok (.object u) →
    u ≠ box → (s.host.livingBox r (.object u)).1 = none →
      (s.answer (.pair name h term)).1.result = .ok .nothing
  value_free : ∀ name h term b, s.target name h = .ok (r, b) → s.value term = .ok (.object value) →
    b ≠ value → (s.host.pairing r).values.get? b = none →
      (s.answer (.pair name h term)).1.result = .ok .nothing
  stands : ∀ us t b ts, (s.run us).Associates t r b value →
    Spares r b ((s.run us).answer t).2 ts →
    (∃ reg, (((s.run us).answer t).2.run ts).host.registry? r = some reg) →
    (((s.run us).answer t).2.run ts).host.isAlive b = true →
      (((s.run us).answer t).2.run ts).host.Recognizes r b value

theorem freed_release (reach : s.Reachable) (found : s.target name h = .ok (r, box))
    (paired : (s.host.pairing r).values.get? box = some value) (keep : Option String) :
    (s.answer (.release name h keep)).2.Freed r box value := by
  have sound := reach.sound
  have reach' := reach.run [.release name h keep]
  obtain ⟨-, parts⟩ := Host.parts_unpair (w := s.host.quiet) (sound_quiet sound).client paired
  have single := parts.boxes value
  have free := parts.values box
  rw [if_pos rfl, ← pairing_release sound found keep] at single free
  refine ⟨fun name' h' term u found' found_v ne lonely => ?_,
    fun name' h' term b found' found_v ne free_b => ?_,
    fun us t b ts made spares opened alive => ?_⟩
  · exact answer_pair_free reach' found' found_v ne free lonely
  · exact answer_pair_free reach' found' found_v (Ne.symm ne) free_b (Host.boxOf?_of_none single)
  · exact recognizes_of_associates (sound_run (sound_answer sound _) us) made spares opened alive

/-- In every session that a script reaches, to release a box hands out its value and takes out its
pair, and nothing else. An object that is no box is refused and nothing changes. A pair that has
just joined leaves the pairs that there were, but for some of dead boxes. The box may be registered
anew then, and the value may get another box. A pair that the value joins after that stands as long
as its own box lives and is not released, whether the old box dies or not, and however often its
number is reclaimed. -/
theorem release_undoes (reach : s.Reachable) (found : s.target name h = .ok (r, box)) :
    (∀ value, (s.host.pairing r).values.get? box = some value →
      let w := (s.host.unpair r box).2
      (s.host.unpair r box).1 = .ok (.object value) ∧ s.host.Parts w r box value ∧
        (w.registry? r).any (·.isBox (.object box)) = false ∧
        (w.livingBox r (.object value)).1 = none ∧
        ∀ keep, (s.answer (.release name h keep)).2.Freed r box value) ∧
    ((s.host.pairing r).values.get? box = none →
      s.host.unpair r box = (.error .notBox, s.host) ∧
        ∀ term value, s.value term = .ok (.object value) →
          (s.host.pair r box (.object value)).1 = .ok () →
            let w := (s.host.pair r box (.object value)).2
            (w.unpair r box).1 = .ok (.object value) ∧
              s.host.Sheds (w.unpair r box).2 r value) := by
  have sound := reach.sound
  have opened := sound.open_registry (target_eq_ok.1 found).1
  refine ⟨fun value paired => ?_, fun free => ⟨?_, fun term value found_v ok => ?_⟩⟩
  · obtain ⟨outcome, parts⟩ := Host.parts_unpair sound.client paired
    have single := parts.boxes value
    have free := parts.values box
    rw [if_pos rfl] at single free
    refine ⟨outcome, parts, ?_, Host.boxOf?_of_none single, freed_release reach found paired⟩
    rw [Host.isBox_eq, Pairing.hasBox, Table.contains, free]
    rfl
  · rw [Host.unpair, Pairing.remove_of_none free]
  · exact Host.sheds_unpair_pair sound.client opened (mem_handles (target_eq_ok.1 found).2)
      (fun id inside => .held (holds_value found_v id inside)) free ok

/-- A box takes the place of a dead one and is released at once, and the pair of the dead box is
gone with it. The next box of the value stands, although the number of the released box is
reclaimed. -/
theorem release_undoes_leftover :
    let s := (start (some false)).run [.create (some "b"), .create (some "v"), .create (some "a"),
      .create (some "c"), .pair "r" "a" (.handle "v"), .drop "a"]
    let boxed := (s.answer (.pair "r" "b" (.handle "v"))).2
    let s' := (boxed.answer (.release "r" "b" none)).2
    let t : Step := .pair "r" "c" (.handle "v")
    let dropped := (s'.answer t).2.run [.reclaim "r", .drop "b"]
    let last := (s'.answer t).2.run [.reclaim "r", .drop "b", .reclaim "r"]
    (s.host.pairing 0).values.keys = [3] ∧
      s.host.Sheds ((s.host.pair 0 1 (.object 2)).2.unpair 0 1).2 0 2 ∧
      (boxed.host.unpair 0 1).1 = .ok (.object 2) ∧ (s'.answer t).1.result = .ok .nothing ∧
      dropped.host.queue 0 = [1] ∧ last.host.queue 0 = [] ∧ last.host.Recognizes 0 4 2 := by
  intro s boxed s' t dropped last
  have reach : s.Reachable := ⟨_, _, rfl⟩
  have reach' : boxed.Reachable := reach.run [.pair "r" "b" (.handle "v")]
  have found : s.target "r" "b" = .ok (0, 1) := by decide +kernel
  have found' : boxed.target "r" "b" = .ok (0, 1) := by decide +kernel
  have found_c : s'.target "r" "c" = .ok (0, 4) := by decide +kernel
  have found_v : s.value (.handle "v") = .ok (.object 2) := by decide +kernel
  have found_v' : s'.value (.handle "v") = .ok (.object 2) := by decide +kernel
  obtain ⟨-, free⟩ := release_undoes reach found
  obtain ⟨-, fresh⟩ := free (by decide +kernel)
  obtain ⟨takes, -⟩ := release_undoes reach' found'
  obtain ⟨outcome, -, -, -, frees⟩ := takes 2 (by decide +kernel)
  have accepted := (frees none).value_free "r" "c" (.handle "v") 4 found_c found_v' (by decide)
    (by decide +kernel)
  have made : (s'.run []).Associates t 0 4 2 :=
    .inl ⟨"r", "c", .handle "v", rfl, found_c, found_v', accepted⟩
  have spares : Spares 0 4 (s'.answer t).2 [.reclaim "r", .drop "b", .reclaim "r"] := by
    refine ⟨?_, ?_, ?_, trivial⟩ <;> rintro ⟨name, h, keep, same, -⟩ <;> cases same
  have recognized := (frees none).stands [] t 4 _ made spares
    (Option.isSome_iff_exists.1 (by decide +kernel)) (by decide +kernel)
  exact ⟨by decide +kernel, (fresh (.handle "v") 2 found_v (by decide +kernel)).2, outcome,
    accepted, by decide +kernel, by decide +kernel, recognized⟩

end Session

end Compound
