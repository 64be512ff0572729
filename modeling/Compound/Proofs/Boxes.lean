import Compound.Proofs.Runs

/-!
Boxes and their values, in every session that a script can reach. The two directions of a
pairing mirror each other, whether boxes are alive or dead, and a pair stands for as long
as its box lives and is not released.
-/
namespace Compound

namespace Registry.Edit

variable {reg edited : Registry} {r : RegistryId} {alive : ObjectId → Bool} {d : Deed}
  {box value : ObjectId}

/-- No edit but its release takes out the pair of a living box. A join takes out the pair of
a dead box only, and draining takes out queued boxes only. -/
theorem keeps_pair (e : reg.Edit r alive d edited) (kept : d ≠ .unpair r box)
    (paired : reg.pairing.values.get? box = some value) (living : alive box = true)
    (unqueued : box ∉ reg.queue) : edited.pairing.values.get? box = some value := by
  cases e with
  | elsewhere | tag => exact paired
  | @join box' value' pairs released admits ne =>
    have other : box ≠ box' := by
      rintro rfl
      rw [admits.free] at paired
      cases paired
    have differs : value ≠ value' := by
      rintro rfl
      rw [admits.orphan box paired] at living
      cases living
    rw [Pairing.insert, Table.get?_put_other _ _ other]
    exact (admits.others box value).2 ⟨paired, differs⟩
  | @unpair box' value' paired' =>
    have other : box ≠ box' := by
      rintro rfl
      exact kept rfl
    rw [Pairing.get?_values_remove, if_neg other]
    exact paired
  | drain =>
    rw [Registry.get?_values_drained, if_neg unqueued]
    exact paired

end Registry.Edit

namespace Client.Sound

variable {held : Multiset ObjectId} {w : Host} {r : RegistryId} {reg : Registry}

theorem mirrored (s : Sound ⟨held, w⟩) (r : RegistryId) : (w.pairing r).Mirrored := by
  cases found : w.registry? r with
  | none =>
    rw [Host.pairing_of_none found]
    exact Pairing.mirrored_empty
  | some reg =>
    rw [Host.pairing_of_found found]
    exact (s.attended r reg found).mirrored

/-- What is queued is dead. -/
theorem dead_of_queued (s : Sound ⟨held, w⟩) (found : w.registry? r = some reg) {id : ObjectId}
    (queued : id ∈ reg.queue) : w.isAlive id = false :=
  (Heap.isAlive_eq_false _ id).2 ((s.attended r reg found).buried id queued).1

theorem unqueued_of_alive (s : Sound ⟨held, w⟩) (found : w.registry? r = some reg) {id : ObjectId}
    (alive : w.isAlive id = true) : id ∉ reg.queue := by
  intro queued
  rw [s.dead_of_queued found queued] at alive
  cases alive

/-- A box has a number that was given out. -/
theorem known_of_paired (s : Sound ⟨held, w⟩) (found : w.registry? r = some reg)
    {box value : ObjectId} (paired : reg.pairing.values.get? box = some value) :
    box < w.heap.next :=
  ((s.attended r reg found).minded box (Registry.mentions_box paired) not_false).known

end Client.Sound

section Lasting

variable {c c' : Client} {r : RegistryId} {box value : ObjectId}

theorem Move.pair_lasts {d : Deed} (m : Move d c c') (s : c.Sound) (kept : d ≠ .unpair r box)
    {reg reg' : Registry} (found : c.host.registry? r = some reg)
    (found' : c'.host.registry? r = some reg')
    (paired : reg.pairing.values.get? box = some value) (alive : c'.host.isAlive box = true) :
    reg'.pairing.values.get? box = some value := by
  have living := m.evolves.alive (s.known_of_paired found paired) alive
  rcases m.edits s found with ⟨-, closed⟩ | ⟨edited, pushed, edit, same⟩
  · rw [closed] at found'
    cases found'
  · rw [same, Option.some.injEq] at found'
    rw [← found', Registry.enqueueAll_pairing]
    exact edit.keeps_pair kept paired living (s.unqueued_of_alive found living)

/-- A pair stands through any run of moves that do not release its box, if the box is alive
and the registry open at the end. -/
theorem Moves.pair_lasts (m : Moves (· ≠ .unpair r box) c c') (s : c.Sound)
    {reg reg' : Registry} (found : c.host.registry? r = some reg)
    (found' : c'.host.registry? r = some reg')
    (paired : reg.pairing.values.get? box = some value) (alive : c'.host.isAlive box = true) :
    reg'.pairing.values.get? box = some value := by
  induction m generalizing reg' with
  | refl =>
    cases Option.some.inj (found.symm.trans found')
    exact paired
  | @tail c₁ c₂ first last ih =>
    obtain ⟨d, kept, move⟩ := last
    have sound := Moves.sound first s
    have old := Nat.lt_of_lt_of_le (s.known_of_paired found paired) (Moves.evolves first).next_le
    have opened := Nat.lt_of_lt_of_le (s.numbered r reg found) (Moves.nextRegistry_le first)
    -- the registry and the box are there at the end, so they were there before the last move
    cases before : c₁.host.registry? r with
    | none =>
      rw [move.closed opened before] at found'
      cases found'
    | some reg₁ =>
      exact move.pair_lasts sound kept before found'
        (ih before (move.evolves.alive old alive)) alive

end Lasting

namespace Host

variable {held : Multiset ObjectId} {w : Host} {r : RegistryId} {box value : ObjectId}

/-- What a host answers about a living box and its value. -/
structure Recognizes (w : Host) (r : RegistryId) (box value : ObjectId) : Prop where
  isBox : (w.registry? r).any (·.isBox (.object box)) = true
  unbox : (w.unbox r (.object box)).1 = .ok (.object value)
  livingBox : (w.livingBox r (.object value)).1 = some box

/-- What a host answers to whoever wants to box the value or to use the box, given the host
that it is after reclaiming: the pair is confirmed, and nothing else may join in. -/
structure Upholds (w w' : Host) (r : RegistryId) (box value : ObjectId) : Prop where
  registered : ∀ other, w.isAlive other = true →
    (w'.pairing r).hasBox other = (w.pairing r).hasBox other
  boxFor : w.boxFor r (.object value) = (.ok box, w'.retain [box])
  again : w.pair r box (.object value) = (.ok (), w')
  boxTaken : ∀ other, other ≠ value → other ≠ box →
    w.pair r box (.object other) = (.error (.unpairable .boxTaken), w')
  valueTaken : ∀ other, other ≠ value → other ≠ box →
    w.pair r other (.object value) =
      (.error (.unpairable (if (w'.pairing r).hasBox other then .boxTaken else .valueTaken)), w')

theorem boxOf?_iff (s : Client.Sound ⟨held, w⟩) :
    w.boxOf? r (.object value) = some box ↔
      (w.pairing r).values.get? box = some value ∧ w.isAlive box = true :=
  (s.mirrored r).livingBox_iff

theorem unbox_of_paired (paired : (w.pairing r).values.get? box = some value) :
    w.unbox r (.object box) = (.ok (.object value), w.retain [value]) := by
  have value?_eq : (Value.object box).identity.bind (w.pairing r).value? = some value := paired
  rw [unbox, value?_eq]

theorem paired_of_unbox (unboxed : (w.unbox r (.object box)).1 = .ok (.object value)) :
    (w.pairing r).values.get? box = some value := by
  cases found : (w.pairing r).values.get? box with
  | none =>
    have value?_eq : (Value.object box).identity.bind (w.pairing r).value? = none := found
    rw [unbox, value?_eq] at unboxed
    cases unboxed
  | some held =>
    rw [unbox_of_paired found] at unboxed
    injection unboxed with same
    injection same with same
    rw [same]

theorem recognizes (s : Client.Sound ⟨held, w⟩) {reg : Registry}
    (found : w.registry? r = some reg) (paired : reg.pairing.values.get? box = some value)
    (alive : w.isAlive box = true) : w.Recognizes r box value := by
  have paired' : (w.pairing r).values.get? box = some value := by
    rw [pairing_of_found found]
    exact paired
  constructor
  · rw [found, Option.any_some]
    exact (reg.pairing.hasBox_iff box).2 ⟨value, paired⟩
  · rw [unbox_of_paired paired']
  · exact (boxOf?_iff s).2 ⟨paired', alive⟩

/-- A reclaim takes out no pair of a living box. -/
theorem get?_values_reclaim (s : Client.Sound ⟨held, w⟩) (alive : w.isAlive box = true) :
    ((w.reclaim r).2.pairing r).values.get? box = (w.pairing r).values.get? box := by
  cases found : w.registry? r with
  | none => simp only [reclaim, found]
  | some reg =>
    obtain ⟨pushed, swept, -⟩ := registry?_reclaim_same found
    rw [pairing_of_found swept, pairing_of_found found, Registry.enqueueAll_pairing,
      Registry.get?_values_drained, if_neg (s.unqueued_of_alive found alive)]

theorem get?_values_autoReclaim (s : Client.Sound ⟨held, w⟩) (alive : w.isAlive box = true) :
    ((w.autoReclaim r).pairing r).values.get? box = (w.pairing r).values.get? box := by
  rw [autoReclaim]
  cases w.registry? r with
  | none => rfl
  | some reg =>
    simp only
    split
    · exact get?_values_reclaim s alive
    · rfl

/-- Whoever asks after the reclaim finds the pair in place. -/
theorem upholds (s : Client.Sound ⟨held, w⟩) {reg : Registry}
    (found : Host.registry? (w.autoReclaim r) r = some reg)
    (paired : reg.pairing.values.get? box = some value)
    (alive : (w.autoReclaim r).isAlive box = true) : w.Upholds (w.autoReclaim r) r box value := by
  have drained : Moves (· = .drain r) ⟨held, w⟩ ⟨held, w.autoReclaim r⟩ := moves_autoReclaim rfl
  have sound := drained.sound s
  have mirrored := (sound.attended r reg found).mirrored
  have proper := mirrored.proper box value paired
  have pairing := pairing_of_found found
  constructor
  · intro other living
    simp only [Pairing.hasBox, Table.contains, get?_values_autoReclaim s living]
  · have known : (w.autoReclaim r).boxOf? r (.object value) = some box := by
      rw [boxOf?_iff sound, pairing]
      exact ⟨paired, alive⟩
    simp only [boxFor, Value.identity_object, known]
  · simp only [pair, Value.identity_object, if_neg proper, joinIfFresh, pairing,
      Pairing.judge_same paired]
  · intro other differs ne
    simp only [pair, Value.identity_object, if_neg ne, joinIfFresh, pairing,
      Pairing.judge_taken paired (Ne.symm differs)]
  · intro other differs ne
    have judged := mirrored.judge_other paired alive ne
    simp only [pair, Value.identity_object, if_neg (Ne.symm differs), joinIfFresh, pairing, judged]

/-- A join that succeeds leaves the pair behind, new or not. -/
theorem paired_of_joinIfFresh {reg : Registry} (found : w.registry? r = some reg) {fresh : Bool}
    (ok : (w.joinIfFresh r box value).1 = .ok fresh) :
    ((w.joinIfFresh r box value).2.pairing r).values.get? box = some value := by
  have pairing := pairing_of_found found
  rw [joinIfFresh, pairing] at ok ⊢
  cases judged : reg.pairing.judge w.isAlive box value with
  | error e =>
    rw [judged] at ok
    cases ok
  | ok verdict =>
    cases verdict with
    | known =>
      simp only [pairing]
      exact Pairing.paired_of_known judged
    | fresh pairs released =>
      obtain ⟨pushed, entered, -⟩ := registry?_join_same found box value pairs released
      simp only [pairing_of_found entered, Registry.enqueueAll_pairing]
      exact Table.get?_put_same _ _ _

/-- A pair that was registered is there. -/
theorem paired_of_pair (s : Client.Sound ⟨held, w⟩) (opened : ∃ reg, w.registry? r = some reg)
    (ok : (w.pair r box (.object value)).1 = .ok ()) :
    ((w.pair r box (.object value)).2.pairing r).values.get? box = some value := by
  obtain ⟨reg, found⟩ := found_autoReclaim s opened
  rw [pair] at ok ⊢
  simp only [Value.identity_object] at ok ⊢
  by_cases itself : value = box
  · rw [if_pos itself] at ok
    cases ok
  · rw [if_neg itself] at ok ⊢
    have joined := fun fresh => @paired_of_joinIfFresh _ r box value reg found fresh
    cases result : (w.autoReclaim r).joinIfFresh r box value with
    | mk outcome w' =>
      rw [result] at ok joined
      cases outcome with
      | error e => cases ok
      | ok fresh =>
        cases fresh with
        | false => exact joined false rfl
        | true => exact joined true rfl

/-- A box that was handed out is the box of the value. -/
theorem paired_of_boxFor (s : Client.Sound ⟨held, w⟩) (opened : ∃ reg, w.registry? r = some reg)
    (ok : (w.boxFor r (.object value)).1 = .ok box) :
    ((w.boxFor r (.object value)).2.pairing r).values.get? box = some value := by
  obtain ⟨reg, found⟩ := found_autoReclaim s opened
  have drained : Moves (· = .drain r) ⟨held, w⟩ ⟨held, w.autoReclaim r⟩ := moves_autoReclaim rfl
  rw [boxFor] at ok ⊢
  simp only [Value.identity_object] at ok ⊢
  cases known : (w.autoReclaim r).boxOf? r (.object value) with
  | some box' =>
    rw [known] at ok
    cases ok
    exact ((boxOf?_iff (drained.sound s)).1 known).1
  | none =>
    simp only [known] at ok ⊢
    have joined := fun fresh => @paired_of_joinIfFresh
      (((w.autoReclaim r).create none).2.freeze ((w.autoReclaim r).create none).1) r
      ((w.autoReclaim r).create none).1 value reg found fresh
    cases result : (((w.autoReclaim r).create none).2.freeze
        ((w.autoReclaim r).create none).1).joinIfFresh r
          ((w.autoReclaim r).create none).1 value with
    | mk outcome w' =>
      rw [result] at joined
      simp only [result] at ok ⊢
      cases outcome with
      | error e => cases ok
      | ok fresh =>
        cases ok
        exact joined fresh rfl

end Host

namespace Session

/-- A step associates a box with a value if it pairs the two or asks for the box of the value,
and its answer is that this was done. -/
def Associates (s : Session) (t : Step) (r : RegistryId) (box value : ObjectId) : Prop :=
  (∃ name h term, t = .pair name h term ∧ s.target name h = .ok (r, box) ∧
    s.value term = .ok (.object value) ∧ (s.answer t).1.result = .ok .nothing) ∨
  ∃ name term keep, t = .box name term keep ∧ s.subject name term = .ok (r, .object value) ∧
    ((s.answer t).1.result = .ok (.value (.object box)) ∨
      (s.answer t).1.result = .ok (.value (.function box)))

variable {s : Session} {t : Step} {r : RegistryId} {box value : ObjectId}

theorem answer_result (s : Session) (t : Step) :
    (s.answer t).1.result = (step { s with host := s.host.quiet } t).1 := rfl

theorem answer_session (s : Session) (t : Step) :
    (s.answer t).2 = (step { s with host := s.host.quiet } t).2 := rfl

/-- An operation that only has to be done, or fails, gives the reply. -/
theorem acting_done {α : Type} (s : Session) (p : Outcome α × Host) :
    s.acting p (fun _ s => s.done) =
      ((p.1.map fun _ => Reply.nothing).mapError Fault.failure, { s with host := p.2 }) := by
  obtain ⟨outcome, w⟩ := p
  cases outcome <;> rfl

theorem step_pair {name h : String} {term : ValueTerm} {v : Value}
    (found : s.target name h = .ok (r, box)) (found_v : s.value term = .ok v) :
    s.step (.pair name h term) = s.acting (s.host.pair r box v) fun _ s => s.done := by
  rw [step, found, found_v]
  rfl

theorem step_box {name : String} {term : ValueTerm} {v : Value} (keep : Option String)
    (found : s.subject name term = .ok (r, v)) :
    s.step (.box name term keep) =
      s.acting (s.host.boxFor r v) fun box s => s.hand keep (.object box) := by
  rw [step, found]
  rfl

/-- A view tells the identity of an object. -/
theorem eq_of_view {id : ObjectId}
    (shown : s.view (.object id) = .object box ∨ s.view (.object id) = .function box) :
    id = box := by
  rw [view] at shown
  split at shown
  · rcases shown with shown | shown
    · cases shown
    · injection shown
  · rcases shown with shown | shown
    · injection shown
    · cases shown

/-- Of a step that associates a box with a value, the pair is there when only moves on objects
are left to do. -/
theorem paired_of_associates (sound : s.Sound) (made : s.Associates t r box value) :
    ∃ c reg, Client.Sound c ∧ c.host.registry? r = some reg ∧
      reg.pairing.values.get? box = some value ∧ Moves Deed.plain c (s.answer t).2.client := by
  have quiet := sound_quiet sound
  rw [Associates, answer_result] at made
  rw [answer_session]
  rcases made with ⟨name, h, term, rfl, found, found_v, ok⟩ | ⟨name, term, keep, rfl, found, shown⟩
  · have opened := quiet.open_registry (target_eq_ok.1 found).1
    have after := (sound_step quiet (.pair name h term)).client
    have paired := @Host.paired_of_pair _ s.host.quiet r box value quiet.client opened
    have eq := @step_pair { s with host := s.host.quiet } r box name h term _ found found_v
    rw [eq] at ok after ⊢
    cases result : s.host.quiet.pair r box (.object value) with
    | mk outcome host =>
      rw [result] at ok after paired
      cases outcome with
      | error e => cases ok
      | ok _ =>
        obtain ⟨reg, found', paired'⟩ := Host.found_of_paired (paired rfl)
        exact ⟨_, reg, after, found', paired', .refl _⟩
  · have opened := quiet.open_registry (subject_eq_ok.1 found).1
    have holds := (holds_value (subject_eq_ok.1 found).2 : s.Holds _)
    have paired := fun box => @Host.paired_of_boxFor _ s.host.quiet r box value quiet.client opened
    have handed_out := (Host.moves_boxFor (fun d _ => trivial) trivial (fun _ _ _ => trivial)
      quiet.client opened (Holds.kept holds)).sound quiet.client
    have eq := @step_box { s with host := s.host.quiet } r name term _ keep found
    rw [eq] at shown ⊢
    cases result : s.host.quiet.boxFor r (.object value) with
    | mk outcome host =>
      rw [result] at shown paired handed_out
      cases outcome with
      | error e => rcases shown with shown | shown <;> cases shown
      | ok box' =>
        have same : box' = box := by
          apply @eq_of_view { s with host := host }
          rcases shown with shown | shown
          · exact Or.inl (Reply.value.inj (Except.ok.inj shown))
          · exact Or.inr (Reply.value.inj (Except.ok.inj shown))
        subst same
        obtain ⟨reg, found', paired'⟩ := Host.found_of_paired (paired box' rfl)
        exact ⟨_, reg, handed_out, found', paired',
          (moves_hand { s with host := host } keep handed_out).mono fun _ light => light.plain⟩

/-- In every session that a script reaches, the two directions of the boxes of a registry are
inverse to each other, whether or not the boxes are still alive. No two boxes share a value,
both directions are of one size, and the values are living objects that are not their own
boxes. -/
theorem pairs_mirrored (reach : s.Reachable) (r : RegistryId) :
    (∀ box value, (s.host.pairing r).values.get? box = some value ↔
      (s.host.pairing r).boxes.get? value = some box) ∧
    (∀ box box' value, (s.host.pairing r).values.get? box = some value →
      (s.host.pairing r).values.get? box' = some value → box = box') ∧
    (s.host.pairing r).values.size = (s.host.pairing r).boxes.size ∧
    ∀ box value, (s.host.pairing r).values.get? box = some value →
      s.host.isAlive value = true ∧ value ≠ box := by
  have sound := reach.sound.client
  have mirrored := sound.mirrored r
  refine ⟨mirrored.inverse, fun _ _ _ h h' => mirrored.box_unique h h', mirrored.size_eq, ?_⟩
  intro box value paired
  obtain ⟨reg, found, paired'⟩ := Host.found_of_paired paired
  exact ⟨sound.alive_boxed found paired', mirrored.proper box value paired⟩

/-- A box dies, its value gets another one, and the old pair is replaced in both directions. -/
theorem pairs_mirrored_replaced :
    let s := (start (some false)).run [.create (some "old"), .create (some "value"),
      .pair "r" "old" (.handle "value"), .drop "old", .create (some "new"),
      .pair "r" "new" (.handle "value")]
    s.host.isAlive 1 = false ∧ (s.host.pairing 0).values.get? 3 = some 2 ∧
      (s.host.pairing 0).boxes.get? 2 = some 3 := by
  intro s
  have reach : s.Reachable := ⟨_, _, rfl⟩
  have paired : (s.host.pairing 0).values.get? 3 = some 2 := by decide +kernel
  exact ⟨by decide +kernel, paired, ((pairs_mirrored reach 0).1 3 2).1 paired⟩

/-- Once a step has associated a box with a value, and for as long as no step releases the box
in that registry, the registry recognizes the box whenever it is alive, and upholds the
association against every attempt at another one if the box is alive after reclaiming. In
every session, living boxes and their values lead to each other. -/
theorem association_lasts (reach : s.Reachable) (r : RegistryId) :
    (∀ t box value ts, s.Associates t r box value → Spares r box (s.answer t).2 ts →
      (∃ reg, ((s.answer t).2.run ts).host.registry? r = some reg) →
      (((s.answer t).2.run ts).host.isAlive box = true →
        ((s.answer t).2.run ts).host.Recognizes r box value) ∧
      ((((s.answer t).2.run ts).host.autoReclaim r).isAlive box = true →
        ((s.answer t).2.run ts).host.Upholds
          (((s.answer t).2.run ts).host.autoReclaim r) r box value)) ∧
    (∀ box value, s.host.isAlive box = true →
      (s.host.unbox r (.object box)).1 = .ok (.object value) →
      (s.host.livingBox r (.object value)).1 = some box) ∧
    ∀ v box, (s.host.livingBox r v).1 = some box → (s.host.unbox r (.object box)).1 = .ok v := by
  have sound := reach.sound
  refine ⟨?_, ?_, ?_⟩
  · intro t box value ts made spares opened
    obtain ⟨c, reg, sound_c, found, paired, rest⟩ := paired_of_associates sound made
    have answered := sound_answer sound t
    have last := (sound_run answered ts).client
    -- what is left of the step and the script after it never undo the pair
    have later : Moves (· ≠ .unpair r box) c ((s.answer t).2.run ts).client :=
      (rest.mono fun d (plain : d.plain) => by rintro rfl; cases plain).trans
        (moves_run_sparing answered ts spares)
    obtain ⟨reg', found'⟩ := opened
    constructor
    · intro alive
      exact Host.recognizes last found' (later.pair_lasts sound_c found found' paired alive) alive
    · intro alive
      have drained : Moves (· = .drain r) ((s.answer t).2.run ts).client
          ⟨((s.answer t).2.run ts).handles.values, ((s.answer t).2.run ts).host.autoReclaim r⟩ :=
        Host.moves_autoReclaim rfl
      obtain ⟨reg'', found''⟩ := Host.found_autoReclaim last ⟨reg', found'⟩
      have whole := later.trans (drained.mono fun d (drain : d = _) => by rw [drain]; simp)
      exact Host.upholds last found'' (whole.pair_lasts sound_c found found'' paired alive) alive
  · intro box value alive unboxed
    exact (Host.boxOf?_iff sound.client).2 ⟨Host.paired_of_unbox unboxed, alive⟩
  · intro v box living
    obtain ⟨value, is, -⟩ := Option.bind_eq_some_iff.1 living
    rw [Value.identity_eq_some is] at living ⊢
    rw [Host.unbox_of_paired ((Host.boxOf?_iff sound.client).1 living).1]

/-- The value is dropped, another object asks for the box in vain, and the pair still stands. -/
theorem association_lasts_contested :
    let s := (start (some true)).run [.create (some "box"), .create (some "value"),
      .create (some "other")]
    let t : Step := .pair "r" "box" (.handle "value")
    let ts : List Step := [.drop "value", .pair "r" "box" (.handle "other"), .tagRecord "r" "other",
      .reclaim "r"]
    let w := ((s.answer t).2.run ts).host
    s.Associates t 0 1 2 ∧ w.Recognizes 0 1 2 ∧ w.Upholds (w.autoReclaim 0) 0 1 2 := by
  intro s t ts w
  have reach : s.Reachable := ⟨_, _, rfl⟩
  have made : s.Associates t 0 1 2 := by
    have found : s.target "r" "box" = .ok (0, 1) := by decide +kernel
    have found_v : s.value (.handle "value") = .ok (.object 2) := by decide +kernel
    have paired : (s.host.quiet.pair 0 1 (.object 2)).1 = .ok () := by decide +kernel
    refine Or.inl ⟨"r", "box", .handle "value", rfl, found, found_v, ?_⟩
    have step_eq := @step_pair { s with host := s.host.quiet } 0 1 "r" "box" (.handle "value") _
      found found_v
    rw [answer_result, step_eq]
    cases result : s.host.quiet.pair 0 1 (.object 2) with
    | mk outcome host =>
      rw [result] at paired
      cases paired
      rfl
  have spares : Spares 0 1 (s.answer t).2 ts := by
    refine ⟨?_, ?_, ?_, ?_, trivial⟩ <;> rintro ⟨name, h, keep, same, -⟩ <;> cases same
  have opened : ∃ reg, w.registry? 0 = some reg :=
    Option.isSome_iff_exists.1 (by decide +kernel)
  have lasts := (association_lasts reach 0).1 t 1 2 ts made spares opened
  exact ⟨made, lasts.1 (by decide +kernel), lasts.2 (by decide +kernel)⟩

end Session

end Compound
