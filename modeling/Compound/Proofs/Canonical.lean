import Compound.Proofs.Loans
import Compound.Proofs.Newborns
import Compound.Proofs.Refusals

/-!
The box that a registry makes for a value, in every session that a script can reach. Whoever asks
for the box of an object gets the living box that a look-up would find after the automatic reclaim,
and nothing changes. If there is none, it comes to the same as making a new object, freezing it and
pairing it with the value. So the two ways to a box differ in what they tell the log, and in nothing
else.
-/
namespace Compound

namespace Host

variable {held : Multiset ObjectId} {w : Host} {r : RegistryId} {reg : Registry}
  {box value : ObjectId}

/-- The automatic reclaim makes no object. -/
theorem next_autoReclaim (w : Host) (r : RegistryId) :
    (w.autoReclaim r).heap.next = w.heap.next := by
  rw [autoReclaim]
  cases w.registry? r with
  | none => rfl
  | some reg =>
    simp only
    split
    · exact w.next_reclaim r
    · rfl

/-- The box that is alive after the automatic reclaim is handed out as by a look-up, and without
the reference to it everything is as before. -/
theorem boxFor_known (s : Client.Sound ⟨held, w⟩)
    (known : (w.autoReclaim r).boxOf? r (.object value) = some box) :
    w.boxFor r (.object value) = (.ok box, ((w.autoReclaim r).livingBox r (.object value)).2) ∧
      Host.release (w.boxFor r (.object value)).2 [box] = w.autoReclaim r ∧
      (w.boxFor r (.object value)).2.heap.next = w.heap.next := by
  have drained : Moves (· = .drain r) ⟨held, w⟩ ⟨held, w.autoReclaim r⟩ := moves_autoReclaim rfl
  have handed : w.boxFor r (.object value) = (.ok box, (w.autoReclaim r).retain [box]) := by
    simp only [boxFor, Value.identity_object, known]
  have found : (w.autoReclaim r).livingBox r (.object value) =
      (some box, (w.autoReclaim r).retain [box]) := by
    rw [livingBox, known, Option.toList_some]
  rw [handed, found]
  refine ⟨rfl, ?_, (Heap.next_retain _ _).trans (w.next_autoReclaim r)⟩
  exact release_retain (drained.sound s).accounted (alive_singleton (alive_of_boxOf? known))

/-- A value without a living box gets the box that it would get from whoever makes an object,
freezes it and pairs it with the value. -/
theorem boxFor_made (s : Client.Sound ⟨held, w⟩) (opened : ∃ reg, w.registry? r = some reg)
    (kept : ∀ id ∈ (Value.object value).references, Client.Keeps ⟨held, w⟩ id)
    (orphan : (w.autoReclaim r).boxOf? r (.object value) = none) :
    ∃ u : Host,
      w.withBox.pair r (w.create none).1 (.object value) =
        (.ok (), u.tell (.registered (w.create none).1)) ∧
      w.boxFor r (.object value) =
        (.ok (w.create none).1, u.tell (.created (w.create none).1)) := by
  have drained : Moves (· = .drain r) ⟨held, w⟩ ⟨held, w.autoReclaim r⟩ := moves_autoReclaim rfl
  have sound := drained.sound s
  obtain ⟨reg, found⟩ := found_autoReclaim s opened
  have box : ((w.autoReclaim r).create none).1 = (w.create none).1 := w.next_autoReclaim r
  obtain ⟨pairs, released, fresh⟩ := judge_withBox sound found orphan
  have made := boxFor_fresh found orphan fresh
  rw [box] at made fresh
  refine ⟨_, ?_, made⟩
  have ne : value ≠ (w.create none).1 := by
    obtain ⟨o, living⟩ := (Heap.isAlive_iff _ value).1
      ((kept value (Value.mem_references.2 rfl)).alive s)
    exact Nat.ne_of_lt (s.accounted.bounded value o living)
  have found' : (w.autoReclaim r).withBox.registry? r = some reg := found
  simp only [pair, autoReclaim_withBox s r, Value.identity_object, if_neg ne, joinIfFresh,
    pairing_of_found found', fresh]

/-- Whichever way it went, the box that was handed out is recognized as the box of the value. -/
theorem boxFor_recognizes (s : Client.Sound ⟨held, w⟩) (opened : ∃ reg, w.registry? r = some reg)
    (kept : ∀ id ∈ (Value.object value).references, Client.Keeps ⟨held, w⟩ id) :
    ∃ box, (w.boxFor r (.object value)).1 = .ok box ∧
      (w.boxFor r (.object value)).2.Recognizes r box value := by
  obtain ⟨box, w', asked, -⟩ := boxFor_ok s opened value
  have ok : (w.boxFor r (.object value)).1 = .ok box := congrArg Prod.fst asked
  have moves : Moves (fun _ => True) ⟨held, w⟩ _ :=
    moves_boxFor (fun _ _ => trivial) trivial (fun _ _ _ => trivial) s opened kept
  have sound := moves.sound s
  obtain ⟨reg, found, paired⟩ := found_of_paired (paired_of_boxFor s opened ok)
  refine ⟨box, ok, recognizes sound found paired (Client.Keeps.alive (.held ?_) sound)⟩
  rw [ok]
  exact Multiset.mem_add.2 (.inr (List.mem_cons_self))

end Host

namespace Session

variable {s : Session} {term : ValueTerm} {r : RegistryId} {reg : Registry} {v : Value}

/-- In every session that a script reaches, whoever asks for the box of an object gets the living
box that a look-up finds once the registry has reclaimed if it should, and what changes is what the
look-up changes: there is one more reference to the box, and without it everything is as before. If
there is no such box, the outcome and the host are those of making an object, freezing it and
pairing it with the value, which succeeds, but for the notice at the end. Either way the box is
recognized as that of the object afterwards. A value without an identity is refused and no object is
made. -/
theorem boxFor_canonical (reach : s.Reachable) (found : s.host.registry? r = some reg)
    (found_v : s.value term = .ok v) :
    let drained := if reg.config.autoReclaim then (s.host.reclaim r).2 else s.host
    let boxed := s.host.boxFor r v
    (∀ value, v = .object value →
      (∀ box, (drained.livingBox r v).1 = some box →
        boxed = (.ok box, (drained.livingBox r v).2) ∧ boxed.2.release [box] = drained ∧
          boxed.2.heap.next = s.host.heap.next) ∧
      ((drained.livingBox r v).1 = none →
        let box := (s.host.create none).1
        let explicit := ((s.host.create none).2.freeze box).pair r box v
        ∃ u : Host, explicit = (.ok (), u.tell (.registered box)) ∧
          boxed = (.ok box, u.tell (.created box))) ∧
      ∃ box, boxed.1 = .ok box ∧ boxed.2.Recognizes r box value) ∧
    (v.identity = none → boxed = (.error (.unpairable .noIdentity), drained) ∧
      drained.heap.next = s.host.heap.next) := by
  intro drained boxed
  have sound := reach.sound.client
  have reclaimed : s.host.autoReclaim r = drained := Host.autoReclaim_of_found found
  have next : drained.heap.next = s.host.heap.next :=
    reclaimed ▸ s.host.next_autoReclaim r
  refine ⟨?_, fun without => ⟨?_, next⟩⟩
  · rintro value rfl
    have kept : ∀ id ∈ (Value.object value).references, s.client.Keeps id := fun id inside =>
      .held (holds_value found_v id inside)
    refine ⟨fun box known => ?_, fun orphan => ?_, Host.boxFor_recognizes sound ⟨reg, found⟩ kept⟩
    · rw [← reclaimed] at known ⊢
      exact Host.boxFor_known sound known
    · rw [← reclaimed] at orphan
      exact Host.boxFor_made sound ⟨reg, found⟩ kept orphan
  · simp only [boxed, Host.boxFor, without, reclaimed]

/-- The box of a value is dead, and so is another one whose value dies of the reclaim. A box that is
asked for is the one that would be made and paired, although that one is made before the reclaim.
Asked again, it is found, and a primitive has none. -/
theorem boxFor_canonical_reclaiming :
    let s := (start (some true)).run [.create (some "v"), .create (some "a"), .create (some "c"),
      .create (some "u"), .pair "r" "a" (.handle "v"), .pair "r" "c" (.handle "u"),
      .onDrop "u" none "u", .drop "u", .drop "a", .drop "c"]
    let s' := s.run [.box "r" (.handle "v") (some "b")]
    let explicit := ((s.host.create none).2.freeze 5).pair 0 5 (.object 1)
    let boxed := s.host.boxFor 0 (.object 1)
    (s.host.registry? 0).map (·.queue) = some [2, 3] ∧
      (∃ w : Host, explicit = (.ok (), w.tell (.registered 5)) ∧
        boxed = (.ok 5, w.tell (.created 5)) ∧ w.events = ["u#4"]) ∧
      boxed.2.Recognizes 0 5 1 ∧ (s'.host.boxFor 0 (.object 1)).1 = .ok 5 ∧
      (s'.host.boxFor 0 (.object 1)).2.heap.next = s'.host.heap.next ∧
      (s'.host.boxFor 0 .null).1 = .error (.unpairable .noIdentity) := by
  intro s s' explicit boxed
  have reach : s.Reachable := ⟨_, _, rfl⟩
  have reach' : s'.Reachable := reach.run _
  have queued : (s.host.registry? 0).map (·.queue) = some [2, 3] := by decide +kernel
  obtain ⟨reg, found, on⟩ := (Option.any_eq_true _ _).1
    (by decide +kernel : (s.host.registry? 0).any (·.config.autoReclaim) = true)
  obtain ⟨reg', found', on'⟩ := (Option.any_eq_true _ _).1
    (by decide +kernel : (s'.host.registry? 0).any (·.config.autoReclaim) = true)
  have found_v : s.value (.handle "v") = .ok (.object 1) := by decide +kernel
  have found_v' : s'.value (.handle "v") = .ok (.object 1) := by decide +kernel
  have found_null : s'.value .null = .ok .null := rfl
  obtain ⟨objects, -⟩ := boxFor_canonical reach found found_v
  obtain ⟨objects', -⟩ := boxFor_canonical reach' found' found_v'
  obtain ⟨-, primitive⟩ := boxFor_canonical reach' found' found_null
  rw [if_pos on] at objects
  rw [if_pos on'] at objects'
  obtain ⟨-, made, box, ok, recognized⟩ := objects 1 rfl
  obtain ⟨w, paired, asked⟩ := made (by decide +kernel)
  obtain ⟨handed, -, next⟩ := (objects' 1 rfl).1 5 (by decide +kernel)
  have number : (s.host.create none).1 = 5 := by decide +kernel
  rw [number] at paired asked
  have events : boxed.2.events = ["u#4"] := by decide +kernel
  cases ok.symm.trans (congrArg Prod.fst asked)
  refine ⟨queued, ⟨w, paired, asked, ?_⟩, recognized, congrArg Prod.fst handed, next,
    congrArg Prod.fst (primitive rfl).1⟩
  exact (congrArg (fun p => p.2.events) asked).symm.trans events

end Session

end Compound
