import Compound.Proofs.Members

/-!
Embedding by boxes, in every session that a script can reach. Whoever asks for the box of an
object gets one, and a registry lets it be embedded unless it is a function. A box that is made
for the purpose is none, so only a function that was the box of the object already is refused.
-/
namespace Compound

/-- A box that is free may join a value whose boxes are all dead. -/
theorem Pairing.judge_fresh {p : Pairing} {alive : ObjectId → Bool} {box value : ObjectId}
    (free : p.values.get? box = none)
    (orphan : p.livingBox? alive value = none) :
    ∃ pairs released, p.judge alive box value = .ok (.fresh pairs released) := by
  rw [judge, free]
  cases single : p.boxes.get? value with
  | none => exact ⟨p, none, rfl⟩
  | some previous =>
    have dead : (p.hasBox previous && alive previous) = false := by
      rw [livingBox?, single, Option.filter_eq_none_iff] at orphan
      exact Bool.eq_false_iff.2 (orphan previous rfl)
    simp only [dead, Bool.false_eq_true, if_false]
    exact ⟨_, _, rfl⟩

namespace Host

variable {held : Multiset ObjectId} {w w' : Host} {r : RegistryId} {id box value : ObjectId}

theorem Leaves.not_callable (leaves : w.Leaves w' id) (plain : w.isCallable id = false) :
    w'.isCallable id = false := by
  rw [isCallable, function?] at plain ⊢
  cases found' : w'.object? id with
  | none => rfl
  | some o' =>
    obtain ⟨o, n, found, rfl⟩ := leaves o' found'
    rw [found] at plain
    exact plain

/-- A finalizer makes no object callable. -/
theorem isCallable_addFinalizer (plain : w.isCallable id = false) (j : ObjectId) (f : Finalizer) :
    (w.addFinalizer j f).isCallable id = false := by
  by_cases same : id = j
  · subst same
    rw [isCallable, function?] at plain ⊢
    cases found' : (w.addFinalizer id f).object? id with
    | none => rfl
    | some o' =>
      obtain ⟨o, n, found, rfl⟩ := object?_addFinalizer_same found'
      rw [found] at plain
      exact plain
  · exact (Leaves.addFinalizer w f same).not_callable plain

theorem isCallable_join (plain : w.isCallable id = false) (box value : ObjectId) (pairs : Pairing)
    (released : Option ObjectId) : (w.join r box value pairs released).isCallable id = false :=
  isCallable_addFinalizer
    ((Leaves.unwatched_join w r box value pairs released).not_callable plain) box (.watch r)

/-- A value that has a living box after the automatic reclaim has had it before. -/
theorem boxOf?_autoReclaim (s : Client.Sound ⟨held, w⟩) {v : Value}
    (known : (w.autoReclaim r).boxOf? r v = some box) : w.boxOf? r v = some box := by
  rw [autoReclaim] at known
  cases found : w.registry? r with
  | none => rwa [found] at known
  | some reg =>
    rw [found] at known
    simp only at known
    split at known
    · have filtered := (livingBox_reclaim s found v).symm.trans known
      exact (Option.filter_eq_some_iff.1 filtered).1
    · exact known

/-- The host with a new frozen object in it. -/
def withBox (w : Host) : Host := (w.create none).2.freeze (w.create none).1

theorem moves_withBox : Moves Deed.plain ⟨held, w⟩ ⟨(w.create none).1 ::ₘ held, w.withBox⟩ :=
  (moves_create fun _ inside => (List.not_mem_nil inside).elim).trans (.one .freeze rfl)

theorem isCallable_withBox (w : Host) : w.withBox.isCallable (w.create none).1 = false := by
  have made : w.withBox.object? (w.create none).1 = some (Object.new none).freeze := by
    refine (Heap.get?_modify_same _ _ Object.freeze).trans ?_
    exact congrArg (Option.map Object.freeze) (Heap.get?_create_same w.heap (.new none))
  rw [isCallable, function?, made]
  rfl

theorem isAlive_withBox (old : id < w.heap.next) : w.withBox.isAlive id = w.isAlive id :=
  (Heap.isAlive_modify _ _ Object.freeze id).trans
    (congrArg Option.isSome (Heap.get?_create_other w.heap (.new none) (Nat.ne_of_lt old)))

/-- A new object may become the box of a value that has no living one. -/
theorem judge_withBox (s : Client.Sound ⟨held, w⟩) {reg : Registry}
    (found : w.registry? r = some reg) (orphan : w.boxOf? r (.object value) = none) :
    ∃ pairs released, reg.pairing.judge w.withBox.isAlive (w.create none).1 value =
      .ok (.fresh pairs released) := by
  have mirrored := (s.attended r reg found).mirrored
  apply Pairing.judge_fresh
  · cases paired : reg.pairing.values.get? (w.create none).1 with
    | none => rfl
    | some held => exact absurd (s.known_of_paired found paired) (Nat.lt_irrefl _)
  · cases living : reg.pairing.livingBox? w.withBox.isAlive value with
    | none => rfl
    | some box =>
      obtain ⟨paired, alive⟩ := mirrored.livingBox_iff.1 living
      rw [isAlive_withBox (s.known_of_paired found paired)] at alive
      have known := (boxOf?_iff s).2 ⟨(pairing_of_found found).symm ▸ paired, alive⟩
      rw [known] at orphan
      cases orphan

/-- A value without a living box gets a new object for its box. -/
theorem boxFor_fresh {reg : Registry} (found : Host.registry? (w.autoReclaim r) r = some reg)
    (orphan : (w.autoReclaim r).boxOf? r (.object value) = none) {pairs : Pairing}
    {released : Option ObjectId}
    (fresh : reg.pairing.judge (w.autoReclaim r).withBox.isAlive ((w.autoReclaim r).create none).1
      value = .ok (.fresh pairs released)) :
    w.boxFor r (.object value) =
      (.ok ((w.autoReclaim r).create none).1,
        ((w.autoReclaim r).withBox.join r ((w.autoReclaim r).create none).1 value pairs
          released).tell (.created ((w.autoReclaim r).create none).1)) := by
  have joined : (w.autoReclaim r).withBox.joinIfFresh r ((w.autoReclaim r).create none).1 value =
      (.ok true, (w.autoReclaim r).withBox.join r ((w.autoReclaim r).create none).1 value pairs
        released) := by
    have found' : (w.autoReclaim r).withBox.registry? r = some reg := found
    rw [joinIfFresh, pairing_of_found found', fresh]
  rw [withBox] at joined
  simp only [boxFor, Value.identity_object, orphan, joined, withBox]

/-- Asking for the box of a value always succeeds. The box is the one that the value had, or a
new object without a function. -/
theorem boxFor_ok (s : Client.Sound ⟨held, w⟩) (opened : ∃ reg, w.registry? r = some reg)
    (value : ObjectId) :
    ∃ box w', w.boxFor r (.object value) = (.ok box, w') ∧
      (w.boxOf? r (.object value) = some box ∨ w'.isCallable box = false) := by
  have drained : Moves (· = .drain r) ⟨held, w⟩ ⟨held, w.autoReclaim r⟩ := moves_autoReclaim rfl
  obtain ⟨reg, found⟩ := found_autoReclaim s opened
  cases known : (w.autoReclaim r).boxOf? r (.object value) with
  | some box =>
    refine ⟨box, (w.autoReclaim r).retain [box], ?_, Or.inl (boxOf?_autoReclaim s known)⟩
    simp only [boxFor, Value.identity_object, known]
  | none =>
    obtain ⟨pairs, released, fresh⟩ := judge_withBox (drained.sound s) found known
    exact ⟨_, _, boxFor_fresh found known fresh,
      Or.inr (isCallable_join (isCallable_withBox _) _ _ _ _)⟩

end Host

namespace Session

variable {s : Session} {r : RegistryId}

/-- In every session that a script reaches, asking an open registry for the box of an object
succeeds. The registry lets the box be embedded then, unless the box is a function, and such a
box the object has had before. -/
theorem box_embeddable (reach : s.Reachable) (opened : ∃ reg, s.host.registry? r = some reg)
    (value : ObjectId) :
    ∃ box w', s.host.boxFor r (.object value) = (.ok box, w') ∧
      (w'.isCallable box = false → (w'.validate r (.object box)).1 = .ok (.object box)) ∧
      (w'.isCallable box = true →
        (w'.validate r (.object box)).1 = .error .functionMember ∧
          (s.host.livingBox r (.object value)).1 = some box) := by
  have sound := reach.sound.client
  obtain ⟨box, w', asked, origin⟩ := Host.boxFor_ok sound opened value
  have paired : ((s.host.boxFor r (.object value)).2.pairing r).values.get? box = some value :=
    Host.paired_of_boxFor sound opened (congrArg Prod.fst asked)
  have host : (s.host.boxFor r (.object value)).2 = w' := congrArg Prod.snd asked
  rw [host] at paired
  refine ⟨box, w', asked, fun plain => ?_, fun callable => ⟨?_, ?_⟩⟩
  · exact Host.validate_object.2 ⟨plain, Or.inr ⟨value, paired⟩⟩
  · rw [Host.outcome_validate, Host.classOf, Value.identity_object]
    simp only [callable, if_true]
    rfl
  · exact origin.resolve_right (by simp [callable])

/-- A function that was made the box of an object is found and refused. The object next to it,
which has no box, gets one that may be embedded. -/
theorem box_embeddable_callable :
    let s := (start (some true)).run [.function .receiver "f" false (some "f"), .create (some "v"),
      .pair "r" "f" (.handle "v"), .create (some "u")]
    (s.host.boxFor 0 (.object 2)).1 = .ok 1 ∧
      ((s.host.boxFor 0 (.object 2)).2.validate 0 (.object 1)).1 = .error .functionMember ∧
      (s.host.boxFor 0 (.object 3)).1 = .ok 4 ∧
      ((s.host.boxFor 0 (.object 3)).2.validate 0 (.object 4)).1 = .ok (.object 4) := by
  intro s
  have reach : s.Reachable := ⟨_, _, rfl⟩
  have opened : ∃ reg, s.host.registry? 0 = some reg :=
    Option.isSome_iff_exists.1 (by decide +kernel)
  have box : (s.host.boxFor 0 (.object 2)).1 = .ok 1 := by decide +kernel
  have box' : (s.host.boxFor 0 (.object 3)).1 = .ok 4 := by decide +kernel
  obtain ⟨b, w, asked, -, refused⟩ := box_embeddable reach opened 2
  obtain ⟨b', w', asked', embeddable, -⟩ := box_embeddable reach opened 3
  rw [asked] at box ⊢
  rw [asked'] at box' ⊢
  cases box
  cases box'
  have callable : (s.host.boxFor 0 (.object 2)).2.isCallable 1 = true := by decide +kernel
  have plain : (s.host.boxFor 0 (.object 3)).2.isCallable 4 = false := by decide +kernel
  rw [asked] at callable
  rw [asked'] at plain
  exact ⟨rfl, (refused callable).1, rfl, embeddable plain⟩

/-- So it is not true that whatever box is handed out may be embedded. -/
theorem not_every_box_embeddable :
    ¬∀ (s : Session) (r : RegistryId) (value : ObjectId), s.Reachable →
      (∃ reg, s.host.registry? r = some reg) → s.host.isAlive value = true →
        ∃ box w', s.host.boxFor r (.object value) = (.ok box, w') ∧
          (w'.validate r (.object box)).1 = .ok (.object box) := by
  intro embeddable
  let s := (start (some true)).run [.function .receiver "f" false (some "f"), .create (some "v"),
    .pair "r" "f" (.handle "v")]
  obtain ⟨box, w', asked, valid⟩ := embeddable s 0 2 ⟨_, _, rfl⟩
    (Option.isSome_iff_exists.1 (by decide +kernel)) (by decide +kernel)
  have found : (s.host.boxFor 0 (.object 2)).1 = .ok 1 := by decide +kernel
  have callable : (s.host.boxFor 0 (.object 2)).2.isCallable 1 = true := by decide +kernel
  rw [asked] at found callable
  cases found
  rw [(Host.validate_object.1 valid).1] at callable
  cases callable

end Session

end Compound
