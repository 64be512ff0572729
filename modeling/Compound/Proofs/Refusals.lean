import Compound.Proofs.Embedding

/-!
Calls that fail. A registration that is to reclaim first does so before it judges anything, and
every other call judges first. So a call that fails has done nothing of its own: it has tagged,
paired and watched nothing, made no object and let none go, and it has left stale entries where
they were.
-/
namespace Compound

namespace Host

variable {held : Multiset ObjectId} {w : Host} {r : RegistryId} {reg : Registry} {f : Failure}

theorem autoReclaim_of_found (found : w.registry? r = some reg) :
    w.autoReclaim r = if reg.config.autoReclaim then (w.reclaim r).2 else w := by
  rw [autoReclaim, found]

theorem tag_refused {id : ObjectId} {t : Tag} (refused : (w.tag r id t).1 = .error f) :
    (w.tag r id t).2 = w.autoReclaim r := by
  rw [tag] at refused ⊢
  cases tagged : (Host.registry? (w.autoReclaim r) r).bind (·.tags.get? id) with
  | none =>
    simp only [tagged] at refused
    cases refused
  | some existing =>
    simp only [tagged] at refused ⊢
    split <;> rfl

theorem joinIfFresh_refused {box value : ObjectId}
    (refused : (w.joinIfFresh r box value).1 = .error f) :
    (w.joinIfFresh r box value).2 = w := by
  rw [joinIfFresh] at refused ⊢
  cases judged : (w.pairing r).judge w.isAlive box value with
  | error e => rfl
  | ok verdict =>
    rw [judged] at refused
    cases verdict <;> cases refused

theorem pair_refused {box : ObjectId} {v : Value} (refused : (w.pair r box v).1 = .error f) :
    (w.pair r box v).2 = w.autoReclaim r := by
  rw [pair] at refused ⊢
  cases h : v.identity with
  | none => rfl
  | some value =>
    simp only [h] at refused ⊢
    by_cases itself : value = box
    · rw [if_pos itself]
    · rw [if_neg itself] at refused ⊢
      have kept := @joinIfFresh_refused (w.autoReclaim r) r
      cases joined : (w.autoReclaim r).joinIfFresh r box value with
      | mk outcome w' =>
        rw [joined] at refused
        cases outcome with
        | error e =>
          have same := @kept e box value
          rw [joined] at same
          exact same rfl
        | ok fresh => cases fresh <;> cases refused

/-- A value that has an identity gets a box, so the object that is made for one stays. -/
theorem boxFor_refused (s : Client.Sound ⟨held, w⟩) (opened : ∃ reg, w.registry? r = some reg)
    {v : Value} (refused : (w.boxFor r v).1 = .error f) :
    (w.boxFor r v).2 = w.autoReclaim r := by
  cases h : v.identity with
  | none => simp only [boxFor, h]
  | some value =>
    rw [Value.identity_eq_some h] at refused
    obtain ⟨box, w', made, -⟩ := boxFor_ok s opened value
    rw [made] at refused
    cases refused

theorem unpair_refused {box : ObjectId} (refused : (w.unpair r box).1 = .error f) :
    (w.unpair r box).2 = w := by
  rw [unpair] at refused ⊢
  split
  · rfl
  · rename_i removed
    simp only [removed] at refused
    cases refused

theorem unbox_refused {v : Value} (refused : (w.unbox r v).1 = .error f) :
    (w.unbox r v).2 = w := by
  rw [unbox] at refused ⊢
  split
  · rfl
  · rename_i unboxed
    simp only [unboxed] at refused
    cases refused

theorem validate_refused {v : Value} (refused : (w.validate r v).1 = .error f) :
    (w.validate r v).2 = w.tell (.validating (w.describe v) (w.classOf r v)) := by
  rw [validate] at refused ⊢
  split
  · rfl
  · rename_i fits
    simp only [fits] at refused
    cases refused

end Host

/-- The name of the registry of a registration. -/
def Step.registration? : Step → Option String
  | .tagRecord name _ => some name
  | .tagTuple name _ _ => some name
  | .pair name _ _ => some name
  | .box name _ _ => some name
  | _ => none

/-- The name of the registry of a call that uses what is registered. -/
def Step.use? : Step → Option String
  | .release name _ _ => some name
  | .unbox name _ _ => some name
  | .validate name _ _ => some name
  | _ => none

namespace Session

variable {s : Session} {f : Failure}

section Lookups

theorem registry_ne_failure (s : Session) (name : String) (f : Failure) :
    s.registry name ≠ .error (.failure f) := by
  rw [registry]
  split <;> simp

theorem handle_ne_failure (s : Session) (name : String) (f : Failure) :
    s.handle name ≠ .error (.failure f) := by
  rw [handle]
  split <;> simp

theorem value_ne_failure (s : Session) (t : ValueTerm) (f : Failure) :
    s.value t ≠ .error (.failure f) := by
  cases t with
  | symbol name =>
    rw [value, symbol]
    split <;> simp [Except.map]
  | handle name =>
    rw [value, handle]
    split <;> simp [Except.map]
  | _ => simp [value]

/-- Two names are not found for want of one of them, and not because anything failed. -/
theorem pair_ne_failure {α β : Type} {x : Lookup α} {y : Lookup β}
    (first : x ≠ .error (.failure f)) (second : y ≠ .error (.failure f)) :
    (do let a ← x; let b ← y; return (a, b) : Lookup (α × β)) ≠ .error (.failure f) := by
  cases x with
  | error fault =>
    rintro ⟨⟩
    exact first rfl
  | ok a =>
    cases y with
    | error fault =>
      rintro ⟨⟩
      exact second rfl
    | ok b => rintro ⟨⟩

theorem target_ne_failure (s : Session) (name h : String) (f : Failure) :
    s.target name h ≠ .error (.failure f) :=
  pair_ne_failure (s.registry_ne_failure name f) (s.handle_ne_failure h f)

theorem subject_ne_failure (s : Session) (name : String) (t : ValueTerm) (f : Failure) :
    s.subject name t ≠ .error (.failure f) :=
  pair_ne_failure (s.registry_ne_failure name f) (s.value_ne_failure t f)

variable {α : Type}

/-- A step fails after its names were found. -/
theorem after_failed {found : Lookup α} {go : α → Result × Session}
    (named : found ≠ .error (.failure f))
    (failed : (s.after found go).1 = .error (.failure f)) :
    ∃ a, found = .ok a ∧ s.after found go = go a := by
  cases found with
  | error fault =>
    have same : fault = .failure f := Except.error.inj failed
    exact absurd (congrArg Except.error same) named
  | ok a => exact ⟨a, rfl, rfl⟩

/-- It fails because the operation on the host does. -/
theorem acting_failed {done : Outcome α × Host} {go : α → Session → Result × Session}
    (replies : ∀ a s', ∃ reply, (go a s').1 = .ok reply)
    (failed : (s.acting done go).1 = .error (.failure f)) :
    done.1 = .error f ∧ (s.acting done go).2 = { s with host := done.2 } := by
  obtain ⟨outcome, w⟩ := done
  cases outcome with
  | error e =>
    injection failed with same
    injection same with same
    exact ⟨congrArg Except.error same, rfl⟩
  | ok a =>
    obtain ⟨reply, ok⟩ := replies a { s with host := w }
    have same : (s.acting (.ok a, w) go).1 = .ok reply := ok
    rw [same] at failed
    cases failed

end Lookups

/-- What a call has done to the session when all that it has done is to reclaim, if it should. -/
def prepared (s : Session) (t : Step) (r : RegistryId) (reg : Registry) : Host :=
  if t.registration?.isSome ∧ reg.config.autoReclaim = true then (s.host.reclaim r).2 else s.host

/-- A call has left the session as it was prepared, apart from what it told. -/
structure Leaves (s : Session) (t : Step) (name : String) (s' : Session) (told : List Notice) :
    Prop where
  named : ∃ r reg, s.registry name = .ok r ∧ s.host.registry? r = some reg ∧
    s' = { s with host :=
      { s.prepared t r reg with notices := (s.prepared t r reg).notices ++ told } }
  quiet : (∀ v keep, t ≠ .validate name v keep) → told = []

variable {t : Step} {name : String} {r : RegistryId}

theorem Leaves.of_registration (sound : s.Sound) (found : s.registry name = .ok r)
    (registers : t.registration?.isSome = true) :
    s.Leaves t name { s with host := s.host.autoReclaim r } [] := by
  obtain ⟨reg, opened⟩ := sound.open_registry found
  refine ⟨⟨r, reg, found, opened, ?_⟩, fun _ => rfl⟩
  rw [prepared, registers, Host.autoReclaim_of_found opened, List.append_nil]
  simp only [true_and]

theorem Leaves.of_use (sound : s.Sound) (found : s.registry name = .ok r)
    (uses : t.registration? = none) (told : List Notice)
    (quiet : (∀ v keep, t ≠ .validate name v keep) → told = []) :
    s.Leaves t name { s with host := { s.host with notices := s.host.notices ++ told } } told := by
  obtain ⟨reg, opened⟩ := sound.open_registry found
  refine ⟨⟨r, reg, found, opened, ?_⟩, quiet⟩
  rw [prepared, uses]
  simp only [Option.isSome_none, Bool.false_eq_true, false_and, if_false]

theorem Leaves.of_use_unchanged (sound : s.Sound) (found : s.registry name = .ok r)
    (uses : t.registration? = none) : s.Leaves t name s [] := by
  have still := of_use sound found uses [] fun _ => rfl
  rwa [List.append_nil] at still

/-- Neither tag leaves anything behind when it is refused. -/
theorem Leaves.of_tag {h : String} {id : ObjectId} {tag : Tag}
    {go : Unit → Session → Result × Session} (sound : s.Sound)
    (found : s.target name h = .ok (r, id)) (registers : t.registration?.isSome = true)
    (replies : ∀ a s', ∃ reply, (go a s').1 = .ok reply)
    (failed : (s.acting (s.host.tag r id tag) go).1 = .error (.failure f)) :
    s.Leaves t name (s.acting (s.host.tag r id tag) go).2 [] := by
  obtain ⟨refused, left⟩ := acting_failed replies failed
  rw [left, Host.tag_refused refused]
  exact .of_registration sound (target_eq_ok.1 found).1 registers

/-- A step whose call fails leaves nothing behind. -/
theorem leaves_of_failed (sound : s.Sound)
    (call : t.registration? = some name ∨ t.use? = some name)
    (failed : (s.step t).1 = .error (.failure f)) :
    ∃ told, s.Leaves t name (s.step t).2 told := by
  have registers : ∀ {n : String}, some n = some name ∨ none = some name → n = name := by
    rintro n (same | same)
    · exact Option.some.inj same
    · cases same
  have uses : ∀ {n : String}, none = some name ∨ some n = some name → n = name := fun same =>
    registers same.symm
  cases t with
  | tagRecord name' h =>
    cases registers call
    obtain ⟨⟨r, id⟩, found, same⟩ := after_failed (s.target_ne_failure name h f) failed
    rw [step, same] at failed ⊢
    exact ⟨[], .of_tag sound found rfl (fun _ _ => ⟨_, rfl⟩) failed⟩
  | tagTuple name' h length =>
    cases registers call
    obtain ⟨⟨r, id⟩, found, same⟩ := after_failed (s.target_ne_failure name h f) failed
    rw [step, same] at failed ⊢
    exact ⟨[], .of_tag sound found rfl (fun _ _ => ⟨_, rfl⟩) failed⟩
  | pair name' h v =>
    cases registers call
    obtain ⟨⟨⟨r, box⟩, v'⟩, found, same⟩ := after_failed
      (pair_ne_failure (s.target_ne_failure name h f) (s.value_ne_failure v f)) failed
    rw [step, same] at failed ⊢
    obtain ⟨refused, left⟩ := acting_failed (fun _ _ => ⟨_, rfl⟩) failed
    rw [left, Host.pair_refused refused]
    obtain ⟨found_p, -⟩ := Lookup.pair_eq_ok.1 found
    exact ⟨[], .of_registration sound (target_eq_ok.1 found_p).1 rfl⟩
  | box name' v keep =>
    cases registers call
    obtain ⟨⟨r, v'⟩, found, same⟩ := after_failed (s.subject_ne_failure name v f) failed
    rw [step, same] at failed ⊢
    obtain ⟨refused, left⟩ := acting_failed (fun _ _ => ⟨_, rfl⟩) failed
    have found_r := (subject_eq_ok.1 found).1
    rw [left, Host.boxFor_refused sound.client (sound.open_registry found_r) refused]
    exact ⟨[], .of_registration sound found_r rfl⟩
  | release name' h keep =>
    cases uses call
    obtain ⟨⟨r, box⟩, found, same⟩ := after_failed (s.target_ne_failure name h f) failed
    rw [step, same] at failed ⊢
    obtain ⟨refused, left⟩ := acting_failed (fun _ _ => ⟨_, rfl⟩) failed
    rw [left, Host.unpair_refused refused]
    exact ⟨[], .of_use_unchanged sound (target_eq_ok.1 found).1 rfl⟩
  | unbox name' v keep =>
    cases uses call
    obtain ⟨⟨r, v'⟩, found, same⟩ := after_failed (s.subject_ne_failure name v f) failed
    rw [step, same] at failed ⊢
    obtain ⟨refused, left⟩ := acting_failed (fun _ _ => ⟨_, rfl⟩) failed
    rw [left, Host.unbox_refused refused]
    exact ⟨[], .of_use_unchanged sound (subject_eq_ok.1 found).1 rfl⟩
  | validate name' v keep =>
    cases uses call
    obtain ⟨⟨r, v'⟩, found, same⟩ := after_failed (s.subject_ne_failure name v f) failed
    rw [step, same] at failed ⊢
    obtain ⟨refused, left⟩ := acting_failed (fun _ _ => ⟨_, rfl⟩) failed
    rw [left, Host.validate_refused refused]
    exact ⟨_, .of_use sound (subject_eq_ok.1 found).1 rfl _ fun other => absurd rfl (other v keep)⟩
  | _ => rcases call with call | call <;> cases call

/-- In every session that a script reaches, a call on a registry that fails leaves the session as
it was, except that a registration has reclaimed once before it failed if the registry is set to,
and that a validation has told of itself. -/
theorem failed_call_leaves_nothing (reach : s.Reachable)
    (call : t.registration? = some name ∨ t.use? = some name)
    (failed : (s.answer t).1.result = .error (.failure f)) :
    ∃ r reg told, s.registry name = .ok r ∧ s.host.registry? r = some reg ∧
      (let base :=
        if t.registration?.isSome ∧ reg.config.autoReclaim = true then (s.host.quiet.reclaim r).2
        else s.host.quiet
      (s.answer t).2 = { s with host := { base with notices := base.notices ++ told } }) ∧
      ((∀ v keep, t ≠ .validate name v keep) → told = []) := by
  obtain ⟨told, ⟨r, reg, found, opened, left⟩, quiet⟩ :=
    leaves_of_failed (sound_quiet reach.sound) call failed
  exact ⟨r, reg, told, found, opened, left, quiet⟩

/-- A Record that is to become a Tuple stays one, but what waited in the queue is gone. Unboxing
what is no box changes nothing, and leaves the queue as it was. -/
theorem failed_call_leaves_nothing_pending :
    let s := (start (some true)).run [.create (some "a"), .create (some "b"),
      .tagRecord "r" "a", .tagRecord "r" "b", .drop "a"]
    (s.host.registry? 0).map (·.queue) = some [1] ∧
      (s.answer (.tagTuple "r" "b" 2)).1.result =
        .error (.failure (.taggedOtherwise .record (.tuple 2))) ∧
      (s.answer (.tagTuple "r" "b" 2)).2 = { s with host := (s.host.quiet.reclaim 0).2 } ∧
      (s.answer (.unbox "r" (.handle "b") none)).1.result = .error (.failure .notBox) ∧
      (s.answer (.unbox "r" (.handle "b") none)).2 = { s with host := s.host.quiet } := by
  intro s
  have reach : s.Reachable := ⟨_, _, rfl⟩
  have pending : (s.host.registry? 0).map (·.queue) = some [1] := by decide +kernel
  have refused : (s.answer (.tagTuple "r" "b" 2)).1.result =
      .error (.failure (.taggedOtherwise .record (.tuple 2))) := by decide +kernel
  have refused' : (s.answer (.unbox "r" (.handle "b") none)).1.result =
      .error (.failure .notBox) := by decide +kernel
  have reclaims : (s.host.registry? 0).map (·.config.autoReclaim) = some true := by decide +kernel
  have zero : s.registry "r" = .ok 0 := by decide +kernel
  obtain ⟨r, reg, told, found, opened, left, quiet⟩ :=
    failed_call_leaves_nothing reach (Or.inl rfl) refused
  cases Except.ok.inj (zero.symm.trans found)
  rw [opened, Option.map_some, Option.some.injEq] at reclaims
  rw [quiet (by simp), reclaims] at left
  obtain ⟨r', reg', told', -, -, left', quiet'⟩ :=
    failed_call_leaves_nothing reach (Or.inr rfl) refused'
  rw [quiet' (by simp)] at left'
  simp only [Step.registration?, Option.isSome_some, and_self, if_true, List.append_nil] at left
  simp only [Step.registration?, Option.isSome_none, Bool.false_eq_true, false_and, if_false,
    List.append_nil] at left'
  exact ⟨pending, refused, left, refused', left'⟩

end Session

end Compound
