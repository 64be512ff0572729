import Compound.Proofs.Enrollments

/-!
What calls on registries leave on objects, in every session that a script can reach. Tags and boxes
are kept beside the objects, so a call changes no object, whatever it reclaims, kills and creates
on the way. Only the object that it enrolls is watched afterwards, by one more finalizer.
-/
namespace Compound

/-- The watch that enrolling a subject leaves on an object. -/
def watchOn (id : ObjectId) : Option (RegistryId × ObjectId) → List Finalizer
  | some (r, j) => if j = id then [.watch r] else []
  | none => []

theorem watchOn_same (r : RegistryId) (id : ObjectId) : watchOn id (some (r, id)) = [.watch r] :=
  if_pos rfl

theorem watchOn_other {id : ObjectId} {subject : Option (RegistryId × ObjectId)}
    (other : ∀ r, subject ≠ some (r, id)) : watchOn id subject = [] := by
  cases subject with
  | none => rfl
  | some p =>
    obtain ⟨r, j⟩ := p
    refine if_neg ?_
    rintro rfl
    exact other r rfl

/-- From one host to the other an object has changed in the number of references to it and in
finalizers that were added, if it lives in the second one. -/
def Host.Marks (w w' : Host) (id : ObjectId) (added : List Finalizer) : Prop :=
  ∀ o', w'.object? id = some o' →
    ∃ o n, w.object? id = some o ∧ o' = { o with refs := n, finalizers := o.finalizers ++ added }

namespace Host.Marks

variable {w w' w'' : Host} {id : ObjectId} {added : List Finalizer}

theorem of_leaves (leaves : w.Leaves w' id) : w.Marks w' id [] := by
  intro o' found'
  obtain ⟨o, n, found, rfl⟩ := leaves o' found'
  exact ⟨o, n, found, by rw [List.append_nil]⟩

theorem after (m : w'.Marks w'' id added) (leaves : w.Leaves w' id) : w.Marks w'' id added := by
  intro o'' found''
  obtain ⟨o', n, found', rfl⟩ := m o'' found''
  obtain ⟨o, k, found, rfl⟩ := leaves o' found'
  exact ⟨o, n, found, rfl⟩

theorem before (m : w.Marks w' id added) (leaves : w'.Leaves w'' id) : w.Marks w'' id added := by
  intro o'' found''
  obtain ⟨o', n, found', rfl⟩ := leaves o'' found''
  obtain ⟨o, k, found, rfl⟩ := m o' found'
  exact ⟨o, n, found, rfl⟩

end Host.Marks

section Frame

variable {c c' : Client} {id : ObjectId}

/-- Deeds that are not done to an object leave it as it is. -/
theorem Moves.leaves {allowed : Deed → Prop} (m : Moves allowed c c')
    (unchanging : ∀ d, allowed d → d.changed? ≠ some id) (old : id < c.host.heap.next) :
    c.host.Leaves c'.host id := by
  induction m with
  | refl => exact .same rfl
  | tail first last ih =>
    obtain ⟨d, ok, move⟩ := last
    have old' := Nat.lt_of_lt_of_le old (Moves.evolves first).next_le
    exact ih.trans (move.leaves old' (unchanging d ok))

/-- A deed that enrolls an object leaves a watch on it, and nothing on others. -/
theorem Move.marks {d : Deed} (m : Move d c c') {subject : RegistryId × ObjectId}
    (enrolls : d.enrolls? = some subject) (old : id < c.host.heap.next) :
    c.host.Marks c'.host id (watchOn id (some subject)) := by
  intro o' found'
  obtain ⟨o, found, change⟩ := m.changes old found'
  cases change with
  | @elsewhere _ n other =>
    have nothing : watchOn id (some subject) = [] := by
      refine watchOn_other fun r same => other ?_
      cases same
      cases d with
      | tag | join => cases enrolls; rfl
      | _ => cases enrolls
    exact ⟨o, n, found, by rw [nothing, List.append_nil]⟩
  | tag | join =>
    cases enrolls
    exact ⟨o, _, found, by rw [watchOn_same]⟩
  | write | freeze | prevent | finalize => cases enrolls

/-- A run that changes no old object leaves the watch on the one that it enrolls. -/
theorem Enrolling.marks {asked : Deed → Prop} {bound : ObjectId}
    {subject : Option (RegistryId × ObjectId)}
    (e : Enrolling (Deed.Discreet bound) asked subject c c') (old : id < bound)
    (le : bound ≤ c.host.heap.next) : c.host.Marks c'.host id (watchOn id subject) := by
  have unchanging : ∀ d, Deed.Discreet bound d → d.changed? ≠ some id := fun d discreet changes =>
    absurd old (Nat.not_lt_of_le (discreet.spares id changes))
  cases e with
  | nobody m => exact .of_leaves (m.leaves unchanging (Nat.lt_of_lt_of_le old le))
  | one before m ok enrolls after =>
    have old₁ := Nat.lt_of_lt_of_le old (Nat.le_trans le before.evolves.next_le)
    have old₂ := Nat.lt_of_lt_of_le old₁ m.evolves.next_le
    have left := before.leaves unchanging (Nat.lt_of_lt_of_le old le)
    exact ((m.marks enrolls old₁).after left).before
      (after.leaves (fun d light => unchanging d (light.discreet bound)) old₂)

end Frame

namespace Session

variable {s : Session} {t : Step} {id : ObjectId}

theorem marks_call (sound : s.Sound) (call : t.registryName?.isSome = true)
    (old : id < s.host.heap.next) :
    s.host.Marks (s.answer t).2.host id (watchOn id (s.enrolled? t)) := by
  have prelude := moves_prelude s t
  have kept : s.host.Leaves (s.prelude t) id := by
    refine prelude.leaves ?_ old
    rintro d (rfl | ⟨r, -, rfl⟩) <;> simp [Deed.changed?]
  exact ((enrolling_call sound call).marks old prelude.evolves.next_le).after kept

/-- In every session that a script reaches, a call on a registry leaves every object that survives
it as it was, in its slots and their order, in whether it may grow, in its function and its name,
whether the call succeeds or fails. The object that the call enrolls, if there is one, is watched by
one more finalizer, and all the others have the finalizers that they had. -/
theorem registry_call_leaves_objects (reach : s.Reachable) (call : t.registryName?.isSome = true)
    {o o' : Object} (found : s.host.object? id = some o)
    (found' : (s.answer t).2.host.object? id = some o') :
    o'.slots = o.slots ∧ o'.extensible = o.extensible ∧ o'.function = o.function ∧
      (∀ r, s.enrolled? t = some (r, id) → o'.finalizers = o.finalizers ++ [.watch r]) ∧
      ((∀ r, s.enrolled? t ≠ some (r, id)) → o'.finalizers = o.finalizers) := by
  have sound := reach.sound
  have old := sound.client.accounted.bounded id o found
  obtain ⟨u, n, found_u, rfl⟩ := marks_call sound call old o' found'
  cases Option.some.inj (found.symm.trans found_u)
  refine ⟨rfl, rfl, rfl, fun r enrolled => ?_, fun other => ?_⟩
  · rw [enrolled, watchOn_same]
  · rw [watchOn_other other, List.append_nil]

/-- A dead box is reclaimed, with an object that only its value held, and a Record becomes the box
of the next value. The Record is watched once more, and the value is not. -/
theorem registry_call_leaves_objects_reclaiming :
    let s := (start (some true)).run [.create (some "old"), .create (some "child"),
      .createFrom [(.name "k", .handle "child")] (some "value"), .pair "r" "old" (.handle "value"),
      .createFrom [(.name "x", .null)] (some "record"), .tagRecord "r" "record",
      .create (some "next"), .drop "child", .drop "value", .drop "old"]
    let t : Step := .pair "r" "record" (.handle "next")
    s.enrolled? t = some (0, 4) ∧ (s.answer t).2.host.isAlive 2 = false ∧
      ∃ o o', s.host.object? 4 = some o ∧ (s.answer t).2.host.object? 4 = some o' ∧
        o'.slots = o.slots ∧ o'.finalizers = o.finalizers ++ [.watch 0] ∧
        ∃ u u', s.host.object? 5 = some u ∧ (s.answer t).2.host.object? 5 = some u' ∧
          u'.finalizers = u.finalizers := by
  intro s t
  have reach : s.Reachable := ⟨_, _, rfl⟩
  have enrolled : s.enrolled? t = some (0, 4) := by decide +kernel
  obtain ⟨o, found⟩ := Option.isSome_iff_exists.1
    (by decide +kernel : (s.host.object? 4).isSome = true)
  obtain ⟨o', found'⟩ := Option.isSome_iff_exists.1
    (by decide +kernel : ((s.answer t).2.host.object? 4).isSome = true)
  obtain ⟨u, found_u⟩ := Option.isSome_iff_exists.1
    (by decide +kernel : (s.host.object? 5).isSome = true)
  obtain ⟨u', found_u'⟩ := Option.isSome_iff_exists.1
    (by decide +kernel : ((s.answer t).2.host.object? 5).isSome = true)
  obtain ⟨slots, -, -, watched, -⟩ := registry_call_leaves_objects reach rfl found found'
  obtain ⟨-, -, -, -, unwatched⟩ := registry_call_leaves_objects reach rfl found_u found_u'
  have other : ∀ r, s.enrolled? t ≠ some (r, 5) := fun r => by rw [enrolled]; simp
  exact ⟨enrolled, by decide +kernel, o, o', found, found', slots, watched 0 enrolled,
    u, u', found_u, found_u', unwatched other⟩

end Session

end Compound
