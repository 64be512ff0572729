import Compound.Proofs.Changes
import Compound.Proofs.Runs

/-!
What it means that an object is frozen. Whatever runs from a session in which it is frozen, its
slots stay as they are and it does not grow. An object that is not frozen changes as soon as
somebody who holds it freezes it, so the test for being frozen is exact.
-/
namespace Compound

namespace Object

theorem isFrozen_freeze (o : Object) : o.freeze.isFrozen = true := by
  refine o.freeze.isFrozen_iff.2 ⟨rfl, fun k s stored => ?_⟩
  have frozen : (o.slots.get? k).map Slot.frozen = some s := (Table.get?_map _ _ k).symm.trans stored
  obtain ⟨old, -, rfl⟩ := Option.map_eq_some_iff.1 frozen
  exact ⟨old.isConfigurable_frozen, old.isWritable_frozen⟩

/-- Only the slots and whether it may grow decide whether an object is frozen. -/
theorem isFrozen_congr {o o' : Object} (slots : o'.slots = o.slots)
    (extensible : o'.extensible = o.extensible) : o'.isFrozen = o.isFrozen := by
  rw [isFrozen, isFrozen, slots, extensible]

end Object

namespace Session

/-- The sessions in which a program may go on that has an object in its hands: its own one, or
one in which it has first let a handle hold the object. -/
inductive Grants (s : Session) (id : ObjectId) : Session → Prop
  | unchanged : Grants s id s
  | handle (name : String) : Grants s id (s.setHandle name id)

variable {s s' : Session} {id : ObjectId} {o o' : Object}

theorem leads_setHandle (s : Session) (name : String) (alive : s.host.isAlive id = true) :
    Leads Deed.plain s (s.setHandle name id) := by
  have moves := (moves_setHandle s name 0 alive).mono fun _ light => light.plain
  rw [add_zero, add_zero] at moves
  exact ⟨moves, rfl⟩

theorem Grants.leads (g : s.Grants id s') (alive : s.host.isAlive id = true) :
    Leads Deed.plain s s' := by
  cases g with
  | unchanged => exact .refl s
  | handle name => exact leads_setHandle s name alive

/-- Whoever takes a handle to an object and freezes it has frozen it. -/
theorem run_freeze_setHandle (sound : s.Sound) (found : s.host.object? id = some o)
    (name : String) :
    ∃ o', ((s.setHandle name id).run [.freeze name]).host.object? id = some o' ∧
      o'.isFrozen = true := by
  have alive : s.host.isAlive id = true := (Heap.isAlive_iff _ id).2 ⟨o, found⟩
  have held : (s.setHandle name id).handles.get? name = some id := Table.get?_put_same _ _ _
  have sound' := (leads_setHandle s name alive).moves.sound sound.client
  have kept : id ∈ (s.setHandle name id).client.held := Table.mem_values _ _ held
  obtain ⟨u, living⟩ := (Heap.isAlive_iff _ id).1
    (sound'.accounted.alive_outside (Multiset.mem_add.2 (Or.inl kept)))
  have taken : { s.setHandle name id with host := (s.setHandle name id).host.quiet }.handle name =
      .ok id := handle_eq_ok.2 held
  refine ⟨u.freeze, ?_, u.isFrozen_freeze⟩
  simp only [run, List.foldl_cons, List.foldl_nil, answer, step, taken, after]
  refine (Heap.get?_modify_same _ id Object.freeze).trans ?_
  exact congrArg (Option.map Object.freeze) living

/-- An object is frozen exactly if there is no way to change its slots or to let it grow or stop
growing while it lives: no script does it, neither one that goes on in the session nor one that
takes a handle to the object first. -/
theorem isFrozen_iff_immutable (reach : s.Reachable) (found : s.host.object? id = some o) :
    o.isFrozen = true ↔
      ∀ s', s.Grants id s' → ∀ ts o', (s'.run ts).host.object? id = some o' →
        o'.slots = o.slots ∧ o'.extensible = o.extensible := by
  have alive : s.host.isAlive id = true := (Heap.isAlive_iff _ id).2 ⟨o, found⟩
  constructor
  · intro frozen s' grants ts o' found'
    have leads := grants.leads alive
    have sound := leads.sound reach.sound fun r => by simp [Deed.plain, Deed.isPlain]
    have moves := (leads.moves.mono fun _ _ => trivial).trans (moves_run sound ts)
    obtain ⟨slots, still⟩ := moves.frozen_lasts reach.sound.client found frozen found'
    exact ⟨slots, (o'.isFrozen_iff.1 still).1.trans (o.isFrozen_iff.1 frozen).1.symm⟩
  · intro immutable
    obtain ⟨o', found', frozen⟩ := run_freeze_setHandle reach.sound found "o"
    obtain ⟨slots, extensible⟩ := immutable _ (.handle "o") [.freeze "o"] o' found'
    rwa [← Object.isFrozen_congr slots extensible]

/-- An object without properties is frozen when it may not grow, and one that has only an accessor
can still be changed if that may be redefined. -/
theorem isFrozen_iff_immutable_closed :
    let s := (start none).run [.create (some "e"), .prevent "e", .create (some "a"),
      .define (.accessor none none true true) "a" (.name "x"), .prevent "a"]
    (∀ s', s.Grants 1 s' → ∀ ts o', (s'.run ts).host.object? 1 = some o' →
      o'.slots = .empty ∧ o'.extensible = false) ∧
      ∃ a, s.host.object? 2 = some a ∧
        a.slots.entries = [(.name "x", .accessor none none true true)] ∧ a.extensible = false ∧
        ∃ s', s.Grants 2 s' ∧ ∃ ts o', (s'.run ts).host.object? 2 = some o' ∧
          ¬(o'.slots = a.slots ∧ o'.extensible = a.extensible) := by
  intro s
  have reach : s.Reachable := ⟨_, _, rfl⟩
  obtain ⟨e, found, bare⟩ := (Option.any_eq_true _ _).1
    (by decide +kernel : (s.host.object? 1).any (fun o => decide
      (o.isFrozen = true ∧ o.slots = .empty ∧ o.extensible = false)) = true)
  obtain ⟨a, found', accessors⟩ := (Option.any_eq_true _ _).1
    (by decide +kernel : (s.host.object? 2).any (fun o => decide
      (o.isFrozen = false ∧ o.slots.entries = [(.name "x", .accessor none none true true)] ∧
        o.extensible = false)) = true)
  obtain ⟨frozen, slots, extensible⟩ := of_decide_eq_true bare
  obtain ⟨unfrozen, accessor, closed⟩ := of_decide_eq_true accessors
  refine ⟨fun s' grants ts o' living => ?_, a, found', accessor, closed, ?_⟩
  · have same := (isFrozen_iff_immutable reach found).1 frozen s' grants ts o' living
    rwa [slots, extensible] at same
  · have mutable := mt (isFrozen_iff_immutable reach found').2 (by simp [unfrozen])
    push Not at mutable
    obtain ⟨s', grants, ts, o', living, changed⟩ := mutable
    exact ⟨s', grants, ts, o', living, fun same => changed same.1 same.2⟩

end Session

end Compound
