import Compound.Proofs.Ownership
import Compound.Proofs.Tags

/-!
Members of Records and Tuples, in every session that a script can reach. An object may be
embedded if it is no function and has a tag or is a box. It is no function later on either, its
tag stays, and its pair stands until the box is released; and a frozen object keeps its members
and keeps them alive. So it is enough to look at the members of an object once, and not at the
members of members.
-/
namespace Compound

/-- The object stores the value in a data slot of its own. -/
inductive Object.Member (o : Object) (v : Value) : Prop
  | stored {k : Key} {writable enumerable configurable : Bool}
      (stored : o.slots.get? k = some (.data v writable enumerable configurable))

theorem Object.Member.holds {o : Object} {id : ObjectId} (member : o.Member (.object id)) :
    o.Holds id := by
  obtain ⟨stored⟩ := member
  exact .value stored

namespace Host

variable {w : Host} {r : RegistryId} {id : ObjectId}

theorem validate_eq_ok (w : Host) (r : RegistryId) (v : Value) :
    (w.validate r v).1 = .ok v ↔ (w.classOf r v).isEmbeddable = true := by
  rw [outcome_validate]
  cases w.classOf r v <;> simp [rejection?, Class.isEmbeddable]

theorem validate_of_primitive (w : Host) (r : RegistryId) {v : Value} (plain : v.identity = none) :
    (w.validate r v).1 = .ok v := by
  rw [validate_eq_ok, classOf, plain]
  rfl

theorem isBox_eq (w : Host) (r : RegistryId) (id : ObjectId) :
    (w.registry? r).any (·.isBox (.object id)) = (w.pairing r).hasBox id := by
  cases found : w.registry? r with
  | none =>
    rw [pairing_of_none found]
    rfl
  | some reg =>
    rw [pairing_of_found found]
    rfl

/-- An object may be embedded if it is no function and has a tag or is a box. -/
theorem validate_object : (w.validate r (.object id)).1 = .ok (.object id) ↔
    w.isCallable id = false ∧
      ((∃ t, w.tagOf? r id = some t) ∨ ∃ value, (w.pairing r).values.get? id = some value) := by
  have tagOf : (w.registry? r).bind (·.tagOf (.object id)) = w.tagOf? r id := rfl
  rw [validate_eq_ok, classOf, Value.identity_object]
  simp only [tagOf, isBox_eq, ← Pairing.hasBox_iff]
  cases callable : w.isCallable id with
  | true => simp [Class.isEmbeddable]
  | false =>
    cases tagged : w.tagOf? r id with
    | some t => cases t <;> simp [Class.isEmbeddable]
    | none => cases boxed : (w.pairing r).hasBox id <;> simp [Class.isEmbeddable]

end Host

namespace Session

variable {s : Session} {r : RegistryId} {id : ObjectId}

/-- What may be embedded may be embedded later on, if it lives and is not released. -/
theorem validate_lasts (sound : s.Sound)
    (embeddable : (s.host.validate r (.object id)).1 = .ok (.object id))
    (alive : s.host.isAlive id = true) (ts : List Step) (spares : Spares r id s ts)
    (opened : ∃ reg, (s.run ts).host.registry? r = some reg)
    (alive' : (s.run ts).host.isAlive id = true) :
    ((s.run ts).host.validate r (.object id)).1 = .ok (.object id) := by
  obtain ⟨o, found⟩ := (Heap.isAlive_iff _ id).1 alive
  have old := sound.client.accounted.bounded id o found
  have moves := moves_run sound ts
  rw [Host.validate_object] at embeddable ⊢
  obtain ⟨plain, entered⟩ := embeddable
  have same : (s.run ts).host.function? id = s.host.function? id :=
    Host.function?_of_evolves moves.evolves old alive'
  have plain' : (s.run ts).host.isCallable id = false := by
    rw [Host.isCallable, same]
    exact plain
  refine ⟨plain', ?_⟩
  rcases entered with ⟨t, tagged⟩ | ⟨value, paired⟩
  · have lasts := moves.tag_lasts sound.client tagged (Heap.not_buried_of_alive alive')
      (Host.not_closed_of_found opened)
    exact Or.inl ⟨t, lasts⟩
  · obtain ⟨reg, found_r, paired⟩ := Host.found_of_paired paired
    obtain ⟨reg', found_r'⟩ := opened
    have lasts := (moves_run_sparing sound ts spares).pair_lasts sound.client found_r found_r'
      paired alive'
    exact Or.inr ⟨value, Host.pairing_of_found found_r' ▸ lasts⟩

/-- Let a frozen object of a session that a script reaches have only members that a registry
lets be embedded. Then whatever follows, while the object lives and the registry is open it has the
slots that it had, and the registry lets the same members be embedded, unless it has been asked to
release one of them. -/
theorem members_stay_embeddable (reach : s.Reachable) {o o' : Object}
    (found : s.host.object? id = some o) (frozen : o.isFrozen = true)
    (embeddable : ∀ v, o.Member v → (s.host.validate r v).1 = .ok v) (ts : List Step)
    (spares : ∀ member, o.Member (.object member) → Spares r member s ts)
    (opened : ∃ reg, (s.run ts).host.registry? r = some reg)
    (found' : (s.run ts).host.object? id = some o') :
    o'.slots = o.slots ∧ ∀ v, o'.Member v → ((s.run ts).host.validate r v).1 = .ok v := by
  have sound := reach.sound
  have slots := ((moves_run sound ts).frozen_lasts sound.client found frozen found').1
  refine ⟨slots, fun v member => ?_⟩
  cases primitive : v.identity with
  | none => exact Host.validate_of_primitive _ r primitive
  | some id' =>
    cases Value.identity_eq_some primitive
    have member₀ : o.Member (.object id') := by
      obtain ⟨stored⟩ := member
      exact ⟨slots ▸ stored⟩
    have alive := (alive_iff sound id').2 (.object found member₀.holds)
    have alive' := (alive_iff (sound_run sound ts) id').2 (.object found' member.holds)
    exact validate_lasts sound (embeddable _ member₀) alive ts (spares id' member₀) opened alive'

/-- A box is left to the slot of a frozen Record. It stands up to a reclaim and to a write, to the
death of an unused box and to a new box for the Record. -/
theorem members_stay_embeddable_boxed :
    let s := (start (some false)).run [.create (some "value"),
      .box "r" (.handle "value") (some "box"),
      .createFrom [(.name "x", .handle "box")] (some "record"), .tagRecord "r" "record",
      .freeze "record", .drop "box", .create (some "unused"),
      .pair "r" "unused" (.handle "record")]
    let ts : List Step := [.drop "value", .drop "unused", .reclaim "r",
      .set "record" (.name "x") .null, .box "r" (.handle "record") none]
    ∃ o o', s.host.object? 3 = some o ∧ (s.run ts).host.object? 3 = some o' ∧
      o'.slots = o.slots ∧ ((s.run ts).host.validate 0 (.object 2)).1 = .ok (.object 2) := by
  intro s ts
  have reach : s.Reachable := ⟨_, _, rfl⟩
  obtain ⟨o, found, was⟩ := (Option.any_eq_true _ _).1
    (by decide +kernel : (s.host.object? 3).any (fun o => o.isFrozen && decide
      (o.slots.values = [.data (.object 2) false true false])) = true)
  obtain ⟨o', found'⟩ := Option.isSome_iff_exists.1
    (by decide +kernel : ((s.run ts).host.object? 3).isSome = true)
  obtain ⟨frozen, values⟩ := (Bool.and_eq_true _ _).mp was
  have values : o.slots.values = [.data (.object 2) false true false] := of_decide_eq_true values
  have only : ∀ v, o.Member v → v = .object 2 := by
    rintro v ⟨stored⟩
    have inside := Table.mem_values _ _ stored
    rw [values] at inside
    cases List.mem_singleton.1 inside
    rfl
  have embeddable : (s.host.validate 0 (.object 2)).1 = .ok (.object 2) := by
    rw [Host.validate_eq_ok]
    decide +kernel
  have spares : ∀ member, o.Member (.object member) → Spares 0 member s ts := by
    intro member _
    refine ⟨?_, ?_, ?_, ?_, ?_, trivial⟩ <;> rintro ⟨name, h, keep, same, -⟩ <;> cases same
  have opened : ∃ reg, (s.run ts).host.registry? 0 = some reg :=
    Option.isSome_iff_exists.1 (by decide +kernel)
  have stays := members_stay_embeddable reach found frozen
    (fun v member => only v member ▸ embeddable) ts spares opened found'
  have member : o'.Member (.object 2) := by
    have inside : Slot.data (.object 2) false true false ∈ o'.slots.values := by
      rw [stays.1, values]
      exact List.mem_singleton_self _
    obtain ⟨k, stored⟩ := Table.exists_of_mem_values _ inside
    exact ⟨stored⟩
  exact ⟨o, o', found, found', stays.1, stays.2 _ member⟩

end Session

end Compound
