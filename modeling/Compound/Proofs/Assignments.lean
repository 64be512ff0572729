import Compound.Proofs.Installs

/-!
What an assignment comes to, wherever a run has come to. It is declined and nothing changes, or the
slot of the key takes the value and nothing else changes, or a setter is called, once. A setter may
do anything to the object that is assigned to, and what it has done stands: the assignment writes
nothing after the call.
-/
namespace Compound

namespace Object

/-- Why an object declines a value for a key. -/
inductive Declines (o : Object) (k : Key) : Prop
  | unwritable {u : Value} {enumerable configurable : Bool}
      (found : o.slots.get? k = some (.data u false enumerable configurable))
  | unsettable {get : Option ObjectId} {enumerable configurable : Bool}
      (found : o.slots.get? k = some (.accessor get none enumerable configurable))
  | closed (absent : o.slots.get? k = none) (closed : o.extensible = false)

/-- The slot in which an object takes a value for a key, and what the value before it held. A value
that may be written is written over, and a key that is not there is added if the object may grow. -/
inductive Accepts (o : Object) (k : Key) (v : Value) : Slot → List ObjectId → Prop
  | overwritten {u : Value} {enumerable configurable : Bool}
      (found : o.slots.get? k = some (.data u true enumerable configurable)) :
      Accepts o k v (.data v true enumerable configurable) u.references
  | added (absent : o.slots.get? k = none) (growing : o.extensible = true) :
      Accepts o k v (.data v true true true) []

/-- The setter to which an object leaves a key. -/
inductive Delegates (o : Object) (k : Key) : ObjectId → Prop
  | accessor {get : Option ObjectId} {setter : ObjectId} {enumerable configurable : Bool}
      (found : o.slots.get? k = some (.accessor get (some setter) enumerable configurable)) :
      Delegates o k setter

/-- There is no fourth way. -/
theorem declines_or (o : Object) (k : Key) (v : Value) :
    o.Declines k ∨ (∃ slot old, o.Accepts k v slot old) ∨ ∃ setter, o.Delegates k setter := by
  cases found : o.slots.get? k with
  | none =>
    cases extensible : o.extensible with
    | true => exact .inr (.inl ⟨_, _, .added found extensible⟩)
    | false => exact .inl (.closed found extensible)
  | some slot =>
    cases slot with
    | data u writable enumerable configurable =>
      cases writable with
      | true => exact .inr (.inl ⟨_, _, .overwritten found⟩)
      | false => exact .inl (.unwritable found)
    | accessor get set enumerable configurable =>
      cases set with
      | some setter => exact .inr (.inr ⟨setter, .accessor found⟩)
      | none => exact .inl (.unsettable found)

/-- An object has taken a slot: in the place of the one that the key had, or behind all others. -/
structure Takes (o o' : Object) (k : Key) (slot : Slot) : Prop where
  slot : o'.slots.get? k = some slot
  others : ∀ j ≠ k, o'.slots.get? j = o.slots.get? j
  keys : o'.slots.keys = if k ∈ o.slots.keys then o.slots.keys else o.slots.keys ++ [k]
  extensible : o'.extensible = o.extensible
  function : o'.function = o.function
  finalizers : o'.finalizers = o.finalizers

theorem takes_put (o : Object) (n : Nat) (k : Key) (slot : Slot) :
    o.Takes { o with refs := n, slots := o.slots.put k slot } k slot :=
  ⟨o.slots.get?_put_same k slot, fun _ ne => o.slots.get?_put_other slot ne,
    o.slots.keys_put k slot, rfl, rfl, rfl⟩

theorem Accepts.references {o : Object} {k : Key} {v : Value} {slot : Slot} {old : List ObjectId}
    (accepts : o.Accepts k v slot old) :
    slot.references = v.references ∧ old = (o.slots.get? k).elim [] Slot.references := by
  cases accepts with
  | overwritten found =>
    rw [found]
    exact ⟨rfl, rfl⟩
  | added absent =>
    rw [absent]
    exact ⟨rfl, rfl⟩

end Object

namespace Host

variable {held : Multiset ObjectId} {call : Caller} {w : Host} {id setter : ObjectId} {o : Object}
  {k : Key} {v : Value} {slot : Slot} {old : List ObjectId}

theorem assignWith_declined (found : w.object? id = some o) (declines : o.Declines k) :
    assignWith call id k v w = (.ok false, w) := by
  rw [assignWith, slot?_of_found found, isExtensible_of_found found]
  cases declines with
  | unwritable stands | unsettable stands => simp [stands]
  | closed absent closed => simp [absent, closed]

theorem assignWith_accepted (found : w.object? id = some o) (accepts : o.Accepts k v slot old) :
    assignWith call id k v w = (.ok true, w.writeSlot id k slot) := by
  rw [assignWith, slot?_of_found found, isExtensible_of_found found]
  cases accepts with
  | overwritten stands => simp [stands]
  | added absent growing => simp [absent, growing, Slot.plain]

theorem assignWith_delegated (found : w.object? id = some o) (delegates : o.Delegates k setter) :
    assignWith call id k v w = runSetter call setter id v w := by
  cases delegates with
  | accessor stands => rw [assignWith, slot?_of_found found, stands]

/-- To write a slot is to put it into the object, and to let go then what the old one held. -/
theorem writeSlot_accepted (found : w.object? id = some o) (accepts : o.Accepts k v slot old) :
    w.writeSlot id k slot =
      ((w.retain v.references).modify id fun o => { o with slots := o.slots.put k slot }).release
        old := by
  rw [writeSlot, slot?_of_found found, accepts.references.1, accepts.references.2]

theorem takes_writeSlot {o' : Object} (found : w.object? id = some o)
    (found' : (w.writeSlot id k slot).object? id = some o') : o.Takes o' k slot := by
  obtain ⟨u, n, found_u, rfl⟩ := object?_writeSlot_same found'
  cases Option.some.inj (found.symm.trans found_u)
  exact o.takes_put n k slot

/-- A value that an object has taken is read again. -/
theorem readWith_taken {o' : Object} (found' : w.object? id = some o')
    (accepts : o.Accepts k v slot old) (takes : o.Takes o' k slot) :
    readWith call id k w = (.ok v, w.retain v.references) := by
  rw [readWith, slot?_of_found found', takes.slot]
  cases accepts <;> rfl

/-- Running a setter is one call, of which nothing is left but what it did and how it ended. -/
theorem runSetter_eq :
    runSetter call setter id v w =
      let called := call setter (.object id) [v] (w.retain [setter])
      (called.1.map fun _ => true, called.2.release (handed called.1 ++ [setter])) := by
  rw [runSetter]
  cases call setter (.object id) [v] (w.retain [setter]) with
  | mk outcome w' => cases outcome <;> rfl

/-- No setter declines. -/
theorem assignWith_eq_false (found : w.object? id = some o) :
    (assignWith call id k v w).1 = .ok false ↔ o.Declines k := by
  refine ⟨fun no => ?_, fun declines => by rw [assignWith_declined found declines]⟩
  rcases o.declines_or k v with declines | ⟨slot, old, accepts⟩ | ⟨setter, delegates⟩
  · exact declines
  · rw [assignWith_accepted found accepts] at no
    cases no
  · rw [assignWith_delegated found delegates, runSetter_eq] at no
    cases outcome : (call setter (.object id) [v] (w.retain [setter])).1 <;>
      simp [outcome, Except.map] at no

/-- An object that is kept survives an assignment to it, whatever its setter does. -/
theorem object?_assignWith (lawful : Lawful call) (s : Client.Sound ⟨held, w⟩)
    (kept : Client.Keeps ⟨held, w⟩ id) (lent : ∀ j ∈ v.references, Client.Keeps ⟨held, w⟩ j) :
    ∃ o', (assignWith call id k v w).2.object? id = some o' := by
  have moves := moves_assignWith lawful s kept k lent
  exact (Heap.isAlive_iff _ id).1 ((kept.after moves s le_rfl).alive (moves.sound s))

end Host

namespace Session

variable {s : Session} {held : Multiset ObjectId} {w : Host} {call : Host.Caller} {id : ObjectId}
  {v : Value}

/-- Wherever a run that starts at a session that a script reaches has come to, and whatever calls
do, an object that is kept takes a value for a key in one of three ways. It declines exactly if the
key has a slot that may not be written or has no setter, or has no slot and the object may not grow,
and then nothing changes. It accepts if the slot may be written, or if there is none and it may
grow. Then the value is taken into the slot, which keeps its place and its flags, or is added
behind all others with all flags set; it is read again, and what the old value held is let go. Or
it has a setter, which is called once, with the object as the receiver and the value as the only
argument. How the call fails is how the assignment fails, and as the call leaves the object, so it
is left. -/
theorem assignment_exact (reach : s.Reachable) (moves : Moves (fun _ => True) s.client ⟨held, w⟩)
    (kept : Client.Keeps ⟨held, w⟩ id) (lent : ∀ j ∈ v.references, Client.Keeps ⟨held, w⟩ j)
    (lawful : Host.Lawful call) (k : Key) :
    let assigned := Host.assignWith call id k v w
    ∃ o, w.object? id = some o ∧
      (assigned.1 = .ok false ↔ o.Declines k) ∧ (o.Declines k → assigned.2 = w) ∧
      (∀ slot old, o.Accepts k v slot old →
        assigned.1 = .ok true ∧ (∃ o', assigned.2.object? id = some o' ∧ o.Takes o' k slot) ∧
        (∀ j ≠ id, w.Leaves assigned.2 j) ∧
        assigned.2 = ((w.retain v.references).modify id fun o =>
          { o with slots := o.slots.put k slot }).release old ∧
        Host.readWith call id k assigned.2 = (.ok v, assigned.2.retain v.references)) ∧
      ∀ setter, o.Delegates k setter →
        let called := call setter (.object id) [v] (w.retain [setter])
        (∀ e, called.1 = .error e → assigned.1 = .error e) ∧
        (∀ u, called.1 = .ok u → assigned.1 = .ok true) ∧
        assigned.2 = called.2.release (handed called.1 ++ [setter]) ∧
        ∃ o' n, called.2.object? id = some o' ∧
          assigned.2.object? id = some { o' with refs := n } := by
  intro assigned
  have sound : Client.Sound ⟨held, w⟩ := moves.sound reach.sound.client
  obtain ⟨o, found⟩ := (Heap.isAlive_iff _ id).1 (kept.alive sound)
  obtain ⟨o', found'⟩ : ∃ o', assigned.2.object? id = some o' :=
    Host.object?_assignWith lawful sound kept lent
  refine ⟨o, found, Host.assignWith_eq_false found, fun declines => ?_, fun slot old accepts => ?_,
    fun setter delegates => ?_⟩
  · exact congrArg Prod.snd (Host.assignWith_declined found declines)
  · have written : assigned = (.ok true, w.writeSlot id k slot) :=
      Host.assignWith_accepted found accepts
    have takes : o.Takes o' k slot := by
      rw [written] at found'
      exact Host.takes_writeSlot found found'
    refine ⟨congrArg Prod.fst written, ⟨o', found', takes⟩, fun j ne => ?_, ?_,
      Host.readWith_taken found' accepts takes⟩
    · rw [written]
      exact .writeSlot w k slot ne
    · rw [written]
      exact Host.writeSlot_accepted found accepts
  · intro called
    have left : assigned =
        (called.1.map fun _ => true, called.2.release (handed called.1 ++ [setter])) :=
      (Host.assignWith_delegated found delegates).trans Host.runSetter_eq
    rw [left] at found' ⊢
    obtain ⟨o₁, n, found₁, rfl⟩ := Host.Leaves.release _ _ id o' found'
    exact ⟨fun e failed => congrArg (Except.map _) failed,
      fun u ended => congrArg (Except.map _) ended, rfl, o₁, n, found₁, found'⟩

/-- A value that is not enumerable is written over in its place, one that may not be written is not.
A setter fails, and another one puts a value in its own place, assigns to that in turn and freezes
the object. -/
theorem assignment_exact_reentrant :
    let s := (start none).run [.create (some "o"), .create (some "v"),
      .function (.sequence [.define (.name "k") .null, .assign (.name "k") 0, .freeze]) "f" false
        (some "f"),
      .function (.fail "no") "g" false (some "g"),
      .define (.accessor none (some "f") true true) "o" (.name "k"),
      .define (.data .null true false false) "o" (.name "m"),
      .define (.data .null false true true) "o" (.name "n"),
      .define (.accessor none (some "g") true true) "o" (.name "e")]
    let assigned (k : String) := s.host.assign 1 (.name k) (.object 2)
    (∃ o', (assigned "m").2.object? 1 = some o' ∧
      o'.slots.get? (.name "m") = some (.data (.object 2) true false false) ∧
      o'.slots.keys = [.name "k", .name "m", .name "n", .name "e"]) ∧
    (assigned "n").1 = .ok false ∧ (assigned "n").2 = s.host ∧
    (assigned "e").1 = .error (.thrown "no") ∧ (assigned "k").1 = .ok true ∧
    ∃ o', (assigned "k").2.object? 1 = some o' ∧
      o'.slots.get? (.name "k") = some (.data (.object 2) false true false) ∧
      o'.isFrozen = true := by
  intro s assigned
  have reach : s.Reachable := ⟨_, _, rfl⟩
  have inside : 1 ∈ s.client.held ∧ 2 ∈ s.client.held := by decide +kernel
  have lent : ∀ j ∈ (Value.object 2).references, s.client.Keeps j := fun j h => by
    cases Value.mem_references.1 h
    exact .held inside.2
  have exact_at (k : String) := assignment_exact reach (.refl s.client) (.held inside.1) lent
    (Host.lawful_invoke Host.maxDepth) (.name k)
  obtain ⟨o, found, stand⟩ := (Option.any_eq_true _ _).1
    (by decide +kernel : (s.host.object? 1).any (fun o => decide (
      o.slots.keys = [.name "k", .name "m", .name "n", .name "e"] ∧
      o.slots.get? (.name "m") = some (.data .null true false false) ∧
      o.slots.get? (.name "n") = some (.data .null false true true) ∧
      o.slots.get? (.name "e") = some (.accessor none (some 4) true true) ∧
      o.slots.get? (.name "k") = some (.accessor none (some 3) true true))) = true)
  obtain ⟨keys, stands_m, stands_n, stands_e, stands_k⟩ := of_decide_eq_true stand
  have same {o' : Object} (found' : s.host.object? 1 = some o') : o' = o :=
    Option.some.inj (found'.symm.trans found)
  refine ⟨?_, ?_, ?_, ?_, ?_⟩
  · obtain ⟨u, found_u, -, -, accepted, -⟩ := exact_at "m"
    cases same found_u
    obtain ⟨-, ⟨o', found', takes⟩, -⟩ := accepted _ _ (.overwritten stands_m)
    refine ⟨o', found', takes.slot, takes.keys.trans ?_⟩
    rw [keys]
    rfl
  · obtain ⟨u, found_u, declines, -⟩ := exact_at "n"
    cases same found_u
    exact declines.2 (.unwritable stands_n)
  · obtain ⟨u, found_u, -, unchanged, -⟩ := exact_at "n"
    cases same found_u
    exact unchanged (.unwritable stands_n)
  · obtain ⟨u, found_u, -, -, -, delegated⟩ := exact_at "e"
    cases same found_u
    obtain ⟨failed, -⟩ := delegated 4 (.accessor stands_e)
    exact failed _ (by decide +kernel)
  · obtain ⟨u, found_u, -, -, -, delegated⟩ := exact_at "k"
    cases same found_u
    obtain ⟨-, ended, -, o', n, left, found'⟩ := delegated 3 (.accessor stands_k)
    have made : (((Host.invoke Host.maxDepth 3 (.object 1) [.object 2]
        (s.host.retain [3])).2.object? 1).any fun o => decide (
          o.slots.get? (.name "k") = some (.data (.object 2) false true false) ∧
          o.isFrozen = true)) = true := by decide +kernel
    have left' : Host.object? (Host.invoke Host.maxDepth 3 (.object 1) [.object 2]
        (s.host.retain [3])).2 1 = some o' := left
    rw [left', Option.any_some] at made
    obtain ⟨stands, frozen⟩ := of_decide_eq_true made
    exact ⟨ended .undefined (by decide +kernel), _, found', stands, frozen⟩

end Session

end Compound
