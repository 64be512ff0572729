import Compound.Proofs.Lockstep

/-!
Operations on objects in two hosts, the second of which lags behind the first one. As long as all
objects that the operations are about live in the first host, they find the same in both, answer
the same and leave the two as they were to each other.
-/
namespace Compound.Host

variable {w w' : Host} {held : Multiset ObjectId} {ids : List ObjectId} {id : ObjectId}

namespace Covers

/-- An object that lives in the first host is the same one in the second, but for its count. -/
theorem object (c : w.Covers w') (alive : w.isAlive id = true) :
    ∃ o n, w.object? id = some o ∧ w'.object? id = some { o with refs := n } := by
  obtain ⟨o, found⟩ := (Heap.isAlive_iff _ id).1 alive
  obtain ⟨n, found'⟩ := c.objects id o found
  exact ⟨o, n, found, found'⟩

theorem slot?_eq (c : w.Covers w') (alive : w.isAlive id = true) (k : Key) :
    w'.slot? id k = w.slot? id k := by
  obtain ⟨o, n, found, found'⟩ := c.object alive
  rw [slot?_of_found found, slot?_of_found found']

theorem isExtensible_eq (c : w.Covers w') (alive : w.isAlive id = true) :
    w'.isExtensible id = w.isExtensible id := by
  obtain ⟨o, n, found, found'⟩ := c.object alive
  rw [isExtensible_of_found found, isExtensible_of_found found']

theorem isFrozen_eq (c : w.Covers w') (alive : w.isAlive id = true) :
    w'.isFrozen id = w.isFrozen id := by
  obtain ⟨o, n, found, found'⟩ := c.object alive
  rw [isFrozen, isFrozen, found, found', Option.any_some, Option.any_some, Object.isFrozen,
    Object.isFrozen]

theorem ownKeys_eq (c : w.Covers w') (alive : w.isAlive id = true) :
    w'.ownKeys id = w.ownKeys id := by
  obtain ⟨o, n, found, found'⟩ := c.object alive
  rw [ownKeys, ownKeys, found, found', Option.elim_some, Option.elim_some, Object.ownKeys,
    Object.ownKeys]

theorem enumerableNames_eq (c : w.Covers w') (alive : w.isAlive id = true) :
    w'.enumerableNames id = w.enumerableNames id := by
  obtain ⟨o, n, found, found'⟩ := c.object alive
  rw [enumerableNames, enumerableNames, found, found', Option.elim_some, Option.elim_some,
    Object.enumerableNames, Object.enumerableNames]

theorem function?_eq (c : w.Covers w') (alive : w.isAlive id = true) :
    w'.function? id = w.function? id := by
  obtain ⟨o, n, found, found'⟩ := c.object alive
  rw [function?, function?, found, found', Option.bind_some, Option.bind_some]

theorem isCallable_eq (c : w.Covers w') (alive : w.isAlive id = true) :
    w'.isCallable id = w.isCallable id := by
  rw [isCallable, isCallable, c.function?_eq alive]

theorem kindOf_eq (c : w.Covers w') {v : Value} (alive : ∀ id ∈ v.references, w.isAlive id = true) :
    w'.kindOf v = w.kindOf v := by
  cases v with
  | object id =>
    have callable := c.isCallable_eq (alive id (Value.mem_references.2 rfl))
    simp only [kindOf, callable]
  | _ => rfl

theorem describe_eq (c : w.Covers w') {v : Value}
    (alive : ∀ id ∈ v.references, w.isAlive id = true) : w'.describe v = w.describe v := by
  cases v with
  | object id =>
    have function := c.function?_eq (alive id (Value.mem_references.2 rfl))
    simp only [describe, function]
  | _ => rfl

theorem refusal?_eq (c : w.Covers w') (alive : w.isAlive id = true) (k : Key) :
    w'.refusal? id k = w.refusal? id k := by
  rw [refusal?, refusal?, c.slot?_eq alive, c.isExtensible_eq alive]

theorem cell_eq (c : w.Covers w') (name : String) : w'.cell name = w.cell name := by
  rw [cell, cell, c.cells]

end Covers

/-- Two hosts of which the same is held, and the second of which lags behind the first one. -/
structure Twins (held : Multiset ObjectId) (w w' : Host) : Prop where
  sound : Client.Sound ⟨held, w⟩
  sound' : Client.Sound ⟨held, w'⟩
  lags : w.Lags w'

namespace Twins

theorem alive' (t : Twins held w w') (alive : ∀ id ∈ ids, w.isAlive id = true) :
    ∀ id ∈ ids, w'.isAlive id = true :=
  fun id inside => t.lags.alive (alive id inside)

theorem retain (t : Twins held w w') (alive : ∀ id ∈ ids, w.isAlive id = true) :
    Twins (held + (ids : Multiset ObjectId)) (w.retain ids) (w'.retain ids) :=
  ⟨t.sound.retain alive, t.sound'.retain (t.alive' alive), t.lags.retain ids⟩

theorem release (t : Twins (held + (ids : Multiset ObjectId)) w w') :
    Twins held (w.release ids) (w'.release ids) :=
  ⟨t.sound.release, t.sound'.release, t.lags.release t.sound.accounted t.sound'.accounted⟩

theorem create (t : Twins held w w') {function : Option Function}
    (alive : ∀ id ∈ (Object.new function).bodyReferences, w.isAlive id = true) :
    (w'.create function).1 = (w.create function).1 ∧
      Twins ((w.create function).1 ::ₘ held) (w.create function).2 (w'.create function).2 := by
  have retained := t.retain alive
  have same : (w'.create function).1 = (w.create function).1 := retained.lags.next
  have sound := t.sound.create alive
  have sound' := t.sound'.create (t.alive' alive)
  refine ⟨same, sound, same ▸ sound', ?_⟩
  exact retained.lags.add retained.sound.unmentioned retained.sound'.unmentioned (.new function)
    sound.accounted

theorem modify (t : Twins held w w') (alive : w.isAlive id = true) (f : Object → Object)
    (same : ∀ o, (f o).refs = o.refs ∧ (f o).references = o.references)
    (keeps : ∀ o, (f o).function = o.function ∧ o.finalizers <+: (f o).finalizers)
    (refs : ∀ o n, f { o with refs := n } = { f o with refs := n }) :
    Twins held (w.modify id f) (w'.modify id f) := by
  have sound := t.sound.modify id f same keeps
  exact ⟨sound, t.sound'.modify id f same keeps, t.lags.modify alive f refs sound.accounted⟩

theorem freeze (t : Twins held w w') (alive : w.isAlive id = true) :
    Twins held (w.freeze id) (w'.freeze id) :=
  t.modify alive _ (fun o => ⟨rfl, o.references_freeze⟩) (fun _ => ⟨rfl, List.prefix_rfl⟩)
    fun _ _ => rfl

theorem preventGrowth (t : Twins held w w') (alive : w.isAlive id = true) :
    Twins held (w.preventGrowth id) (w'.preventGrowth id) :=
  t.modify alive _ (fun _ => ⟨rfl, rfl⟩) (fun _ => ⟨rfl, List.prefix_rfl⟩) fun _ _ => rfl

theorem writeSlot (t : Twins held w w') (living : w.isAlive id = true) (k : Key) {s : Slot}
    (alive : ∀ j ∈ s.references, w.isAlive j = true) :
    Twins held (w.writeSlot id k s) (w'.writeSlot id k s) := by
  obtain ⟨o, found⟩ := (Heap.isAlive_iff _ id).1 living
  obtain ⟨n, found'⟩ := t.lags.objects id o found
  have sound := t.sound.putSlot (k := k) found alive
  have sound' := t.sound'.putSlot (k := k) found' (t.alive' alive)
  rw [t.lags.slot?_eq living] at sound'
  have put : Twins (held + ((w.slot? id k).elim [] Slot.references : List ObjectId))
      ((w.retain s.references).modify id fun o => { o with slots := o.slots.put k s })
      ((w'.retain s.references).modify id fun o => { o with slots := o.slots.put k s }) := by
    refine ⟨sound, sound', (t.lags.retain s.references).modify ?_ _ (fun _ _ => rfl)
      sound.accounted⟩
    exact (Heap.isAlive_retain _ _ _).trans living
  rw [Host.writeSlot, Host.writeSlot, t.lags.slot?_eq living]
  exact put.release

theorem finalize (t : Twins held w w') {label : String} {hold : Option ObjectId}
    (living : w.isAlive id = true) (alive : ∀ j ∈ hold, w.isAlive j = true) :
    Twins held (w.addFinalizer id (.note label hold)) (w'.addFinalizer id (.note label hold)) := by
  have sound : Client.Sound ⟨held, w.addFinalizer id (.note label hold)⟩ :=
    t.sound.finalize living alive
  refine ⟨sound, t.sound'.finalize (t.lags.alive living) fun j h => t.lags.alive (alive j h), ?_⟩
  exact (t.lags.retain _).modify ((Heap.isAlive_retain _ _ _).trans living) _ (fun _ _ => rfl)
    sound.accounted

theorem store (t : Twins held w w') (name : String) {v : Value}
    (alive : ∀ id ∈ v.references, w.isAlive id = true) :
    Twins held (w.store name v) (w'.store name v) := by
  have sound' : Client.Sound ⟨held + ((w'.cell name).references : Multiset ObjectId),
      { w'.retain v.references with cells := w'.cells.put name v }⟩ :=
    t.sound'.putCell (t.alive' alive)
  rw [t.lags.cell_eq] at sound'
  have put : Twins (held + ((w.cell name).references : Multiset ObjectId))
      { w.retain v.references with cells := w.cells.put name v }
      { w'.retain v.references with cells := w'.cells.put name v } :=
    ⟨t.sound.putCell alive, sound', (t.lags.retain v.references).putCell name v⟩
  rw [Host.store, Host.store, t.lags.cell_eq]
  exact put.release

/-- What is logged and told may differ. -/
theorem remark (t : Twins held w w') (counters : List Nat) (events events' : List String)
    (notices notices' : List Notice) :
    Twins held { w with counters := counters, events := events, notices := notices }
      { w' with counters := counters, events := events', notices := notices' } :=
  ⟨t.sound.remark _ _ _, t.sound'.remark _ _ _, t.lags.remark _ _ _ _ _⟩

theorem report (t : Twins held w w') (events events' : List String)
    (notices notices' : List Notice) :
    Twins held { w with events := events, notices := notices }
      { w' with events := events', notices := notices' } := by
  have same : { w' with counters := w.counters, events := events', notices := notices' } =
      { w' with events := events', notices := notices' } := by rw [← t.lags.counters]
  exact same ▸ t.remark w.counters events events' notices notices'

theorem log (t : Twins held w w') (event : String) : Twins held (w.log event) (w'.log event) :=
  t.report _ _ w.notices w'.notices

theorem tell (t : Twins held w w') (n n' : Notice) : Twins held (w.tell n) (w'.tell n') :=
  t.report w.events w'.events _ _

theorem quiet (t : Twins held w w') : Twins held w.quiet w'.quiet := t.report [] [] [] []

/-- A counter gives the same number in both. -/
theorem tick (t : Twins held w w') (counter : Nat) :
    (w'.tick counter).1 = (w.tick counter).1 ∧
      Twins held (w.tick counter).2 (w'.tick counter).2 := by
  simp only [Host.tick, t.lags.counters]
  exact ⟨trivial, t.remark _ w.events w'.events w.notices w'.notices⟩

end Twins

end Compound.Host
