import Compound.Proofs.Boxes

/-!
Entries, the queue, and what reclaiming does about them, in every session that a script can
reach. No entry of a dead object is lost, since its death is in the queue until the next
reclaim, and a reclaim takes out the queued entries and is not noticed by the living.
-/
namespace Compound

namespace Registry

variable {reg : Registry} {h : Heap}

/-- With nothing pending, an entry has a living subject. -/
theorem Attends.alive_of_idle {r : RegistryId} {excused : ObjectId → Prop}
    (a : reg.Attends r h excused) (idle : reg.queue = []) {id : ObjectId}
    (mentioned : reg.mentions id = true) (unexcused : ¬excused id) : id ∈ h.live.keys := by
  rw [Table.mem_keys]
  cases found : h.get? id with
  | some o => exact ⟨o, found⟩
  | none =>
    have queued := (a.minded id mentioned unexcused).noticed found
    rw [idle] at queued
    cases queued

theorem isRecord_object (reg : Registry) (id : ObjectId) :
    reg.isRecord (.object id) = (reg.tags.get? id).any fun t => !t.isTuple := by
  have tagOf : reg.tagOf (.object id) = reg.tags.get? id := rfl
  rw [isRecord, tagOf]
  cases reg.tags.get? id with
  | none => rfl
  | some t => cases t <;> rfl

theorem isTuple_object (reg : Registry) (id : ObjectId) :
    reg.isTuple (.object id) = (reg.tags.get? id).any Tag.isTuple := rfl

theorem isBox_object (reg : Registry) (id : ObjectId) :
    reg.isBox (.object id) = (reg.pairing.values.get? id).any fun _ => true := by
  have hasBox : reg.isBox (.object id) = (reg.pairing.values.get? id).isSome := rfl
  rw [hasBox]
  cases reg.pairing.values.get? id <;> rfl

/-- Every tag counts as one of a Record or of a Tuple. -/
theorem sizes_tags (reg : Registry) : reg.sizes.records + reg.sizes.tuples = reg.tags.size := by
  have parts := List.length_eq_length_filter_add (l := reg.tags.values) Tag.isTuple
  simp only [sizes]
  rw [Table.size, ← List.length_map (f := Prod.snd), ← Table.values]
  omega

/-- What draining removes is what is missing afterwards. -/
theorem sizes_drained (reg : Registry) :
    reg.removed +
        (reg.drained.sizes.records + reg.drained.sizes.tuples + reg.drained.sizes.boxes) =
      reg.sizes.records + reg.sizes.tuples + reg.sizes.boxes := by
  have tags := reg.tags.size_eraseAll reg.queue
  have boxes := congrArg Multiset.card (Pairing.values_removeAll reg.pairing reg.queue)
  simp only [Multiset.card_add, Multiset.coe_card, Table.values, List.length_map] at boxes
  have before := reg.sizes_tags
  have after := reg.drained.sizes_tags
  simp only [removed, released, sizes, Pairing.size, Table.size, drained] at *
  omega

end Registry

namespace Host

variable {held : Multiset ObjectId} {w w' : Host} {r : RegistryId} {reg reg' : Registry} {v : Value}

/-- Two hosts answer all questions about a value in one registry alike. -/
structure Agrees (w w' : Host) (r : RegistryId) (v : Value) : Prop where
  tagOf : (w'.registry? r).bind (·.tagOf v) = (w.registry? r).bind (·.tagOf v)
  isRecord : (w'.registry? r).any (·.isRecord v) = (w.registry? r).any (·.isRecord v)
  isTuple : (w'.registry? r).any (·.isTuple v) = (w.registry? r).any (·.isTuple v)
  tupleLength : (w'.registry? r).bind (·.tupleLength v) = (w.registry? r).bind (·.tupleLength v)
  isBox : (w'.registry? r).any (·.isBox v) = (w.registry? r).any (·.isBox v)
  unbox : (w'.unbox r v).1 = (w.unbox r v).1
  classOf : w'.classOf r v = w.classOf r v
  validate : (w'.validate r v).1 = (w.validate r v).1

theorem kindOf_tell (w : Host) (n : Notice) (v : Value) : (w.tell n).kindOf v = w.kindOf v := by
  cases v <;> rfl

theorem outcome_validate (w : Host) (r : RegistryId) (v : Value) :
    (w.validate r v).1 =
      match rejection? (w.kindOf v) (w.classOf r v) with
      | some failure => .error failure
      | none => .ok v := by
  rw [validate]
  split <;> rename_i h <;> rw [kindOf_tell] at h <;> simp only [h]

theorem outcome_unbox (w : Host) (r : RegistryId) (v : Value) :
    (w.unbox r v).1 =
      match v.identity.bind (w.pairing r).value? with
      | none => .error .notBox
      | some value => .ok (.object value) := by
  rw [Host.unbox]
  cases v.identity.bind (w.pairing r).value? <;> rfl

/-- Hosts agree about a value if they have the same entries for it and the same function. -/
theorem Agrees.of_entries (found : w.registry? r = some reg) (found' : w'.registry? r = some reg')
    (tags : ∀ id ∈ v.references, reg'.tags.get? id = reg.tags.get? id)
    (boxes : ∀ id ∈ v.references, reg'.pairing.values.get? id = reg.pairing.values.get? id)
    (functions : ∀ id ∈ v.references, w'.function? id = w.function? id) : w.Agrees w' r v := by
  have tagOf : reg'.tagOf v = reg.tagOf v := by
    cases h : v.identity with
    | none => simp [Registry.tagOf, h]
    | some id =>
      have same := tags id (Value.mem_references.2 (Value.identity_eq_some h))
      simp only [Registry.tagOf, h, Option.bind_some, same]
  have value? : v.identity.bind reg'.pairing.value? = v.identity.bind reg.pairing.value? := by
    cases h : v.identity with
    | none => rfl
    | some id => exact boxes id (Value.mem_references.2 (Value.identity_eq_some h))
  have isBox : reg'.isBox v = reg.isBox v := by
    cases h : v.identity with
    | none => simp [Registry.isBox, h]
    | some id =>
      have same := boxes id (Value.mem_references.2 (Value.identity_eq_some h))
      simp only [Registry.isBox, h, Option.any_some, Pairing.hasBox, Table.contains, same]
  have callable : ∀ id, v.identity = some id → w'.isCallable id = w.isCallable id := by
    intro id h
    simp only [isCallable, functions id (Value.mem_references.2 (Value.identity_eq_some h))]
  have classOf : w'.classOf r v = w.classOf r v := by
    cases h : v.identity with
    | none => simp only [Host.classOf, h]
    | some id => simp only [Host.classOf, h, callable id h, found, found', Option.bind_some,
        Option.any_some, tagOf, isBox]
  have kindOf : w'.kindOf v = w.kindOf v := by
    cases v with
    | object id => simp only [Host.kindOf, callable id rfl]
    | _ => rfl
  constructor
  · rw [found, found', Option.bind_some, Option.bind_some, tagOf]
  · simp only [found, found', Option.any_some, Registry.isRecord, tagOf]
  · simp only [found, found', Option.any_some, Registry.isTuple, tagOf]
  · simp only [found, found', Option.bind_some, Registry.tupleLength, tagOf]
  · rw [found, found', Option.any_some, Option.any_some, isBox]
  · rw [outcome_unbox, outcome_unbox, pairing_of_found found, pairing_of_found found', value?]
  · exact classOf
  · rw [outcome_validate, outcome_validate, classOf, kindOf]

/-- Survivors keep their functions. -/
theorem function?_of_evolves (e : w.heap.Evolves w'.heap) {id : ObjectId} (old : id < w.heap.next)
    (alive : w'.isAlive id = true) : w'.function? id = w.function? id := by
  obtain ⟨o', found'⟩ := (Heap.isAlive_iff _ id).1 alive
  obtain ⟨o, found, same, -⟩ := e.survivor id o' old found'
  have at_end : w'.object? id = some o' := found'
  have at_start : w.object? id = some o := found
  rw [function?, function?, at_end, at_start, Option.bind_some, Option.bind_some, same]

/-- A reclaim makes no object. -/
theorem next_reclaim (w : Host) (r : RegistryId) :
    (w.reclaim r).2.heap.next = w.heap.next := by
  obtain ⟨dues, effects, cascade⟩ := w.cascade_reclaim r
  exact cascade.next_eq

/-- Whatever is alive after a reclaim was alive before, and was not queued. -/
theorem alive_before_reclaim (s : Client.Sound ⟨held, w⟩) {id : ObjectId}
    (alive : (w.reclaim r).2.isAlive id = true) : w.isAlive id = true := by
  have drained : Moves (· = .drain r) ⟨held, w⟩ ⟨held, (w.reclaim r).2⟩ := .one .drain rfl
  obtain ⟨o, found⟩ := (Heap.isAlive_iff _ id).1 alive
  have old := (drained.sound s).accounted.bounded id o found
  exact (evolves_reclaim w r).alive (w.next_reclaim r ▸ old) alive

theorem reclaimed_eq (found : w.registry? r = some reg) : (w.reclaim r).1 = reg.removed := by
  rcases w.reclaim_cases r with ⟨same, empty⟩ | ⟨reg', found', -, same⟩
  · rw [same, Registry.removed, Registry.released, empty reg found]
    rfl
  · cases Option.some.inj (found.symm.trans found')
    rw [same]

/-- The living box of a value is found as before, unless the reclaim has destroyed it. -/
theorem livingBox_reclaim (s : Client.Sound ⟨held, w⟩) (found : w.registry? r = some reg)
    (v : Value) :
    ((w.reclaim r).2.livingBox r v).1 = ((w.livingBox r v).1).filter (w.reclaim r).2.isAlive := by
  have drained : Moves (· = .drain r) ⟨held, w⟩ ⟨held, (w.reclaim r).2⟩ := .one .drain rfl
  have s' := drained.sound s
  obtain ⟨pushed, swept, -⟩ := registry?_reclaim_same found
  cases h : v.identity with
  | none => simp [livingBox, boxOf?, h]
  | some value =>
    rw [Value.identity_eq_some h]
    apply Option.ext
    intro box
    have before : (w.livingBox r (.object value)).1 = some box ↔ _ := boxOf?_iff s
    have after : ((w.reclaim r).2.livingBox r (.object value)).1 = some box ↔ _ := boxOf?_iff s'
    rw [after, Option.filter_eq_some_iff, before, pairing_of_found swept, pairing_of_found found,
      Registry.enqueueAll_pairing, Registry.get?_values_drained]
    constructor
    · rintro ⟨paired, alive⟩
      have living := alive_before_reclaim s alive
      rw [if_neg (s.unqueued_of_alive found living)] at paired
      exact ⟨⟨paired, living⟩, alive⟩
    · rintro ⟨⟨paired, living⟩, alive⟩
      rw [if_neg (s.unqueued_of_alive found living)]
      exact ⟨paired, alive⟩

/-- What is alive after a reclaim gets the same answers as before. -/
theorem agrees_reclaim (s : Client.Sound ⟨held, w⟩) (found : w.registry? r = some reg)
    (alive : ∀ id ∈ v.references, (w.reclaim r).2.isAlive id = true) :
    w.Agrees (w.reclaim r).2 r v := by
  obtain ⟨pushed, swept, -⟩ := registry?_reclaim_same found
  have living : ∀ id ∈ v.references, w.isAlive id = true := fun id h =>
    alive_before_reclaim s (alive id h)
  have unqueued : ∀ id ∈ v.references, id ∉ reg.queue := fun id h =>
    s.unqueued_of_alive found (living id h)
  apply Agrees.of_entries found swept
  · intro id h
    rw [Registry.enqueueAll_tags, Registry.get?_tags_drained, if_neg (unqueued id h)]
  · intro id h
    rw [Registry.enqueueAll_pairing, Registry.get?_values_drained, if_neg (unqueued id h)]
  · intro id h
    obtain ⟨o, found_o⟩ := (Heap.isAlive_iff _ id).1 (living id h)
    exact function?_of_evolves (evolves_reclaim w r) (s.accounted.bounded id o found_o) (alive id h)

end Host

namespace Session

variable {s : Session} {r : RegistryId} {reg : Registry}

/-- In every session that a script reaches, each entry of a dead object waits in the queue of
its registry, and whatever waits is dead. So when nothing waits, the registry counts the living
Records, the living Tuples and the living boxes. -/
theorem entries_accounted (reach : s.Reachable) (found : s.host.registry? r = some reg) :
    (∀ id, reg.mentions id = true → s.host.isAlive id = false → id ∈ reg.queue) ∧
    (∀ id ∈ reg.queue, s.host.isAlive id = false) ∧
    (reg.sizes.pending = 0 →
      reg.sizes.records =
        (s.host.heap.live.keys.filter fun id => reg.isRecord (.object id)).length ∧
      reg.sizes.tuples =
        (s.host.heap.live.keys.filter fun id => reg.isTuple (.object id)).length ∧
      reg.sizes.boxes =
        (s.host.heap.live.keys.filter fun id => reg.isBox (.object id)).length) := by
  have sound := reach.sound.client
  have attends := sound.attended r reg found
  refine ⟨fun id mentioned dead => ?_, fun id queued => sound.dead_of_queued found queued, ?_⟩
  · exact (attends.minded id mentioned not_false).noticed ((Heap.isAlive_eq_false _ id).1 dead)
  · intro pending
    have idle : reg.queue = [] := List.length_eq_zero_iff.1 pending
    have nodup := s.host.heap.live.keys_nodup
    have tagged : ∀ id t, reg.tags.get? id = some t → id ∈ s.host.heap.live.keys := fun id t h =>
      attends.alive_of_idle idle (Registry.mentions_tag h) not_false
    have boxed : ∀ id value, reg.pairing.values.get? id = some value →
        id ∈ s.host.heap.live.keys := fun id value h =>
      attends.alive_of_idle idle (Registry.mentions_box h) not_false
    refine ⟨?_, ?_, ?_⟩
    · simp only [Registry.isRecord_object]
      exact Table.length_filter_values _ _ _ nodup fun id t h _ => tagged id t h
    · simp only [Registry.isTuple_object]
      exact Table.length_filter_values _ _ _ nodup fun id t h _ => tagged id t h
    · simp only [Registry.isBox_object]
      rw [← Table.length_filter_values reg.pairing.values _ _ nodup fun id v h _ => boxed id v h]
      simp [Registry.sizes, Pairing.size, Table.size, Table.values]

/-- A tagged object is dropped and its tag waits; after a reclaim the living Tuple is counted. -/
theorem entries_accounted_waiting :
    let s := (start (some false)).run [.create (some "record"), .tagRecord "r" "record",
      .create (some "tuple"), .tagTuple "r" "tuple" 2, .drop "record"]
    let s' := s.run [.reclaim "r"]
    ∃ reg reg', s.host.registry? 0 = some reg ∧ 1 ∈ reg.queue ∧
      s'.host.registry? 0 = some reg' ∧ reg'.sizes.tuples =
        (s'.host.heap.live.keys.filter fun id => reg'.isTuple (.object id)).length := by
  intro s s'
  have reach : s.Reachable := ⟨_, _, rfl⟩
  obtain ⟨reg, found, mentioned⟩ := Option.any_eq_true _ _ |>.1
    (by decide +kernel : (s.host.registry? 0).any (·.mentions 1) = true)
  obtain ⟨reg', found', idle⟩ := Option.any_eq_true _ _ |>.1
    (by decide +kernel : (s'.host.registry? 0).any (fun reg => reg.sizes.pending == 0) = true)
  have waiting := (entries_accounted reach found).1 1 mentioned (by decide +kernel)
  have counted := (entries_accounted (reach.run _) found').2.2 (beq_iff_eq.1 idle)
  exact ⟨reg, reg', found, waiting, found', counted.2.1⟩

/-- In every session that a script reaches, reclaiming takes out the queued entries and no
others, in both directions of the pairing, and tells how many entries there are fewer. After
it the queue holds what died of it, each object as often as the registry watched it. Whatever
is alive after it gets the same answers as before, and its box is found as before, unless
that was destroyed. -/
theorem reclaim_exact (reach : s.Reachable) (found : s.host.registry? r = some reg) :
    ∃ reg', Host.registry? (s.host.reclaim r).2 r = some reg' ∧
      (∀ id, reg'.tags.get? id = if id ∈ reg.queue then none else reg.tags.get? id) ∧
      (∀ box, reg'.pairing.values.get? box =
        if box ∈ reg.queue then none else reg.pairing.values.get? box) ∧
      (∀ value, reg'.pairing.boxes.get? value =
        (reg.pairing.boxes.get? value).filter fun box => box ∉ reg.queue) ∧
      (s.host.reclaim r).1 + (reg'.sizes.records + reg'.sizes.tuples + reg'.sizes.boxes) =
        reg.sizes.records + reg.sizes.tuples + reg.sizes.boxes ∧
      (∀ id, reg'.queue.count id =
        if (s.host.reclaim r).2.isAlive id then 0 else s.host.heap.watches r id) ∧
      ∀ v, (∀ id ∈ v.references, (s.host.reclaim r).2.isAlive id = true) →
        s.host.Agrees (s.host.reclaim r).2 r v ∧
        ((s.host.reclaim r).2.livingBox r v).1 =
          ((s.host.livingBox r v).1).filter (s.host.reclaim r).2.isAlive := by
  have sound := reach.sound.client
  have drained : Moves (· = .drain r) s.client ⟨s.handles.values, (s.host.reclaim r).2⟩ :=
    .one .drain rfl
  obtain ⟨pushed, swept, count⟩ := Host.registry?_reclaim_same found
  have values : ∀ box, (reg.drained.enqueueAll pushed).pairing.values.get? box =
      if box ∈ reg.queue then none else reg.pairing.values.get? box := by
    intro box
    rw [Registry.enqueueAll_pairing, Registry.get?_values_drained]
  refine ⟨_, swept, fun id => ?_, values, fun value => ?_, ?_, fun id => ?_, fun v alive => ?_⟩
  · rw [Registry.enqueueAll_tags, Registry.get?_tags_drained]
  · -- the other direction follows, since both pairings mirror themselves
    have before := (sound.attended r reg found).mirrored
    have after := ((drained.sound sound).attended r _ swept).mirrored
    apply Option.ext
    intro box
    rw [← after.inverse, values, Option.filter_eq_some_iff, ← before.inverse]
    by_cases queued : box ∈ reg.queue
    · simp [queued]
    · simp [queued]
  · rw [Host.reclaimed_eq found]
    exact reg.sizes_drained
  · have emptied : (reg.drained.enqueueAll pushed).queue = pushed := rfl
    rw [emptied]
    exact count id
  · exact ⟨Host.agrees_reclaim sound found alive, Host.livingBox_reclaim sound found v⟩

/-- Reclaiming a dead box lets its tagged value die, which waits in the queue then; a third
object does not notice. -/
theorem reclaim_exact_cascade :
    let s := (start (some false)).run [.create (some "box"), .create (some "value"),
      .create (some "other"), .tagRecord "r" "value", .pair "r" "box" (.handle "value"),
      .drop "value", .drop "box"]
    ∃ reg reg', s.host.registry? 0 = some reg ∧ 1 ∈ reg.queue ∧
      Host.registry? (s.host.reclaim 0).2 0 = some reg' ∧
      reg'.pairing.values.get? 1 = none ∧ reg'.queue.count 2 = 1 ∧
      s.host.Agrees (s.host.reclaim 0).2 0 (.object 3) := by
  intro s
  have reach : s.Reachable := ⟨_, _, rfl⟩
  obtain ⟨reg, found, queued⟩ := Option.any_eq_true _ _ |>.1
    (by decide +kernel : (s.host.registry? 0).any (fun reg => decide (1 ∈ reg.queue)) = true)
  obtain ⟨reg', found', -, values, -, -, count, answers⟩ := reclaim_exact reach found
  have waiting : 1 ∈ reg.queue := of_decide_eq_true queued
  have alive : ∀ id ∈ (Value.object 3).references, (s.host.reclaim 0).2.isAlive id = true := by
    intro id h
    rw [List.mem_singleton.1 h]
    decide +kernel
  refine ⟨reg, reg', found, waiting, found', ?_, ?_, (answers _ alive).1⟩
  · rw [values, if_pos waiting]
  · rw [count]
    decide +kernel

end Session

end Compound
