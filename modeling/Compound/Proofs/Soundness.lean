import Compound.Proofs.Client
import Mathlib.Tactic.Abel

/-!
Every move keeps a client sound. Moves on objects change registries only by what these
hear of deaths, so soundness comes down to the reference counts; moves on a registry also
edit its entries, and each edit is shown to leave them in order.
-/
namespace Compound

theorem Object.bodyReferences_new (function : Option Function) :
    (Object.new function).references = (Object.new function).bodyReferences := by
  simp [Object.references, Object.new]

theorem Object.references_freeze (o : Object) : o.freeze.references = o.references := by
  have slots : o.freeze.slots.values.flatMap Slot.references =
      o.slots.values.flatMap Slot.references := by
    simp [Object.freeze, Table.map, Table.values, List.flatMap_map, Function.comp_def]
  simp only [Object.references, slots]
  rfl

/-- Writing a slot trades the references of the old slot for those of the new one. -/
theorem Object.references_put (o : Object) (k : Key) (s : Slot) :
    (((o.slots.get? k).elim [] Slot.references : List ObjectId) : Multiset ObjectId) +
        (({ o with slots := o.slots.put k s } : Object).references : Multiset ObjectId) =
      (s.references : Multiset ObjectId) + (o.references : Multiset ObjectId) := by
  have gathered : ∀ t : Table Key Slot,
      (t.values.flatMap Slot.references : Multiset ObjectId) = t.gather Slot.references :=
    fun t => (Multiset.coe_bind t.values Slot.references).symm
  have old : o.slots.gather Slot.references =
      (((o.slots.get? k).elim [] Slot.references : List ObjectId) : Multiset ObjectId) +
        (o.slots.erase k).gather Slot.references := by
    cases found : o.slots.get? k with
    | none => simp [Table.erase_of_none _ _ found]
    | some u => exact Table.gather_erase _ _ _ found
  have parts : ∀ u : Object, (u.references : Multiset ObjectId) =
      (u.finalizers.flatMap Finalizer.references : Multiset ObjectId) +
        u.slots.gather Slot.references + (u.bodyReferences : Multiset ObjectId) := by
    intro u
    rw [Object.references, ← Multiset.coe_add, ← Multiset.coe_add, gathered]
  rw [parts o, parts, old, Table.gather_put]
  simp only [Object.bodyReferences]
  abel

theorem Object.references_finalizer (o : Object) (f : Finalizer) :
    (({ o with finalizers := o.finalizers ++ [f] } : Object).references : Multiset ObjectId) =
      (f.references : Multiset ObjectId) + (o.references : Multiset ObjectId) := by
  simp only [Object.references, Object.bodyReferences, List.flatMap_append, List.flatMap_cons,
    List.flatMap_nil, List.append_nil, ← Multiset.coe_add]
  abel

namespace Heap

theorem get?_retain (h : Heap) (ids : List ObjectId) (j : ObjectId) :
    (h.retain ids).get? j = (h.get? j).map fun o => { o with refs := o.refs + ids.count j } := by
  induction ids generalizing h with
  | nil =>
    cases found : h.get? j <;> simp [retain, found]
  | cons id rest ih =>
    have step : (h.retain (id :: rest)).get? j =
        ((h.modify id fun o => { o with refs := o.refs + 1 }).retain rest).get? j := rfl
    rw [step, ih]
    by_cases hj : j = id
    · subst hj
      rw [get?_modify_same]
      cases h.get? j with
      | none => rfl
      | some o => simp [Nat.add_assoc, Nat.add_comm 1]
    · rw [get?_modify_other h _ hj]
      simp [Ne.symm hj]

theorem watches_retain (h : Heap) (ids : List ObjectId) (r : RegistryId) (id : ObjectId) :
    (h.retain ids).watches r id = h.watches r id := by
  rw [watches, get?_retain, watches]
  cases h.get? id <;> rfl

@[simp] theorem next_retain (h : Heap) (ids : List ObjectId) :
    (h.retain ids).next = h.next := by
  induction ids generalizing h with
  | nil => rfl
  | cons id rest ih =>
    rw [retain, List.foldl_cons]
    exact ih (h.modify id _)

end Heap

namespace Host

variable (w : Host)

theorem rooted_hear (e : Effect) : (w.hear e).rooted = w.rooted := by
  cases e with
  | died id => rfl
  | noted label id => rfl
  | queued r id =>
    rw [rooted, rooted, hear, modifyRegistry]
    congr 1
    exact Table.gather_modify_same _ _ _ _ fun _ _ => rfl

@[simp] theorem rooted_release (ids : List ObjectId) : (w.release ids).rooted = w.rooted := by
  have heard : ∀ (effects : List Effect) (w : Host), (effects.foldl hear w).rooted = w.rooted := by
    intro effects
    induction effects with
    | nil => exact fun _ => rfl
    | cons e rest ih => exact fun w => (ih _).trans (rooted_hear w e)
  rw [release_eq, heard]
  rfl

/-- A pair is entered before its box is watched. -/
def enter (r : RegistryId) (box value : ObjectId) (pairs : Pairing) : Host :=
  (w.retain [value]).modifyRegistry r fun reg => { reg with pairing := pairs.insert box value }

theorem release_accounted {outside : Multiset ObjectId} {ids : List ObjectId}
    (a : w.heap.Accounted (outside + (ids : Multiset ObjectId))) :
    (w.release ids).heap.Accounted outside := by
  rw [release_heap]
  exact a.release ids

/-- What undoing a pair comes to. -/
theorem unpair_of_paired {r : RegistryId} {box value : ObjectId} {reg : Registry}
    (found : w.registry? r = some reg) (paired : reg.pairing.values.get? box = some value) :
    w.unpair r box =
      (.ok (.object value),
        (w.modifyRegistry r fun reg' => { reg' with pairing := (reg.pairing.remove box).2 }).tell
          (.released box)) := by
  have removed : (reg.pairing.remove box).1 = some value := by rw [Pairing.remove, paired]
  rw [unpair, pairing, found, Option.elim_some]
  cases result : reg.pairing.remove box with
  | mk released pairs =>
    rw [result] at removed
    cases removed
    rfl

end Host

namespace Client.Sound

variable {held : Multiset ObjectId} {w : Host}

/-- A client is sound after a change of objects if its references are still accounted for. -/
theorem drift (s : Sound ⟨held, w⟩) {held' : Multiset ObjectId} {w' : Host} (d : w.Drifts w')
    (a : w'.heap.Accounted (held' + w'.rooted)) : Sound ⟨held', w'⟩ := by
  refine ⟨a, fun r reg found => ?_, d.attended s.attended⟩
  obtain ⟨pushed, same, -⟩ := d.registries r
  rw [same, Option.map_eq_some_iff] at found
  obtain ⟨reg', found', -⟩ := found
  exact d.numbering ▸ s.numbered r reg' found'

theorem retain (s : Sound ⟨held, w⟩) {ids : List ObjectId}
    (alive : ∀ id ∈ ids, w.isAlive id = true) :
    Sound ⟨held + (ids : Multiset ObjectId), w.retain ids⟩ := by
  apply s.drift
  · exact .still (.retain w.heap ids) rfl rfl fun id lives => by
      rw [Host.retain, Heap.isAlive_retain, lives]
  · have := s.accounted.retain ids alive
    rwa [add_right_comm] at this

theorem release {ids : List ObjectId} (s : Sound ⟨held + (ids : Multiset ObjectId), w⟩) :
    Sound ⟨held, w.release ids⟩ := by
  apply s.drift (w.drifts_release ids s.accounted.bounded)
  apply w.release_accounted
  rw [Host.rooted_release, add_right_comm]
  exact s.accounted

/-- Change an object apart from its number, its function, its finalizers and what it holds. -/
theorem modify (s : Sound ⟨held, w⟩) (id : ObjectId) (f : Object → Object)
    (same : ∀ o, (f o).refs = o.refs ∧ (f o).references = o.references)
    (keeps : ∀ o, (f o).function = o.function ∧ o.finalizers <+: (f o).finalizers) :
    Sound ⟨held, w.modify id f⟩ := by
  apply s.drift
  · exact .still (.modify w.heap id f keeps) rfl rfl fun j lives => by
      rw [Host.modify, Heap.isAlive_modify, lives]
  · exact s.accounted.modify_same id f same

theorem create (s : Sound ⟨held, w⟩) {function : Option Function}
    (alive : ∀ id ∈ (Object.new function).bodyReferences, w.isAlive id = true) :
    Sound ⟨(w.create function).1 ::ₘ held, (w.create function).2⟩ := by
  have retained := s.retain alive
  have evolves : (w.retain (Object.new function).bodyReferences).heap.Evolves
      (w.create function).2.heap := .create _ _
  apply retained.drift
  · refine .still evolves rfl rfl fun id lives => ?_
    rw [Heap.isAlive_iff] at lives ⊢
    obtain ⟨o, found⟩ := lives
    have old := Nat.ne_of_lt (retained.accounted.bounded id o found)
    exact ⟨o, (Heap.get?_create_other _ _ old).trans found⟩
  · have := retained.accounted
    rw [add_right_comm, ← Object.bodyReferences_new] at this
    rw [Multiset.cons_add]
    exact this.create function

/-- A slot is put into an object before the client has let go what the old one held. -/
theorem putSlot (s : Sound ⟨held, w⟩) {id : ObjectId} {k : Key} {slot : Slot} {o : Object}
    (found : w.object? id = some o) (alive : ∀ id ∈ slot.references, w.isAlive id = true) :
    Sound ⟨held + ((w.slot? id k).elim [] Slot.references : List ObjectId),
      (w.retain slot.references).modify id fun o => { o with slots := o.slots.put k slot }⟩ := by
  have retained := s.retain alive
  have found' := (Heap.get?_retain w.heap slot.references id).trans (congrArg _ found)
  have old : (w.slot? id k).elim [] Slot.references = (o.slots.get? k).elim [] Slot.references := by
    rw [Host.slot?_of_found found]
  apply retained.drift
  · exact .still (.modify _ id _ fun o => ⟨rfl, List.prefix_rfl⟩) rfl rfl fun j lives => by
      rw [Host.modify, Heap.isAlive_modify, lives]
  · apply retained.accounted.modify_held _ found' rfl
    rw [old]
    have traded := Object.references_put o k slot
    calc held + ((o.slots.get? k).elim [] Slot.references : List ObjectId) + w.rooted +
          (({ o with slots := o.slots.put k slot } : Object).references : Multiset ObjectId)
        = held + w.rooted + (((o.slots.get? k).elim [] Slot.references : List ObjectId) +
          (({ o with slots := o.slots.put k slot } : Object).references : Multiset ObjectId)) := by
          abel
      _ = held + w.rooted + ((slot.references : Multiset ObjectId) + o.references) := by
          rw [traded]
      _ = held + (slot.references : Multiset ObjectId) + w.rooted + o.references := by abel

theorem writeSlot (s : Sound ⟨held, w⟩) {id : ObjectId} {k : Key} {slot : Slot} {o : Object}
    (found : w.object? id = some o) (alive : ∀ id ∈ slot.references, w.isAlive id = true) :
    Sound ⟨held, w.writeSlot id k slot⟩ :=
  (s.putSlot found alive).release

theorem finalize (s : Sound ⟨held, w⟩) {id : ObjectId} {label : String} {hold : Option ObjectId}
    (living : w.isAlive id = true) (alive : ∀ id ∈ hold, w.isAlive id = true) :
    Sound ⟨held, w.addFinalizer id (.note label hold)⟩ := by
  have alive' : ∀ j ∈ (Finalizer.note label hold).references, w.isAlive j = true :=
    fun j hj => alive j (Option.mem_toList.1 hj)
  have retained := s.retain alive'
  obtain ⟨o, found⟩ := (Heap.isAlive_iff w.heap id).1 living
  have found' := (Heap.get?_retain w.heap (Finalizer.note label hold).references id).trans
    (congrArg _ found)
  apply retained.drift
  · exact .still (.modify _ id _ fun o => ⟨rfl, List.prefix_append _ _⟩) rfl rfl fun j lives =>
      (Heap.isAlive_modify _ id _ j).trans lives
  · apply retained.accounted.modify_held _ found' rfl
    have added := Object.references_finalizer o (.note label hold)
    calc held + w.rooted + (({ o with finalizers := o.finalizers ++ [.note label hold] } :
          Object).references : Multiset ObjectId)
        = held + w.rooted +
          (((Finalizer.note label hold).references : Multiset ObjectId) + o.references) := by
          rw [added]
      _ = held + ((Finalizer.note label hold).references : Multiset ObjectId) + w.rooted +
          o.references := by
          abel

/-- A value is put into a cell before the client has let go the old one. -/
theorem putCell (s : Sound ⟨held, w⟩) {cell : String} {v : Value}
    (alive : ∀ id ∈ v.references, w.isAlive id = true) :
    Sound ⟨held + ((w.cell cell).references : Multiset ObjectId),
      { w.retain v.references with cells := w.cells.put cell v }⟩ := by
  have retained := s.retain alive
  have old : w.cells.gather Value.references =
      ((w.cell cell).references : Multiset ObjectId) +
        (w.cells.erase cell).gather Value.references := by
    rw [Host.cell]
    cases found : w.cells.get? cell with
    | none => simp [Table.erase_of_none _ _ found, Value.references, Value.identity]
    | some u => exact Table.gather_erase _ _ _ found
  apply retained.drift
  · exact .still (.refl _) rfl rfl fun _ lives => lives
  · have before : (w.retain v.references).heap.Accounted
        (held + (v.references : Multiset ObjectId) + w.rooted) := retained.accounted
    have rooted : ({ w.retain v.references with cells := w.cells.put cell v } : Host).rooted =
        (w.cells.put cell v).gather Value.references +
          w.registries.gather fun reg => reg.pairing.values.values := rfl
    rw [Host.rooted, old] at before
    rw [rooted, Table.gather_put]
    convert before using 1
    abel

theorem store (s : Sound ⟨held, w⟩) {cell : String} {v : Value}
    (alive : ∀ id ∈ v.references, w.isAlive id = true) : Sound ⟨held, w.store cell v⟩ :=
  (s.putCell alive).release

theorem remark (s : Sound ⟨held, w⟩) (counters : List Nat) (events : List String)
    (notices : List Notice) :
    Sound ⟨held, { w with counters := counters, events := events, notices := notices }⟩ :=
  ⟨s.accounted, s.numbered, s.attended⟩

theorem openRegistry (s : Sound ⟨held, w⟩) (config : Config) :
    Sound ⟨held, { w with
      registries := w.registries.put w.nextRegistry (.new config)
      nextRegistry := w.nextRegistry + 1 }⟩ := by
  have absent : w.registries.get? w.nextRegistry = none := by
    cases found : w.registries.get? w.nextRegistry with
    | none => rfl
    | some reg => exact absurd (s.numbered _ reg found) (Nat.lt_irrefl _)
  have before : ∀ r reg, r ≠ w.nextRegistry →
      (w.registries.put w.nextRegistry (.new config)).get? r = some reg →
        w.registry? r = some reg :=
    fun r reg hr found => (Table.get?_put_other _ _ hr).symm.trans found
  refine ⟨?_, fun r reg found => ?_, fun r reg found => ?_⟩
  · have rooted : (w.registries.put w.nextRegistry (.new config)).gather
        (fun reg => reg.pairing.values.values) =
          w.registries.gather fun reg => reg.pairing.values.values := by
      rw [Table.gather_put, Table.erase_of_none _ _ absent]
      exact zero_add _
    simp only [Host.rooted, rooted]
    exact s.accounted
  · by_cases hr : r = w.nextRegistry
    · exact hr ▸ Nat.lt_succ_self _
    · exact Nat.lt_succ_of_lt (s.numbered r reg (before r reg hr found))
  · by_cases hr : r = w.nextRegistry
    · subst hr
      have new : Registry.new config = reg :=
        Option.some.inj ((Table.get?_put_same _ _ _).symm.trans found)
      exact new ▸ Registry.attends_new config _ _ _
    · exact s.attended r reg (before r reg hr found)

/-- A registry that is taken away leaves the values of its boxes to the client. -/
theorem eraseRegistry (s : Sound ⟨held, w⟩) {r : RegistryId} {reg : Registry}
    (found : w.registry? r = some reg) :
    Sound ⟨held + (reg.pairing.values.values : Multiset ObjectId),
      { w with registries := w.registries.erase r }⟩ := by
  have left : ∀ q reg', (w.registries.erase r).get? q = some reg' → w.registry? q = some reg' := by
    intro q reg' found'
    by_cases hq : q = r
    · subst hq
      rw [Table.get?_erase_same] at found'
      cases found'
    · rwa [Table.get?_erase_other _ hq] at found'
  refine ⟨?_, fun q reg' found' => s.numbered q reg' (left q reg' found'),
    fun q reg' found' => s.attended q reg' (left q reg' found')⟩
  have before := s.accounted
  simp only [Host.rooted] at before ⊢
  rw [Table.gather_erase _ _ _ found] at before
  convert before using 1
  abel

theorem closeRegistry (s : Sound ⟨held, w⟩) (r : RegistryId) :
    Sound ⟨held, w.closeRegistry r⟩ := by
  rw [Host.closeRegistry]
  cases found : w.registry? r with
  | none => exact s
  | some reg => exact (s.eraseRegistry found).release

/-- Edit the entries of a registry. The client takes over the values that lose their box
and gives up those that get one. -/
theorem edit_accounted (s : Sound ⟨held, w⟩) {r : RegistryId} {reg : Registry}
    (found : w.registry? r = some reg) (f : Registry → Registry) {held' : Multiset ObjectId}
    (balance : held' + ((f reg).pairing.values.values : Multiset ObjectId) =
      held + (reg.pairing.values.values : Multiset ObjectId)) :
    w.heap.Accounted (held' + (w.modifyRegistry r f).rooted) := by
  have before := s.accounted
  simp only [Host.rooted, Host.modifyRegistry] at before ⊢
  rw [Table.gather_erase _ _ _ found] at before
  rw [Table.gather_modify _ _ _ _ found]
  convert before using 1
  calc held' + (w.cells.gather Value.references + ((f reg).pairing.values.values +
        (w.registries.erase r).gather fun reg => reg.pairing.values.values))
      = held' + ((f reg).pairing.values.values : Multiset ObjectId) +
        (w.cells.gather Value.references +
          (w.registries.erase r).gather fun reg => reg.pairing.values.values) := by abel
    _ = held + (reg.pairing.values.values : Multiset ObjectId) +
        (w.cells.gather Value.references +
          (w.registries.erase r).gather fun reg => reg.pairing.values.values) := by rw [balance]
    _ = held + (w.cells.gather Value.references + (reg.pairing.values.values +
        (w.registries.erase r).gather fun reg => reg.pairing.values.values)) := by abel

theorem edit_numbered (s : Sound ⟨held, w⟩) {r : RegistryId} (f : Registry → Registry) :
    ∀ q reg, Host.registry? (w.modifyRegistry r f) q = some reg → q < w.nextRegistry := by
  intro q reg found
  by_cases hq : q = r
  · subst hq
    rw [Host.registry?_modifyRegistry_same, Option.map_eq_some_iff] at found
    obtain ⟨reg', found', -⟩ := found
    exact s.numbered q reg' found'
  · rw [Host.registry?_modifyRegistry_other w f hq] at found
    exact s.numbered q reg found

theorem tag (s : Sound ⟨held, w⟩) {r : RegistryId} {id : ObjectId} {t : Tag} {reg : Registry}
    (found : w.registry? r = some reg) (alive : w.isAlive id = true) :
    Sound ⟨held,
      (w.modifyRegistry r fun reg => { reg with tags := reg.tags.put id t }).watch r id⟩ := by
  obtain ⟨o, living⟩ := (Heap.isAlive_iff w.heap id).1 alive
  have entered : (w.modifyRegistry r fun reg => { reg with tags := reg.tags.put id t }).Attended
      (Host.only r id) := by
    apply s.attended.edit
    · exact fun _ _ _ h => h.elim
    · intro reg' _ att
      refine att.edit rfl att.mirrored fun j mentioned unexcused => ⟨?_, not_false⟩
      have other : j ≠ id := fun same => unexcused ⟨rfl, same⟩
      rw [Registry.mentions_iff] at mentioned ⊢
      simpa only [Table.get?_put_other _ _ other] using mentioned
  refine ⟨?_, s.edit_numbered _, entered.watch (s.accounted.bounded id o living) alive⟩
  have edited : w.heap.Accounted (held + (w.modifyRegistry r fun reg =>
      { reg with tags := reg.tags.put id t }).rooted) := s.edit_accounted found _ rfl
  exact edited.modify_same id _ fun o =>
    ⟨rfl, by simp [Object.references, Object.bodyReferences, Finalizer.references]⟩

theorem unpair (s : Sound ⟨held, w⟩) {r : RegistryId} {box value : ObjectId} {reg : Registry}
    (found : w.registry? r = some reg) (paired : reg.pairing.values.get? box = some value) :
    Sound ⟨value ::ₘ held, (w.unpair r box).2⟩ := by
  have mirrored := (s.attended r reg found).mirrored
  have removed : reg.pairing.remove box =
      (some value, ⟨reg.pairing.values.erase box, reg.pairing.boxes.erase value⟩) :=
    mirrored.remove_of_some paired
  have attended : (w.modifyRegistry r fun reg' =>
      { reg' with pairing := (reg.pairing.remove box).2 }).Attended Host.nobody := by
    apply s.attended.edit
    · exact fun _ _ _ h => h
    · intro reg' found' att
      rw [found, Option.some.injEq] at found'
      subst found'
      refine att.edit rfl (mirrored.remove box) fun id mentioned unexcused => ⟨?_, unexcused⟩
      rw [Registry.mentions_iff] at mentioned ⊢
      refine mentioned.imp_right fun ⟨v, h⟩ => ⟨v, ?_⟩
      rw [Pairing.get?_values_remove] at h
      split at h
      · cases h
      · exact h
  rw [w.unpair_of_paired found paired]
  refine ⟨?_, s.edit_numbered _, attended⟩
  apply s.edit_accounted found
  have handed : ((some value).toList : Multiset ObjectId) = {value} := rfl
  rw [Pairing.values_remove reg.pairing box, removed, handed, ← Multiset.singleton_add]
  simp only
  abel

/-- A registry is swept when the entries of all queued objects are out and the queue is
empty. The values of the boxes are with the client now. -/
theorem sweep (s : Sound ⟨held, w⟩) {r : RegistryId} {reg : Registry}
    (found : w.registry? r = some reg) :
    Sound ⟨held + (reg.released : Multiset ObjectId),
      w.modifyRegistry r fun _ => reg.drained⟩ := by
  refine ⟨?_, s.edit_numbered _, ?_⟩
  · apply s.edit_accounted found
    rw [Pairing.values_removeAll reg.pairing reg.queue, add_assoc]
    rfl
  · apply s.attended.edit
    · exact fun _ _ _ h => h
    · intro reg' found' att
      rw [found, Option.some.injEq] at found'
      subst found'
      refine ⟨att.mirrored.removeAll _, fun id mentioned unexcused => ?_, fun _ h => by cases h⟩
      obtain ⟨spared, mentioned⟩ := (reg.mentions_drained id).1 mentioned
      have minds := att.minded id mentioned unexcused
      exact ⟨minds.known, minds.watched, fun gone => absurd (minds.noticed gone) spared⟩

theorem reclaim (s : Sound ⟨held, w⟩) (r : RegistryId) : Sound ⟨held, (w.reclaim r).2⟩ := by
  rcases w.reclaim_cases r with ⟨same, -⟩ | ⟨reg, found, -, same⟩
  · rw [same]
    exact s
  · have released := (s.sweep found).release
    rw [same]
    exact ⟨released.accounted, released.numbered, released.attended⟩

section Join

variable {r : RegistryId} {box value : ObjectId} {reg : Registry} {pairs : Pairing}
  {released : Option ObjectId}

theorem enter_accounted (s : Sound ⟨held, w⟩) (found : w.registry? r = some reg)
    (admits : reg.pairing.Admits w.isAlive box value pairs released)
    (alive : w.isAlive value = true) :
    (w.enter r box value pairs).heap.Accounted
      (held + (w.enter r box value pairs).rooted + (released.toList : Multiset ObjectId)) := by
  have retained : Sound ⟨held + ([value] : Multiset ObjectId), w.retain [value]⟩ :=
    s.retain (by simpa using alive)
  rw [add_right_comm]
  apply retained.edit_accounted found
  have one : ([value] : Multiset ObjectId) = {value} := rfl
  rw [Pairing.insert, Table.values_put, Table.erase_of_none _ _ admits.still_free, admits.balance,
    ← Multiset.singleton_add, one]
  abel

/-- The new pair is in, and only the box, which nobody watches yet, is excused. -/
theorem enter_attended (s : Sound ⟨held, w⟩) (found : w.registry? r = some reg)
    (admits : reg.pairing.Admits w.isAlive box value pairs released) (ne : value ≠ box)
    (alive : w.isAlive value = true) :
    (w.enter r box value pairs).Attended (Host.only r box) := by
  have retained : Sound ⟨held + ([value] : Multiset ObjectId), w.retain [value]⟩ :=
    s.retain (by simpa using alive)
  apply retained.attended.edit
  · exact fun _ _ _ h => h.elim
  · intro reg' found' att
    have same : w.registry? r = some reg' := found'
    rw [found, Option.some.injEq] at same
    subst same
    have inserted := admits.mirrored.insert admits.still_free admits.single ne
    refine att.edit rfl inserted fun id mentioned unexcused => ⟨?_, not_false⟩
    have other : id ≠ box := fun same => unexcused ⟨rfl, same⟩
    rw [Registry.mentions_iff] at mentioned ⊢
    refine mentioned.imp_right fun ⟨v, h⟩ => ⟨v, ?_⟩
    rw [Pairing.insert, Table.get?_put_other _ _ other] at h
    exact ((admits.others id v).1 h).1

theorem join (s : Sound ⟨held, w⟩) (found : w.registry? r = some reg)
    (fresh : reg.pairing.judge w.isAlive box value = .ok (.fresh pairs released))
    (ne : value ≠ box) (kept : box ∈ held) (alive : w.isAlive value = true) :
    Sound ⟨held, w.join r box value pairs released⟩ := by
  have admits := (s.attended r reg found).mirrored.admits fresh
  have entered := s.enter_accounted found admits alive
  have accounted := Host.release_accounted _ entered
  have attended := (Host.drifts_release _ released.toList entered.bounded).attended
    (s.enter_attended found admits ne alive)
  -- the client still holds the box, so it has survived whatever the old pair let go
  have living := accounted.alive_outside (Multiset.mem_add.2 (Or.inl kept) : box ∈ held + _)
  obtain ⟨o, living'⟩ := (Heap.isAlive_iff _ box).1 living
  refine ⟨?_, fun q reg' found' => ?_, attended.watch (accounted.bounded box o living') living⟩
  · rw [← Host.rooted_release _ released.toList] at accounted
    exact accounted.modify_same box _ fun o =>
      ⟨rfl, by simp [Object.references, Object.bodyReferences, Finalizer.references]⟩
  · have numbered : (w.join r box value pairs released).nextRegistry = w.nextRegistry :=
      Host.release_nextRegistry _ _
    have heard : Host.registry? ((w.enter r box value pairs).release released.toList) q =
        some reg' :=
      found'
    rw [Host.registry?_release, Option.map_eq_some_iff] at heard
    obtain ⟨reg'', found'', -⟩ := heard
    rw [numbered]
    exact s.edit_numbered _ q reg'' found''

end Join

end Client.Sound

/-- Whatever a client does, it stays sound. -/
theorem Move.sound {d : Deed} {c c' : Client} (m : Move d c c') (s : c.Sound) : c'.Sound := by
  cases m with
  | retain alive => exact s.retain alive
  | release => exact s.release
  | create alive => exact s.create alive
  | write found permitted alive => exact s.writeSlot found alive
  | freeze =>
    exact s.modify _ _ (fun o => ⟨rfl, o.references_freeze⟩) fun o => ⟨rfl, List.prefix_rfl⟩
  | prevent => exact s.modify _ _ (fun o => ⟨rfl, rfl⟩) fun o => ⟨rfl, List.prefix_rfl⟩
  | finalize living alive => exact s.finalize living alive
  | store alive => exact s.store alive
  | remark counters events notices => exact s.remark counters events notices
  | openRegistry => exact s.openRegistry _
  | closeRegistry => exact s.closeRegistry _
  | tag found free alive => exact s.tag found alive
  | join found fresh ne kept alive => exact s.join found fresh ne kept alive
  | unpair found paired => exact s.unpair found paired
  | drain => exact s.reclaim _

end Compound
