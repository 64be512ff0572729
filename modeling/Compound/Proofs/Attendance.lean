import Compound.Proofs.Drift
import Compound.Proofs.Mirror

/-!
What ties the tables of a registry to the lives of the objects that they mention. A living
object that is mentioned is watched, a dead one is queued, and whatever is queued is dead
for good. An operation that mentions an object before it watches it leaves that one object
excused in between; deaths in the meantime do no harm to anything else.
-/
namespace Compound

namespace Registry

/-- An object has an entry among the tags or among the boxes. -/
def mentions (reg : Registry) (id : ObjectId) : Bool :=
  reg.tags.contains id || reg.pairing.hasBox id

/-- An entry of an object is in order: the registry will hear of the death or has heard. -/
structure Minds (reg : Registry) (r : RegistryId) (h : Heap) (id : ObjectId) : Prop where
  known : id < h.next
  watched : ∀ o, h.get? id = some o → .watch r ∈ o.finalizers
  noticed : h.get? id = none → id ∈ reg.queue

/-- All entries are in order but for those of excused objects. -/
structure Attends (reg : Registry) (r : RegistryId) (h : Heap) (excused : ObjectId → Prop) :
    Prop where
  mirrored : reg.pairing.Mirrored
  minded : ∀ id, reg.mentions id = true → ¬excused id → reg.Minds r h id
  buried : ∀ id ∈ reg.queue, h.get? id = none ∧ id < h.next

/-- Entries may change while the queue stays, if whatever is mentioned then was minded before. -/
theorem Attends.edit {reg reg' : Registry} {r : RegistryId} {h : Heap}
    {excused excused' : ObjectId → Prop} (a : reg.Attends r h excused)
    (queue : reg'.queue = reg.queue) (mirrored : reg'.pairing.Mirrored)
    (before : ∀ id, reg'.mentions id = true → ¬excused' id →
      reg.mentions id = true ∧ ¬excused id) : reg'.Attends r h excused' := by
  refine ⟨mirrored, fun id mentioned unexcused => ?_, fun id queued => a.buried id (queue ▸ queued)⟩
  obtain ⟨mentioned', unexcused'⟩ := before id mentioned unexcused
  have minds := a.minded id mentioned' unexcused'
  exact ⟨minds.known, minds.watched, fun gone => queue ▸ minds.noticed gone⟩

theorem mentions_tag {reg : Registry} {id : ObjectId} {t : Tag}
    (found : reg.tags.get? id = some t) :
    reg.mentions id = true := by
  simp [mentions, Table.contains, found]

theorem mentions_box {reg : Registry} {box value : ObjectId}
    (found : reg.pairing.values.get? box = some value) : reg.mentions box = true := by
  simp [mentions, Pairing.hasBox, Table.contains, found]

theorem mentions_iff (reg : Registry) (id : ObjectId) :
    reg.mentions id = true ↔
      (∃ t, reg.tags.get? id = some t) ∨ ∃ value, reg.pairing.values.get? id = some value := by
  rw [mentions, Bool.or_eq_true, Pairing.hasBox_iff, Table.contains, Option.isSome_iff_exists]

/-- Draining takes out the tags of those who wait, and no others. -/
theorem get?_tags_drained (reg : Registry) (id : ObjectId) :
    reg.drained.tags.get? id = if id ∈ reg.queue then none else reg.tags.get? id := by
  rw [drained, Table.eraseAll_snd, Table.get?_foldl_erase]

/-- Draining takes out the pairs of the boxes that wait, and no others. -/
theorem get?_values_drained (reg : Registry) (box : ObjectId) :
    reg.drained.pairing.values.get? box =
      if box ∈ reg.queue then none else reg.pairing.values.get? box :=
  Pairing.get?_values_removeAll reg.pairing reg.queue box

theorem mentions_drained (reg : Registry) (id : ObjectId) :
    reg.drained.mentions id = true ↔ id ∉ reg.queue ∧ reg.mentions id = true := by
  rw [mentions_iff, mentions_iff, get?_tags_drained, get?_values_drained]
  by_cases queued : id ∈ reg.queue <;> simp [queued]

/-- Draining a registry with an empty queue does nothing. -/
theorem drained_of_empty (reg : Registry) (empty : reg.queue = []) : reg.drained = reg := by
  obtain ⟨config, tags, pairing, queue⟩ := reg
  cases empty
  rfl

theorem attends_new (config : Config) (r : RegistryId) (h : Heap) (excused : ObjectId → Prop) :
    (new config).Attends r h excused :=
  ⟨Pairing.mirrored_empty, fun _ mentioned => (by cases mentioned),
    fun _ queued => (by cases queued)⟩

end Registry

namespace Host

/-- Nobody is excused. -/
def nobody : RegistryId → ObjectId → Prop := fun _ _ => False

/-- One object is excused in one registry. -/
def only (r : RegistryId) (id : ObjectId) : RegistryId → ObjectId → Prop :=
  fun q j => q = r ∧ j = id

def Attended (w : Host) (excused : RegistryId → ObjectId → Prop) : Prop :=
  ∀ r reg, w.registry? r = some reg → reg.Attends r w.heap (excused r)

variable {w w' : Host} {excused excused' : RegistryId → ObjectId → Prop}

/-- Entries stay in order while objects change, and whatever dies. -/
theorem Drifts.attended (d : w.Drifts w') (a : w.Attended excused) : w'.Attended excused := by
  intro r reg' found'
  obtain ⟨pushed, same, dead, heard⟩ := d.registries r
  rw [same, Option.map_eq_some_iff] at found'
  obtain ⟨reg, found, rfl⟩ := found'
  have att := a r reg found
  refine ⟨att.mirrored, fun id mentioned unexcused => ?_, fun id queued => ?_⟩
  · have minds := att.minded id mentioned unexcused
    refine ⟨Nat.lt_of_lt_of_le minds.known d.evolves.next_le, fun o' lives => ?_, fun gone => ?_⟩
    · obtain ⟨o, was, -, finalizers⟩ := d.evolves.survivor id o' minds.known lives
      exact finalizers.subset (minds.watched o was)
    · apply List.mem_append.2
      cases was : w.heap.get? id with
      | none => exact Or.inl (minds.noticed was)
      | some o => exact Or.inr (heard id o was gone (minds.watched o was))
  · rcases List.mem_append.1 queued with queued | queued
    · obtain ⟨gone, old⟩ := att.buried id queued
      exact ⟨d.evolves.absent old gone, Nat.lt_of_lt_of_le old d.evolves.next_le⟩
    · obtain ⟨gone, old⟩ := dead id queued
      exact ⟨gone, Nat.lt_of_lt_of_le old d.evolves.next_le⟩

/-- Change the entries of one registry. -/
theorem Attended.edit (a : w.Attended excused) (r : RegistryId) (f : Registry → Registry)
    (others : ∀ q id, q ≠ r → excused q id → excused' q id)
    (here : ∀ reg, w.registry? r = some reg → reg.Attends r w.heap (excused r) →
      (f reg).Attends r w.heap (excused' r)) :
    (w.modifyRegistry r f).Attended excused' := by
  intro q reg' found'
  by_cases hq : q = r
  · subst hq
    rw [registry?_modifyRegistry_same, Option.map_eq_some_iff] at found'
    obtain ⟨reg, found, rfl⟩ := found'
    exact here reg found (a q reg found)
  · rw [registry?_modifyRegistry_other w f hq] at found'
    have att := a q reg' found'
    exact ⟨att.mirrored,
      fun id mentioned unexcused => att.minded id mentioned fun h => unexcused (others q id hq h),
      att.buried⟩

/-- Watching an object puts its entries in order. -/
theorem Attended.watch {r : RegistryId} {id : ObjectId} (a : w.Attended (only r id))
    (bounded : id < w.heap.next) (alive : w.heap.isAlive id = true) :
    (w.watch r id).Attended nobody := by
  have evolves : w.heap.Evolves (w.watch r id).heap := by
    exact Heap.Evolves.modify _ id _ fun o => ⟨rfl, List.prefix_append _ _⟩
  have drifts : w.Drifts (w.watch r id) :=
    .still evolves rfl rfl fun j lives => (Heap.isAlive_modify w.heap id _ j).trans lives
  intro q reg found
  have att := drifts.attended a q reg found
  refine ⟨att.mirrored, fun j mentioned _ => ?_, att.buried⟩
  by_cases h : q = r ∧ j = id
  · obtain ⟨rfl, rfl⟩ := h
    obtain ⟨o, lives⟩ := (Heap.isAlive_iff w.heap j).1 alive
    have new : (w.watch q j).heap.get? j =
        some { o with finalizers := o.finalizers ++ [.watch q] } := by
      have := Heap.get?_modify_same w.heap j
        fun o => { o with finalizers := o.finalizers ++ [.watch q] }
      rw [lives] at this
      exact this
    refine ⟨Nat.lt_of_lt_of_le bounded evolves.next_le, fun o' found' => ?_, fun gone => ?_⟩
    · rw [new, Option.some.injEq] at found'
      rw [← found']
      simp
    · rw [new] at gone
      cases gone
  · exact att.minded j mentioned h

end Host

end Compound
