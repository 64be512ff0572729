import Compound.Proofs.Reclaim
import Mathlib.Data.Set.Finite.Basic

/-!
What keeps objects alive, in every session that a script can reach. The strong references are
told apart by who holds them, and an object lives exactly as long as there is one. Seen as a
graph, with an edge from each living box to its value, nothing is left that no handle and no
cell leads to but what hangs on a cycle, as soon as no registry has anything to reclaim.
-/
namespace Compound

/-- An object holds a strong reference: its slots do, what its function has captured, and what
its finalizers have captured that have not run. -/
inductive Object.Holds (o : Object) (id : ObjectId) : Prop
  | value {k : Key} {writable enumerable configurable : Bool}
      (stored : o.slots.get? k = some (.data (.object id) writable enumerable configurable))
  | getter {k : Key} {set : Option ObjectId} {enumerable configurable : Bool}
      (stored : o.slots.get? k = some (.accessor (some id) set enumerable configurable))
  | setter {k : Key} {get : Option ObjectId} {enumerable configurable : Bool}
      (stored : o.slots.get? k = some (.accessor get (some id) enumerable configurable))
  | captured {f : Function} (callable : o.function = some f) (inside : id ∈ f.body.references)
  | waiting {label : String} (added : .note label (some id) ∈ o.finalizers)

theorem Object.holds_iff (o : Object) (id : ObjectId) : o.Holds id ↔ id ∈ o.references := by
  simp only [references, List.mem_append, List.mem_flatMap]
  constructor
  · rintro (stored | stored | stored | ⟨callable, inside⟩ | added)
    · exact Or.inl (Or.inr ⟨_, Table.mem_values _ _ stored, Value.mem_references.2 rfl⟩)
    · exact Or.inl (Or.inr ⟨_, Table.mem_values _ _ stored, by simp [Slot.references]⟩)
    · exact Or.inl (Or.inr ⟨_, Table.mem_values _ _ stored, by simp [Slot.references]⟩)
    · exact Or.inr (by simpa only [bodyReferences, callable] using inside)
    · exact Or.inl (Or.inl ⟨_, added, by simp [Finalizer.references]⟩)
  · rintro ((⟨f, added, inside⟩ | ⟨slot, stored, inside⟩) | inside)
    · cases f with
      | note label held =>
        cases Option.mem_toList.1 inside
        exact .waiting added
      | watch r => cases inside
    · obtain ⟨k, stored⟩ := Table.exists_of_mem_values _ stored
      cases slot with
      | data v writable enumerable configurable =>
        cases Value.mem_references.1 inside
        exact .value stored
      | accessor get set enumerable configurable =>
        rcases List.mem_append.1 inside with inside | inside
        · cases Option.mem_toList.1 inside
          exact .getter stored
        · cases Option.mem_toList.1 inside
          exact .setter stored
    · cases callable : o.function with
      | none =>
        simp only [bodyReferences, callable] at inside
        cases inside
      | some f =>
        simp only [bodyReferences, callable] at inside
        exact .captured callable inside

theorem Heap.mem_holdings (h : Heap) (id : ObjectId) :
    id ∈ h.holdings ↔ ∃ j o, h.get? j = some o ∧ o.Holds id := by
  simp only [holdings, Table.mem_gather, Table.mem_values_iff, Object.holds_iff]
  constructor
  · rintro ⟨o, ⟨j, found⟩, inside⟩
    exact ⟨j, o, found, inside⟩
  · rintro ⟨j, o, found, inside⟩
    exact ⟨o, ⟨j, found⟩, inside⟩

theorem Host.mem_rooted (w : Host) (id : ObjectId) :
    id ∈ w.rooted ↔ (∃ cell, w.cells.get? cell = some (.object id)) ∨
      ∃ r reg box, w.registry? r = some reg ∧ reg.pairing.values.get? box = some id := by
  simp only [rooted, Multiset.mem_add, Table.mem_gather, Table.mem_values_iff, Value.mem_references]
  apply or_congr
  · constructor
    · rintro ⟨v, ⟨cell, stored⟩, rfl⟩
      exact ⟨cell, stored⟩
    · rintro ⟨cell, stored⟩
      exact ⟨_, ⟨cell, stored⟩, rfl⟩
  · constructor
    · rintro ⟨reg, ⟨r, found⟩, box, paired⟩
      exact ⟨r, reg, box, found, paired⟩
    · rintro ⟨r, reg, box, found, paired⟩
      exact ⟨reg, ⟨r, found⟩, box, paired⟩

/-- For a client an object is alive if it holds it itself, or a cell or a registry does, or a living
object. -/
theorem Client.Sound.alive_iff_mem {held : Multiset ObjectId} {w : Host}
    (sound : Client.Sound ⟨held, w⟩) (id : ObjectId) :
    w.isAlive id = true ↔ id ∈ held + w.rooted + w.heap.holdings := by
  rw [← Multiset.count_pos, Multiset.count_add, sound.accounted.exact]
  constructor
  · intro alive
    obtain ⟨o, living⟩ := (Heap.isAlive_iff _ id).1 alive
    rw [Heap.refs_of_get? _ living]
    exact sound.accounted.positive id o living
  · exact Heap.alive_of_refs

/-- A living object keeps another one: it holds it itself, or a registry does for it as the value
of a box. -/
inductive Host.Links (w : Host) (i j : ObjectId) : Prop
  | holds {o : Object} (living : w.object? i = some o) (holds : o.Holds j)
  | boxed {r : RegistryId} {reg : Registry} (living : w.isAlive i = true)
      (found : w.registry? r = some reg) (paired : reg.pairing.values.get? i = some j)

/-- Going back from one to the next in a finite set ends in a cycle. -/
theorem exists_cycle {α : Type} {r : α → α → Prop} {members : Set α} (finite : members.Finite)
    (nonempty : members.Nonempty) (back : ∀ a ∈ members, ∃ b ∈ members, r b a) :
    ∃ c ∈ members, Relation.TransGen r c c := by
  by_contra acyclic
  have := finite.to_subtype
  have : Std.Irrefl (Order.Preimage (Subtype.val : members → α) (Relation.TransGen r)) :=
    ⟨fun c cycle => acyclic ⟨c, c.2, cycle⟩⟩
  have founded := Finite.wellFounded_of_trans_of_irrefl
    (Order.Preimage (Subtype.val : members → α) (Relation.TransGen r))
  obtain ⟨a, inside⟩ := nonempty
  refine founded.induction (C := fun _ => False) ⟨a, inside⟩ fun a ih => ?_
  obtain ⟨b, inside', step⟩ := back a a.2
  exact ih ⟨b, inside'⟩ (.single step)

namespace Session

/-- The program itself holds the object. -/
inductive Root (s : Session) (id : ObjectId) : Prop
  | handle {name : String} (held : s.handles.get? name = some id)
  | cell {name : String} (stored : s.host.cells.get? name = some (.object id))

/-- Something refers to the object strongly. -/
inductive Refers (s : Session) (id : ObjectId) : Prop
  | root (root : s.Root id)
  | object {j : ObjectId} {o : Object} (living : s.host.object? j = some o) (holds : o.Holds id)
  | boxed {r : RegistryId} {reg : Registry} {box : ObjectId} (found : s.host.registry? r = some reg)
      (paired : reg.pairing.values.get? box = some id)

theorem refers_of_links {s : Session} {i j : ObjectId} (link : s.host.Links i j) : s.Refers j := by
  cases link with
  | holds living holds => exact .object living holds
  | boxed _ found paired => exact .boxed found paired

/-- All strong references, each as often as it is held. -/
def strong (s : Session) : Multiset ObjectId :=
  (s.handles.values : Multiset ObjectId) + s.host.rooted + s.host.heap.holdings

theorem mem_strong (s : Session) (id : ObjectId) : id ∈ s.strong ↔ s.Refers id := by
  simp only [strong, Multiset.mem_add, Multiset.mem_coe, Table.mem_values_iff, Host.mem_rooted,
    Heap.mem_holdings]
  constructor
  · rintro ((⟨name, held⟩ | ⟨cell, stored⟩ | ⟨r, reg, box, found, paired⟩) | ⟨j, o, living, holds⟩)
    · exact .root (.handle held)
    · exact .root (.cell stored)
    · exact .boxed found paired
    · exact .object living holds
  · rintro ((held | stored) | ⟨living, holds⟩ | ⟨found, paired⟩)
    · exact Or.inl (Or.inl ⟨_, held⟩)
    · exact Or.inl (Or.inr (Or.inl ⟨_, stored⟩))
    · exact Or.inr ⟨_, _, living, holds⟩
    · exact Or.inl (Or.inr (Or.inr ⟨_, _, _, found, paired⟩))

variable {s : Session} {id : ObjectId}

theorem refs_eq_count (sound : s.Sound) (id : ObjectId) :
    s.host.heap.refs id = s.strong.count id := by
  have exact := sound.client.accounted.exact id
  rw [strong, Multiset.count_add]
  exact exact.symm

theorem alive_iff (sound : s.Sound) (id : ObjectId) :
    s.host.isAlive id = true ↔ s.Refers id := by
  rw [← mem_strong]
  exact sound.client.alive_iff_mem id

/-- In every session that a script reaches, an object is alive if and only if a handle or a cell
holds it, or a slot, a function or a waiting finalizer of a living object, or a registry as the
value of a box. The number of references that is stored at it is the number of these, so that
tags, boxes themselves, watches, queues and weak names add nothing to it. -/
theorem alive_iff_refers (reach : s.Reachable) (id : ObjectId) :
    (s.host.isAlive id = true ↔ s.Refers id) ∧ s.host.heap.refs id = s.strong.count id :=
  ⟨alive_iff reach.sound id, refs_eq_count reach.sound id⟩

/-- A value is left to its box, and a Record to its tag, its box and a weak name: the value is
referred to, by the registry and by nothing else, and the Record is not. -/
theorem alive_iff_refers_boxed :
    let s := (start (some false)).run [.create (some "box"), .create (some "value"),
      .create (some "record"), .tagRecord "r" "record", .weaken "record" "weak",
      .pair "r" "box" (.handle "value"), .pair "r" "record" (.handle "box"),
      .drop "value", .drop "record"]
    s.Refers 2 ∧ s.strong.count 2 = 1 ∧ ¬s.Refers 3 := by
  intro s
  have reach : s.Reachable := ⟨_, _, rfl⟩
  have refs : s.host.heap.refs 2 = 1 := by decide +kernel
  have dead : s.host.isAlive 3 = false := by decide +kernel
  refine ⟨(alive_iff_refers reach 2).1.1 (by decide +kernel),
    (alive_iff_refers reach 2).2.symm.trans refs, fun refers => ?_⟩
  rw [(alive_iff_refers reach 3).1.2 refers] at dead
  cases dead

/-- A way through strong references leads to the object from one that the program holds. -/
def Reaches (s : Session) (id : ObjectId) : Prop :=
  ∃ root, s.Root root ∧ Relation.ReflTransGen s.host.Links root id

/-- A way through strong references leads to the object from a cycle of such ways. -/
def Hangs (s : Session) (id : ObjectId) : Prop :=
  ∃ c, Relation.TransGen s.host.Links c c ∧ Relation.ReflTransGen s.host.Links c id

theorem Reaches.tail {i j : ObjectId} (reached : s.Reaches i) (link : s.host.Links i j) :
    s.Reaches j :=
  let ⟨root, is_root, way⟩ := reached
  ⟨root, is_root, way.tail link⟩

theorem Hangs.tail {i j : ObjectId} (hangs : s.Hangs i) (link : s.host.Links i j) : s.Hangs j :=
  let ⟨c, cycle, way⟩ := hangs
  ⟨c, cycle, way.tail link⟩

/-- Whatever is reached is alive. -/
theorem Reaches.alive (reached : s.Reaches id) (sound : s.Sound) : s.host.isAlive id = true := by
  obtain ⟨root, is_root, way⟩ := reached
  induction way with
  | refl => exact (alive_iff sound _).2 (.root is_root)
  | tail _ link _ => exact (alive_iff sound _).2 (refers_of_links link)

/-- With nothing to reclaim in a registry, its boxes are alive. -/
theorem alive_of_idle (sound : s.Sound) {r : RegistryId} {reg : Registry}
    (found : s.host.registry? r = some reg) (idle : reg.sizes.pending = 0) {box value : ObjectId}
    (paired : reg.pairing.values.get? box = some value) : s.host.isAlive box = true := by
  have unqueued : reg.queue = [] := List.length_eq_zero_iff.1 idle
  have living := (sound.client.attended r reg found).alive_of_idle unqueued
    (Registry.mentions_box paired) not_false
  exact (Heap.isAlive_iff _ box).2 ((Table.mem_keys _ _).1 living)

/-- With nothing to reclaim, what keeps a living object is a root or another living object. -/
theorem root_or_linked (sound : s.Sound)
    (idle : ∀ r reg, s.host.registry? r = some reg → reg.sizes.pending = 0)
    (alive : s.host.isAlive id = true) :
    s.Root id ∨ ∃ i, s.host.isAlive i = true ∧ s.host.Links i id := by
  cases (alive_iff sound id).1 alive with
  | root root => exact Or.inl root
  | @object i o living holds =>
    exact Or.inr ⟨i, (Heap.isAlive_iff _ i).2 ⟨o, living⟩, .holds living holds⟩
  | @boxed r reg box found paired =>
    have living := alive_of_idle sound found (idle r reg found) paired
    exact Or.inr ⟨box, living, .boxed living found paired⟩

/-- The object lives, but no way leads to it from what the program holds or from a cycle. -/
def Lost (s : Session) (id : ObjectId) : Prop :=
  s.host.isAlive id = true ∧ ¬s.Reaches id ∧ ¬s.Hangs id

theorem finite_lost (s : Session) : {id | s.Lost id}.Finite :=
  s.host.heap.live.keys.finite_toSet.subset fun id lost =>
    (Table.mem_keys _ _).2 ((Heap.isAlive_iff _ id).1 lost.1)

/-- With nothing to reclaim, what is lost is kept by something that is lost. -/
theorem lost_linked (sound : s.Sound)
    (idle : ∀ r reg, s.host.registry? r = some reg → reg.sizes.pending = 0) (lost : s.Lost id) :
    ∃ i, s.Lost i ∧ s.host.Links i id := by
  obtain ⟨alive, unreached, unhung⟩ := lost
  rcases root_or_linked sound idle alive with root | ⟨i, living, link⟩
  · exact absurd ⟨id, root, .refl⟩ unreached
  · have unreached' : ¬s.Reaches i := fun reached => unreached (reached.tail link)
    have unhung' : ¬s.Hangs i := fun hangs => unhung (hangs.tail link)
    exact ⟨i, ⟨living, unreached', unhung'⟩, link⟩

/-- With nothing to reclaim, nothing is lost: going back from one lost object to the next would
end in a cycle, on which nothing is lost. -/
theorem not_lost (sound : s.Sound)
    (idle : ∀ r reg, s.host.registry? r = some reg → reg.sizes.pending = 0) : ¬s.Lost id := by
  intro lost
  obtain ⟨c, ⟨-, -, unhung⟩, cycle⟩ :=
    exists_cycle s.finite_lost ⟨id, lost⟩ fun i lost => lost_linked sound idle lost
  exact unhung ⟨c, cycle, .refl⟩

theorem reaches_or_hangs (sound : s.Sound)
    (idle : ∀ r reg, s.host.registry? r = some reg → reg.sizes.pending = 0)
    (alive : s.host.isAlive id = true) : s.Reaches id ∨ s.Hangs id := by
  by_contra neither
  exact not_lost sound idle ⟨alive, not_or.1 neither⟩

/-- In every session that a script reaches and that has nothing to reclaim in any registry, each
living object is reached from the handles and the cells or hangs on a cycle, where a living box
leads to its value. So if there is no cycle, the living objects are those that are reached, and
a registry holds no value but of a box that is reached itself. -/
theorem leaks_are_cycles (reach : s.Reachable)
    (idle : ∀ r reg, s.host.registry? r = some reg → reg.sizes.pending = 0) :
    (∀ id, s.host.isAlive id = true → s.Reaches id ∨ s.Hangs id) ∧
    ((∀ c, ¬Relation.TransGen s.host.Links c c) →
      (∀ id, s.host.isAlive id = true ↔ s.Reaches id) ∧
      ∀ r reg box value, s.host.registry? r = some reg →
        reg.pairing.values.get? box = some value → s.Reaches box) := by
  have sound := reach.sound
  refine ⟨fun id alive => reaches_or_hangs sound idle alive, fun acyclic => ?_⟩
  have reached : ∀ id, s.host.isAlive id = true → s.Reaches id := fun id alive =>
    (reaches_or_hangs sound idle alive).resolve_right fun ⟨c, cycle, _⟩ => acyclic c cycle
  refine ⟨fun id => ⟨reached id, fun way => way.alive sound⟩, ?_⟩
  intro r reg box value found paired
  exact reached box (alive_of_idle sound found (idle r reg found) paired)

/-- A value that only its box keeps is reached through the box, and hangs on a cycle once it has
the box in a slot and no handle is left. -/
theorem leaks_are_cycles_boxed :
    let s := (start (some false)).run [.create (some "box"), .create (some "value"),
      .pair "r" "box" (.handle "value"), .drop "value"]
    let s' := s.run [.unbox "r" (.handle "box") (some "value"),
      .set "value" (.name "box") (.handle "box"), .drop "value", .drop "box"]
    s.Reaches 2 ∧ s'.Hangs 2 ∧ ¬s'.Reaches 2 := by
  intro s s'
  have reach : s.Reachable := ⟨_, _, rfl⟩
  have idle : ∀ reg ∈ s.host.registries.values, reg.sizes.pending = 0 := by decide +kernel
  have idle' : ∀ reg ∈ s'.host.registries.values, reg.sizes.pending = 0 := by decide +kernel
  have empty : ∀ o ∈ s.host.heap.live.values, o.references = [] := by decide +kernel
  have pairs : ∀ reg ∈ s.host.registries.values, ∀ p ∈ reg.pairing.values.entries, p.1 < p.2 := by
    decide +kernel
  have upwards : ∀ i j, Relation.TransGen s.host.Links i j → i < j := by
    have link : ∀ i j, s.host.Links i j → i < j := by
      rintro i j (⟨living, holds⟩ | ⟨-, found, paired⟩)
      · have inside := (Object.holds_iff _ j).1 holds
        rw [empty _ (Table.mem_values _ _ living)] at inside
        cases inside
      · exact pairs _ (Table.mem_values _ _ found) _ ((Table.get?_eq_some _ _ _).1 paired)
    intro i j way
    induction way with
    | single last => exact link _ _ last
    | tail _ last ih => exact Nat.lt_trans ih (link _ _ last)
  have kept := leaks_are_cycles reach fun r reg found => idle reg (Table.mem_values _ _ found)
  have kept' := leaks_are_cycles (reach.run _) fun r reg found =>
    idle' reg (Table.mem_values _ _ found)
  have unreached : ¬s'.Reaches 2 := by
    have handles : s'.handles = .empty := by decide +kernel
    have cells : s'.host.cells = .empty := by decide +kernel
    rintro ⟨root, ⟨held⟩ | ⟨stored⟩, -⟩
    · rw [handles] at held
      cases held
    · rw [cells] at stored
      cases stored
  refine ⟨((kept.2 fun c cycle => ?_).1 2).1 (by decide +kernel), ?_, unreached⟩
  · exact Nat.lt_irrefl c (upwards c c cycle)
  · exact (kept'.1 2 (by decide +kernel)).resolve_left unreached

end Session

end Compound
