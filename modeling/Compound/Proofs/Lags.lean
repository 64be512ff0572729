import Compound.Proofs.Ownership
import Compound.Proofs.Survivors

/-!
Two hosts that have done the same, where the second one never reclaims by itself and so may lag
behind the first one. It has all that lives in the first one, with the same entries, and besides
what only the entries of dead boxes keep. A cycle keeps itself, so there is none that lives in the
second host only. What is done to objects that live in the first host can be done in both.
-/
namespace Compound

/-- The second registry knows of the living what the first one knows, and has at least its pairs. -/
structure Registry.Lags (alive : ObjectId → Bool) (reg reg' : Registry) : Prop where
  lazy : reg'.config.autoReclaim = false
  tags : ∀ id, alive id = true → reg'.tags.get? id = reg.tags.get? id
  pairs : ∀ box, alive box = true → reg'.pairing.values.get? box = reg.pairing.values.get? box
  entries : ∀ box value, reg.pairing.values.get? box = some value →
    reg'.pairing.values.get? box = some value

namespace Registry.Lags

variable {alive alive' : ObjectId → Bool} {reg reg' : Registry}

/-- Fewer objects that live ask for less. -/
theorem mono (l : reg.Lags alive reg') (fewer : ∀ id, alive' id = true → alive id = true) :
    reg.Lags alive' reg' :=
  ⟨l.lazy, fun id h => l.tags id (fewer id h), fun box h => l.pairs box (fewer box h), l.entries⟩

theorem enqueueAll (l : reg.Lags alive reg') (ids ids' : List ObjectId) :
    (reg.enqueueAll ids).Lags alive (reg'.enqueueAll ids') :=
  ⟨l.lazy, l.tags, l.pairs, l.entries⟩

/-- Two registries that may be gone. -/
theorem imp {found found' : Option Registry} (rel : Option.Rel (Lags alive) found found')
    (step : ∀ reg reg', found = some reg → found' = some reg' → reg.Lags alive reg' →
      reg.Lags alive' reg') : Option.Rel (Lags alive') found found' := by
  cases rel with
  | none => exact .none
  | some lags => exact .some (step _ _ rfl rfl lags)

/-- Two registries that may be gone, each after a change. -/
theorem map {found found' : Option Registry} (rel : Option.Rel (Lags alive) found found')
    {f f' : Registry → Registry}
    (step : ∀ reg reg', found = some reg → found' = some reg' → reg.Lags alive reg' →
      (f reg).Lags alive' (f' reg')) :
    Option.Rel (Lags alive') (found.map f) (found'.map f') := by
  cases rel with
  | none => exact .none
  | some lags => exact .some (step _ _ rfl rfl lags)

end Registry.Lags

@[simp] theorem Object.holds_refs (o : Object) (n : Nat) (id : ObjectId) :
    ({ o with refs := n } : Object).Holds id ↔ o.Holds id := by
  rw [holds_iff, holds_iff, references_refs]

namespace Host

/-- The second host has all that lives in the first one. -/
structure Covers (w w' : Host) : Prop where
  next : w'.heap.next = w.heap.next
  cells : w'.cells = w.cells
  counters : w'.counters = w.counters
  objects : ∀ id o, w.object? id = some o → ∃ n, w'.object? id = some { o with refs := n }
  registries : ∀ r, Option.Rel (Registry.Lags w.isAlive) (w.registry? r) (w'.registry? r)

/-- The second host lags behind the first one. -/
structure Lags (w w' : Host) : Prop extends w.Covers w' where
  cycles : ∀ c, Relation.TransGen w'.Links c c → w.isAlive c = true

/-- The references are accounted for if these are held from outside. -/
def Balanced (w : Host) (held : Multiset ObjectId) : Prop := w.heap.Accounted (held + w.rooted)

variable {w w' u u' : Host} {held : Multiset ObjectId} {i j id : ObjectId}

/-- What a living object keeps is alive. -/
theorem Balanced.alive_linked (b : w.Balanced held) (link : w.Links i j) : w.isAlive j = true := by
  cases link with
  | holds living holds => exact b.alive_references living ((Object.holds_iff _ j).1 holds)
  | boxed living found paired =>
    have rooted : j ∈ w.rooted := (w.mem_rooted j).2 (Or.inr ⟨_, _, _, found, paired⟩)
    exact b.alive_outside (Multiset.mem_add.2 (Or.inr rooted))

/-- An object that is left as it is links to what it linked to, if its pairs are not new. -/
theorem Leaves.links (leaves : w.Leaves w' i)
    (pairs : ∀ r reg', w'.registry? r = some reg' → reg'.pairing.values.get? i = some j →
      ∃ reg, w.registry? r = some reg ∧ reg.pairing.values.get? i = some j)
    (link : w'.Links i j) : w.Links i j := by
  cases link with
  | holds living holds =>
    obtain ⟨o, n, found, rfl⟩ := leaves _ living
    exact .holds found ((Object.holds_refs o n j).1 holds)
  | boxed living found paired =>
    obtain ⟨o', living⟩ := (Heap.isAlive_iff _ i).1 living
    obtain ⟨o, n, was, -⟩ := leaves o' living
    obtain ⟨reg, found, paired⟩ := pairs _ _ found paired
    exact .boxed ((Heap.isAlive_iff _ i).2 ⟨o, was⟩) found paired

namespace Covers

theorem alive (c : w.Covers w') (alive : w.isAlive id = true) : w'.isAlive id = true := by
  obtain ⟨o, found⟩ := (Heap.isAlive_iff _ id).1 alive
  obtain ⟨n, found'⟩ := c.objects id o found
  exact (Heap.isAlive_iff _ id).2 ⟨_, found'⟩

theorem found (c : w.Covers w') {r : RegistryId} {reg : Registry}
    (found : w.registry? r = some reg) :
    ∃ reg', w'.registry? r = some reg' ∧ reg.Lags w.isAlive reg' := by
  have rel := c.registries r
  rw [found] at rel
  generalize w'.registry? r = found' at rel
  cases rel with
  | some lags => exact ⟨_, rfl, lags⟩

theorem found_back (c : w.Covers w') {r : RegistryId} {reg' : Registry}
    (found' : w'.registry? r = some reg') :
    ∃ reg, w.registry? r = some reg ∧ reg.Lags w.isAlive reg' := by
  have rel := c.registries r
  rw [found'] at rel
  generalize w.registry? r = found at rel
  cases rel with
  | some lags => exact ⟨_, rfl, lags⟩

/-- An object that lives in the first host has in the second one only links that it has in the
first one. -/
theorem links (c : w.Covers w') (alive : w.isAlive i = true) (link : w'.Links i j) :
    w.Links i j := by
  cases link with
  | @holds o' living holds =>
    obtain ⟨o, found⟩ := (Heap.isAlive_iff _ i).1 alive
    obtain ⟨n, found'⟩ := c.objects i o found
    cases Option.some.inj (found'.symm.trans living)
    exact .holds found ((Object.holds_refs o n j).1 holds)
  | @boxed r reg' living found' paired =>
    obtain ⟨reg, found, lags⟩ := c.found_back found'
    rw [lags.pairs i alive] at paired
    exact .boxed alive found paired

theorem alive_linked (c : w.Covers w') (b : w.Balanced held) (alive : w.isAlive i = true)
    (link : w'.Links i j) : w.isAlive j = true :=
  b.alive_linked (c.links alive link)

theorem alive_along (c : w.Covers w') (b : w.Balanced held) (alive : w.isAlive i = true)
    (way : Relation.ReflTransGen w'.Links i j) : w.isAlive j = true := by
  induction way with
  | refl => exact alive
  | tail _ link ih => exact c.alive_linked b ih link

end Covers

namespace Lags

/-- Two hosts after a change in which nothing dies that lives in the first one. A new link starts
from an object that lives in the first one, so a new cycle lies there as a whole. -/
theorem of_covers (l : w.Lags w') (c : u.Covers u') (b : u.Balanced held)
    (mono : ∀ id, w.isAlive id = true → u.isAlive id = true)
    (old : ∀ i j, u.isAlive i = false → u'.Links i j → w'.Links i j) : u.Lags u' := by
  refine ⟨c, fun k cycle => ?_⟩
  by_contra dead
  -- whoever leads to a dead object is dead, so the whole cycle is, and no link of it is new
  have back : ∀ a, Relation.TransGen u'.Links a k →
      u.isAlive a = false ∧ Relation.TransGen w'.Links a k := by
    intro a way
    induction way using Relation.TransGen.head_induction_on with
    | single link =>
      have gone := Bool.eq_false_iff.2 fun alive => dead (c.alive_linked b alive link)
      exact ⟨gone, .single (old _ _ gone link)⟩
    | head link _ ih =>
      have gone := Bool.eq_false_iff.2 fun alive =>
        Bool.eq_false_iff.1 ih.1 (c.alive_linked b alive link)
      exact ⟨gone, .head (old _ _ gone link) ih.2⟩
  exact dead (mono k (l.cycles k (back k cycle).2))

/-- Two hosts after a change in which nothing dies that lives in the first one and the second one
gets no new link. -/
theorem of_fewer (l : w.Lags w') (c : u.Covers u')
    (mono : ∀ id, w.isAlive id = true → u.isAlive id = true)
    (old : ∀ i j, u'.Links i j → w'.Links i j) : u.Lags u' :=
  ⟨c, fun k cycle => mono k (l.cycles k (Relation.TransGen.mono old _ _ cycle))⟩

end Lags

end Host

end Compound
