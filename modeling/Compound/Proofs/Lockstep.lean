import Compound.Proofs.Lags

/-!
The single things that are done in two hosts at once, the second of which lags behind the first
one. A release may let more die in the first host than in the second one; what lives in the first
one then lives in the second one too, since all that keeps it there keeps it here. A release may
also be done in one of the two alone.
-/
namespace Compound

/-- No registry knows anything of the object that comes next. -/
def Host.Unmentioned (w : Host) : Prop :=
  ∀ r reg, w.registry? r = some reg →
    reg.tags.get? w.heap.next = none ∧ reg.pairing.values.get? w.heap.next = none

theorem Client.Sound.unmentioned {held : Multiset ObjectId} {w : Host}
    (s : Client.Sound ⟨held, w⟩) : w.Unmentioned := by
  intro r reg found
  have unmentioned : ¬reg.mentions w.heap.next = true := fun mentioned =>
    Nat.lt_irrefl _ ((s.attended r reg found).minded _ mentioned not_false).known
  rw [Registry.mentions_iff] at unmentioned
  simpa only [not_or, not_exists, ← Option.eq_none_iff_forall_ne_some] using unmentioned

namespace Host

variable {w w' : Host} {held : Multiset ObjectId} {ids : List ObjectId} {id : ObjectId}

theorem Balanced.release (b : w.Balanced (held + (ids : Multiset ObjectId))) :
    (w.release ids).Balanced held := by
  rw [Balanced, rooted_release]
  apply w.release_accounted
  rw [add_right_comm]
  exact b

namespace Covers

/-- The references that the first host holds from outside the heap are held in the second one. -/
theorem mem_rooted (c : w.Covers w') (rooted : id ∈ w.rooted) : id ∈ w'.rooted := by
  rw [Host.mem_rooted] at rooted ⊢
  rw [c.cells]
  refine rooted.imp_right fun ⟨r, reg, box, found, paired⟩ => ?_
  obtain ⟨reg', found', lags⟩ := c.found found
  exact ⟨r, reg', box, found', lags.entries box id paired⟩

/-- What lives in the first host is kept in the second one by the same. -/
theorem sustained (c : w.Covers w') (b : w.Balanced held) :
    w'.heap.Sustained (held + w'.rooted) (fun id => w.isAlive id = true) := by
  refine ⟨fun id alive => c.alive alive, fun id alive => ?_⟩
  obtain ⟨o, found⟩ := (Heap.isAlive_iff _ id).1 alive
  have exact := b.exact id
  have positive := b.positive id o found
  rw [Heap.refs_of_get? _ found] at exact
  by_cases inside : id ∈ held + w.rooted
  · refine Or.inl ?_
    rw [Multiset.mem_add] at inside ⊢
    exact inside.imp_right c.mem_rooted
  · rw [Multiset.count_eq_zero_of_notMem inside, Nat.zero_add] at exact
    have inside : id ∈ w.heap.holdings := Multiset.count_pos.1 (exact ▸ positive)
    obtain ⟨j, u, living, holds⟩ := (w.heap.mem_holdings id).1 inside
    obtain ⟨n, living'⟩ := c.objects j u living
    refine Or.inr ⟨j, _, (Heap.isAlive_iff _ j).2 ⟨u, living⟩, living', ?_⟩
    exact (Object.holds_iff u id).1 holds

end Covers

namespace Lags

/-- The objects on cycles of the second host keep each other alive in the first one. -/
theorem sustained (l : w.Lags w') (held : Multiset ObjectId) :
    w.heap.Sustained (held + w.rooted) (fun id => Relation.TransGen w'.Links id id) := by
  refine ⟨l.cycles, fun id cycle => ?_⟩
  obtain ⟨j, way, link⟩ := (Relation.TransGen.tail'_iff).1 cycle
  have cycle' : Relation.TransGen w'.Links j j := .head' link way
  cases l.links (l.cycles j cycle') link with
  | holds living holds =>
    exact Or.inr ⟨j, _, cycle', living, (Object.holds_iff _ id).1 holds⟩
  | boxed living found paired =>
    have rooted : id ∈ w.rooted := (w.mem_rooted id).2 (Or.inr ⟨_, _, _, found, paired⟩)
    exact Or.inl (Multiset.mem_add.2 (Or.inr rooted))

/-- The first host lets references go that the second one goes on holding. -/
theorem release_left (l : w.Lags w') (b : w.Balanced (held + (ids : Multiset ObjectId))) :
    (w.release ids).Lags w' := by
  have fewer : ∀ id, (w.release ids).isAlive id = true → w.isAlive id = true := fun id alive => by
    obtain ⟨o', found'⟩ := (Heap.isAlive_iff _ id).1 alive
    obtain ⟨o, n, found, -⟩ := Leaves.release w ids id o' found'
    exact (Heap.isAlive_iff _ id).2 ⟨o, found⟩
  refine ⟨⟨?_, ?_, ?_, fun id o' found' => ?_, fun r => ?_⟩, fun c cycle => ?_⟩
  · rw [(w.cascade_release ids).next_eq, l.next]
  · rw [release_cells, l.cells]
  · rw [release_counters, l.counters]
  · obtain ⟨o, n, found, rfl⟩ := Leaves.release w ids id o' found'
    exact l.objects id o found
  · have heard : Option.Rel (Registry.Lags (w.release ids).isAlive)
        ((w.registry? r).map (·.enqueueAll (Effect.pushes r (w.heap.release ids).2)))
        ((w'.registry? r).map (·.enqueueAll [])) :=
      Registry.Lags.map (l.registries r) fun _ _ _ _ lags => (lags.enqueueAll _ _).mono fewer
    rw [registry?_release]
    simpa using heard
  · rw [Balanced, add_right_comm] at b
    exact alive_release (l.sustained held) b cycle

/-- The second host lets references go that the first one does not hold. -/
theorem release_right (l : w.Lags w') (b : w.Balanced held)
    (b' : w'.Balanced (held + (ids : Multiset ObjectId))) : w.Lags (w'.release ids) := by
  rw [Balanced, add_right_comm] at b'
  have living : ∀ id, w.isAlive id = true → (w'.release ids).isAlive id = true := fun id alive =>
    alive_release (l.toCovers.sustained b) b' alive
  have covers : w.Covers (w'.release ids) := by
    refine ⟨?_, ?_, ?_, fun id o found => ?_, fun r => ?_⟩
    · rw [(w'.cascade_release ids).next_eq, l.next]
    · rw [release_cells, l.cells]
    · rw [release_counters, l.counters]
    · have lives := living id ((Heap.isAlive_iff _ id).2 ⟨o, found⟩)
      obtain ⟨u, found'⟩ := (Heap.isAlive_iff _ id).1 lives
      obtain ⟨o', n, was, rfl⟩ := Leaves.release w' ids id u found'
      obtain ⟨m, was'⟩ := l.objects id o found
      cases Option.some.inj (was.symm.trans was')
      exact ⟨n, found'⟩
    · have heard : Option.Rel (Registry.Lags w.isAlive) ((w.registry? r).map (·.enqueueAll []))
          ((w'.registry? r).map (·.enqueueAll (Effect.pushes r (w'.heap.release ids).2))) :=
        Registry.Lags.map (l.registries r) fun _ _ _ _ lags => lags.enqueueAll _ _
      rw [registry?_release]
      simpa using heard
  refine l.of_fewer covers (fun _ alive => alive) fun i j link => ?_
  refine (Leaves.release w' ids i).links (fun r reg' found' paired => ?_) link
  rw [registry?_release, Option.map_eq_some_iff] at found'
  obtain ⟨reg, found, rfl⟩ := found'
  exact ⟨reg, found, paired⟩

theorem release (l : w.Lags w') (b : w.Balanced (held + (ids : Multiset ObjectId)))
    (b' : w'.Balanced (held + (ids : Multiset ObjectId))) :
    (w.release ids).Lags (w'.release ids) :=
  (l.release_left b).release_right b.release b'

/-- Objects change, but neither their aliveness nor what they link to. -/
theorem of_leaves (l : w.Lags w') {u u' : Host} (c : u.Covers u')
    (mono : ∀ id, w.isAlive id = true → u.isAlive id = true) (leaves : ∀ id, w'.Leaves u' id)
    (registries : u'.registries = w'.registries) : u.Lags u' := by
  refine l.of_fewer c mono fun i j link => (leaves i).links (fun r reg' found' paired => ?_) link
  exact ⟨reg', (congrArg (Table.get? · r) registries).symm.trans found', paired⟩

theorem retain (l : w.Lags w') (ids : List ObjectId) : (w.retain ids).Lags (w'.retain ids) := by
  have same : (w.retain ids).isAlive = w.isAlive := funext (Heap.isAlive_retain w.heap ids)
  have covers : (w.retain ids).Covers (w'.retain ids) := by
    refine ⟨?_, l.cells, l.counters, fun id o found => ?_, fun r => same ▸ l.registries r⟩
    · exact (Heap.next_retain _ _).trans (l.next.trans (Heap.next_retain _ _).symm)
    · have retained := (Heap.get?_retain w.heap ids id).symm.trans found
      obtain ⟨o, was, rfl⟩ := Option.map_eq_some_iff.1 retained
      obtain ⟨n, was'⟩ := l.objects id o was
      exact ⟨_, (Heap.get?_retain w'.heap ids id).trans (congrArg _ was')⟩
  exact l.of_leaves covers (fun id alive => same ▸ alive) (Leaves.retain w' ids) rfl

/-- An object that lives in the first host is changed in both. -/
theorem modify (l : w.Lags w') (alive : w.isAlive id = true) (f : Object → Object)
    (refs : ∀ o n, f { o with refs := n } = { f o with refs := n })
    (b : (w.modify id f).Balanced held) : (w.modify id f).Lags (w'.modify id f) := by
  have same : (w.modify id f).isAlive = w.isAlive := funext (Heap.isAlive_modify w.heap id f)
  have covers : (w.modify id f).Covers (w'.modify id f) := by
    refine ⟨l.next, l.cells, l.counters, fun j o found => ?_, fun r => same ▸ l.registries r⟩
    by_cases hj : j = id
    · subst hj
      obtain ⟨u, was, rfl⟩ := object?_modify_same found
      obtain ⟨n, was'⟩ := l.objects j u was
      refine ⟨n, ?_⟩
      rw [← refs]
      exact (Heap.get?_modify_same w'.heap j f).trans (congrArg (Option.map f) was')
    · obtain ⟨n, was'⟩ := l.objects j o ((Heap.get?_modify_other w.heap f hj).symm.trans found)
      exact ⟨n, (Heap.get?_modify_other w'.heap f hj).trans was'⟩
  refine l.of_covers covers b (fun j alive => same ▸ alive) fun i j dead link => ?_
  have other : i ≠ id := by
    rintro rfl
    rw [same, alive] at dead
    cases dead
  exact (Leaves.modify w' f other).links (fun r reg' found paired => ⟨reg', found, paired⟩) link

/-- A cell is written in both hosts, before either lets its old value go. -/
theorem putCell (l : w.Lags w') (name : String) (v : Value) :
    { w with cells := w.cells.put name v }.Lags { w' with cells := w'.cells.put name v } := by
  refine l.of_leaves ⟨l.next, ?_, l.counters, l.objects, l.registries⟩ (fun _ alive => alive)
    (fun id => .same rfl) rfl
  rw [l.cells]

/-- What is logged and told may differ. -/
theorem remark (l : w.Lags w') (counters : List Nat) (events events' : List String)
    (notices notices' : List Notice) :
    { w with counters := counters, events := events, notices := notices }.Lags
      { w' with counters := counters, events := events', notices := notices' } :=
  l.of_leaves ⟨l.next, l.cells, rfl, l.objects, l.registries⟩ (fun _ alive => alive)
    (fun _ => .same rfl) rfl

/-- The first host tells something alone. -/
theorem tell_left (l : w.Lags w') (n : Notice) : (w.tell n).Lags w' :=
  l.of_leaves ⟨l.next, l.cells, l.counters, l.objects, l.registries⟩ (fun _ alive => alive)
    (fun _ => .same rfl) rfl

theorem tell (l : w.Lags w') (n n' : Notice) : (w.tell n).Lags (w'.tell n') :=
  l.of_leaves ⟨l.next, l.cells, l.counters, l.objects, l.registries⟩ (fun _ alive => alive)
    (fun _ => .same rfl) rfl

/-- The entries of a registry are edited in both hosts. A new pair is of a box that lives in the
first one. -/
theorem edit (l : w.Lags w') (r : RegistryId) {f f' : Registry → Registry}
    (b : (w.modifyRegistry r f).Balanced held)
    (step : ∀ reg reg', w.registry? r = some reg → w'.registry? r = some reg' →
      reg.Lags w.isAlive reg' → (f reg).Lags w.isAlive (f' reg'))
    (old : ∀ reg' box value, w'.registry? r = some reg' → w.isAlive box = false →
      (f' reg').pairing.values.get? box = some value → reg'.pairing.values.get? box = some value) :
    (w.modifyRegistry r f).Lags (w'.modifyRegistry r f') := by
  have covers : (w.modifyRegistry r f).Covers (w'.modifyRegistry r f') := by
    refine ⟨l.next, l.cells, l.counters, l.objects, fun q => ?_⟩
    by_cases hq : q = r
    · subst hq
      rw [registry?_modifyRegistry_same, registry?_modifyRegistry_same]
      exact Registry.Lags.map (l.registries q) step
    · rw [registry?_modifyRegistry_other w f hq, registry?_modifyRegistry_other w' f' hq]
      exact l.registries q
  refine l.of_covers covers b (fun _ alive => alive) fun i j dead link => ?_
  refine (Leaves.same rfl : w'.Leaves (w'.modifyRegistry r f') i).links
    (fun q reg'' found paired => ?_) link
  by_cases hq : q = r
  · subst hq
    rw [registry?_modifyRegistry_same, Option.map_eq_some_iff] at found
    obtain ⟨reg', found', rfl⟩ := found
    exact ⟨reg', found', old reg' i j found' dead paired⟩
  · rw [registry?_modifyRegistry_other w' f' hq] at found
    exact ⟨reg'', found, paired⟩

/-- The first host edits the entries of a registry alone. -/
theorem edit_left (l : w.Lags w') (r : RegistryId) {f : Registry → Registry}
    (step : ∀ reg reg', w.registry? r = some reg → reg.Lags w.isAlive reg' →
      (f reg).Lags w.isAlive reg') : (w.modifyRegistry r f).Lags w' := by
  refine ⟨⟨l.next, l.cells, l.counters, l.objects, fun q => ?_⟩, l.cycles⟩
  by_cases hq : q = r
  · subst hq
    rw [registry?_modifyRegistry_same]
    have edited : Option.Rel (Registry.Lags (w.modifyRegistry q f).isAlive)
        ((w.registry? q).map f) ((w'.registry? q).map fun reg' => reg') :=
      Registry.Lags.map (l.registries q) fun reg reg' found _ lags => step reg reg' found lags
    simpa using edited
  · rw [registry?_modifyRegistry_other w f hq]
    exact l.registries q

/-- An object that lives in the first host is watched in both. -/
theorem watch (l : w.Lags w') (r : RegistryId) (alive : w.isAlive id = true)
    (b : (w.watch r id).Balanced held) : (w.watch r id).Lags (w'.watch r id) :=
  (l.retain []).modify alive _ (fun _ _ => rfl) b

/-- A new object gets the same number in both hosts, and no registry knows of it in either. -/
theorem add (l : w.Lags w') (fresh : w.Unmentioned) (fresh' : w'.Unmentioned) (o : Object)
    (b : Balanced { w with heap := (w.heap.create o).2 } held) :
    { w with heap := (w.heap.create o).2 }.Lags { w' with heap := (w'.heap.create o).2 } := by
  have made' : (w'.heap.create o).2.get? w.heap.next = some o :=
    l.next ▸ Heap.get?_create_same w'.heap o
  have other : ∀ id, id ≠ w.heap.next → (w.heap.create o).2.get? id = w.heap.get? id :=
    fun id ne => Heap.get?_create_other w.heap o ne
  have other' : ∀ id, id ≠ w.heap.next → (w'.heap.create o).2.get? id = w'.heap.get? id :=
    fun id ne => Heap.get?_create_other w'.heap o (l.next ▸ ne)
  have alive : ∀ id, id ≠ w.heap.next → (w.heap.create o).2.isAlive id = w.heap.isAlive id :=
    fun id ne => congrArg Option.isSome (other id ne)
  have covers : Covers { w with heap := (w.heap.create o).2 }
      { w' with heap := (w'.heap.create o).2 } := by
    refine ⟨congrArg Nat.succ l.next, l.cells, l.counters, fun id u found => ?_, fun r => ?_⟩
    · by_cases new : id = w.heap.next
      · subst new
        cases Option.some.inj ((Heap.get?_create_same w.heap o).symm.trans found)
        exact ⟨o.refs, made'⟩
      · obtain ⟨n, found'⟩ := l.objects id u ((other id new).symm.trans found)
        exact ⟨n, (other' id new).trans found'⟩
    · refine Registry.Lags.imp (l.registries r) fun reg reg' found found' lags => ?_
      obtain ⟨untagged, unpaired⟩ := fresh r reg found
      obtain ⟨untagged', unpaired'⟩ := fresh' r reg' found'
      rw [l.next] at untagged' unpaired'
      refine ⟨lags.lazy, fun id lives => ?_, fun id lives => ?_, lags.entries⟩
      · by_cases new : id = w.heap.next
        · rw [new, untagged, untagged']
        · exact lags.tags id ((alive id new).symm.trans lives)
      · by_cases new : id = w.heap.next
        · rw [new, unpaired, unpaired']
        · exact lags.pairs id ((alive id new).symm.trans lives)
  refine l.of_covers covers b (fun id lives => ?_) fun i j dead link => ?_
  · by_cases new : id = w.heap.next
    · exact (Heap.isAlive_iff _ id).2 ⟨o, new ▸ Heap.get?_create_same w.heap o⟩
    · exact (alive id new).trans lives
  · have old : i ≠ w.heap.next := by
      rintro rfl
      have lives := (Heap.isAlive_iff _ _).2 ⟨o, Heap.get?_create_same w.heap o⟩
      exact Bool.false_ne_true (dead.symm.trans lives)
    have leaves : w'.Leaves { w' with heap := (w'.heap.create o).2 } i := .same (other' i old)
    exact leaves.links (fun r reg' found paired => ⟨reg', found, paired⟩) link

end Lags

end Host

end Compound
