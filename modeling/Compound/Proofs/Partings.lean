import Compound.Proofs.Course
import Compound.Proofs.Edits
import Compound.Proofs.Operations

/-!
What a deed lets go. Every deed lets go references at one place at most: all of them stand for
one release, in a heap that differs from the one before in nothing that decides who dies and
whose finalizers run. So what is known of a release is known of every deed: who dies of it, which
finalizers wait on afterwards, what is logged, and what the registries hear that the deed is not
about.
-/
namespace Compound

namespace Heap

/-- The finalizers that wait for the death of an object, if it is alive. -/
def waiting (h : Heap) (id : ObjectId) : Option (List Finalizer) := (h.get? id).map (·.finalizers)

variable (h : Heap) (id : ObjectId)

theorem isAlive_eq_waiting : h.isAlive id = (h.waiting id).isSome := by
  rw [waiting, Option.isSome_map]
  rfl

theorem watches_eq_waiting (r : RegistryId) :
    h.watches r id = (h.waiting id).elim 0 (List.count (.watch r)) := by
  rw [watches, waiting]
  cases h.get? id <;> rfl

theorem waiting_eq_map : h.waiting id = (h.waiting id).map (· ++ []) := by
  cases h.waiting id <;> simp

theorem waiting_retain (ids : List ObjectId) : (h.retain ids).waiting id = h.waiting id := by
  rw [waiting, get?_retain, Option.map_map]
  rfl

theorem waiting_modify (j : ObjectId) (f : Object → Object)
    (keeps : ∀ o, (f o).finalizers = o.finalizers) : (h.modify j f).waiting id = h.waiting id := by
  by_cases same : id = j
  · subst same
    rw [waiting, get?_modify_same, Option.map_map, waiting]
    exact congrArg (Option.map · _) (funext keeps)
  · rw [waiting, get?_modify_other h f same, waiting]

theorem waiting_create_other (o : Object) (ne : id ≠ h.next) :
    (h.create o).2.waiting id = h.waiting id := by
  rw [waiting, get?_create_other h o ne, waiting]

end Heap

theorem Host.waiting_addFinalizer (w : Host) (j : ObjectId) (f : Finalizer) (id : ObjectId) :
    (w.addFinalizer j f).heap.waiting id =
      (w.heap.waiting id).map (· ++ if id = j then [f] else []) := by
  rw [addFinalizer, modify, retain]
  by_cases same : id = j
  · subst same
    rw [Heap.waiting, Heap.get?_modify_same, Option.map_map, if_pos rfl,
      ← w.heap.waiting_retain id f.references, Heap.waiting, Option.map_map]
    rfl
  · rw [Heap.waiting, Heap.get?_modify_other _ _ same, if_neg same, ← Heap.waiting,
      Heap.waiting_retain]
    simp

namespace Deed

/-- The heap in which a deed lets go references, and the objects that these lead to. -/
def letting (w : Host) : Deed → Heap × List ObjectId
  | release ids => (w.heap, ids)
  | write id k s =>
    ((w.heap.retain s.references).modify id fun o => { o with slots := o.slots.put k s },
      (w.slot? id k).elim [] Slot.references)
  | store cell v => (w.heap.retain v.references, (w.cell cell).references)
  | closeRegistry r => (w.heap, (w.pairing r).values.values)
  | join r box value =>
    (w.heap.retain [value],
      match (w.pairing r).judge w.isAlive box value with
      | .ok (.fresh _ released) => released.toList
      | _ => [])
  | drain r => (w.heap, (w.registry? r).elim [] Registry.released)
  | _ => (w.heap, [])

/-- The heap after a deed has let go what it lets go. -/
def parted (w : Host) (d : Deed) : Heap := ((d.letting w).1.release (d.letting w).2).1

/-- The finalizers that a deed adds to an object. -/
def registered (j : ObjectId) : Deed → List Finalizer
  | finalize id label hold => if j = id then [.note label hold] else []
  | tag r id _ => if j = id then [.watch r] else []
  | join r box _ => if j = box then [.watch r] else []
  | _ => []

/-- The object that a deed makes. -/
def born? (w : Host) : Deed → Option ObjectId
  | create _ => some w.heap.next
  | _ => none

/-- A new object is not there before. -/
theorem dead_of_born {c : Client} (d : Deed) {id : ObjectId} (s : c.Sound)
    (born : d.born? c.host = some id) : c.host.isAlive id = false := by
  cases d with
  | create function =>
    cases born
    exact (Heap.isAlive_eq_false _ _).2 s.accounted.get?_next
  | _ => cases born

/-- What a deed does before it lets go references kills nobody and adds no finalizer. -/
theorem waiting_letting (w : Host) (d : Deed) (id : ObjectId) :
    (d.letting w).1.waiting id = w.heap.waiting id := by
  cases d with
  | write j k s =>
    refine (Heap.waiting_modify _ id j _ ?_).trans (Heap.waiting_retain _ id _)
    exact fun _ => rfl
  | store cell v => exact Heap.waiting_retain _ id _
  | join r box value => exact Heap.waiting_retain _ id _
  | _ => rfl

end Deed

/-- The registry that a deed edits or closes. -/
def Deed.addressed? : Deed → Option RegistryId
  | closeRegistry r => some r
  | d => d.edited?

/-- The deed is not about the registry: it neither opens nor edits nor closes it. -/
structure Deed.Spares (d : Deed) (w : Host) (q : RegistryId) : Prop where
  unopened : ∀ config, d = .openRegistry config → q ≠ w.nextRegistry
  unaddressed : d.addressed? ≠ some q

theorem Deed.Spares.ne {d : Deed} {w : Host} {q r : RegistryId} (spares : d.Spares w q)
    (about : d.addressed? = some r) : q ≠ r := fun eq => spares.unaddressed (eq ▸ about)

/-- A deed comes to a release in a host where nobody has died yet and where the log is as before,
and so are the registries that the deed is not about. A remark may log what it likes. -/
structure Deed.Comes (d : Deed) (w u w' : Host) : Prop where
  heap : u.heap = (d.letting w).1
  unlogged : u.events = w.events
  logged : d ≠ .remark → w'.events = (u.release (d.letting w).2).events
  before : ∀ q, d.Spares w q → u.registry? q = w.registry? q
  after : ∀ q, d.Spares w q → w'.registry? q = Host.registry? (u.release (d.letting w).2) q
  waiting : ∀ id, d.born? w ≠ some id →
    w'.heap.waiting id = ((d.parted w).waiting id).map (· ++ d.registered id)

/-- A deed that lets go nothing leaves other registries alone. -/
theorem Deed.Comes.quiet {d : Deed} {w w' : Host} (nothing : d.letting w = (w.heap, []))
    (unlogged : d ≠ .remark → w'.events = w.events)
    (same : ∀ q, d.Spares w q → w'.registry? q = w.registry? q)
    (waiting : ∀ id, d.born? w ≠ some id →
      w'.heap.waiting id = (w.heap.waiting id).map (· ++ d.registered id)) :
    d.Comes w w w' := by
  refine ⟨congrArg Prod.fst nothing.symm, rfl, fun plain => ?_, fun _ _ => rfl,
    fun q spares => ?_, fun id other => ?_⟩
  · rw [nothing, Host.release_nil]
    exact unlogged plain
  · rw [nothing, Host.release_nil]
    exact same q spares
  · rw [Deed.parted, nothing, Heap.release_nil]
    exact waiting id other

/-- A deed that ends with its release does not add any finalizer. -/
theorem Deed.Comes.release {d : Deed} {w u : Host} {ids : List ObjectId}
    (freed : d.letting w = (u.heap, ids)) (unlogged : u.events = w.events)
    (before : ∀ q, d.Spares w q → u.registry? q = w.registry? q)
    (none_added : ∀ id, d.registered id = []) : d.Comes w u (u.release ids) := by
  refine ⟨congrArg Prod.fst freed.symm, unlogged, fun _ => by rw [freed], before,
    fun q _ => by rw [freed], fun id _ => ?_⟩
  rw [Deed.parted, freed, Host.release_heap, none_added]
  simp

section Comings

variable {w : Host} {r : RegistryId} {reg : Registry}

/-- Closing a registry lets go the values of its boxes. -/
theorem Deed.comes_closeRegistry (w : Host) (r : RegistryId) :
    ∃ u, (closeRegistry r).Comes w u (w.closeRegistry r) := by
  cases found : w.registry? r with
  | none =>
    have nothing : (closeRegistry r).letting w = (w.heap, []) := by
      rw [letting, Host.pairing_of_none found]
      rfl
    rw [Host.closeRegistry, found]
    exact ⟨w, .quiet nothing (fun _ => rfl) (fun _ _ => rfl) fun id _ => w.heap.waiting_eq_map id⟩
  | some reg =>
    rw [Host.closeRegistry, found]
    refine ⟨{ w with registries := w.registries.erase r }, .release ?_ rfl (fun q spares => ?_)
      fun _ => rfl⟩
    · rw [letting, Host.pairing_of_found found]
    · exact Table.get?_erase_other _ (spares.ne rfl)

/-- Joining a pair lets go the value of a stale entry, and watches the box after that. -/
theorem Deed.comes_join {box value : ObjectId} {pairs : Pairing} {released : Option ObjectId}
    (found : w.registry? r = some reg)
    (fresh : reg.pairing.judge w.isAlive box value = .ok (.fresh pairs released)) :
    ∃ u, (join r box value).Comes w u (w.join r box value pairs released) := by
  have freed : (Deed.join r box value).letting w = (w.heap.retain [value], released.toList) := by
    rw [letting, Host.pairing_of_found found, fresh]
  refine ⟨w.enter r box value pairs, congrArg Prod.fst freed.symm, rfl, fun _ => by rw [freed]; rfl,
    fun q spares => ?_, fun q _ => by rw [freed]; rfl, fun id _ => ?_⟩
  · exact Host.registry?_modifyRegistry_other (w.retain [value]) _ (spares.ne rfl)
  · rw [Host.join, Host.watch, Host.waiting_addFinalizer, Host.release_heap, parted, freed]
    rfl

/-- Draining a queue lets go the values of the boxes that it named, if there were any. -/
theorem Deed.comes_drain (w : Host) (r : RegistryId) :
    ∃ u, (drain r).Comes w u (w.reclaim r).2 := by
  rcases w.reclaim_cases r with ⟨same, empty⟩ | ⟨reg, found, -, same⟩
  · have nothing : (drain r).letting w = (w.heap, []) := by
      cases found : w.registry? r with
      | none => rw [letting, found, Option.elim_none]
      | some reg =>
        rw [letting, found, Option.elim_some, Registry.released, empty reg found]
        rfl
    rw [same]
    exact ⟨w, .quiet nothing (fun _ => rfl) (fun _ _ => rfl) fun id _ => w.heap.waiting_eq_map id⟩
  · let swept := w.modifyRegistry r fun _ => reg.drained
    have comes : (drain r).Comes w swept (swept.release reg.released) :=
      .release (by rw [letting, found]; rfl) rfl
        (fun q spares => Host.registry?_modifyRegistry_other w _ (spares.ne rfl)) fun _ => rfl
    -- the sweep is told after the release, and that changes nothing here
    rw [same]
    exact ⟨swept, comes.heap, rfl, comes.logged, comes.before, comes.after, comes.waiting⟩

/-- What every deed comes to. -/
theorem Move.comes {d : Deed} {c c' : Client} (m : Move d c c') :
    ∃ u, d.Comes c.host u c'.host := by
  cases m with
  | @retain _ w ids _ =>
    exact ⟨w, .quiet rfl (fun _ => rfl) (fun _ _ => rfl) fun id _ =>
      (w.heap.waiting_retain id ids).trans (w.heap.waiting_eq_map id)⟩
  | @release _ w ids => exact ⟨w, .release rfl rfl (fun _ _ => rfl) fun _ => rfl⟩
  | @create _ w function _ =>
    refine ⟨w, .quiet rfl (fun _ => rfl) (fun _ _ => rfl) fun id other => ?_⟩
    have next := w.heap.next_retain (Object.new function).bodyReferences
    have ne' : id ≠ (w.heap.retain (Object.new function).bodyReferences).next := fun eq =>
      other (congrArg some (eq.trans next).symm)
    have created := (Heap.waiting_create_other _ id (.new function) ne').trans
      (w.heap.waiting_retain id _)
    exact created.trans (w.heap.waiting_eq_map id)
  | @write _ w j k s o _ _ _ =>
    exact ⟨(w.retain s.references).modify j fun o => { o with slots := o.slots.put k s },
      .release rfl rfl (fun _ _ => rfl) fun _ => rfl⟩
  | @freeze _ w j =>
    exact ⟨w, .quiet rfl (fun _ => rfl) (fun _ _ => rfl) fun id _ =>
      (w.heap.waiting_modify id j Object.freeze fun _ => rfl).trans (w.heap.waiting_eq_map id)⟩
  | @prevent _ w j =>
    exact ⟨w, .quiet rfl (fun _ => rfl) (fun _ _ => rfl) fun id _ =>
      (w.heap.waiting_modify id j (fun o => { o with extensible := false })
        fun _ => rfl).trans (w.heap.waiting_eq_map id)⟩
  | @finalize _ w j label hold _ _ =>
    exact ⟨w, .quiet rfl (fun _ => rfl) (fun _ _ => rfl) fun id _ => w.waiting_addFinalizer j _ id⟩
  | @store _ w cell v _ =>
    exact ⟨{ w.retain v.references with cells := w.cells.put cell v },
      .release rfl rfl (fun _ _ => rfl) fun _ => rfl⟩
  | @remark _ w =>
    exact ⟨w, .quiet rfl (fun plain => absurd rfl plain) (fun _ _ => rfl) fun id _ =>
      w.heap.waiting_eq_map id⟩
  | @openRegistry _ w config =>
    exact ⟨w, .quiet rfl (fun _ => rfl)
      (fun q spares => w.registry?_put (spares.unopened config rfl))
      fun id _ => w.heap.waiting_eq_map id⟩
  | @closeRegistry _ w r => exact Deed.comes_closeRegistry w r
  | @tag _ w r j t reg found free alive =>
    exact ⟨w, .quiet rfl (fun _ => rfl)
      (fun q spares => Host.registry?_modifyRegistry_other w _ (spares.ne rfl))
      fun id _ => Host.waiting_addFinalizer _ j _ id⟩
  | join found fresh differs kept alive => exact Deed.comes_join found fresh
  | @unpair _ w r box value reg found paired =>
    refine ⟨w, .quiet rfl (fun _ => ?_) (fun q spares => ?_) fun id _ => ?_⟩
    · rw [w.unpair_of_paired found paired]
      rfl
    · exact w.registry?_unpair_other (spares.ne rfl) box
    · rw [w.unpair_of_paired found paired]
      exact w.heap.waiting_eq_map id
  | @drain _ w r => exact Deed.comes_drain w r

end Comings

namespace Move

variable {d : Deed} {c c' : Client} {id : ObjectId} {q : RegistryId}

theorem waiting_eq (m : Move d c c') (other : d.born? c.host ≠ some id) :
    c'.host.heap.waiting id = ((d.parted c.host).waiting id).map (· ++ d.registered id) := by
  obtain ⟨u, comes⟩ := m.comes
  exact comes.waiting id other

/-- A new object has no finalizers yet. -/
theorem waiting_born (m : Move d c c') (born : d.born? c.host = some id) :
    c'.host.heap.waiting id = some [] := by
  cases m with
  | @create _ w function _ =>
    cases born
    have next := w.heap.next_retain (Object.new function).bodyReferences
    have made := Heap.get?_create_same
      (w.heap.retain (Object.new function).bodyReferences) (.new function)
    rw [next] at made
    exact congrArg (Option.map Object.finalizers) made
  | _ => cases born

/-- Finalizers are added to objects that are alive afterwards. -/
theorem alive_of_registered (m : Move d c c') (s : c.Sound) (added : d.registered id ≠ []) :
    c'.host.isAlive id = true := by
  have only : ∀ {j : ObjectId} {f : Finalizer}, (if id = j then [f] else []) ≠ [] → id = j :=
    fun added => by
      by_contra ne
      exact added (if_neg ne)
  have kept : ∀ {w : Host} (j : ObjectId) (f : Finalizer), w.isAlive j = true →
      (w.addFinalizer j f).isAlive j = true := fun {w} j f alive => by
    rw [Host.isAlive, Heap.isAlive_eq_waiting] at alive ⊢
    rw [Host.waiting_addFinalizer, Option.isSome_map]
    exact alive
  have sound := m.sound s
  cases m with
  | finalize living _ =>
    rw [only added]
    exact kept _ _ living
  | tag _ _ alive =>
    rw [only added]
    exact kept _ _ alive
  | join _ _ _ held _ =>
    rw [only added]
    exact sound.accounted.alive_outside (Multiset.mem_add.2 (Or.inl held))
  | _ => exact absurd rfl added

/-- Of the old objects, those live on that survive the release of a deed. -/
theorem alive_eq (m : Move d c c') (other : d.born? c.host ≠ some id) :
    c'.host.isAlive id = (d.parted c.host).isAlive id := by
  rw [Host.isAlive, Heap.isAlive_eq_waiting, m.waiting_eq other, Option.isSome_map,
    ← Heap.isAlive_eq_waiting]

/-- Unless it is a remark, a deed logs what its release does, and nothing else. -/
theorem logs (m : Move d c c') (plain : d ≠ .remark) :
    c'.host.events = c.host.events ++
      ((d.letting c.host).1.course ((d.letting c.host).2.map .release)).filterMap
        fun step => step.2.event? := by
  obtain ⟨u, comes⟩ := m.comes
  rw [comes.logged plain, Host.events_release, comes.heap, comes.unlogged]

/-- A registry that a deed is not about hears of what dies in its release, and of nothing else. -/
theorem hears (m : Move d c c') (spares : d.Spares c.host q) :
    c'.host.registry? q = (c.host.registry? q).map
      (·.enqueueAll (Effect.pushes q ((d.letting c.host).1.release (d.letting c.host).2).2)) := by
  obtain ⟨u, comes⟩ := m.comes
  rw [comes.after q spares, Host.registry?_release, comes.heap, comes.before q spares]

end Move

/-- Who survives the release of a deed keeps the finalizers that waited for its death. -/
theorem Deed.waiting_parted {d : Deed} {w : Host} {id : ObjectId}
    (alive : (d.parted w).isAlive id = true) : (d.parted w).waiting id = w.heap.waiting id := by
  obtain ⟨u, living⟩ := (Heap.isAlive_iff _ id).1 alive
  obtain ⟨o, n, found, rfl⟩ := (Heap.cascade_settle _ _).survivor living
  rw [← d.waiting_letting, Heap.waiting, Heap.waiting, living, found]
  rfl

/-- What a release kills is what a registry hears of, once for each watch. -/
theorem Deed.count_heard (d : Deed) (w : Host) (q : RegistryId) (id : ObjectId) :
    (Effect.pushes q ((d.letting w).1.release (d.letting w).2).2).count id =
      if (d.parted w).isAlive id then 0 else w.heap.watches q id := by
  rw [Heap.count_pushes_release, ← parted, Heap.watches_eq_waiting, d.waiting_letting,
    ← Heap.watches_eq_waiting]

end Compound
