import Compound.Proofs.Soundness

/-!
Runs of moves. A run may be limited to some deeds, and what is shown of runs is by
induction over their moves: a client stays sound, objects evolve, and what a client keeps
it keeps for as long as it does not let go more than it takes. A client keeps the objects
that it holds and whatever the functions that it keeps have captured.
-/
namespace Compound

/-- One client comes of another by allowed deeds. -/
def Moves (allowed : Deed → Prop) : Client → Client → Prop :=
  Relation.ReflTransGen fun c c' => ∃ d, allowed d ∧ Move d c c'

/-- Only objects are touched. -/
def Deed.plain (d : Deed) : Prop := d.isPlain = true

/-- References are counted or something is told, and that is all. -/
inductive Deed.Light : Deed → Prop
  | retain (ids : List ObjectId) : Light (.retain ids)
  | release (ids : List ObjectId) : Light (.release ids)
  | remark : Light .remark

theorem Deed.Light.plain {d : Deed} (light : d.Light) : d.plain := by cases light <;> rfl

namespace Host

variable (w : Host)

theorem evolves_release (ids : List ObjectId) : w.heap.Evolves (w.release ids).heap :=
  .cascade (w.cascade_release ids)

theorem evolves_modify (id : ObjectId) (f : Object → Object)
    (keeps : ∀ o, (f o).function = o.function ∧ o.finalizers <+: (f o).finalizers) :
    w.heap.Evolves (w.modify id f).heap :=
  .modify w.heap id f keeps

theorem evolves_retain (ids : List ObjectId) : w.heap.Evolves (w.retain ids).heap :=
  .retain w.heap ids

theorem evolves_writeSlot (id : ObjectId) (k : Key) (s : Slot) :
    w.heap.Evolves (w.writeSlot id k s).heap := by
  have retained := w.evolves_retain s.references
  have written := (w.retain s.references).evolves_modify id
    (fun o => { o with slots := o.slots.put k s }) fun o => ⟨rfl, List.prefix_rfl⟩
  exact (retained.trans written).trans (evolves_release _ _)

theorem evolves_addFinalizer (id : ObjectId) (f : Finalizer) :
    w.heap.Evolves (w.addFinalizer id f).heap := by
  have added := (w.retain f.references).evolves_modify id
    (fun o => { o with finalizers := o.finalizers ++ [f] })
    fun o => ⟨rfl, List.prefix_append _ _⟩
  exact (w.evolves_retain f.references).trans added

theorem evolves_create (function : Option Function) :
    w.heap.Evolves (w.create function).2.heap :=
  (w.evolves_retain _).trans (Heap.Evolves.create _ _)

theorem evolves_store (cell : String) (v : Value) : w.heap.Evolves (w.store cell v).heap := by
  have released := evolves_release { w.retain v.references with cells := w.cells.put cell v }
    (w.cell cell).references
  exact (w.evolves_retain v.references).trans released

theorem evolves_closeRegistry (r : RegistryId) : w.heap.Evolves (w.closeRegistry r).heap := by
  rw [closeRegistry]
  cases w.registry? r with
  | none => exact .refl _
  | some reg => exact evolves_release { w with registries := w.registries.erase r } _

/-- All that a reclaim does to objects is to let some of them go. -/
theorem cascade_reclaim (r : RegistryId) :
    ∃ dues effects, Heap.Cascade w.heap dues (w.reclaim r).2.heap effects := by
  rcases w.reclaim_cases r with ⟨same, -⟩ | ⟨reg, -, -, same⟩
  · rw [same]
    exact ⟨[], [], .done _⟩
  · rw [same]
    exact ⟨_, _, cascade_release (w.modifyRegistry r fun _ => reg.drained) _⟩

theorem evolves_reclaim (r : RegistryId) : w.heap.Evolves (w.reclaim r).2.heap := by
  obtain ⟨dues, effects, cascade⟩ := w.cascade_reclaim r
  exact .cascade cascade

theorem evolves_join (r : RegistryId) (box value : ObjectId) (pairs : Pairing)
    (released : Option ObjectId) : w.heap.Evolves (w.join r box value pairs released).heap :=
  ((w.evolves_retain [value]).trans
    (evolves_release (w.enter r box value pairs) released.toList)).trans
      (evolves_addFinalizer _ box (.watch r))

theorem evolves_unpair (r : RegistryId) (box : ObjectId) :
    w.heap.Evolves (w.unpair r box).2.heap := by
  rw [unpair]
  split <;> exact .refl _

end Host

theorem Move.evolves {d : Deed} {c c' : Client} (m : Move d c c') :
    c.host.heap.Evolves c'.host.heap := by
  cases m with
  | retain => exact .retain _ _
  | release => exact Host.evolves_release _ _
  | create => exact Host.evolves_create _ _
  | write => exact Host.evolves_writeSlot _ _ _ _
  | freeze => exact Host.evolves_modify _ _ _ fun o => ⟨rfl, List.prefix_rfl⟩
  | prevent => exact Host.evolves_modify _ _ _ fun o => ⟨rfl, List.prefix_rfl⟩
  | finalize => exact Host.evolves_addFinalizer _ _ _
  | store => exact Host.evolves_store _ _ _
  | remark => exact .refl _
  | openRegistry => exact .refl _
  | closeRegistry => exact Host.evolves_closeRegistry _ _
  | tag => exact Host.evolves_addFinalizer _ _ _
  | join => exact Host.evolves_join _ _ _ _ _ _
  | unpair => exact Host.evolves_unpair _ _ _
  | drain => exact Host.evolves_reclaim _ _

namespace Moves

variable {allowed allowed' : Deed → Prop} {c c' c'' : Client} {held : Multiset ObjectId}
  {w w' : Host}

theorem refl (c : Client) : Moves allowed c c := Relation.ReflTransGen.refl

theorem one {d : Deed} (m : Move d c c') (ok : allowed d) : Moves allowed c c' :=
  Relation.ReflTransGen.single ⟨d, ok, m⟩

theorem trans (m : Moves allowed c c') (m' : Moves allowed c' c'') : Moves allowed c c'' :=
  Relation.ReflTransGen.trans m m'

theorem mono (m : Moves allowed c c') (le : ∀ d, allowed d → allowed' d) : Moves allowed' c c' := by
  induction m with
  | refl => exact refl c
  | tail _ last ih =>
    obtain ⟨d, ok, move⟩ := last
    exact ih.trans (one move (le d ok))

theorem sound (m : Moves allowed c c') (s : c.Sound) : c'.Sound := by
  induction m with
  | refl => exact s
  | tail _ last ih =>
    obtain ⟨d, -, move⟩ := last
    exact move.sound ih

theorem evolves (m : Moves allowed c c') : c.host.heap.Evolves c'.host.heap := by
  induction m with
  | refl => exact .refl _
  | tail _ last ih =>
    obtain ⟨d, -, move⟩ := last
    exact ih.trans move.evolves

/-- Give references up, in whatever order they are held. -/
theorem release {held' : Multiset ObjectId} {ids : List ObjectId} (ok : allowed (.release ids))
    (parts : held = held' + (ids : Multiset ObjectId)) :
    Moves allowed ⟨held, w⟩ ⟨held', w.release ids⟩ := by
  rw [parts]
  exact one .release ok

end Moves

/-- What a client can count on: what it holds, and what is captured by a function that it
can count on. -/
inductive Client.Keeps (c : Client) : ObjectId → Prop
  | held {id : ObjectId} (held : id ∈ c.held) : Keeps c id
  | captured {f id : ObjectId} {function : Function} (kept : Keeps c f)
      (found : c.host.function? f = some function) (inside : id ∈ function.body.references) :
      Keeps c id

namespace Client.Keeps

variable {c c' : Client} {id : ObjectId}

theorem function?_eq_some {w : Host} {f : ObjectId} {function : Function} :
    w.function? f = some function ↔ ∃ o, w.object? f = some o ∧ o.function = some function := by
  rw [Host.function?, Option.bind_eq_some_iff]

theorem alive (k : c.Keeps id) (s : c.Sound) : c.host.isAlive id = true := by
  induction k with
  | held held => exact s.accounted.alive_outside (Multiset.mem_add.2 (Or.inl held))
  | @captured f id function kept found inside ih =>
    obtain ⟨o, living, is⟩ := function?_eq_some.1 found
    apply s.accounted.alive_references living
    simp [Object.references, Object.bodyReferences, is, inside]

/-- What a client keeps it still keeps if it holds no less than before. -/
theorem after {allowed : Deed → Prop} (k : c.Keeps id) (m : Moves allowed c c') (s : c.Sound)
    (le : c.held ≤ c'.held) : c'.Keeps id := by
  induction k with
  | held held => exact .held (Multiset.mem_of_le le held)
  | @captured f id function kept found inside ih =>
    obtain ⟨o, living, is⟩ := function?_eq_some.1 found
    obtain ⟨o', living'⟩ := (Heap.isAlive_iff _ f).1 (ih.alive (m.sound s))
    obtain ⟨o₀, living₀, same, -⟩ :=
      m.evolves.survivor f o' (s.accounted.bounded f o living) living'
    have : o₀ = o := Option.some.inj (living₀.symm.trans living)
    exact .captured ih (function?_eq_some.2 ⟨o', living', by rw [same, this, is]⟩) inside

end Client.Keeps

end Compound
