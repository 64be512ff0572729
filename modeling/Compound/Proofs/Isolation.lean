import Compound.Proofs.Partings
import Compound.Proofs.Reclaim

/-!
Registries side by side. All registries share the objects, so what is done to one of them may kill
objects that another one holds entries of. The other one hears of these deaths, and that is all:
its entries stay as they are, and about the living it answers as before. What is done to objects
alone is done to no registry.
-/
namespace Compound

/-- From one host to the other a registry has at most heard of deaths: of each object that is
dead at the end, once for every watch that it had on the object at the start. -/
structure Host.Overhears (w w' : Host) (q : RegistryId) (pushed : List ObjectId) : Prop where
  registry : w'.registry? q = (w.registry? q).map (·.enqueueAll pushed)
  heard : ∀ id, pushed.count id = if w'.isAlive id then 0 else w.heap.watches q id
  watched : ∀ id, w'.isAlive id = true → w'.heap.watches q id = w.heap.watches q id

theorem Heap.watches_of_dead {h : Heap} {id : ObjectId} (dead : h.isAlive id = false)
    (q : RegistryId) : h.watches q id = 0 := by
  rw [watches, (isAlive_eq_false h id).1 dead, Option.elim_none]

/-- A watch that a deed adds is one of the registry that the deed is about. -/
theorem Deed.count_registered {d : Deed} {q : RegistryId} (other : d.addressed? ≠ some q)
    (id : ObjectId) : (d.registered id).count (.watch q) = 0 := by
  rw [List.count_eq_zero]
  have ne : ∀ {r}, d.addressed? = some r → q ≠ r := fun is eq => other (eq ▸ is)
  cases d with
  | finalize j label hold =>
    rw [registered]
    split <;> simp
  | tag r j t =>
    rw [registered]
    split <;> simp [ne rfl]
  | join r j v =>
    rw [registered]
    split <;> simp [ne rfl]
  | _ => exact List.not_mem_nil

namespace Host.Overhears

variable {w w₁ w₂ : Host} {q : RegistryId} {a b : List ObjectId}

theorem refl (w : Host) (q : RegistryId) : w.Overhears w q [] := by
  refine ⟨by cases w.registry? q <;> simp, fun id => ?_, fun _ _ => rfl⟩
  cases alive : w.isAlive id with
  | true => rfl
  | false => exact (Heap.watches_of_dead alive q).symm

theorem trans (o : w.Overhears w₁ q a) (o' : w₁.Overhears w₂ q b)
    (e : w.heap.Evolves w₁.heap) (e' : w₁.heap.Evolves w₂.heap)
    (bounded : ∀ id o, w.heap.get? id = some o → id < w.heap.next) :
    w.Overhears w₂ q (a ++ b) := by
  -- what is dead in between and alive at the end did not exist at the start
  have unborn : ∀ id, w₁.isAlive id = false → w₂.isAlive id = true → w.heap.watches q id = 0 := by
    intro id dead alive
    cases found : w.heap.get? id with
    | none => exact Heap.watches_of_dead ((Heap.isAlive_eq_false _ id).2 found) q
    | some u =>
      have old := Nat.lt_of_lt_of_le (bounded id u found) e.next_le
      have gone := e'.absent old ((Heap.isAlive_eq_false _ id).1 dead)
      rw [isAlive, (Heap.isAlive_eq_false _ id).2 gone] at alive
      cases alive
  refine ⟨?_, fun id => ?_, fun id alive => ?_⟩
  · rw [o'.registry, o.registry, Option.map_map]
    congr 1
    funext reg
    simp only [Function.comp_apply, Registry.enqueueAll, List.append_assoc]
  · rw [List.count_append, o.heard, o'.heard]
    cases between : w₁.isAlive id with
    | true => rw [if_pos rfl, Nat.zero_add, o.watched id between]
    | false =>
      rw [if_neg Bool.false_ne_true, Heap.watches_of_dead between, ite_self, Nat.add_zero]
      split
      · rename_i alive
        exact unborn id between alive
      · rfl
  · rw [o'.watched id alive]
    cases between : w₁.isAlive id with
    | true => exact o.watched id between
    | false => rw [Heap.watches_of_dead between, unborn id between alive]

end Host.Overhears

section Hearing

variable {c c' : Client} {q : RegistryId}

theorem Move.overhears {d : Deed} (m : Move d c c') (s : c.Sound) (spares : d.Spares c.host q) :
    ∃ pushed, c.host.Overhears c'.host q pushed := by
  have unborn : ∀ {id}, d.born? c.host = some id → c.host.heap.watches q id = 0 := fun born =>
    Heap.watches_of_dead (d.dead_of_born s born) q
  refine ⟨_, m.hears spares, fun id => ?_, fun id alive => ?_⟩
  · rw [d.count_heard]
    by_cases born : d.born? c.host = some id
    · rw [unborn born, ite_self, ite_self]
    · rw [m.alive_eq born]
  · by_cases born : d.born? c.host = some id
    · rw [Heap.watches_eq_waiting, m.waiting_born born, unborn born]
      rfl
    · rw [Heap.watches_eq_waiting, m.waiting_eq born, Heap.watches_eq_waiting,
        Deed.waiting_parted (m.alive_eq born ▸ alive)]
      cases c.host.heap.waiting id with
      | none => rfl
      | some fs => simp [Deed.count_registered spares.unaddressed]

/-- However long a run is, an open registry at most hears of deaths if the run is not about it. -/
theorem Moves.overhears {allowed : Deed → Prop} (m : Moves allowed c c') (s : c.Sound)
    (other : ∀ d, allowed d → d.addressed? ≠ some q)
    (opened : ∃ reg, c.host.registry? q = some reg) :
    ∃ pushed, c.host.Overhears c'.host q pushed := by
  induction m with
  | refl => exact ⟨[], .refl c.host q⟩
  | @tail c₁ c₂ first last ih =>
    obtain ⟨d, ok, move⟩ := last
    obtain ⟨a, o⟩ := ih
    have sound := Moves.sound first s
    obtain ⟨reg, found⟩ := opened
    have open₁ : c₁.host.registry? q = some (reg.enqueueAll a) := by
      rw [o.registry, found, Option.map_some]
    obtain ⟨b, o'⟩ := move.overhears sound
      ⟨fun _ _ => Nat.ne_of_lt (sound.numbered q _ open₁), other d ok⟩
    exact ⟨a ++ b, o.trans o' (Moves.evolves first) move.evolves s.accounted.bounded⟩

end Hearing

namespace Host

variable {held held' : Multiset ObjectId} {w w' : Host} {q : RegistryId} {reg : Registry}
  {pushed : List ObjectId}

/-- A registry that has at most heard of deaths finds the living boxes that it found before, except
those that have died. -/
theorem livingBox_of_overhears (s : Client.Sound ⟨held, w⟩) (s' : Client.Sound ⟨held', w'⟩)
    (e : w.heap.Evolves w'.heap) (found : w.registry? q = some reg)
    (o : w.Overhears w' q pushed) (v : Value) :
    (w'.livingBox q v).1 = (w.livingBox q v).1.filter w'.isAlive := by
  have found' : w'.registry? q = some (reg.enqueueAll pushed) := by
    rw [o.registry, found, Option.map_some]
  cases h : v.identity with
  | none => simp [livingBox, boxOf?, h]
  | some value =>
    rw [Value.identity_eq_some h]
    apply Option.ext
    intro box
    have before : (w.livingBox q (.object value)).1 = some box ↔ _ := boxOf?_iff s
    have after : (w'.livingBox q (.object value)).1 = some box ↔ _ := boxOf?_iff s'
    rw [after, Option.filter_eq_some_iff, before, pairing_of_found found', pairing_of_found found,
      Registry.enqueueAll_pairing]
    constructor
    · rintro ⟨paired, alive⟩
      exact ⟨⟨paired, e.alive (s.known_of_paired found paired) alive⟩, alive⟩
    · rintro ⟨⟨paired, -⟩, alive⟩
      exact ⟨paired, alive⟩

/-- About what has lived on, it answers as before. -/
theorem agrees_of_overhears (s : Client.Sound ⟨held, w⟩) (e : w.heap.Evolves w'.heap)
    (found : w.registry? q = some reg) (o : w.Overhears w' q pushed) {v : Value}
    (old : ∀ id ∈ v.references, w.isAlive id = true)
    (alive : ∀ id ∈ v.references, w'.isAlive id = true) : w.Agrees w' q v := by
  have found' : w'.registry? q = some (reg.enqueueAll pushed) := by
    rw [o.registry, found, Option.map_some]
  refine Agrees.of_entries found found' (fun _ _ => rfl) (fun _ _ => rfl) fun id inside => ?_
  obtain ⟨u, living⟩ := (Heap.isAlive_iff _ id).1 (old id inside)
  exact function?_of_evolves e (s.accounted.bounded id u living) (alive id inside)

end Host

namespace Session

/-- A step is about a registry. Opening one under a name is also about those that had the name. -/
def Addresses (s : Session) (t : Step) (q : RegistryId) : Prop :=
  ∃ name, t.registryName? = some name ∧
    (s.registry name = .ok q ∨ (∃ config, t = .openRegistry name config) ∧ (name, q) ∈ s.registries)

variable {s : Session} {t : Step} {q : RegistryId}

theorem addresses_of_allows {d : Deed} (allows : s.Allows t d) (about : d.addressed? = some q) :
    s.Addresses t q := by
  rcases allows with plain | asks
  · cases d with
    | retain | release | create | write | freeze | prevent | finalize | store | remark =>
      cases about
    | openRegistry | closeRegistry | tag | join | unpair | drain => cases plain
  · cases t with
    | openRegistry name config =>
      rcases asks with ⟨_, rfl⟩ | ⟨r, inside, rfl⟩
      · cases about
      · cases about
        exact ⟨name, rfl, Or.inr ⟨⟨config, rfl⟩, inside⟩⟩
    | closeRegistry name =>
      obtain ⟨r, found, rfl⟩ := asks
      cases about
      exact ⟨name, rfl, Or.inl found⟩
    | tagRecord name h | tagTuple name h length =>
      obtain ⟨r, id, found, rfl | rfl⟩ := asks <;> cases about <;>
        exact ⟨name, rfl, Or.inl (target_eq_ok.1 found).1⟩
    | pair name h v =>
      obtain ⟨r, box, v, found, -, rfl | ⟨value, -, rfl⟩⟩ := asks <;> cases about <;>
        exact ⟨name, rfl, Or.inl (target_eq_ok.1 found).1⟩
    | box name v keep =>
      obtain ⟨r, v, found, rfl | ⟨box, value, -, rfl⟩⟩ := asks <;> cases about <;>
        exact ⟨name, rfl, Or.inl (subject_eq_ok.1 found).1⟩
    | release name h keep =>
      obtain ⟨r, box, found, rfl⟩ := asks
      cases about
      exact ⟨name, rfl, Or.inl (target_eq_ok.1 found).1⟩
    | reclaim name =>
      obtain ⟨r, found, rfl⟩ := asks
      cases about
      exact ⟨name, rfl, Or.inl found⟩
    | _ => exact asks.elim

/-- In every session that a script reaches, a step leaves each open registry alone that it is not
about, whether the step fails or not. All that happens to such a registry is that its queue hears
of the objects that it watched and that the step has killed. So it answers all questions about
objects that live on as before, and it finds the same living boxes except those that have died. -/
theorem bystander_overhears (reach : s.Reachable) {reg : Registry}
    (found : s.host.registry? q = some reg) (other : ¬s.Addresses t q) :
    ∃ pushed,
      Host.registry? (s.answer t).2.host q = some { reg with queue := reg.queue ++ pushed } ∧
      (∀ id, pushed.count id =
        if (s.answer t).2.host.isAlive id then 0 else s.host.heap.watches q id) ∧
      (∀ v : Value, (∀ id ∈ v.references, s.host.isAlive id = true) →
        (∀ id ∈ v.references, (s.answer t).2.host.isAlive id = true) →
          s.host.Agrees (s.answer t).2.host q v) ∧
      ∀ v, ((s.answer t).2.host.livingBox q v).1 =
        (s.host.livingBox q v).1.filter (s.answer t).2.host.isAlive := by
  have sound := reach.sound
  have moves := moves_answer sound t
  have sound' := sound_answer sound t
  obtain ⟨pushed, o⟩ := moves.overhears sound.client
    (fun d allows about => other (addresses_of_allows allows about)) ⟨reg, found⟩
  refine ⟨pushed, o.registry.trans (congrArg _ found), o.heard, fun v old alive => ?_, fun v => ?_⟩
  · exact Host.agrees_of_overhears sound.client moves.evolves found o old alive
  · exact Host.livingBox_of_overhears sound.client sound'.client moves.evolves found o v

/-- Closing one registry kills a Record of another one, and with the Record a box that it held. The
other registry hears of both, no longer finds the box, and says of its Tuple what it said before. -/
theorem bystander_overhears_close :
    let s := (start (some false)).run [.openRegistry "other" (.reclaiming false),
      .create (some "record"), .create (some "box"), .create (some "value"),
      .create (some "inner"), .create (some "tuple"), .tagRecord "other" "record",
      .tagTuple "other" "tuple" 2, .pair "r" "box" (.handle "record"),
      .pair "other" "inner" (.handle "value"), .set "record" (.name "k") (.handle "inner"),
      .drop "record", .drop "inner"]
    let s' := (s.answer (.closeRegistry "r")).2
    (∃ pushed, (s'.host.registry? 1).map (·.queue) = some pushed ∧ pushed.count 1 = 1 ∧
      pushed.count 4 = 1 ∧ pushed.count 5 = 0) ∧
      (s.host.livingBox 1 (.object 3)).1 = some 4 ∧ (s'.host.livingBox 1 (.object 3)).1 = none ∧
      s.host.Agrees s'.host 1 (.object 5) := by
  intro s s'
  have reach : s.Reachable := ⟨_, _, rfl⟩
  obtain ⟨reg, found⟩ : ∃ reg, s.host.registry? 1 = some reg :=
    Option.isSome_iff_exists.1 (by decide +kernel)
  have idle : (s.host.registry? 1).map (·.queue) = some [] := by decide +kernel
  rw [found, Option.map_some, Option.some.injEq] at idle
  have other : ¬s.Addresses (.closeRegistry "r") 1 := by
    rintro ⟨name, named, named' | ⟨⟨config, opens⟩, -⟩⟩
    · cases named
      have closes : s.registry "r" = .ok 0 := by decide +kernel
      rw [closes] at named'
      cases named'
    · cases opens
  obtain ⟨pushed, heard, counts, agrees, finds⟩ := bystander_overhears reach found other
  have before : (s.host.livingBox 1 (.object 3)).1 = some 4 := by decide +kernel
  have died : s'.host.isAlive 1 = false ∧ s'.host.isAlive 4 = false ∧
      s'.host.isAlive 5 = true := by decide +kernel
  have watched : s.host.heap.watches 1 1 = 1 ∧ s.host.heap.watches 1 4 = 1 := by decide +kernel
  refine ⟨⟨pushed, ?_, ?_, ?_, ?_⟩, before, ?_, agrees _ ?_ ?_⟩
  · rw [heard, Option.map_some, idle, List.nil_append]
  · rw [counts 1, died.1, if_neg Bool.false_ne_true, watched.1]
  · rw [counts 4, died.2.1, if_neg Bool.false_ne_true, watched.2]
  · rw [counts 5, died.2.2, if_pos rfl]
  · rw [finds (.object 3), before, Option.filter_some, died.2.1]
    rfl
  · intro id inside
    rw [List.mem_singleton.1 inside]
    decide +kernel
  · intro id inside
    rw [List.mem_singleton.1 inside]
    exact died.2.2

end Session

end Compound
