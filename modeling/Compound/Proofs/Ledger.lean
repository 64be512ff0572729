import Compound.Proofs.Entries
import Compound.Proofs.Finality
import Mathlib.Algebra.Order.BigOperators.Group.Finset

/-!
What the queues of registries owe to the past, in every session that a script can reach. An object
is watched by a registry as often as it was enrolled there, and when it dies the registry is told
as often. So the length of a queue is the sum of what the script has enrolled of those objects that
have died since the queue was last emptied.
-/
namespace Compound

namespace Heap

theorem watches_eq_pending (h : Heap) (r : RegistryId) (id : ObjectId) :
    h.watches r id = (h.pending id).count (.watch r) := by
  rw [pending_eq, watches]
  cases h.get? id <;> rfl

instance (h : Heap) (id : ObjectId) : Decidable (h.Buried id) :=
  inferInstanceAs (Decidable (h.get? id = none ∧ id < h.next))

end Heap

/-- The queue of a registry, which is empty if the registry is not open. -/
def Host.queue (w : Host) (r : RegistryId) : List ObjectId := (w.registry? r).elim [] Registry.queue

theorem Host.queue_of_found {w : Host} {r : RegistryId} {reg : Registry}
    (found : w.registry? r = some reg) : w.queue r = reg.queue := by
  rw [queue, found, Option.elim_some]

/-- A deed adds a watch to the object that it enrolls. -/
theorem Deed.count_registered_eq (d : Deed) (r : RegistryId) (id : ObjectId) :
    (d.registered id).count (.watch r) = if d.enrolls? = some (r, id) then 1 else 0 := by
  have single : ∀ (q : RegistryId) (j : ObjectId),
      (if id = j then [Finalizer.watch q] else []).count (.watch r) =
        if some (q, j) = some (r, id) then 1 else 0 := by
    intro q j
    by_cases same : id = j
    · subst same
      by_cases same' : q = r <;> simp [same']
    · simp [same, Ne.symm same]
  cases d with
  | finalize j label hold =>
    rw [registered]
    split <;> simp [enrolls?]
  | tag q j t => exact single q j
  | join q j v => exact single q j
  | _ => rfl

theorem Deed.addressed_of_drained (d : Deed) {r : RegistryId} (drains : d.drained? = some r) :
    d.addressed? = some r := by
  cases d with
  | drain q => exact drains
  | _ => cases drains

/-- The queue of a registry in the second host is a base and then those who were watched in the
first one and have died. -/
def Host.Queues (w w' : Host) (r : RegistryId) (base : List ObjectId) : Prop :=
  ∃ told, w'.queue r = base ++ told ∧
    ∀ id, told.count id = if w'.isAlive id then 0 else w.heap.watches r id

/-- Where nobody dies, nobody is queued. -/
theorem Host.Queues.of_spared {w w' : Host} {r : RegistryId} {base : List ObjectId}
    (same : w'.queue r = base) (spared : ∀ id, w'.isAlive id = w.isAlive id) :
    w.Queues w' r base := by
  refine ⟨[], same.trans (List.append_nil _).symm, fun id => ?_⟩
  rw [spared]
  cases alive : w.isAlive id with
  | true => rfl
  | false => exact (Heap.watches_of_dead alive r).symm

/-- Whoever is watched is watched by registries that were opened. -/
def Host.WatchedByOpened (w : Host) : Prop :=
  ∀ r id, 0 < w.heap.watches r id → r < w.nextRegistry

namespace Heap

/-- The objects that have died from one heap to the other. -/
def died (h h' : Heap) : Finset ObjectId :=
  {id ∈ Finset.range h'.next | h'.isAlive id = false ∧ ¬h.Buried id}

theorem mem_died {h h' : Heap} {id : ObjectId} :
    id ∈ h.died h' ↔ id < h'.next ∧ h'.isAlive id = false ∧ ¬h.Buried id := by
  rw [died, Finset.mem_filter, Finset.mem_range]

/-- From one heap to the other objects have been enrolled anew in a registry some number of times,
none of them dead by then, and the registry was told of those that died. -/
structure Ledger (h h' : Heap) (r : RegistryId) (told : List ObjectId) (anew : ObjectId → Nat) :
    Prop where
  evolves : h.Evolves h'
  told : ∀ id, told.count id = if h'.isAlive id then 0 else h.watches r id + anew id
  watched : ∀ id, h'.isAlive id = true → h'.watches r id = h.watches r id + anew id
  met : ∀ id, 0 < anew id → ¬h.Buried id ∧ id < h'.next

namespace Ledger

variable {h h₁ h₂ : Heap} {r : RegistryId} {a b : List ObjectId} {m n : ObjectId → Nat}

theorem refl (h : Heap) (r : RegistryId) : h.Ledger h r [] fun _ => 0 := by
  refine ⟨.refl _, fun id => ?_, fun _ _ => rfl, fun id pos => absurd pos (Nat.lt_irrefl 0)⟩
  cases alive : h.isAlive id with
  | true => rfl
  | false => exact (watches_of_dead alive r).symm

theorem unmet_of_buried (l : h.Ledger h₁ r a m) {id : ObjectId} (buried : h.Buried id) :
    m id = 0 := by
  by_contra some
  exact (l.met id (Nat.pos_of_ne_zero some)).1 buried

theorem unmet_of_new (l : h.Ledger h₁ r a m) {id : ObjectId} (new : ¬id < h₁.next) :
    m id = 0 := by
  by_contra some
  exact new (l.met id (Nat.pos_of_ne_zero some)).2

/-- What is dead in between and alive at the end was not there at the start. -/
theorem unborn (l : h.Ledger h₁ r a m) (e : h₁.Evolves h₂)
    (bounded : ∀ id o, h.get? id = some o → id < h.next) {id : ObjectId}
    (dead : h₁.isAlive id = false) (alive : h₂.isAlive id = true) :
    h.watches r id = 0 ∧ m id = 0 := by
  have new : ¬id < h₁.next := fun old => by
    have lived := e.alive old alive
    rw [lived] at dead
    cases dead
  constructor
  · cases found : h.get? id with
    | none => exact watches_of_dead ((isAlive_eq_false _ id).2 found) r
    | some o => exact absurd (Nat.lt_of_lt_of_le (bounded id o found) l.evolves.next_le) new
  · exact l.unmet_of_new new

theorem trans (l : h.Ledger h₁ r a m) (l' : h₁.Ledger h₂ r b n)
    (bounded : ∀ id o, h.get? id = some o → id < h.next) :
    h.Ledger h₂ r (a ++ b) fun id => m id + n id := by
  refine ⟨l.evolves.trans l'.evolves, fun id => ?_, fun id alive => ?_, fun id pos => ?_⟩
  · rw [List.count_append, l.told, l'.told]
    cases between : h₁.isAlive id with
    | true =>
      rw [if_pos rfl, Nat.zero_add, l.watched id between]
      split <;> omega
    | false =>
      rw [if_neg Bool.false_ne_true, watches_of_dead between]
      split
      · rename_i alive
        obtain ⟨unwatched, unmet⟩ := l.unborn l'.evolves bounded between alive
        rw [unwatched, unmet]
      · omega
  · rw [l'.watched id alive]
    cases between : h₁.isAlive id with
    | true =>
      rw [l.watched id between]
      omega
    | false =>
      obtain ⟨unwatched, unmet⟩ := l.unborn l'.evolves bounded between alive
      rw [watches_of_dead between, unwatched, unmet]
      omega
  · by_cases first : 0 < m id
    · exact ⟨(l.met id first).1, Nat.lt_of_lt_of_le (l.met id first).2 l'.evolves.next_le⟩
    · obtain ⟨unburied, lt⟩ := l'.met id (by omega)
      exact ⟨fun buried => unburied (l.evolves.buried buried), lt⟩

/-- Whoever is not dead by now is watched as often as it was enrolled since nobody was watched. -/
theorem watches_eq (l : h.Ledger h₁ r a m) (unwatched : ∀ id, h.watches r id = 0) {id : ObjectId}
    (unburied : ¬h₁.Buried id) : h₁.watches r id = m id := by
  cases alive : h₁.isAlive id with
  | true => rw [l.watched id alive, unwatched, Nat.zero_add]
  | false =>
    rw [watches_of_dead alive]
    exact (l.unmet_of_new fun old => unburied ⟨(isAlive_eq_false _ id).1 alive, old⟩).symm

/-- Whoever has died in the second part of the time was told of as often as it was enrolled since
nobody was watched, and no other one was told of. -/
theorem count_told (past : h.Ledger h₁ r a m) (present : h₁.Ledger h₂ r b n)
    (unwatched : ∀ id, h.watches r id = 0) (id : ObjectId) :
    b.count id = if id ∈ h₁.died h₂ then m id + n id else 0 := by
  rw [present.told]
  by_cases died : id ∈ h₁.died h₂
  · obtain ⟨-, dead, unburied⟩ := mem_died.1 died
    rw [dead, if_neg Bool.false_ne_true, if_pos died, past.watches_eq unwatched unburied]
  · rw [if_neg died]
    cases alive : h₂.isAlive id with
    | true => rfl
    | false =>
      rw [if_neg Bool.false_ne_true]
      by_cases buried : h₁.Buried id
      · rw [watches_of_dead ((isAlive_eq_false _ id).2 buried.1), present.unmet_of_buried buried]
      · have new : ¬id < h₂.next := fun lt => died (mem_died.2 ⟨lt, alive, buried⟩)
        have new' : ¬id < h₁.next := fun lt =>
          new (Nat.lt_of_lt_of_le lt present.evolves.next_le)
        rw [past.watches_eq unwatched buried, past.unmet_of_new new', present.unmet_of_new new]

/-- It was told of that many in all. -/
theorem length_told (past : h.Ledger h₁ r a m) (present : h₁.Ledger h₂ r b n)
    (unwatched : ∀ id, h.watches r id = 0) : b.length = ∑ id ∈ h₁.died h₂, (m id + n id) := by
  have counts := past.count_told present unwatched
  have all : ∀ id ∈ (b : Multiset ObjectId), id ∈ h₁.died h₂ := fun id told => by
    by_contra other
    have never := counts id
    rw [if_neg other, List.count_eq_zero] at never
    exact never told
  calc b.length = ∑ id ∈ h₁.died h₂, (b : Multiset ObjectId).count id :=
        (Multiset.sum_count_eq_card all).symm
    _ = ∑ id ∈ h₁.died h₂, (m id + n id) := by
        refine Finset.sum_congr rfl fun id died => ?_
        rw [Multiset.coe_count, counts, if_pos died]

end Ledger

end Heap

section Moving

variable {c c' : Client} {r : RegistryId} {id : ObjectId}

/-- A living object is watched once more by the registry that it is enrolled in. -/
theorem Move.watches_eq {d : Deed} (m : Move d c c') (s : c.Sound)
    (alive : c'.host.isAlive id = true) :
    c'.host.heap.watches r id =
      c.host.heap.watches r id + if d.enrolls? = some (r, id) then 1 else 0 := by
  rw [Heap.watches_eq_pending, m.pending_of_alive s alive, List.count_append,
    d.count_registered_eq, ← Heap.watches_eq_pending]

theorem Move.alive_of_enrolls {d : Deed} (m : Move d c c') (s : c.Sound)
    (enrolls : d.enrolls? = some (r, id)) : c'.host.isAlive id = true := by
  refine m.alive_of_registered s fun nothing => ?_
  have count := d.count_registered_eq r id
  rw [nothing, if_pos enrolls] at count
  cases count

theorem Move.watchedByOpened {d : Deed} (m : Move d c c') (s : c.Sound)
    (known : c.host.WatchedByOpened) : c'.host.WatchedByOpened := by
  intro q j watched
  have alive : c'.host.isAlive j = true := by
    cases alive : c'.host.isAlive j with
    | true => rfl
    | false =>
      rw [Heap.watches_of_dead alive] at watched
      cases watched
  rw [m.watches_eq s alive] at watched
  by_cases before : 0 < c.host.heap.watches q j
  · exact Nat.lt_of_lt_of_le (known q j before) m.nextRegistry_le
  · have enrolls : d.enrolls? = some (q, j) := by
      by_contra other
      rw [if_neg other] at watched
      exact before watched
    refine Nat.lt_of_lt_of_le ?_ m.nextRegistry_le
    cases m with
    | tag found => cases enrolls; exact s.numbered _ _ found
    | join found => cases enrolls; exact s.numbered _ _ found
    | _ => cases enrolls

theorem Moves.watchedByOpened {allowed : Deed → Prop} (m : Moves allowed c c') (s : c.Sound)
    (known : c.host.WatchedByOpened) : c'.host.WatchedByOpened := by
  induction m with
  | refl => exact known
  | tail first last ih =>
    obtain ⟨d, -, move⟩ := last
    exact move.watchedByOpened (Moves.sound first s) ih

/-- A registry that is not open has no queue, and nobody is watched for it. -/
theorem Move.queues_of_unopened {d : Deed} (m : Move d c c') (known : c.host.WatchedByOpened)
    (absent : c.host.registry? r = none) (unclosed : ¬c'.host.Closed r) :
    c.host.Queues c'.host r [] := by
  have unwatched : ∀ id, c.host.heap.watches r id = 0 := fun id => by
    by_contra watched
    exact unclosed (m.closed_of_closed ⟨absent, known r id (Nat.pos_of_ne_zero watched)⟩)
  refine ⟨[], ?_, fun id => by rw [unwatched, ite_self]; rfl⟩
  rw [Host.queue]
  rcases m.absent absent with gone | ⟨config, -, -, new⟩
  · rw [gone]
    rfl
  · rw [new]
    rfl

/-- What a move that is about an open registry does to its queue, unless it closes the registry. -/
theorem Move.queues_of_addressed {d : Deed} (m : Move d c c') {reg : Registry}
    (found : c.host.registry? r = some reg) (about : d.addressed? = some r)
    (still : c'.host.registry? r ≠ none) :
    c.host.Queues c'.host r (if d.drained? = some r then [] else reg.queue) := by
  cases m with
  | @tag _ w q j t reg' found' free alive =>
    cases about
    cases Option.some.inj (found.symm.trans found')
    have tagged := Host.registry?_modifyRegistry_same w r
      fun reg => { reg with tags := reg.tags.put j t }
    rw [found, Option.map_some] at tagged
    have queue := Host.queue_of_found tagged
    exact .of_spared queue fun id => Heap.isAlive_modify _ _ _ id
  | @join _ w q box value reg' pairs released found' fresh ne kept alive =>
    cases about
    cases Option.some.inj (found.symm.trans found')
    obtain ⟨told, entered, counts⟩ := Host.registry?_join_same found box value pairs released
    exact ⟨told, Host.queue_of_found entered, counts⟩
  | @unpair _ w q box value reg' found' paired =>
    cases about
    cases Option.some.inj (found.symm.trans found')
    have queue := Host.queue_of_found (Host.registry?_unpair_same found paired)
    refine .of_spared queue fun id => ?_
    rw [w.unpair_of_paired found paired]
    rfl
  | @drain _ w q =>
    cases about
    obtain ⟨told, swept, counts⟩ := Host.registry?_reclaim_same found
    have drains : (Deed.drain r).drained? = some r := rfl
    rw [if_pos drains]
    exact ⟨told, Host.queue_of_found swept, counts⟩
  | @closeRegistry _ w q =>
    cases about
    exact absurd (w.registry?_closeRegistry_same r) still
  | retain | release | create | write | freeze | prevent | finalize => cases about
  | store | remark | openRegistry => cases about

/-- All that a move does to the queue of a registry: it empties the queue first if it drains it, and
then the queue is told of the dead. -/
theorem Move.queues {d : Deed} (m : Move d c c') (s : c.Sound) (known : c.host.WatchedByOpened)
    (unclosed : ¬c'.host.Closed r) :
    c.host.Queues c'.host r (if d.drained? = some r then [] else c.host.queue r) := by
  cases found : c.host.registry? r with
  | none =>
    have empty : c.host.queue r = [] := by rw [Host.queue, found, Option.elim_none]
    rw [empty, ite_self]
    exact m.queues_of_unopened known found unclosed
  | some reg =>
    rw [Host.queue_of_found found]
    have opened : r < c'.host.nextRegistry :=
      Nat.lt_of_lt_of_le (s.numbered r reg found) m.nextRegistry_le
    by_cases about : d.addressed? = some r
    · exact m.queues_of_addressed found about fun gone => unclosed ⟨gone, opened⟩
    · obtain ⟨told, o⟩ := m.overhears s ⟨fun _ _ => Nat.ne_of_lt (s.numbered r reg found), about⟩
      have registry := o.registry
      rw [found, Option.map_some] at registry
      rw [if_neg fun drains => about (d.addressed_of_drained drains)]
      exact ⟨told, Host.queue_of_found registry, o.heard⟩

/-- What a move does to a registry that it does not close. -/
theorem Move.ledger {d : Deed} (m : Move d c c') (s : c.Sound) (known : c.host.WatchedByOpened)
    (unclosed : ¬c'.host.Closed r) :
    ∃ told, c'.host.queue r = (if d.drained? = some r then [] else c.host.queue r) ++ told ∧
      c.host.heap.Ledger c'.host.heap r told
        fun id => if d.enrolls? = some (r, id) then 1 else 0 := by
  obtain ⟨told, queue, counts⟩ := m.queues s known unclosed
  have enrolled : ∀ id, 0 < (if d.enrolls? = some (r, id) then 1 else 0) →
      c'.host.isAlive id = true := fun id pos => by
    refine m.alive_of_enrolls s (r := r) ?_
    by_contra other
    rw [if_neg other] at pos
    cases pos
  refine ⟨told, queue, m.evolves, fun id => ?_, fun id alive => m.watches_eq s alive,
    fun id pos => ?_⟩
  · by_cases enrolls : d.enrolls? = some (r, id)
    · have alive : c'.host.heap.isAlive id = true := m.alive_of_enrolls s enrolls
      exact (counts id).trans ((if_pos alive).trans (if_pos alive).symm)
    · rw [if_neg enrolls, Nat.add_zero]
      exact counts id
  · have alive := enrolled id pos
    obtain ⟨o, found⟩ := (Heap.isAlive_iff _ id).1 alive
    exact ⟨fun buried => Heap.not_buried_of_alive alive (m.evolves.buried buried),
      (m.sound s).accounted.bounded id o found⟩

/-- Casual moves enroll nobody, and they tell a registry of the dead. -/
theorem Moves.ledger {kind : Deed → Prop} (m : Moves kind c c') (s : c.Sound)
    (casual : ∀ d, kind d → d.Casual) (known : c.host.WatchedByOpened)
    (unclosed : ¬c'.host.Closed r) :
    ∃ told, c'.host.queue r = c.host.queue r ++ told ∧
      c.host.heap.Ledger c'.host.heap r told fun _ => 0 := by
  induction m with
  | refl => exact ⟨[], (List.append_nil _).symm, .refl _ r⟩
  | tail first last ih =>
    obtain ⟨d, ok, move⟩ := last
    obtain ⟨a, queue, ledger⟩ := ih fun closed => unclosed (move.closed_of_closed closed)
    obtain ⟨b, queue', ledger'⟩ := move.ledger (Moves.sound first s)
      (Moves.watchedByOpened first s known) unclosed
    simp only [(casual d ok).undrained, (casual d ok).unenrolling] at queue' ledger'
    refine ⟨a ++ b, ?_, ledger.trans ledger' s.accounted.bounded⟩
    rw [queue', if_neg nofun, queue, List.append_assoc]

/-- So do moves that enroll an object, which is counted. -/
theorem Enrolling.ledger {asked : Deed → Prop} {subject : Option (RegistryId × ObjectId)}
    (e : Enrolling Deed.Casual asked subject c c') (s : c.Sound) (known : c.host.WatchedByOpened)
    (unclosed : ¬c'.host.Closed r) :
    ∃ told, c'.host.queue r = c.host.queue r ++ told ∧
      c.host.heap.Ledger c'.host.heap r told fun id => if subject = some (r, id) then 1 else 0 := by
  cases e with
  | nobody m => exact m.ledger s (fun _ => id) known unclosed
  | @one c c₁ c₂ c' d p before m ok enrolls after =>
    have s₁ := before.sound s
    have known₁ := before.watchedByOpened s known
    have unclosed₂ : ¬c₂.host.Closed r := fun closed => unclosed (after.closed_of_closed closed)
    have undrained : d.drained? ≠ some r := fun drains => by
      cases d with
      | drain => cases enrolls
      | _ => cases drains
    obtain ⟨a, queue, ledger⟩ := before.ledger s (fun _ => id) known fun closed =>
      unclosed₂ (m.closed_of_closed closed)
    obtain ⟨b, queue₂, ledger₂⟩ := m.ledger s₁ known₁ unclosed₂
    obtain ⟨e, queue', ledger'⟩ := after.ledger (m.sound s₁) (fun _ => Deed.Light.casual)
      (m.watchedByOpened s₁ known₁) unclosed
    have whole := ledger.trans (ledger₂.trans ledger' s₁.accounted.bounded) s.accounted.bounded
    simp only [enrolls, zero_add, add_zero] at whole
    refine ⟨a ++ (b ++ e), ?_, whole⟩
    rw [queue', queue₂, if_neg undrained, queue, List.append_assoc, List.append_assoc]

end Moving

namespace Session

/-- How often a script enrolls an object in a registry. -/
def enrollments (r : RegistryId) (id : ObjectId) : Session → List Step → Nat
  | _, [] => 0
  | s, t :: ts =>
    (if s.enrolled? t = some (r, id) then 1 else 0) + enrollments r id (s.answer t).2 ts

/-- The last session in which a script is about to empty the queue of a registry, or the one that is
given if it never is. -/
def lastDrain (r : RegistryId) (last : Session) : Session → List Step → Session
  | _, [] => last
  | s, t :: ts => lastDrain r (if s.drained? t = some r then s else last) (s.answer t).2 ts

variable {r : RegistryId} {id : ObjectId} {s last first : Session} {t : Step}

theorem enrollments_append (s : Session) (ts us : List Step) :
    enrollments r id s (ts ++ us) = enrollments r id s ts + enrollments r id (s.run ts) us := by
  induction ts generalizing s with
  | nil => exact (Nat.zero_add _).symm
  | cons t rest ih => rw [List.cons_append, enrollments, ih, enrollments, run_cons, Nat.add_assoc]

theorem watchedByOpened_start (reclaiming : Option Bool) :
    (start reclaiming).host.WatchedByOpened := by
  have empty : Session.empty.host.WatchedByOpened := fun r id watched => by
    have dead : Session.empty.host.heap.isAlive id = false := rfl
    rw [Heap.watches_of_dead dead] at watched
    cases watched
  cases reclaiming with
  | none => exact empty
  | some b =>
    have opened : Moves (fun _ => True) Session.empty.client (start (some b)).client :=
      moves_addRegistry _ _ _ (fun _ _ => trivial) trivial fun _ _ => trivial
    exact opened.watchedByOpened sound_empty.client empty

theorem Reachable.watchedByOpened (reach : s.Reachable) : s.host.WatchedByOpened := by
  obtain ⟨reclaiming, ts, rfl⟩ := reach
  exact (moves_run (sound_start reclaiming) ts).watchedByOpened (sound_start reclaiming).client
    (watchedByOpened_start reclaiming)

/-- A step empties a queue first, if it does. -/
theorem ledger_prelude (reach : s.Reachable) (t : Step) (unclosed : ¬(s.prelude t).Closed r) :
    ∃ told, (s.prelude t).queue r =
        (if s.drained? t = some r then [] else s.host.queue r) ++ told ∧
      s.host.heap.Ledger (s.prelude t).heap r told fun _ => 0 := by
  have known : s.host.quiet.WatchedByOpened := reach.watchedByOpened
  have sound : Client.Sound ⟨s.handles.values, s.host.quiet⟩ := (sound_quiet reach.sound).client
  have same : drained? { s with host := s.host.quiet } t = s.drained? t := rfl
  rw [prelude, swept, same] at unclosed ⊢
  cases h : s.drained? t with
  | none => exact ⟨[], (List.append_nil _).symm, Heap.Ledger.refl s.host.heap r⟩
  | some q =>
    rw [h] at unclosed
    have drain : Move (.drain q) ⟨s.handles.values, s.host.quiet⟩
        ⟨s.handles.values, (s.host.quiet.reclaim q).2⟩ := .drain
    exact drain.ledger sound known unclosed

/-- What a step does to a registry that it does not close. -/
theorem ledger_answer (reach : s.Reachable) (t : Step)
    (unclosed : ¬(s.answer t).2.host.Closed r) :
    ∃ told, (s.answer t).2.host.queue r =
        (if s.drained? t = some r then [] else s.host.queue r) ++ told ∧
      s.host.heap.Ledger (s.answer t).2.host.heap r told
        fun id => if s.enrolled? t = some (r, id) then 1 else 0 := by
  have sound := reach.sound
  have swept := moves_prelude s t
  have call := enrolling_answer sound t
  obtain ⟨a, queue, ledger⟩ := ledger_prelude (r := r) reach t fun closed =>
    unclosed (call.moves.closed_of_closed closed)
  obtain ⟨b, queue', ledger'⟩ := call.ledger (swept.sound sound.client)
    (swept.watchedByOpened sound.client reach.watchedByOpened) unclosed
  have whole := ledger.trans ledger' sound.client.accounted.bounded
  simp only [zero_add] at whole
  refine ⟨a ++ b, ?_, whole⟩
  rw [← List.append_assoc, ← queue]
  exact queue'

/-- From the first session to the last drain and from there to the present one a registry has been
told of the dead, and its queue is what it was told since. -/
structure Accounts (r : RegistryId) (first last s : Session) (before since : ObjectId → Nat) :
    Prop where
  past : ∃ told, first.host.heap.Ledger last.host.heap r told before
  present : last.host.heap.Ledger s.host.heap r (s.host.queue r) since

namespace Accounts

variable {m n : ObjectId → Nat}

theorem answer (a : Accounts r first last s m n) (sound : first.Sound) (drained : last.Reachable)
    (reach : s.Reachable) (t : Step) (unclosed : ¬(s.answer t).2.host.Closed r) :
    ∃ m' n', Accounts r first (if s.drained? t = some r then s else last) (s.answer t).2 m' n' ∧
      ∀ id, m' id + n' id = m id + n id + if s.enrolled? t = some (r, id) then 1 else 0 := by
  obtain ⟨told, queue, ledger⟩ := ledger_answer reach t unclosed
  have bounded := sound.client.accounted.bounded
  have bounded' := drained.sound.client.accounted.bounded
  by_cases drains : s.drained? t = some r
  · obtain ⟨old, past⟩ := a.past
    rw [if_pos drains, List.nil_append] at queue
    rw [if_pos drains]
    exact ⟨_, _, ⟨⟨_, past.trans a.present bounded⟩, queue ▸ ledger⟩, fun id => rfl⟩
  · rw [if_neg drains] at queue
    rw [if_neg drains]
    exact ⟨m, _, ⟨a.past, queue ▸ a.present.trans ledger bounded'⟩, fun id =>
      (Nat.add_assoc _ _ _).symm⟩

theorem run (a : Accounts r first last s m n) (sound : first.Sound) (drained : last.Reachable)
    (reach : s.Reachable) (ts : List Step) (unclosed : ¬(s.run ts).host.Closed r) :
    ∃ m' n', Accounts r first (lastDrain r last s ts) (s.run ts) m' n' ∧
      ∀ id, m' id + n' id = m id + n id + enrollments r id s ts := by
  induction ts generalizing last s m n with
  | nil => exact ⟨m, n, a, fun id => rfl⟩
  | cons t rest ih =>
    have reach' : (s.answer t).2.Reachable := reach.run [t]
    have unclosed' : ¬(s.answer t).2.host.Closed r := fun closed =>
      unclosed ((moves_run reach'.sound rest).closed_of_closed closed)
    obtain ⟨m₁, n₁, a₁, sum⟩ := a.answer sound drained reach t unclosed'
    have drained' : (if s.drained? t = some r then s else last).Reachable := by
      split
      · exact reach
      · exact drained
    obtain ⟨m', n', a', sum'⟩ := ih a₁ drained' reach' unclosed
    refine ⟨m', n', a', fun id => ?_⟩
    rw [sum', sum, enrollments, Nat.add_assoc]

end Accounts

/-- Every queue is empty when a script starts. -/
theorem queue_start (reclaiming : Option Bool) (r : RegistryId) :
    (start reclaiming).host.queue r = [] := by
  cases reclaiming with
  | none => rfl
  | some b =>
    by_cases zero : r = 0
    · subst zero
      rfl
    · have other : (start (some b)).host.registry? r = none :=
        Table.get?_put_other Table.empty _ zero
      rw [Host.queue, other, Option.elim_none]

/-- Nobody is watched then. -/
theorem watches_start (reclaiming : Option Bool) (r : RegistryId) (id : ObjectId) :
    (start reclaiming).host.heap.watches r id = 0 := by
  have dead : (start reclaiming).host.heap.isAlive id = false := by cases reclaiming <;> rfl
  exact Heap.watches_of_dead dead r

/-- After every script from the start, the accounts of a registry that is not closed. -/
theorem accounts_run (reclaiming : Option Bool) (ts : List Step)
    (unclosed : ¬((start reclaiming).run ts).host.Closed r) :
    let first := start reclaiming
    ∃ m n, Accounts r first (lastDrain r first first ts) (first.run ts) m n ∧
      ∀ id, m id + n id = enrollments r id first ts := by
  have reach : (start reclaiming).Reachable := ⟨reclaiming, [], rfl⟩
  have opening : Accounts r (start reclaiming) (start reclaiming) (start reclaiming)
      (fun _ => 0) fun _ => 0 := ⟨⟨[], .refl _ r⟩, queue_start reclaiming r ▸ .refl _ r⟩
  obtain ⟨m, n, accounts, sum⟩ := opening.run reach.sound reach reach ts unclosed
  exact ⟨m, n, accounts, fun id => (sum id).trans (Nat.zero_add _)⟩

/-- In the queue are those who have died since the last drain, each as often as it was enrolled. -/
theorem count_queue (reclaiming : Option Bool) (ts : List Step) {reg : Registry}
    (opened : ((start reclaiming).run ts).host.registry? r = some reg) (id : ObjectId) :
    let first := start reclaiming
    reg.queue.count id =
      if id ∈ (lastDrain r first first ts).host.heap.died (first.run ts).host.heap
      then enrollments r id first ts else 0 := by
  obtain ⟨m, n, ⟨⟨a, past⟩, present⟩, sum⟩ :=
    accounts_run reclaiming ts (Host.not_closed_of_found ⟨reg, opened⟩)
  have counts := past.count_told present (watches_start reclaiming r) id
  rwa [Host.queue_of_found opened, sum] at counts

theorem pending_eq (reclaiming : Option Bool) (ts : List Step) {reg : Registry}
    (opened : ((start reclaiming).run ts).host.registry? r = some reg) :
    let first := start reclaiming
    reg.sizes.pending =
      ∑ id ∈ (lastDrain r first first ts).host.heap.died (first.run ts).host.heap,
        enrollments r id first ts := by
  obtain ⟨m, n, ⟨⟨a, past⟩, present⟩, sum⟩ :=
    accounts_run reclaiming ts (Host.not_closed_of_found ⟨reg, opened⟩)
  have length := past.length_told present (watches_start reclaiming r)
  rw [Host.queue_of_found opened] at length
  exact length.trans (Finset.sum_congr rfl fun id _ => sum id)

/-- In every session that a script reaches, a registry that is open is told of exactly those who
die, each as often as the script has enrolled it there by then: a step appends to the queue, which
it may have emptied before, all who die of it. So the queue is as long as those who have died since
it was emptied last were enrolled, and the living are watched as often as they were. Enrolling is to
make an entry where there was none. And a closed registry is never told of anything again. -/
theorem deaths_accounted (reclaiming : Option Bool) (ts : List Step) (r : RegistryId) :
    let first := start reclaiming
    let s := first.run ts
    (∀ t, ¬(s.answer t).2.host.Closed r → ∃ told,
      (s.answer t).2.host.queue r =
        (if s.drained? t = some r then [] else s.host.queue r) ++ told ∧
      ∀ id, told.count id = if id ∈ s.host.heap.died (s.answer t).2.host.heap
        then enrollments r id first (ts ++ [t]) else 0) ∧
    (∀ reg, s.host.registry? r = some reg →
      reg.sizes.pending = ∑ id ∈ (lastDrain r first first ts).host.heap.died s.host.heap,
        enrollments r id first ts ∧
      ∀ id, s.host.isAlive id = true → s.host.heap.watches r id = enrollments r id first ts) ∧
    (∀ t id, s.enrolled? t = some (r, id) ↔
      (s.host.isUntagged (r, id) = true ∧ (s.answer t).2.host.isUntagged (r, id) = false) ∨
        (s.host.isUnboxed (r, id) = true ∧ (s.answer t).2.host.isUnboxed (r, id) = false)) ∧
    (s.host.Closed r → ∀ us, (s.run us).host.registry? r = none) := by
  intro first s
  have reach : s.Reachable := ⟨reclaiming, ts, rfl⟩
  have sound := reach.sound
  have bounded := (sound_start reclaiming).client.accounted.bounded
  have unwatched := watches_start reclaiming r
  refine ⟨fun t unclosed => ?_, fun reg opened => ?_, fun t id => enrolled_iff sound t (r, id),
    fun closed us => ((moves_run sound us).closed_of_closed closed).1⟩
  · have unclosed' : ¬s.host.Closed r := fun closed =>
      unclosed ((moves_answer sound t).closed_of_closed closed)
    obtain ⟨m, n, ⟨⟨a, past⟩, present⟩, sum⟩ := accounts_run reclaiming ts unclosed'
    obtain ⟨told, queue, ledger⟩ := ledger_answer reach t unclosed
    refine ⟨told, queue, fun id => ?_⟩
    rw [(past.trans present bounded).count_told ledger unwatched, sum, enrollments_append]
    rfl
  · obtain ⟨m, n, ⟨⟨a, past⟩, present⟩, sum⟩ :=
      accounts_run reclaiming ts (Host.not_closed_of_found ⟨reg, opened⟩)
    refine ⟨pending_eq reclaiming ts opened, fun id alive => ?_⟩
    rw [(past.trans present bounded).watches_eq unwatched (Heap.not_buried_of_alive alive), sum]

/-- An object is made a Record and a box, which is done twice, is refused as a Tuple, is released
and is a box again. It is dropped, and the registry is told three times. It is not told of the
value, and after a reclaim it is told of the next one that dies. -/
theorem deaths_accounted_again :
    let ts : List Step := [.create (some "a"), .create (some "v"), .tagRecord "r" "a",
      .tagRecord "r" "a", .tagTuple "r" "a" 2, .pair "r" "a" (.handle "v"),
      .pair "r" "a" (.handle "v"), .release "r" "a" none, .box "r" (.handle "v") (some "b"),
      .release "r" "b" none, .pair "r" "a" (.handle "v")]
    let us : List Step := [.drop "a", .reclaim "r", .drop "v", .drop "b"]
    ((start (some false)).run ts).host.heap.watches 0 1 = 3 ∧
      (∃ told, (((start (some false)).run ts).answer (.drop "a")).2.host.queue 0 = [] ++ told ∧
        told.count 1 = 3) ∧
      ∃ reg, ((start (some false)).run (ts ++ us)).host.registry? 0 = some reg ∧
        reg.sizes.pending = 1 := by
  intro ts us
  have open₁ : (((start (some false)).run ts).host.registry? 0).isSome = true := by decide +kernel
  have open₂ : ((((start (some false)).run ts).answer (.drop "a")).2.host.registry? 0).isSome =
    true := by decide +kernel
  have open₃ : (((start (some false)).run (ts ++ us)).host.registry? 0).isSome = true := by
    decide +kernel
  obtain ⟨reg, found⟩ := Option.isSome_iff_exists.1 open₁
  have unclosed := Host.not_closed_of_found (Option.isSome_iff_exists.1 open₂)
  obtain ⟨reg', found'⟩ := Option.isSome_iff_exists.1 open₃
  obtain ⟨tells, ledger, -, -⟩ := deaths_accounted (some false) ts 0
  obtain ⟨-, ledger', -, -⟩ := deaths_accounted (some false) (ts ++ us) 0
  refine ⟨?_, ?_, reg', found', ?_⟩
  · rw [(ledger reg found).2 1 (by decide +kernel)]
    decide +kernel
  · have empty : ((start (some false)).run ts).host.queue 0 = [] := by decide +kernel
    obtain ⟨told, queue, counts⟩ := tells (.drop "a") unclosed
    refine ⟨told, empty ▸ queue, ?_⟩
    rw [counts]
    decide +kernel
  · rw [(ledger' reg' found').1]
    decide +kernel

end Session

end Compound
