import Compound.Proofs.Ledger

/-!
How long a queue is, and how many of the dead a registry still has entries about, in every session
that a script can reach. All of them wait in the queue. But an object waits there as often as it was
enrolled, and it goes on waiting when its entries are gone, so the queue may well be longer.
-/
namespace Compound

/-- The dead that a registry has entries about. -/
def Host.leftovers (w : Host) (r : RegistryId) : Finset ObjectId :=
  {id ∈ Finset.range w.heap.next |
    w.isAlive id = false ∧ (w.registry? r).any (·.mentions id) = true}

namespace Host

variable {held : Multiset ObjectId} {w : Host} {r : RegistryId} {reg : Registry} {id : ObjectId}

theorem mem_leftovers (found : w.registry? r = some reg) : id ∈ w.leftovers r ↔
    id < w.heap.next ∧ w.isAlive id = false ∧ reg.mentions id = true := by
  rw [leftovers, Finset.mem_filter, Finset.mem_range, found, Option.any_some]

theorem queued_of_leftover (s : Client.Sound ⟨held, w⟩) (found : w.registry? r = some reg)
    (left : id ∈ w.leftovers r) : id ∈ reg.queue := by
  obtain ⟨-, dead, mentioned⟩ := (mem_leftovers found).1 left
  have minds := (s.attended r reg found).minded id mentioned not_false
  exact minds.noticed ((Heap.isAlive_eq_false _ id).1 dead)

/-- A reclaim that has anything to do tells how long the queue was. -/
theorem notices_reclaim (found : w.registry? r = some reg) (waiting : reg.queue ≠ []) :
    (w.reclaim r).2.notices.getLast? = some (.reclaimed (w.reclaim r).1 reg.sizes.pending) := by
  rcases w.reclaim_cases r with ⟨-, empty⟩ | ⟨reg', found', -, same⟩
  · exact absurd (empty reg found) waiting
  · cases Option.some.inj (found.symm.trans found')
    rw [same]
    exact List.getLast?_concat

end Host

namespace Session

variable {r : RegistryId} {reg : Registry}

/-- Whoever waits has died since the last drain and was enrolled before. -/
theorem enrolled_of_queued (reclaiming : Option Bool) (ts : List Step)
    (opened : ((start reclaiming).run ts).host.registry? r = some reg) {id : ObjectId}
    (waits : id ∈ reg.queue) :
    let first := start reclaiming
    id ∈ (lastDrain r first first ts).host.heap.died (first.run ts).host.heap ∧
      0 < enrollments r id first ts := by
  have counted := List.count_pos_iff.2 waits
  rw [count_queue reclaiming ts opened] at counted
  split at counted
  · rename_i died
    exact ⟨died, counted⟩
  · exact absurd counted (Nat.lt_irrefl 0)

/-- What is left is what there are entries about among those who have died since the last drain. -/
theorem leftovers_eq (reclaiming : Option Bool) (ts : List Step)
    (opened : ((start reclaiming).run ts).host.registry? r = some reg) :
    let first := start reclaiming
    (first.run ts).host.leftovers r =
      {id ∈ (lastDrain r first first ts).host.heap.died (first.run ts).host.heap |
        reg.mentions id = true} := by
  intro first
  have sound : (first.run ts).Sound := sound_run (sound_start reclaiming) ts
  ext id
  rw [Finset.mem_filter]
  constructor
  · intro left
    have waits := Host.queued_of_leftover sound.client opened left
    exact ⟨(enrolled_of_queued reclaiming ts opened waits).1,
      ((Host.mem_leftovers opened).1 left).2.2⟩
  · rintro ⟨died, mentioned⟩
    obtain ⟨lt, dead, -⟩ := Heap.mem_died.1 died
    exact (Host.mem_leftovers opened).2 ⟨lt, dead, mentioned⟩

/-- In every session that a script reaches, all the dead that an open registry has entries about
wait in its queue, so that there are no more of them than wait. There are as many exactly if each of
those who have died since the last drain was enrolled once if it still has an entry, and never if it
has none. An object waits more than once exactly if it was enrolled more than once. And it is those
who wait that a reclaim counts in what it tells. -/
theorem leftovers_wait (reclaiming : Option Bool) (ts : List Step) (r : RegistryId)
    {reg : Registry} (opened : ((start reclaiming).run ts).host.registry? r = some reg) :
    let first := start reclaiming
    let s := first.run ts
    let died := (lastDrain r first first ts).host.heap.died s.host.heap
    s.host.leftovers r ⊆ reg.queue.toFinset ∧
      (s.host.leftovers r).card ≤ reg.sizes.pending ∧
      (reg.sizes.pending = (s.host.leftovers r).card ↔
        ∀ id ∈ died, enrollments r id first ts = if reg.mentions id = true then 1 else 0) ∧
      (reg.queue.Nodup ↔ ∀ id ∈ died, enrollments r id first ts ≤ 1) ∧
      (reg.queue ≠ [] → (s.host.reclaim r).2.notices.getLast? =
        some (.reclaimed (s.host.reclaim r).1 reg.sizes.pending)) := by
  intro first s died
  have sound : s.Sound := sound_run (sound_start reclaiming) ts
  have waits : ∀ id ∈ s.host.leftovers r, id ∈ reg.queue := fun id left =>
    Host.queued_of_leftover sound.client opened left
  have card : (s.host.leftovers r).card = ∑ id ∈ died, if reg.mentions id = true then 1 else 0 := by
    rw [leftovers_eq reclaiming ts opened, Finset.card_eq_sum_ones, Finset.sum_filter]
  have each : ∀ id ∈ died,
      (if reg.mentions id = true then 1 else 0) ≤ enrollments r id first ts := fun id dead => by
    split
    · rename_i mentioned
      have left : id ∈ s.host.leftovers r := by
        rw [leftovers_eq reclaiming ts opened]
        exact Finset.mem_filter.2 ⟨dead, mentioned⟩
      exact (enrolled_of_queued reclaiming ts opened (waits id left)).2
    · exact Nat.zero_le _
  refine ⟨fun id left => List.mem_toFinset.2 (waits id left), ?_, ?_, ?_,
    Host.notices_reclaim opened⟩
  · rw [pending_eq reclaiming ts opened, card]
    exact Finset.sum_le_sum each
  · rw [pending_eq reclaiming ts opened, card, eq_comm, Finset.sum_eq_sum_iff_of_le each]
    exact forall₂_congr fun id _ => eq_comm
  · rw [List.nodup_iff_count_le_one]
    constructor
    · intro once id dead
      have one := once id
      rwa [count_queue reclaiming ts opened, if_pos dead] at one
    · intro once id
      rw [count_queue reclaiming ts opened]
      split
      · rename_i dead
        exact once id dead
      · exact Nat.zero_le 1

/-- A dead Tuple and a dead box wait, and a dead object that nobody was told of does not. Both are
counted once, and by the reclaim as well. -/
theorem leftovers_wait_once :
    let ts : List Step := [.create (some "tuple"), .create (some "box"), .create (some "value"),
      .create (some "plain"), .tagTuple "r" "tuple" 2, .pair "r" "box" (.handle "value"),
      .drop "tuple", .drop "box", .drop "plain"]
    ∃ reg, ((start (some false)).run ts).host.registry? 0 = some reg ∧
      reg.sizes.pending = (((start (some false)).run ts).host.leftovers 0).card ∧
      (((start (some false)).run ts).host.leftovers 0).card = 2 ∧ reg.queue.Nodup := by
  intro ts
  let died := (lastDrain 0 (start (some false)) (start (some false)) ts).host.heap.died
    ((start (some false)).run ts).host.heap
  have found : (((start (some false)).run ts).host.registry? 0).any (fun reg =>
      decide (∀ id ∈ died, enrollments 0 id (start (some false)) ts =
        if reg.mentions id = true then 1 else 0)) = true := by decide +kernel
  obtain ⟨reg, opened, each⟩ := (Option.any_eq_true _ _).1 found
  obtain ⟨-, -, same, once, -⟩ := leftovers_wait (some false) ts 0 opened
  exact ⟨reg, opened, same.2 (of_decide_eq_true each), by decide +kernel,
    once.2 (by decide +kernel)⟩

/-- A dead object that was a Record and a box waits twice, and a dead box that was released waits
with no entry left. So three wait, where one is left, and a reclaim counts three. -/
theorem waits_twice_or_without_entry :
    let s := (start (some false)).run [.create (some "a"), .create (some "v"), .create (some "b"),
      .create (some "u"), .tagRecord "r" "a", .pair "r" "a" (.handle "v"),
      .pair "r" "b" (.handle "u"), .release "r" "b" none, .drop "a", .drop "b"]
    s.host.leftovers 0 = {1} ∧
      (∃ reg, s.host.registry? 0 = some reg ∧ reg.queue = [1, 1, 3] ∧ reg.sizes.pending = 3 ∧
        ¬reg.queue.Nodup ∧ reg.mentions 3 = false) ∧
      (s.host.reclaim 0).2.notices.getLast? = some (.reclaimed 2 3) := by
  intro s
  have found : (s.host.registry? 0).any (fun reg => decide (reg.queue = [1, 1, 3] ∧
      reg.sizes.pending = 3 ∧ ¬reg.queue.Nodup ∧ reg.mentions 3 = false)) = true := by
    decide +kernel
  obtain ⟨reg, opened, facts⟩ := (Option.any_eq_true _ _).1 found
  exact ⟨by decide +kernel, ⟨reg, opened, of_decide_eq_true facts⟩, by decide +kernel⟩

end Session

end Compound
