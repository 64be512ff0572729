import Compound.Proofs.Orders
import Compound.Proofs.Reclaim

/-!
Reclaiming until nothing is left to reclaim, in every session that a script can reach. A reclaim
lets values go, and those that die of it may fill the queue again. But whoever waits then was alive
before, so a reclaim that leaves somebody waiting has cost a life, and there are no more such
reclaims in a row than there are objects alive. When nobody waits, the registry has entries about
the living only, and a reclaim does nothing any more.
-/
namespace Compound

/-- A table is smaller if it lacks a key of another one and has no others. -/
theorem Table.size_lt_of_sublist {κ ν : Type} {t t' : Table κ ν} {k : κ}
    (fewer : t'.keys.Sublist t.keys) (inside : k ∈ t.keys) (missing : k ∉ t'.keys) :
    t'.size < t.size := by
  rw [← size_keys, ← size_keys]
  refine Nat.lt_of_le_of_ne fewer.length_le fun same => missing ?_
  rwa [fewer.eq_of_length same]

namespace Host

variable {held : Multiset ObjectId} {w : Host} {r : RegistryId} {reg reg' : Registry}

/-- The host after some reclaims in a row. -/
def reclaims (w : Host) (r : RegistryId) (n : Nat) : Host := (fun w => (w.reclaim r).2)^[n] w

theorem reclaims_succ (w : Host) (r : RegistryId) (n : Nat) :
    w.reclaims r (n + 1) = (w.reclaim r).2.reclaims r n := rfl

theorem reclaims_add (w : Host) (r : RegistryId) (n m : Nat) :
    w.reclaims r (n + m) = (w.reclaims r n).reclaims r m := by
  rw [Nat.add_comm]
  exact Function.iterate_add_apply _ m n w

/-- Nobody waits in a registry: it knows of the living only, and a reclaim would find nothing. -/
structure AtRest (w : Host) (r : RegistryId) (reg : Registry) : Prop where
  found : w.registry? r = some reg
  idle : reg.sizes.pending = 0
  living : ∀ id, reg.mentions id = true → w.isAlive id = true
  still : w.reclaim r = (0, w)

/-- A registry is at rest as soon as its queue is empty. -/
theorem atRest (s : Client.Sound ⟨held, w⟩) (found : w.registry? r = some reg)
    (empty : reg.queue = []) : w.AtRest r reg where
  found := found
  idle := List.length_eq_zero_iff.2 empty
  living id mentioned := by
    have inside := (s.attended r reg found).alive_of_idle empty mentioned not_false
    exact (Heap.isAlive_iff _ id).2 ((Table.mem_keys _ id).1 inside)
  still := reclaim_of_empty found empty

theorem AtRest.reclaims (rest : w.AtRest r reg) (n : Nat) : w.reclaims r n = w := by
  induction n with
  | zero => rfl
  | succ n ih => rw [reclaims_succ, rest.still, ih]

/-- No reclaim brings an object to life. -/
theorem keys_reclaim (w : Host) (r : RegistryId) :
    (w.reclaim r).2.heap.live.keys.Sublist w.heap.live.keys := by
  obtain ⟨dues, effects, cascade⟩ := w.cascade_reclaim r
  exact cascade.keys_sublist

/-- A reclaim that leaves somebody waiting has cost a life: whoever waits after it has died of
it. -/
theorem size_reclaim (found : w.registry? r = some reg)
    (found' : Host.registry? (w.reclaim r).2 r = some reg') (waiting : reg'.queue ≠ []) :
    (w.reclaim r).2.heap.live.size < w.heap.live.size := by
  obtain ⟨pushed, swept, count⟩ := registry?_reclaim_same found
  cases found'.symm.trans swept
  obtain ⟨id, inside⟩ := List.exists_mem_of_ne_nil pushed waiting
  have watched := count id
  have queued : 0 < pushed.count id := List.count_pos_iff.2 inside
  cases alive : (w.reclaim r).2.isAlive id with
  | true =>
    rw [alive, if_pos rfl] at watched
    omega
  | false =>
    rw [alive, if_neg Bool.false_ne_true] at watched
    have lived : ∃ o, w.heap.get? id = some o := by
      cases before : w.heap.get? id with
      | some o => exact ⟨o, rfl⟩
      | none =>
        rw [Heap.watches, before, Option.elim_none] at watched
        omega
    have missing : id ∉ (w.reclaim r).2.heap.live.keys := fun lives => by
      have survived := (Heap.isAlive_iff _ id).2 ((Table.mem_keys _ id).1 lives)
      cases alive.symm.trans survived
    exact Table.size_lt_of_sublist (w.keys_reclaim r) ((Table.mem_keys _ id).2 lived) missing

/-- As many reclaims as there are objects alive, and one more, bring a registry to rest. -/
theorem reclaims_rest {w : Host} {reg : Registry} (s : Client.Sound ⟨held, w⟩)
    (found : w.registry? r = some reg) :
    ∃ k ≤ w.heap.live.size + 1, ∃ reg', (w.reclaims r k).AtRest r reg' := by
  obtain ⟨pushed, swept, -⟩ := registry?_reclaim_same found
  have s' : Client.Sound ⟨held, (w.reclaim r).2⟩ := Move.drain.sound s
  by_cases empty : (reg.drained.enqueueAll pushed).queue = []
  · exact ⟨1, by omega, _, atRest s' swept empty⟩
  · -- the life that this one has cost pays for it
    have cost := size_reclaim found swept empty
    obtain ⟨k, le, reg', rest⟩ := reclaims_rest s' swept
    exact ⟨k + 1, by omega, reg', rest⟩
termination_by w.heap.live.size

end Host

namespace Session

variable {s : Session} {r : RegistryId} {reg : Registry}

/-- In every session that a script reaches, reclaiming again and again with nothing in between
empties the queue of an open registry: it takes no more reclaims than there are objects alive, and
one. All entries of the registry are about the living then, and further reclaims find nothing and
change nothing. -/
theorem reclaims_come_to_rest (reach : s.Reachable) (found : s.host.registry? r = some reg) :
    ∃ k ≤ s.host.heap.live.size + 1, ∃ reg',
      Host.registry? (s.host.reclaims r k) r = some reg' ∧ reg'.sizes.pending = 0 ∧
      (∀ id t, reg'.tags.get? id = some t → (s.host.reclaims r k).isAlive id = true) ∧
      (∀ box value, reg'.pairing.values.get? box = some value →
        (s.host.reclaims r k).isAlive box = true) ∧
      ∀ m, (s.host.reclaims r (k + m)).reclaim r = (0, s.host.reclaims r k) := by
  obtain ⟨k, le, reg', rest⟩ := Host.reclaims_rest reach.sound.client found
  refine ⟨k, le, reg', rest.found, rest.idle, fun id t tagged => ?_, fun box value paired => ?_,
    fun m => ?_⟩
  · exact rest.living id (Registry.mentions_tag tagged)
  · exact rest.living box (Registry.mentions_box paired)
  · rw [Host.reclaims_add, rest.reclaims m, rest.still]

/-- A chain of boxes, each of them the value of the one before: the first is dead, three objects
are alive, and every reclaim but the fourth and last lets the next one die. -/
theorem reclaims_come_to_rest_chain :
    let s := (start (some false)).run [.create (some "a"), .create (some "b"), .create (some "c"),
      .create (some "d"), .pair "r" "a" (.handle "b"), .pair "r" "b" (.handle "c"),
      .pair "r" "c" (.handle "d"), .tagRecord "r" "d", .drop "b", .drop "c", .drop "d", .drop "a"]
    s.host.heap.live.size = 3 ∧
      (∀ k < 4, (Host.registry? (s.host.reclaims 0 k) 0).all (fun reg => 0 < reg.sizes.pending)) ∧
      ∃ reg', Host.registry? (s.host.reclaims 0 4) 0 = some reg' ∧ reg'.sizes.pending = 0 ∧
        ∀ m, (s.host.reclaims 0 (4 + m)).reclaim 0 = (0, s.host.reclaims 0 4) := by
  intro s
  have reach : s.Reachable := ⟨_, _, rfl⟩
  have alive : s.host.heap.live.size = 3 := by decide +kernel
  have waiting : ∀ k < 4,
      (Host.registry? (s.host.reclaims 0 k) 0).all (fun reg => 0 < reg.sizes.pending) := by
    decide +kernel
  obtain ⟨reg, found⟩ : ∃ reg, s.host.registry? 0 = some reg :=
    Option.isSome_iff_exists.1 (by decide +kernel)
  obtain ⟨k, le, reg', found', idle, -, -, still⟩ := reclaims_come_to_rest reach found
  rw [alive] at le
  have all : k = 4 := by
    by_contra ne
    have pending := waiting k (by omega)
    rw [found', Option.all_some, decide_eq_true_eq, idle] at pending
    omega
  subst all
  exact ⟨alive, waiting, reg', found', idle, still⟩

end Session

end Compound
