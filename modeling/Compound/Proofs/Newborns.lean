import Compound.Proofs.Embedding
import Compound.Proofs.Orders

/-!
New objects and the deaths of others. What is to be let go is there already, so nothing of it is an
object that is still to be made. It makes no difference then whether an object is made before a
cascade or after it: the same objects die in the same order, and the new one stands last in the
heap. A registry may reclaim before a new box is made, or after that.
-/
namespace Compound

namespace Table

variable {κ ν : Type} [DecidableEq κ] {j k : κ}

theorem without_write (ne : j ≠ k) (v : ν) (l : List (κ × ν)) :
    without j (write k v l) = write k v (without j l) := by
  induction l with
  | nil => simp [write, without, Ne.symm ne]
  | cons p rest ih =>
    obtain ⟨i, u⟩ := p
    by_cases hj : i = j
    · simp [write, without, hj, ne]
    · by_cases hk : i = k
      · simp [write, without, hk, Ne.symm ne]
      · simp [write, without, hj, hk, ih]

theorem change_write (ne : j ≠ k) (f : ν → ν) (v : ν) (l : List (κ × ν)) :
    change j f (write k v l) = write k v (change j f l) := by
  induction l with
  | nil => simp [write, change, Ne.symm ne]
  | cons p rest ih =>
    obtain ⟨i, u⟩ := p
    by_cases hj : i = j
    · simp [write, change, hj, ne]
    · by_cases hk : i = k
      · simp [write, change, hk, Ne.symm ne]
      · simp [write, change, hj, hk, ih]

theorem change_write_same (k : κ) (f : ν → ν) (v : ν) (l : List (κ × ν)) :
    change k f (write k v l) = write k (f v) l := by
  induction l with
  | nil => simp [write, change]
  | cons p rest ih =>
    obtain ⟨i, u⟩ := p
    by_cases hk : i = k
    · simp [write, change, hk]
    · simp [write, change, hk, ih]

theorem erase_put (t : Table κ ν) (ne : j ≠ k) (v : ν) :
    (t.put k v).erase j = (t.erase j).put k v :=
  Table.ext (without_write ne v t.entries)

theorem modify_put (t : Table κ ν) (ne : j ≠ k) (f : ν → ν) (v : ν) :
    (t.put k v).modify j f = (t.modify j f).put k v :=
  Table.ext (change_write ne f v t.entries)

theorem modify_put_same (t : Table κ ν) (k : κ) (f : ν → ν) (v : ν) :
    (t.put k v).modify k f = t.put k (f v) :=
  Table.ext (change_write_same k f v t.entries)

end Table

namespace Heap

variable {h h' : Heap} {dues : List Due} {effects : List Effect} {outside : Multiset ObjectId}
  {id : ObjectId}

theorem erase_create (h : Heap) (o : Object) (ne : id ≠ h.next) :
    (h.create o).2.erase id = ((h.erase id).create o).2 :=
  congrArg (Heap.mk (h.next + 1)) (Table.erase_put h.live ne o)

theorem unref_create (h : Heap) (o : Object) (ne : id ≠ h.next) :
    (h.create o).2.unref id = ((h.unref id).create o).2 :=
  congrArg (Heap.mk (h.next + 1)) (Table.modify_put h.live ne _ o)

theorem modify_create_same (h : Heap) (o : Object) (f : Object → Object) :
    (h.create o).2.modify h.next f = (h.create (f o)).2 :=
  congrArg (Heap.mk (h.next + 1)) (Table.modify_put_same h.live h.next f o)

/-- A cascade goes on in the same way beside a new object, which is in none of its dues. -/
theorem Cascade.create (o : Object) (c : Cascade h dues h' effects)
    (a : h.Accounted (outside + Due.owed dues)) :
    Cascade (h.create o).2 dues (h'.create o).2 effects := by
  induction c with
  | done h => exact .done _
  | note label id next ih =>
    rw [Due.owed_note] at a
    exact .note label id (ih a)
  | queue r id next ih =>
    rw [Due.owed_queue] at a
    exact .queue r id (ih a)
  | @gone h h' rest effects id absent next ih =>
    rw [Due.owed_release] at a
    have alive : h.isAlive id = true := a.alive_outside (by simp)
    rw [(isAlive_eq_false h id).2 absent] at alive
    cases alive
  | @last h h' rest effects id u found one next ih =>
    have old : id ≠ h.next := Nat.ne_of_lt (a.bounded id u found)
    rw [Due.owed_release, Multiset.add_cons] at a
    refine .last ((get?_create_other h o old).trans found) one ?_
    rw [erase_create h o old]
    apply ih
    rw [Due.owed_append, Object.owed_dues, add_comm (u.references : Multiset ObjectId),
      ← add_assoc]
    exact a.erase found one
  | @several h h' rest effects id u found more next ih =>
    have old : id ≠ h.next := Nat.ne_of_lt (a.bounded id u found)
    rw [Due.owed_release, Multiset.add_cons] at a
    refine .several ((get?_create_other h o old).trans found) more ?_
    rw [unref_create h o old]
    exact ih (a.unref found more)

/-- The rules of a cascade leave no choice. -/
theorem Cascade.settle_eq (c : Cascade h dues h' effects) : h.settle dues = (h', effects) := by
  induction c with
  | done h => exact h.settle_nil
  | note label id next ih => rw [settle, ih]
  | queue r id next ih => rw [settle, ih]
  | gone absent next ih =>
    rw [settle]
    split
    · exact ih
    · rename_i found
      cases absent.symm.trans found
  | last found one next ih =>
    rw [settle]
    split
    · rename_i absent
      cases absent.symm.trans found
    · rename_i found'
      cases found.symm.trans found'
      rw [if_pos one, ih]
  | several found more next ih =>
    rw [settle]
    split
    · rename_i absent
      cases absent.symm.trans found
    · rename_i found'
      cases found.symm.trans found'
      rw [if_neg (Nat.not_le.2 more), ih]

theorem release_create (o : Object) {ids : List ObjectId}
    (a : h.Accounted (outside + (ids : Multiset ObjectId))) :
    (h.create o).2.release ids = (((h.release ids).1.create o).2, (h.release ids).2) := by
  rw [← Due.owed_map_release] at a
  exact ((cascade_settle h (ids.map .release)).create o a).settle_eq

end Heap

namespace Host

variable {held : Multiset ObjectId} {w : Host} {r : RegistryId}

/-- A new box is one more object in the heap, and nothing else. -/
theorem withBox_eq (w : Host) :
    w.withBox = { w with heap := (w.heap.create (Object.new none).freeze).2 } :=
  congrArg (fun h : Heap => { w with heap := h })
    (w.heap.modify_create_same (.new none) Object.freeze)

/-- References that are held are let go before a new box is made, or after that. -/
theorem release_withBox {outside : Multiset ObjectId} {ids : List ObjectId}
    (a : w.heap.Accounted (outside + (ids : Multiset ObjectId))) :
    w.withBox.release ids = (w.release ids).withBox := by
  have same := Heap.release_create (Object.new none).freeze a
  calc w.withBox.release ids
      = (w.heap.release ids).2.foldl hear
          { w with heap := ((w.heap.release ids).1.create (Object.new none).freeze).2 } := by
        rw [withBox_eq, release_eq]
        simp only [same]
    _ = { w.release ids with
          heap := ((w.release ids).heap.create (Object.new none).freeze).2 } := by
        rw [release_heap, release_eq, heard_withHeap w (w.heap.release ids).1]
        exact heard_withHeap w _ _
    _ = (w.release ids).withBox := (withBox_eq _).symm

/-- A registry reclaims before a new box is made, or after that. -/
theorem reclaim_withBox (s : Client.Sound ⟨held, w⟩) (r : RegistryId) :
    w.withBox.reclaim r = ((w.reclaim r).1, (w.reclaim r).2.withBox) := by
  have same : w.withBox.registry? r = w.registry? r := rfl
  rw [reclaim, reclaim, same]
  cases found : w.registry? r with
  | none => rfl
  | some reg =>
    simp only
    split
    · rfl
    · -- the values that are let go are held by the one who sweeps
      have accounted := (s.sweep found).accounted
      rw [add_right_comm] at accounted
      have released := release_withBox accounted
      exact congrArg (fun u : Host => (_, u.tell (.reclaimed _ reg.queue.length))) released

theorem autoReclaim_withBox (s : Client.Sound ⟨held, w⟩) (r : RegistryId) :
    w.withBox.autoReclaim r = (w.autoReclaim r).withBox := by
  have same : w.withBox.registry? r = w.registry? r := rfl
  rw [autoReclaim, autoReclaim, same]
  cases w.registry? r with
  | none => rfl
  | some reg =>
    simp only [reclaim_withBox s r]
    split <;> rfl

end Host

end Compound
