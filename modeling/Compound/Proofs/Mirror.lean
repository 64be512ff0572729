import Compound.Registry.Basic
import Compound.Proofs.Tables

/-!
The two directions of a pairing. They mirror each other when a box leads to a value exactly
where the value leads to the box. Nothing is assumed about which boxes are alive, so a
pair whose box has died and that nobody has reclaimed yet is covered like any other.
-/
namespace Compound.Pairing

/-- The two directions are inverse to each other, and nothing is paired with itself. -/
structure Mirrored (p : Pairing) : Prop where
  inverse : ∀ box value, p.values.get? box = some value ↔ p.boxes.get? value = some box
  proper : ∀ box value, p.values.get? box = some value → value ≠ box

theorem mirrored_empty : empty.Mirrored := ⟨fun _ _ => by simp [empty], fun _ _ h => by cases h⟩

variable {p : Pairing} {box value : ObjectId}

theorem remove_of_none (absent : p.values.get? box = none) : p.remove box = (none, p) := by
  rw [remove, absent]

theorem hasBox_iff (p : Pairing) (box : ObjectId) :
    p.hasBox box = true ↔ ∃ value, p.values.get? box = some value :=
  Option.isSome_iff_exists

namespace Mirrored

/-- No two boxes have one value. -/
theorem box_unique (m : p.Mirrored) {box' : ObjectId} (h : p.values.get? box = some value)
    (h' : p.values.get? box' = some value) : box = box' := by
  rw [m.inverse] at h h'
  rw [h] at h'
  exact Option.some.inj h'

/-- A value leads to a box only if it is the value of that box. -/
theorem boxes_eq_none (m : p.Mirrored) :
    p.boxes.get? value = none ↔ ∀ box, p.values.get? box ≠ some value := by
  constructor
  · intro absent box found
    rw [m.inverse, absent] at found
    cases found
  · intro none_has
    cases found : p.boxes.get? value with
    | none => rfl
    | some box => exact absurd ((m.inverse box value).2 found) (none_has box)

theorem remove_of_some (m : p.Mirrored) (found : p.values.get? box = some value) :
    p.remove box = (some value, ⟨p.values.erase box, p.boxes.erase value⟩) := by
  rw [remove, found]
  simp only [if_pos ((m.inverse box value).1 found)]

/-- Both directions have as many entries. -/
theorem size_eq (m : p.Mirrored) : p.values.size = p.boxes.size := by
  have nodup : p.boxes.values.Nodup := by
    apply Table.values_nodup
    intro v v' box h h'
    rw [← m.inverse] at h h'
    rw [h] at h'
    exact Option.some.inj h'
  have perm : p.values.keys.Perm p.boxes.values := by
    apply (List.perm_ext_iff_of_nodup p.values.keys_nodup nodup).2
    intro box
    rw [Table.mem_keys]
    constructor
    · rintro ⟨value, found⟩
      exact Table.mem_values _ _ ((m.inverse box value).1 found)
    · intro h
      obtain ⟨value, found⟩ := Table.exists_of_mem_values _ h
      exact ⟨value, (m.inverse box value).2 found⟩
  simpa [Table.size, Table.values] using perm.length_eq

theorem remove (m : p.Mirrored) (box : ObjectId) : (p.remove box).2.Mirrored := by
  cases found : p.values.get? box with
  | none => rwa [remove_of_none found]
  | some value =>
    rw [m.remove_of_some found]
    constructor
    · intro b v
      by_cases hb : b = box
      · subst hb
        simp only [Table.get?_erase_same, reduceCtorEq, false_iff]
        by_cases hv : v = value
        · simp [hv]
        · rw [Table.get?_erase_other _ hv, ← m.inverse, found]
          simpa using Ne.symm hv
      · rw [Table.get?_erase_other _ hb]
        by_cases hv : v = value
        · subst hv
          simp only [Table.get?_erase_same, reduceCtorEq, iff_false]
          exact fun h => hb (m.box_unique h found)
        · rw [Table.get?_erase_other _ hv]
          exact m.inverse b v
    · intro b v h
      by_cases hb : b = box
      · subst hb
        simp at h
      · rw [Table.get?_erase_other _ hb] at h
        exact m.proper b v h

/-- A box and a value that are both free may be joined. -/
theorem insert (m : p.Mirrored) (free : p.values.get? box = none)
    (single : p.boxes.get? value = none) (ne : value ≠ box) : (p.insert box value).Mirrored := by
  constructor
  · intro b v
    by_cases hb : b = box
    · subst hb
      rw [Pairing.insert, Table.get?_put_same]
      by_cases hv : v = value
      · simp [hv]
      · rw [Table.get?_put_other _ _ hv, ← m.inverse, free]
        simpa using Ne.symm hv
    · rw [Pairing.insert, Table.get?_put_other _ _ hb]
      by_cases hv : v = value
      · subst hv
        rw [m.inverse, single, Table.get?_put_same]
        simpa using Ne.symm hb
      · rw [Table.get?_put_other _ _ hv]
        exact m.inverse b v
  · intro b v h
    by_cases hb : b = box
    · subst hb
      rw [Pairing.insert, Table.get?_put_same, Option.some.injEq] at h
      exact h ▸ ne
    · rw [Pairing.insert, Table.get?_put_other _ _ hb] at h
      exact m.proper b v h

theorem removeAll (m : p.Mirrored) (ids : List ObjectId) : (p.removeAll ids).2.Mirrored := by
  induction ids generalizing p with
  | nil => exact m
  | cons id rest ih => exact ih (m.remove id)

end Mirrored

theorem get?_values_remove (p : Pairing) (box b : ObjectId) :
    (p.remove box).2.values.get? b = if b = box then none else p.values.get? b := by
  cases found : p.values.get? box with
  | none =>
    rw [remove_of_none found]
    by_cases hb : b = box
    · rw [if_pos hb, hb, found]
    · rw [if_neg hb]
  | some value =>
    rw [remove, found]
    by_cases hb : b = box
    · simp [hb]
    · simp only [if_neg hb, Table.get?_erase_other _ hb]

/-- Exactly the pairs of the listed boxes are taken out, however often a box is listed and
whether or not it has a pair. -/
theorem get?_values_removeAll (p : Pairing) (ids : List ObjectId) (b : ObjectId) :
    (p.removeAll ids).2.values.get? b = if b ∈ ids then none else p.values.get? b := by
  induction ids generalizing p with
  | nil => simp [removeAll]
  | cons id rest ih =>
    have := ih (p.remove id).2
    simp only [removeAll, this, get?_values_remove, List.mem_cons]
    by_cases hr : b ∈ rest <;> by_cases hb : b = id <;> simp [hr, hb]

/-- What a removal hands out is what is missing afterwards. -/
theorem values_remove (p : Pairing) (box : ObjectId) :
    (p.values.values : Multiset ObjectId) =
      ((p.remove box).1.toList : Multiset ObjectId) + (p.remove box).2.values.values := by
  cases found : p.values.get? box with
  | none => simp [remove_of_none found]
  | some value =>
    rw [remove, found, Table.values_erase _ _ found]
    simp [Multiset.singleton_add]

theorem values_removeAll (p : Pairing) (ids : List ObjectId) :
    (p.values.values : Multiset ObjectId) =
      ((p.removeAll ids).1 : Multiset ObjectId) + (p.removeAll ids).2.values.values := by
  induction ids generalizing p with
  | nil => simp [removeAll]
  | cons id rest ih =>
    rw [values_remove p id, ih (p.remove id).2]
    simp only [removeAll, ← Multiset.coe_add, add_assoc]

/-- What a verdict of freshness promises: the box is free, every box that the value had is
dead, and the pairs to join lead from no box to the value but are otherwise the pairs that
there were. -/
structure Admits (p : Pairing) (alive : ObjectId → Bool) (box value : ObjectId) (pairs : Pairing)
    (released : Option ObjectId) : Prop where
  free : p.values.get? box = none
  orphan : ∀ b, p.values.get? b = some value → alive b = false
  mirrored : pairs.Mirrored
  single : pairs.boxes.get? value = none
  others : ∀ b v, pairs.values.get? b = some v ↔ p.values.get? b = some v ∧ v ≠ value
  balance : (p.values.values : Multiset ObjectId) =
    (released.toList : Multiset ObjectId) + pairs.values.values

theorem Admits.still_free {alive : ObjectId → Bool} {pairs : Pairing} {released : Option ObjectId}
    (a : p.Admits alive box value pairs released) : pairs.values.get? box = none := by
  cases found : pairs.values.get? box with
  | none => rfl
  | some v =>
    have before := ((a.others box v).1 found).1
    rw [a.free] at before
    cases before

namespace Mirrored

variable {alive : ObjectId → Bool}

theorem admits (m : p.Mirrored) {pairs : Pairing} {released : Option ObjectId}
    (fresh : p.judge alive box value = .ok (.fresh pairs released)) :
    p.Admits alive box value pairs released := by
  cases free : p.values.get? box with
  | some held =>
    rw [judge, free] at fresh
    simp only at fresh
    split at fresh <;> cases fresh
  | none =>
    cases single : p.boxes.get? value with
    | none =>
      simp only [judge, free, single, Except.ok.injEq, Verdict.fresh.injEq] at fresh
      obtain ⟨rfl, rfl⟩ := fresh
      have unboxed := m.boxes_eq_none.1 single
      refine ⟨free, fun b h => absurd h (unboxed b), m, single, fun b v => ?_, by simp⟩
      exact ⟨fun h => ⟨h, fun same => unboxed b (same ▸ h)⟩, fun h => h.1⟩
    | some previous =>
      have found := (m.inverse previous value).2 single
      have has := (p.hasBox_iff previous).2 ⟨value, found⟩
      have removed := m.remove_of_some found
      cases living : alive previous with
      | true => simp [judge, free, single, has, living] at fresh
      | false =>
        simp only [judge, free, single, has, living, Bool.and_false, Bool.false_eq_true, if_false,
          Except.ok.injEq, Verdict.fresh.injEq] at fresh
        obtain ⟨rfl, rfl⟩ := fresh
        refine ⟨free, fun b h => m.box_unique h found ▸ living, m.remove previous, ?_, ?_,
          values_remove p previous⟩
        · rw [removed]
          exact Table.get?_erase_same _ _
        · intro b v
          rw [get?_values_remove]
          by_cases hb : b = previous
          · subst hb
            simp only [if_true, found, reduceCtorEq, Option.some.injEq, false_iff, not_and, not_not]
            exact Eq.symm
          · rw [if_neg hb]
            refine ⟨fun h => ⟨h, ?_⟩, fun h => h.1⟩
            rintro rfl
            exact hb (m.box_unique h found)

/-- A value with a living box is refused to every other box: the box is judged first, and
one that is free is refused for the sake of the value. -/
theorem judge_other (m : p.Mirrored) {other : ObjectId} (found : p.values.get? box = some value)
    (living : alive box = true) (ne : other ≠ box) :
    p.judge alive other value =
      .error (if p.hasBox other then .boxTaken else .valueTaken) := by
  cases held : p.values.get? other with
  | some held' =>
    have has := (p.hasBox_iff other).2 ⟨held', held⟩
    have differs : held' ≠ value := by
      rintro rfl
      exact ne (m.box_unique held found)
    simp only [judge, held, has, if_neg differs, if_true]
  | none =>
    have free : p.hasBox other = false := by simp [hasBox, Table.contains, held]
    have has := (p.hasBox_iff box).2 ⟨value, found⟩
    simp [judge, held, (m.inverse box value).1 found, has, living, free]

/-- The living box of a value is the one whose value it is. -/
theorem livingBox_iff (m : p.Mirrored) :
    p.livingBox? alive value = some box ↔ p.values.get? box = some value ∧ alive box = true := by
  rw [livingBox?, Option.filter_eq_some_iff, ← m.inverse, Bool.and_eq_true, hasBox_iff]
  constructor
  · rintro ⟨found, -, living⟩
    exact ⟨found, living⟩
  · rintro ⟨found, living⟩
    exact ⟨found, ⟨value, found⟩, living⟩

end Mirrored

theorem judge_same (found : p.values.get? box = some value) (alive : ObjectId → Bool) :
    p.judge alive box value = .ok .known := by
  simp only [judge, found, if_true]

theorem paired_of_known {alive : ObjectId → Bool} (known : p.judge alive box value = .ok .known) :
    p.values.get? box = some value := by
  cases found : p.values.get? box with
  | some held =>
    by_cases same : held = value
    · rw [same]
    · simp [judge, found, same] at known
  | none =>
    cases single : p.boxes.get? value with
    | none => simp [judge, found, single] at known
    | some previous =>
      simp only [judge, found, single] at known
      split at known <;> cases known

theorem judge_taken {held : ObjectId} (found : p.values.get? box = some held) (ne : held ≠ value)
    (alive : ObjectId → Bool) : p.judge alive box value = .error .boxTaken := by
  simp only [judge, found, if_neg ne]

end Compound.Pairing
