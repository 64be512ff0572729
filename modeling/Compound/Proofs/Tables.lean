import Compound.Table
import Mathlib.Data.Multiset.Bind

/-!
The values of a table as a multiset. Erasing a key takes one value out, and every write
is erasing and putting one value back, so a sum over the values of a table follows each
operation by one equation. What is said here holds for tables of any size and any keys.
-/
namespace Compound.Table

variable {κ ν α : Type}

@[simp] theorem values_empty : (empty : Table κ ν).values = [] := rfl

@[simp] theorem size_keys (t : Table κ ν) : t.keys.length = t.size := by simp [keys, size]

theorem keys_nodup (t : Table κ ν) : t.keys.Nodup := t.distinct

/-- What the values of a table hold, all together. -/
def gather (f : ν → List α) (t : Table κ ν) : Multiset α :=
  (t.values : Multiset ν).bind fun v => (f v : Multiset α)

theorem mem_gather (t : Table κ ν) (f : ν → List α) {a : α} :
    a ∈ t.gather f ↔ ∃ v ∈ t.values, a ∈ f v := by
  simp [gather]

/-- Lists that leave out of one list all but the same members are the same. -/
theorem eq_of_sublists {a b l : List α} (nodup : l.Nodup) (first : a.Sublist l)
    (second : b.Sublist l) (same : ∀ x, x ∈ a ↔ x ∈ b) : a = b := by
  induction l generalizing a b with
  | nil => rw [List.sublist_nil.1 first, List.sublist_nil.1 second]
  | cons x rest ih =>
    obtain ⟨fresh, nodup⟩ := List.nodup_cons.1 nodup
    cases first with
    | cons _ first =>
      cases second with
      | cons _ second => exact ih nodup first second same
      | cons_cons _ second => exact absurd (first.subset ((same x).2 List.mem_cons_self)) fresh
    | @cons_cons a _ _ first =>
      cases second with
      | cons _ second => exact absurd (second.subset ((same x).1 List.mem_cons_self)) fresh
      | @cons_cons b _ _ second =>
        refine congrArg (x :: ·) (ih nodup first second fun y => ?_)
        by_cases eq : y = x
        · subst eq
          exact iff_of_false (fun inside => fresh (first.subset inside))
            fun inside => fresh (second.subset inside)
        · have whole := same y
          rwa [List.mem_cons, List.mem_cons, or_iff_right eq, or_iff_right eq] at whole

variable [DecidableEq κ]

theorem without_eq_self (k : κ) (l : List (κ × ν)) (absent : find k l = none) :
    without k l = l := by
  induction l with
  | nil => rfl
  | cons p rest ih =>
    obtain ⟨j, u⟩ := p
    by_cases hj : j = k
    · simp [find, hj] at absent
    · simp only [find, if_neg hj] at absent
      simp [without, hj, ih absent]

theorem perm_without (k : κ) (v : ν) (l : List (κ × ν)) (found : find k l = some v) :
    (l.map Prod.snd).Perm (v :: (without k l).map Prod.snd) := by
  induction l with
  | nil => simp [find] at found
  | cons p rest ih =>
    obtain ⟨j, u⟩ := p
    by_cases hj : j = k
    · simp only [find, if_pos hj, Option.some.injEq] at found
      simp [without, hj, found]
    · simp only [find, if_neg hj] at found
      simp only [without, if_neg hj, List.map_cons]
      exact ((ih found).cons u).trans (List.Perm.swap v u _)

theorem perm_write (k : κ) (v : ν) (l : List (κ × ν)) :
    ((write k v l).map Prod.snd).Perm (v :: (without k l).map Prod.snd) := by
  induction l with
  | nil => simp [write, without]
  | cons p rest ih =>
    obtain ⟨j, u⟩ := p
    by_cases hj : j = k
    · simp [write, without, hj]
    · simp only [write, without, if_neg hj, List.map_cons]
      exact (ih.cons u).trans (List.Perm.swap v u _)

theorem perm_change (k : κ) (f : ν → ν) (v : ν) (l : List (κ × ν)) (found : find k l = some v) :
    ((change k f l).map Prod.snd).Perm (f v :: (without k l).map Prod.snd) := by
  induction l with
  | nil => simp [find] at found
  | cons p rest ih =>
    obtain ⟨j, u⟩ := p
    by_cases hj : j = k
    · simp only [find, if_pos hj, Option.some.injEq] at found
      simp [change, without, hj, found]
    · simp only [find, if_neg hj] at found
      simp only [change, without, if_neg hj, List.map_cons]
      exact ((ih found).cons u).trans (List.Perm.swap (f v) u _)

theorem change_eq_self (k : κ) (f : ν → ν) (l : List (κ × ν)) (absent : find k l = none) :
    change k f l = l := by
  induction l with
  | nil => rfl
  | cons p rest ih =>
    obtain ⟨j, u⟩ := p
    by_cases hj : j = k
    · simp [find, hj] at absent
    · simp only [find, if_neg hj] at absent
      simp [change, hj, ih absent]

variable (t : Table κ ν) (k : κ)

@[simp] theorem erase_of_none (absent : t.get? k = none) : t.erase k = t :=
  Table.ext (without_eq_self k t.entries absent)

@[simp] theorem modify_of_none (f : ν → ν) (absent : t.get? k = none) : t.modify k f = t :=
  Table.ext (change_eq_self k f t.entries absent)

/-- Erasing a key takes its value out. -/
theorem values_erase {v : ν} (found : t.get? k = some v) :
    (t.values : Multiset ν) = v ::ₘ ((t.erase k).values : Multiset ν) :=
  Multiset.coe_eq_coe.2 (perm_without k v t.entries found)

/-- A write is an erasure with one value put back. -/
theorem values_put (v : ν) :
    ((t.put k v).values : Multiset ν) = v ::ₘ ((t.erase k).values : Multiset ν) :=
  Multiset.coe_eq_coe.2 (perm_write k v t.entries)

theorem values_modify {v : ν} (f : ν → ν) (found : t.get? k = some v) :
    ((t.modify k f).values : Multiset ν) = f v ::ₘ ((t.erase k).values : Multiset ν) :=
  Multiset.coe_eq_coe.2 (perm_change k f v t.entries found)

theorem mem_values {v : ν} (h : t.get? k = some v) : v ∈ t.values :=
  List.mem_map_of_mem (find_mem h)

theorem exists_of_mem_values {v : ν} (h : v ∈ t.values) : ∃ k, t.get? k = some v := by
  obtain ⟨⟨k, u⟩, hp, rfl⟩ := List.mem_map.1 h
  exact ⟨k, find_of_mem t.distinct hp⟩

theorem mem_values_iff {v : ν} : v ∈ t.values ↔ ∃ k, t.get? k = some v :=
  ⟨t.exists_of_mem_values, fun ⟨k, found⟩ => t.mem_values k found⟩

/-- A map that changes no value changes nothing. -/
theorem map_eq_self (f : ν → ν) (fixed : ∀ k v, t.get? k = some v → f v = v) : t.map f = t := by
  apply Table.ext
  refine (List.map_congr_left fun p inside => ?_).trans (List.map_id _)
  obtain ⟨k, v⟩ := p
  exact Prod.ext rfl (fixed k v (find_of_mem t.distinct inside))

/-- Values that lead back to their keys are pairwise different. -/
theorem values_nodup (back : ∀ i j v, t.get? i = some v → t.get? j = some v → i = j) :
    t.values.Nodup := by
  apply List.Nodup.map_on ?_ (List.Nodup.of_map _ t.distinct)
  rintro ⟨i, u⟩ hi ⟨j, v⟩ hj (rfl : u = v)
  rw [back i j u (find_of_mem t.distinct hi) (find_of_mem t.distinct hj)]

theorem mem_keys : k ∈ t.keys ↔ ∃ v, t.get? k = some v := by
  have h := get?_eq_none t k
  cases hk : t.get? k with
  | none => simp [h.1 hk]
  | some v =>
    simp only [Option.some.injEq, exists_eq', iff_true]
    by_contra absent
    rw [h.2 absent] at hk
    cases hk

theorem entries_eq : t.entries = t.keys.filterMap fun k => (t.get? k).map (k, ·) := by
  rw [keys, List.filterMap_map]
  refine (List.filterMap_some.symm.trans ?_)
  refine List.filterMap_congr fun p inside => ?_
  rw [Function.comp_apply, (t.get?_eq_some p.1 p.2).2 inside, Option.map_some]

/-- A table is given by its keys in order and the value of each. -/
theorem ext_get? {t t' : Table κ ν} (keys : t.keys = t'.keys)
    (values : ∀ k, t.get? k = t'.get? k) : t = t' := by
  apply Table.ext
  rw [entries_eq, entries_eq, keys]
  exact List.filterMap_congr fun k _ => by rw [values]

/-- Erasing keys one after the other leaves the keys that are not listed. -/
theorem get?_foldl_erase (ks : List κ) :
    (ks.foldl Table.erase t).get? k = if k ∈ ks then none else t.get? k := by
  induction ks generalizing t with
  | nil => simp
  | cons j rest ih =>
    rw [List.foldl_cons, ih]
    by_cases hj : k = j
    · subst hj
      simp
    · simp [hj, get?_erase_other t hj]

/-- The keys of the entries that pass a test are the keys whose entries pass it. -/
theorem map_fst_filter (p : κ → ν → Bool) :
    (t.entries.filter fun e => p e.1 e.2).map Prod.fst =
      t.keys.filter fun k => (t.get? k).any (p k) := by
  rw [keys, List.filter_map]
  refine congrArg (List.map Prod.fst) (List.filter_congr fun e inside => ?_)
  rw [Function.comp_apply, (t.get?_eq_some e.1 e.2).2 inside, Option.any_some]

/-- The values with a property are counted by any list of keys without repetition that has
all of their keys. -/
theorem length_filter_values (p : ν → Bool) (ks : List κ) (nodup : ks.Nodup)
    (listed : ∀ k v, t.get? k = some v → p v = true → k ∈ ks) :
    (t.values.filter p).length = (ks.filter fun k => (t.get? k).any p).length := by
  have keyed : ((t.entries.filter fun e => p e.2).map Prod.fst).Perm
      (ks.filter fun k => (t.get? k).any p) := by
    rw [t.map_fst_filter fun _ v => p v]
    apply (List.perm_ext_iff_of_nodup (t.keys_nodup.filter _) (nodup.filter _)).2
    intro k
    rw [List.mem_filter, List.mem_filter, mem_keys, Option.any_eq_true]
    constructor
    · rintro ⟨-, v, found, holds⟩
      exact ⟨listed k v found holds, v, found, holds⟩
    · rintro ⟨-, v, found, holds⟩
      exact ⟨⟨v, found⟩, v, found, holds⟩
  rw [← keyed.length_eq, List.length_map, values, List.filter_map, List.length_map]
  rfl

theorem keys_foldl_erase_sublist (ks : List κ) :
    (ks.foldl Table.erase t).keys.Sublist t.keys := by
  induction ks generalizing t with
  | nil => exact List.Sublist.refl _
  | cons k rest ih => exact (ih (t.erase k)).trans (t.keys_erase_sublist k)

theorem eraseAll_snd (ks : List κ) : (t.eraseAll ks).2 = ks.foldl Table.erase t := by
  induction ks generalizing t with
  | nil => rfl
  | cons k rest ih => exact ih (t.erase k)

/-- The keys that were present are counted, and what is counted is missing afterwards. -/
theorem size_eraseAll (ks : List κ) : (t.eraseAll ks).1 + (t.eraseAll ks).2.size = t.size := by
  induction ks generalizing t with
  | nil => exact Nat.zero_add t.size
  | cons k rest ih =>
    have others := ih (t.erase k)
    simp only [eraseAll]
    cases present : t.contains k with
    | true =>
      have one := t.size_erase k present
      simp only [if_true]
      omega
    | false =>
      have absent : t.get? k = none :=
        Option.isNone_iff_eq_none.1 (Option.isSome_eq_false_iff.1 present)
      have same := t.erase_of_none k absent
      simp only [Bool.false_eq_true, if_false]
      rwa [same] at others ⊢

/-- Erasing keys one after the other takes out the values that they had. -/
theorem values_foldl_erase (ks : List κ) (nodup : ks.Nodup)
    (bound : ∀ k ∈ ks, (t.get? k).isSome = true) :
    (t.values : Multiset ν) =
      (ks.foldl Table.erase t).values + (ks.filterMap t.get? : Multiset ν) := by
  induction ks generalizing t with
  | nil => exact (add_zero _).symm
  | cons k rest ih =>
    obtain ⟨fresh, nodup⟩ := List.nodup_cons.1 nodup
    obtain ⟨v, found⟩ := Option.isSome_iff_exists.1 (bound k List.mem_cons_self)
    have others : ∀ j ∈ rest, (t.erase k).get? j = t.get? j := fun j inside =>
      get?_erase_other t fun same => fresh (same ▸ inside)
    have left := ih (t.erase k) nodup fun j inside => by
      rw [others j inside]
      exact bound j (List.mem_cons_of_mem k inside)
    rw [List.filterMap_congr others] at left
    rw [values_erase t k found, left, List.foldl_cons, List.filterMap_cons_some found,
      ← Multiset.cons_coe, Multiset.add_cons]

/-- Keys may be erased in any order. -/
theorem foldl_erase_perm {ks ks' : List κ} (perm : ks.Perm ks') :
    ks.foldl Table.erase t = ks'.foldl Table.erase t := by
  have values : ∀ k, (ks.foldl Table.erase t).get? k = (ks'.foldl Table.erase t).get? k :=
    fun k => by simp only [get?_foldl_erase, perm.mem_iff]
  refine ext_get? (eq_of_sublists t.keys_nodup (t.keys_foldl_erase_sublist ks)
    (t.keys_foldl_erase_sublist ks') fun k => ?_) values
  rw [mem_keys, mem_keys, values]

variable (f : ν → List α)

theorem gather_erase {v : ν} (found : t.get? k = some v) :
    t.gather f = (f v : Multiset α) + (t.erase k).gather f := by
  rw [gather, values_erase t k found, Multiset.cons_bind, gather]

theorem gather_put (v : ν) :
    (t.put k v).gather f = (f v : Multiset α) + (t.erase k).gather f := by
  rw [gather, values_put, Multiset.cons_bind, gather]

theorem gather_modify {v : ν} (g : ν → ν) (found : t.get? k = some v) :
    (t.modify k g).gather f = (f (g v) : Multiset α) + (t.erase k).gather f := by
  rw [gather, values_modify t k g found, Multiset.cons_bind, gather]

/-- A change that keeps what each value holds keeps what all of them hold. -/
theorem gather_modify_same (g : ν → ν) (same : ∀ v, t.get? k = some v → f (g v) = f v) :
    (t.modify k g).gather f = t.gather f := by
  cases found : t.get? k with
  | none => rw [modify_of_none t k g found]
  | some v => rw [gather_modify t k f g found, same v found, ← gather_erase t k f found]

/-- What a table holds is given by its keys and what the value of each holds. -/
theorem gather_congr {t t' : Table κ ν} (keys : t.keys = t'.keys)
    (same : ∀ k, (t.get? k).map f = (t'.get? k).map f) : t.gather f = t'.gather f := by
  have images : ∀ u : Table κ ν,
      u.values.map f = u.keys.filterMap fun k => (u.get? k).map f := fun u => by
    rw [values, entries_eq, List.map_map, List.map_filterMap]
    refine List.filterMap_congr fun k _ => ?_
    rw [Option.map_map]
    rfl
  have lists : t.values.map f = t'.values.map f := by
    rw [images, images, keys]
    exact List.filterMap_congr fun k _ => same k
  rw [gather, gather, Multiset.coe_bind, Multiset.coe_bind, List.flatMap_def, List.flatMap_def,
    lists]

theorem mem_gather_of_get? {v : ν} {a : α} (found : t.get? k = some v) (h : a ∈ f v) :
    a ∈ t.gather f :=
  (mem_gather t f).2 ⟨v, mem_values t k found, h⟩

end Compound.Table
