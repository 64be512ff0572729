/-!
Finite tables in insertion order. Every key occurs at most once: writing to a
present key keeps its position, a new key goes to the end. `get?` and `keys` are
the two views of a table, and each operation has one lemma for each of them.
-/
namespace Compound

variable {κ ν : Type}

/-- Entries with pairwise different keys, oldest key first. -/
@[ext]
structure Table (κ ν : Type) where
  entries : List (κ × ν)
  distinct : (entries.map Prod.fst).Nodup

namespace Table

section Raw

variable [DecidableEq κ]

/-- The value beside the first occurrence of a key. -/
def find (k : κ) : List (κ × ν) → Option ν
  | [] => none
  | (j, v) :: rest => if j = k then some v else find k rest

/-- Replace the value beside a key, or append a new pair. -/
def write (k : κ) (v : ν) : List (κ × ν) → List (κ × ν)
  | [] => [(k, v)]
  | (j, u) :: rest => if j = k then (j, v) :: rest else (j, u) :: write k v rest

/-- Drop the first pair of a key. -/
def without (k : κ) : List (κ × ν) → List (κ × ν)
  | [] => []
  | (j, u) :: rest => if j = k then rest else (j, u) :: without k rest

/-- Apply a function to the value beside a key. -/
def change (k : κ) (f : ν → ν) : List (κ × ν) → List (κ × ν)
  | [] => []
  | (j, u) :: rest => if j = k then (j, f u) :: rest else (j, u) :: change k f rest

theorem find_eq_none (k : κ) (l : List (κ × ν)) :
    find k l = none ↔ k ∉ l.map Prod.fst := by
  induction l with
  | nil => simp [find]
  | cons p rest ih =>
    obtain ⟨j, v⟩ := p
    by_cases h : j = k
    · simp [find, h]
    · simp [find, h, ih, Ne.symm h]

theorem find_mem {k : κ} {v : ν} {l : List (κ × ν)} (h : find k l = some v) :
    (k, v) ∈ l := by
  induction l with
  | nil => simp [find] at h
  | cons p rest ih =>
    obtain ⟨j, u⟩ := p
    by_cases hj : j = k
    · simp [find, hj] at h
      simp [hj, h]
    · simp [find, hj] at h
      simp [ih h]

theorem find_of_mem {k : κ} {v : ν} {l : List (κ × ν)} (hd : (l.map Prod.fst).Nodup)
    (h : (k, v) ∈ l) : find k l = some v := by
  induction l with
  | nil => simp at h
  | cons p rest ih =>
    obtain ⟨j, u⟩ := p
    simp only [List.map_cons, List.nodup_cons] at hd
    rcases List.mem_cons.1 h with h | h
    · cases h
      simp [find]
    · have hj : j ≠ k := by
        rintro rfl
        exact hd.1 (List.mem_map.2 ⟨_, h, rfl⟩)
      simp [find, hj, ih hd.2 h]

theorem find_write_same (k : κ) (v : ν) (l : List (κ × ν)) : find k (write k v l) = some v := by
  induction l with
  | nil => simp [write, find]
  | cons p rest ih =>
    obtain ⟨j, u⟩ := p
    by_cases h : j = k <;> simp [write, find, h, ih]

theorem find_write_other {k i : κ} (v : ν) (l : List (κ × ν)) (h : i ≠ k) :
    find i (write k v l) = find i l := by
  induction l with
  | nil => simp [write, find, Ne.symm h]
  | cons p rest ih =>
    obtain ⟨j, u⟩ := p
    by_cases hj : j = k
    · subst hj
      simp [write, find, Ne.symm h]
    · by_cases hi : j = i <;> simp [write, find, hj, hi, h, ih]

theorem keys_write (k : κ) (v : ν) (l : List (κ × ν)) :
    (write k v l).map Prod.fst =
      if k ∈ l.map Prod.fst then l.map Prod.fst else l.map Prod.fst ++ [k] := by
  induction l with
  | nil => simp [write]
  | cons p rest ih =>
    obtain ⟨j, u⟩ := p
    by_cases hj : j = k
    · simp [write, hj]
    · by_cases hm : k ∈ rest.map Prod.fst
      · rw [if_pos hm] at ih
        rw [if_pos (by simp only [List.map_cons, List.mem_cons]; exact Or.inr hm)]
        simp only [write, if_neg hj, List.map_cons, ih]
      · rw [if_neg hm] at ih
        rw [if_neg (by
          simp only [List.map_cons, List.mem_cons]
          rintro (h | h)
          · exact hj h.symm
          · exact hm h)]
        simp only [write, if_neg hj, List.map_cons, ih, List.cons_append]

theorem find_without_other {k i : κ} (l : List (κ × ν)) (h : i ≠ k) :
    find i (without k l) = find i l := by
  induction l with
  | nil => rfl
  | cons p rest ih =>
    obtain ⟨j, u⟩ := p
    by_cases hj : j = k
    · subst hj
      simp [without, find, Ne.symm h]
    · by_cases hi : j = i <;> simp [without, find, hj, hi, h, ih]

theorem without_sublist (k : κ) (l : List (κ × ν)) : (without k l).Sublist l := by
  induction l with
  | nil => exact List.Sublist.slnil
  | cons p rest ih =>
    obtain ⟨j, u⟩ := p
    by_cases hj : j = k
    · simp [without, hj]
    · simp [without, hj, ih]

theorem find_without_same (k : κ) (l : List (κ × ν)) (hd : (l.map Prod.fst).Nodup) :
    find k (without k l) = none := by
  induction l with
  | nil => rfl
  | cons p rest ih =>
    obtain ⟨j, u⟩ := p
    simp only [List.map_cons, List.nodup_cons] at hd
    by_cases hj : j = k
    · subst hj
      simp [without, (find_eq_none _ _).2 hd.1]
    · simp [without, find, hj, ih hd.2]

theorem keys_change (k : κ) (f : ν → ν) (l : List (κ × ν)) :
    (change k f l).map Prod.fst = l.map Prod.fst := by
  induction l with
  | nil => rfl
  | cons p rest ih =>
    obtain ⟨j, u⟩ := p
    by_cases hj : j = k <;> simp [change, hj, ih]

theorem find_change_same (k : κ) (f : ν → ν) (l : List (κ × ν)) :
    find k (change k f l) = (find k l).map f := by
  induction l with
  | nil => rfl
  | cons p rest ih =>
    obtain ⟨j, u⟩ := p
    by_cases hj : j = k <;> simp [change, find, hj, ih]

theorem find_change_other {k i : κ} (f : ν → ν) (l : List (κ × ν)) (h : i ≠ k) :
    find i (change k f l) = find i l := by
  induction l with
  | nil => rfl
  | cons p rest ih =>
    obtain ⟨j, u⟩ := p
    by_cases hj : j = k
    · subst hj
      simp [change, find, Ne.symm h]
    · by_cases hi : j = i <;> simp [change, find, hj, hi, h, ih]

theorem find_map (k : κ) (f : ν → ν) (l : List (κ × ν)) :
    find k (l.map fun p => (p.1, f p.2)) = (find k l).map f := by
  induction l with
  | nil => rfl
  | cons p rest ih =>
    obtain ⟨j, u⟩ := p
    by_cases hj : j = k <;> simp [find, hj, ih]

end Raw

/-- The table without entries. -/
def empty : Table κ ν := ⟨[], by simp⟩

instance : EmptyCollection (Table κ ν) := ⟨empty⟩

instance : Inhabited (Table κ ν) := ⟨empty⟩

instance [DecidableEq κ] [DecidableEq ν] : DecidableEq (Table κ ν) := fun s t =>
  if h : s.entries = t.entries then .isTrue (Table.ext h)
  else .isFalse fun e => h (e ▸ rfl)

/-- The keys, oldest first. -/
def keys (t : Table κ ν) : List κ := t.entries.map Prod.fst

/-- The values in the order of their keys. -/
def values (t : Table κ ν) : List ν := t.entries.map Prod.snd

def size (t : Table κ ν) : Nat := t.entries.length

/-- Apply a function to every value. -/
def map (f : ν → ν) (t : Table κ ν) : Table κ ν :=
  ⟨t.entries.map fun p => (p.1, f p.2), by simpa [Function.comp_def] using t.distinct⟩

@[simp] theorem keys_map (t : Table κ ν) (f : ν → ν) : (t.map f).keys = t.keys := by
  simp [keys, map, Function.comp_def]

variable [DecidableEq κ]

/-- The value of a key. -/
def get? (t : Table κ ν) (k : κ) : Option ν := find k t.entries

def contains (t : Table κ ν) (k : κ) : Bool := (t.get? k).isSome

/-- Write a value: a present key keeps its position, a new one goes to the end. -/
def put (t : Table κ ν) (k : κ) (v : ν) : Table κ ν :=
  ⟨write k v t.entries, by
    rw [keys_write]
    split
    · exact t.distinct
    · rename_i h
      rw [List.nodup_append]
      refine ⟨t.distinct, by simp, fun a ha b hb => ?_⟩
      simp only [List.mem_singleton] at hb
      rintro rfl
      exact h (hb ▸ ha)⟩

/-- Remove a key; the others keep their order. -/
def erase (t : Table κ ν) (k : κ) : Table κ ν :=
  ⟨without k t.entries, List.Nodup.sublist ((without_sublist k t.entries).map _) t.distinct⟩

/-- Erase keys one after the other, and tell how many of them were present. -/
def eraseAll (t : Table κ ν) : List κ → Nat × Table κ ν
  | [] => (0, t)
  | k :: rest =>
    let (n, erased) := (t.erase k).eraseAll rest
    (if t.contains k then n + 1 else n, erased)

/-- Apply a function to the value of a key, if the key is present. -/
def modify (t : Table κ ν) (k : κ) (f : ν → ν) : Table κ ν :=
  ⟨change k f t.entries, by rw [keys_change]; exact t.distinct⟩

/-- Write pairs one after the other. -/
def ofList (pairs : List (κ × ν)) : Table κ ν :=
  pairs.foldl (fun t p => t.put p.1 p.2) empty

@[simp] theorem get?_empty (k : κ) : (empty : Table κ ν).get? k = none := rfl

@[simp] theorem get?_put_same (t : Table κ ν) (k : κ) (v : ν) : (t.put k v).get? k = some v :=
  find_write_same k v t.entries

theorem get?_put_other (t : Table κ ν) {k i : κ} (v : ν) (h : i ≠ k) :
    (t.put k v).get? i = t.get? i :=
  find_write_other v t.entries h

@[simp] theorem get?_erase_same (t : Table κ ν) (k : κ) : (t.erase k).get? k = none :=
  find_without_same k t.entries t.distinct

theorem get?_erase_other (t : Table κ ν) {k i : κ} (h : i ≠ k) :
    (t.erase k).get? i = t.get? i :=
  find_without_other t.entries h

@[simp] theorem get?_modify_same (t : Table κ ν) (k : κ) (f : ν → ν) :
    (t.modify k f).get? k = (t.get? k).map f :=
  find_change_same k f t.entries

theorem get?_modify_other (t : Table κ ν) {k i : κ} (f : ν → ν) (h : i ≠ k) :
    (t.modify k f).get? i = t.get? i :=
  find_change_other f t.entries h

@[simp] theorem get?_map (t : Table κ ν) (f : ν → ν) (k : κ) :
    (t.map f).get? k = (t.get? k).map f :=
  find_map k f t.entries

theorem get?_eq_none (t : Table κ ν) (k : κ) : t.get? k = none ↔ k ∉ t.keys :=
  find_eq_none k t.entries

theorem get?_eq_some (t : Table κ ν) (k : κ) (v : ν) :
    t.get? k = some v ↔ (k, v) ∈ t.entries :=
  ⟨find_mem, find_of_mem t.distinct⟩

theorem keys_put (t : Table κ ν) (k : κ) (v : ν) :
    (t.put k v).keys = if k ∈ t.keys then t.keys else t.keys ++ [k] :=
  keys_write k v t.entries

@[simp] theorem keys_modify (t : Table κ ν) (k : κ) (f : ν → ν) : (t.modify k f).keys = t.keys :=
  keys_change k f t.entries

theorem keys_erase_sublist (t : Table κ ν) (k : κ) : (t.erase k).keys.Sublist t.keys :=
  (without_sublist k t.entries).map _

/-- Erasing a present key makes the table one entry smaller. -/
theorem size_erase (t : Table κ ν) (k : κ) (h : t.contains k = true) :
    (t.erase k).size + 1 = t.size := by
  obtain ⟨l, hd⟩ := t
  simp only [contains, get?, size, erase] at *
  clear hd
  induction l with
  | nil => simp [find] at h
  | cons p rest ih =>
    obtain ⟨j, u⟩ := p
    by_cases hj : j = k
    · simp [without, hj]
    · simp only [find, if_neg hj] at h
      simp [without, hj, ih h]

end Table

end Compound
