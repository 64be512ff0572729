import Compound.Host.Install
import Compound.Proofs.Indices
import Compound.Proofs.Tables

/-!
The order in which keys are listed. Of different keys there is one list that has the array indices
first, strictly ascending, and then the names and the symbols as they came. Nothing is lost and
nothing is repeated, to list a listing changes nothing, and to leave keys out before or after makes
no difference.
-/
namespace Compound

namespace Key

theorem isSymbol_of_arrayIndex {k : Key} {n : Nat} (index : k.arrayIndex = some n) :
    k.isSymbol = false := by
  cases k with
  | name s => rfl
  | symbol s => cases index

theorem arrayIndex_of_isSymbol {k : Key} (symbol : k.isSymbol = true) : k.arrayIndex = none := by
  cases k with
  | name s => cases symbol
  | symbol s => rfl

theorem arrayIndex_of_mem_indexed {keys : List Key} {p : Nat × Key} (inside : p ∈ indexed keys) :
    p.2.arrayIndex = some p.1 := by
  simp only [indexed, List.mem_filterMap, Option.map_eq_some_iff] at inside
  obtain ⟨k, -, n, index, rfl⟩ := inside
  exact index

theorem map_snd_indexed (keys : List Key) :
    (indexed keys).map Prod.snd = keys.filter fun k => k.arrayIndex.isSome := by
  induction keys with
  | nil => rfl
  | cons k rest ih =>
    rw [indexed] at ih ⊢
    cases index : k.arrayIndex <;> simp [index, ih]

/-- Indices that are listed with their keys are found again. -/
theorem indexed_map_snd {l : List (Nat × Key)} (indices : ∀ p ∈ l, p.2.arrayIndex = some p.1) :
    indexed (l.map Prod.snd) = l := by
  induction l with
  | nil => rfl
  | cons p rest ih =>
    have index := indices p List.mem_cons_self
    have rest_indexed := ih fun q inside => indices q (List.mem_cons_of_mem p inside)
    rw [indexed] at rest_indexed ⊢
    simp [index, rest_indexed]

theorem byIndex_perm (keys : List Key) : (byIndex keys).Perm (indexed keys) :=
  List.mergeSort_perm (indexed keys) _

theorem byIndex_pairwise (keys : List Key) : (byIndex keys).Pairwise fun p q => p.1 ≤ q.1 := by
  have sorted : (byIndex keys).Pairwise fun p q => decide (p.1 ≤ q.1) = true := by
    refine List.pairwise_mergeSort (fun p q r first second => ?_) (fun p q => ?_) (indexed keys)
    · exact decide_eq_true (Nat.le_trans (of_decide_eq_true first) (of_decide_eq_true second))
    · simpa using Nat.le_total p.1 q.1
  exact sorted.imp of_decide_eq_true

theorem arrayIndex_of_mem_byIndex {keys : List Key} {p : Nat × Key} (inside : p ∈ byIndex keys) :
    p.2.arrayIndex = some p.1 :=
  arrayIndex_of_mem_indexed ((byIndex_perm keys).mem_iff.1 inside)

/-- Listing keys neither loses nor repeats one. -/
theorem ordered_perm (keys : List Key) : (ordered keys).Perm keys := by
  have indices : ((byIndex keys).map Prod.snd).Perm
      (keys.filter fun k => k.arrayIndex.isSome) := by
    rw [← map_snd_indexed]
    exact (byIndex_perm keys).map _
  have rest : (keys.filter isPlainName ++ keys.filter isSymbol).Perm
      (keys.filter fun k => !k.arrayIndex.isSome) := by
    have names : keys.filter isPlainName =
        (keys.filter fun k => !k.arrayIndex.isSome).filter fun k => !k.isSymbol := by
      rw [List.filter_filter]
      exact List.filter_congr fun k _ => by simp [isPlainName, Bool.and_comm]
    have symbols : keys.filter isSymbol =
        (keys.filter fun k => !k.arrayIndex.isSome).filter fun k => !!k.isSymbol := by
      rw [List.filter_filter]
      refine List.filter_congr fun k _ => ?_
      cases symbol : k.isSymbol
      · rfl
      · simp [arrayIndex_of_isSymbol symbol]
    rw [names, symbols]
    exact List.filter_append_perm _ _
  rw [ordered, List.append_assoc]
  exact (indices.append rest).trans (List.filter_append_perm _ keys)

theorem indexed_filter (p : Key → Bool) (keys : List Key) :
    indexed (keys.filter p) = (indexed keys).filter fun q => p q.2 := by
  induction keys with
  | nil => rfl
  | cons k rest ih =>
    rw [indexed] at ih ⊢
    cases index : k.arrayIndex <;> cases kept : p k <;> simp [index, kept, ih, indexed]

/-- Equal indices belong to one key, so that there is one way to sort by them. -/
theorem byIndex_eq {keys : List Key} {l : List (Nat × Key)} (perm : l.Perm (indexed keys))
    (sorted : l.Pairwise fun p q => p.1 ≤ q.1) : byIndex keys = l := by
  refine ((byIndex_perm keys).trans perm.symm).eq_of_pairwise (fun p q inside inside' le ge => ?_)
    (byIndex_pairwise keys) sorted
  have index := arrayIndex_of_mem_byIndex inside
  have index' := arrayIndex_of_mem_indexed (perm.mem_iff.1 inside')
  have same : p.1 = q.1 := Nat.le_antisymm le ge
  exact Prod.ext same (arrayIndex_injective index (same ▸ index'))

/-- Keys whose indices have been sorted are listed by that. -/
theorem ordered_eq {keys : List Key} {l : List (Nat × Key)} (perm : l.Perm (indexed keys))
    (sorted : l.Pairwise fun p q => p.1 ≤ q.1) :
    ordered keys = l.map Prod.snd ++ keys.filter isPlainName ++ keys.filter isSymbol := by
  rw [ordered, byIndex_eq perm sorted]

theorem byIndex_filter (p : Key → Bool) (keys : List Key) :
    byIndex (keys.filter p) = (byIndex keys).filter fun q => p q.2 := by
  refine byIndex_eq ?_ ((byIndex_pairwise keys).filter _)
  rw [indexed_filter]
  exact (byIndex_perm keys).filter _

/-- To leave keys out and to list the rest is to list all and to leave them out. -/
theorem ordered_filter (p : Key → Bool) (keys : List Key) :
    ordered (keys.filter p) = (ordered keys).filter p := by
  rw [ordered, byIndex_filter, ordered, List.filter_append, List.filter_append,
    List.filter_map, List.filter_comm p, List.filter_comm p]
  rfl

/-- Fewer keys are listed as they are among more. -/
theorem ordered_sublist_ordered {keys keys' : List Key} (distinct : keys'.Nodup)
    (sub : keys.Sublist keys') : (ordered keys).Sublist (ordered keys') := by
  have kept : keys = keys'.filter (· ∈ keys) :=
    Table.eq_of_sublists distinct sub List.filter_sublist fun k => by
      simpa using fun inside => sub.subset inside
  rw [kept, ordered_filter]
  exact List.filter_sublist

/-- Of array indices nothing but the indices is listed. -/
theorem ordered_of_indices {keys : List Key} (indices : ∀ k ∈ keys, k.arrayIndex.isSome = true) :
    ordered keys = (byIndex keys).map Prod.snd := by
  have names : keys.filter isPlainName = [] := by
    rw [List.filter_eq_nil_iff]
    intro k inside
    obtain ⟨n, index⟩ := Option.isSome_iff_exists.1 (indices k inside)
    simp [isPlainName, index]
  have symbols : keys.filter isSymbol = [] := by
    rw [List.filter_eq_nil_iff]
    intro k inside
    obtain ⟨n, index⟩ := Option.isSome_iff_exists.1 (indices k inside)
    simp [isSymbol_of_arrayIndex index]
  rw [ordered, names, symbols, List.append_nil, List.append_nil]

/-- Keys that are no indices stay as they are, if they are all names or all symbols. -/
theorem ordered_of_unindexed {keys : List Key} (unindexed : ∀ k ∈ keys, k.arrayIndex = none)
    (symbol : Bool) (same : ∀ k ∈ keys, k.isSymbol = symbol) : ordered keys = keys := by
  have indices : indexed keys = [] := by
    rw [indexed, List.filterMap_eq_nil_iff]
    intro k inside
    rw [unindexed k inside]
    rfl
  have names : keys.filter isPlainName = keys.filter fun _ => !symbol :=
    List.filter_congr fun k inside => by simp [isPlainName, unindexed k inside, same k inside]
  have symbols : keys.filter isSymbol = keys.filter fun _ => symbol :=
    List.filter_congr same
  rw [ordered, byIndex, indices, names, symbols]
  cases symbol <;> simp

theorem filter_isPlainName_ordered (keys : List Key) :
    (ordered keys).filter isPlainName = keys.filter isPlainName := by
  have plain : ∀ k ∈ keys.filter isPlainName, k.arrayIndex = none ∧ k.isSymbol = false := by
    intro k inside
    simpa [isPlainName] using (List.mem_filter.1 inside).2
  rw [← ordered_filter]
  exact ordered_of_unindexed (fun k inside => (plain k inside).1) false
    fun k inside => (plain k inside).2

theorem filter_isSymbol_ordered (keys : List Key) :
    (ordered keys).filter isSymbol = keys.filter isSymbol := by
  have symbols : ∀ k ∈ keys.filter isSymbol, k.isSymbol = true :=
    fun k inside => (List.mem_filter.1 inside).2
  rw [← ordered_filter]
  exact ordered_of_unindexed (fun k inside => arrayIndex_of_isSymbol (symbols k inside)) true
    symbols

theorem indexed_filter_isSome (keys : List Key) :
    indexed (keys.filter (·.arrayIndex.isSome)) = indexed keys := by
  rw [indexed_filter, List.filter_eq_self]
  intro p inside
  rw [arrayIndex_of_mem_indexed inside, Option.isSome_some]

theorem indexed_ordered (keys : List Key) :
    indexed (ordered keys) = byIndex keys := by
  have listed : (ordered keys).filter (·.arrayIndex.isSome) = (byIndex keys).map Prod.snd := by
    rw [← ordered_filter, ordered_of_indices fun k inside => (List.mem_filter.1 inside).2,
      byIndex, indexed_filter_isSome, byIndex]
  rw [← indexed_filter_isSome (ordered keys), listed]
  exact indexed_map_snd fun p inside => arrayIndex_of_mem_byIndex inside

/-- Keys that are listed in order stay so. -/
theorem ordered_ordered (keys : List Key) : ordered (ordered keys) = ordered keys := by
  have indices : byIndex (ordered keys) = byIndex keys :=
    byIndex_eq (.of_eq (indexed_ordered keys).symm) (byIndex_pairwise keys)
  rw [ordered, indices, filter_isPlainName_ordered, filter_isSymbol_ordered, ordered]

/-- The keys are array indices, one greater than the other. -/
structure Ascending (l : List Key) : Prop where
  indices : ∀ k ∈ l, ∃ n, k.arrayIndex = some n
  ascending : (l.filterMap arrayIndex).Pairwise (· < ·)

/-- A list of keys is their listing: it has the same keys, first those that are array indices, one
greater than the other, then the other names and then the symbols, both as they came. -/
structure Lists (keys l : List Key) : Prop where
  perm : l.Perm keys
  parts : ∃ indices, Ascending indices ∧
    l = indices ++ (keys.filter fun k => k.arrayIndex.isNone && !k.isSymbol)
      ++ keys.filter isSymbol

/-- Indices are known by their numbers. -/
theorem Ascending.eq_map_ofNat {l : List Key} (a : Ascending l) :
    l = (l.filterMap arrayIndex).map ofNat := by
  obtain ⟨indices, -⟩ := a
  induction l with
  | nil => rfl
  | cons k rest ih =>
    obtain ⟨n, index⟩ := indices k List.mem_cons_self
    rw [List.filterMap_cons, index, List.map_cons, ← (arrayIndex_eq_some.1 index).2,
      ← ih fun j inside => indices j (List.mem_cons_of_mem k inside)]

theorem Ascending.eq_of_perm {l l' : List Key} (a : Ascending l) (a' : Ascending l')
    (perm : l.Perm l') : l = l' := by
  have numbers : l.filterMap arrayIndex = l'.filterMap arrayIndex :=
    (perm.filterMap arrayIndex).eq_of_pairwise
      (fun m n _ _ lt gt => absurd lt (Nat.lt_asymm gt)) a.ascending a'.ascending
  rw [a.eq_map_ofNat, a'.eq_map_ofNat, numbers]

/-- Keys have one listing. -/
theorem Lists.unique {keys l l' : List Key} (first : Lists keys l) (second : Lists keys l') :
    l = l' := by
  obtain ⟨perm, indices, ascending, rfl⟩ := first
  obtain ⟨perm', indices', ascending', rfl⟩ := second
  have same := perm.trans perm'.symm
  rw [List.append_assoc, List.append_assoc, List.perm_append_right_iff] at same
  rw [ascending.eq_of_perm ascending' same]

/-- The indices of different keys, in order. -/
theorem ascending_byIndex {keys : List Key} (distinct : keys.Nodup) :
    Ascending ((byIndex keys).map Prod.snd) := by
  have indices : ∀ p ∈ byIndex keys, p.2.arrayIndex = some p.1 := fun p inside =>
    arrayIndex_of_mem_byIndex inside
  have nodup : ((indexed keys).map Prod.snd).Nodup := by
    rw [map_snd_indexed]
    exact distinct.filter _
  have numbers : ((byIndex keys).map Prod.snd).filterMap arrayIndex =
      (byIndex keys).map Prod.fst := by
    rw [List.filterMap_map, ← List.filterMap_eq_map]
    exact List.filterMap_congr indices
  refine ⟨fun k inside => ?_, ?_⟩
  · obtain ⟨p, listed, rfl⟩ := List.mem_map.1 inside
    exact ⟨p.1, indices p listed⟩
  · rw [numbers, List.pairwise_map]
    -- Of two keys the first has no greater number, and equal numbers belong to one key.
    have apart : (byIndex keys).Pairwise fun p q => p.2 ≠ q.2 :=
      List.pairwise_map.1 (((byIndex_perm keys).map Prod.snd).nodup_iff.2 nodup)
    refine ((byIndex_pairwise keys).and apart).imp_of_mem fun {p q} first second ordered => ?_
    refine Nat.lt_of_le_of_ne ordered.1 fun same => ordered.2 ?_
    exact arrayIndex_injective (indices p first) (same ▸ indices q second)

theorem lists_ordered {keys : List Key} (distinct : keys.Nodup) : Lists keys (ordered keys) :=
  ⟨ordered_perm keys, _, ascending_byIndex distinct, rfl⟩

/-- The indices among different keys are listed in the same way, in whatever order these come. -/
theorem filter_ordered_of_perm {keys keys' : List Key} (distinct : keys.Nodup)
    (perm : keys'.Perm keys) :
    (ordered keys').filter (·.arrayIndex.isSome) = (ordered keys).filter (·.arrayIndex.isSome) := by
  have ascending : ∀ {keys : List Key}, keys.Nodup →
      Ascending (ordered (keys.filter (·.arrayIndex.isSome))) := fun distinct => by
    rw [ordered_of_indices fun k inside => (List.mem_filter.1 inside).2]
    exact ascending_byIndex (distinct.filter _)
  have same : (ordered (keys'.filter (·.arrayIndex.isSome))).Perm
      (ordered (keys.filter (·.arrayIndex.isSome))) :=
    ((ordered_perm _).trans (perm.filter _)).trans (ordered_perm _).symm
  rw [← ordered_filter, ← ordered_filter]
  exact (ascending (perm.nodup_iff.2 distinct)).eq_of_perm (ascending distinct) same

/-- Different keys have exactly one listing, the one in which they are ordered. The listing of a
listing is itself, and in whatever order the keys come, the indices among them are listed in the
same way. So every object lists its own keys, and specifications are listed by theirs. -/
theorem ordered_unique :
    (∀ keys : List Key, keys.Nodup →
      (∀ l, Lists keys l ↔ l = ordered keys) ∧ ordered (ordered keys) = ordered keys ∧
      ∀ keys', keys'.Perm keys →
        (ordered keys').filter (·.arrayIndex.isSome) =
          (ordered keys).filter (·.arrayIndex.isSome)) ∧
    (∀ o : Object, Lists o.slots.keys o.ownKeys) ∧
    ∀ specs : Specs, Lists specs.keys (Specs.orderedKeys specs) := by
  refine ⟨fun keys distinct => ⟨fun l => ⟨fun lists => ?_, ?_⟩, ordered_ordered keys,
    fun keys' perm => filter_ordered_of_perm distinct perm⟩, fun o => ?_, fun specs => ?_⟩
  · exact lists.unique (lists_ordered distinct)
  · rintro rfl
    exact lists_ordered distinct
  · exact lists_ordered o.slots.keys_nodup
  · exact lists_ordered specs.keys_nodup

/-- Among names that only look like indices and symbols that only look alike, three names are
indices. The longest of them is the greatest index; the next number is none. -/
theorem ordered_unique_lookalikes :
    let first : Key := symbol ⟨1, some "s"⟩
    let second : Key := symbol ⟨2, some "s"⟩
    let keys := [name "b", first, name "4294967294", name "01", second, name "10",
      name "4294967295", name "9", name "99999999999999999999"]
    let listing := [name "9", name "10", name "4294967294", name "b", name "01",
      name "4294967295", name "99999999999999999999", first, second]
    keys.Nodup ∧ Lists keys listing ∧ ordered listing = listing ∧
      keys.reverse.Perm keys ∧
      (ordered keys.reverse).filter (·.arrayIndex.isSome) =
        [name "9", name "10", name "4294967294"] := by
  intro first second keys listing
  have distinct : keys.Nodup := by decide +kernel
  have same : listing = ordered keys := by
    rw [@ordered_eq keys [(9, name "9"), (10, name "10"), (4294967294, name "4294967294")]
      (by decide +kernel) (by decide +kernel)]
    decide +kernel
  have indices : (ordered keys).filter (·.arrayIndex.isSome) =
      [name "9", name "10", name "4294967294"] := by
    rw [← same]
    decide +kernel
  obtain ⟨exactly, again, reordered⟩ := ordered_unique.1 keys distinct
  refine ⟨distinct, (exactly listing).2 same, ?_, keys.reverse_perm, ?_⟩
  · rw [same, again]
  · rw [reordered keys.reverse keys.reverse_perm, indices]

end Key

theorem Object.enumerableNames_eq_filter_ownKeys (o : Object) :
    o.enumerableNames =
      o.ownKeys.filter fun k => !k.isSymbol && (o.slots.get? k).any Slot.isEnumerable := by
  rw [enumerableNames, o.slots.map_fst_filter fun k s => !k.isSymbol && s.isEnumerable,
    Key.ordered_filter, ownKeys]
  refine List.filter_congr fun k _ => ?_
  cases o.slots.get? k <;> simp

namespace Host

variable {w : Host} {id : ObjectId} {k : Key}

/-- An object lists the keys that have a slot. -/
theorem mem_ownKeys : k ∈ w.ownKeys id ↔ ∃ s, w.slot? id k = some s := by
  cases found : w.object? id with
  | none => simp [ownKeys, slot?, found]
  | some o =>
    rw [slot?_of_found found, ownKeys, found, ← o.slots.mem_keys k]
    exact (Key.ordered_perm o.slots.keys).mem_iff

/-- The enumerable names of an object are its own keys in the same order, without the symbols and
without the keys of slots that are not enumerable. No name of an enumerable slot is missing. -/
theorem enumerableNames_eq_filter (w : Host) (id : ObjectId) :
    w.enumerableNames id =
        (w.ownKeys id).filter (fun k => !k.isSymbol && (w.slot? id k).any Slot.isEnumerable) ∧
      ∀ k, k ∈ w.enumerableNames id ↔
        k.isSymbol = false ∧ ∃ s, w.slot? id k = some s ∧ s.isEnumerable = true := by
  have listed : w.enumerableNames id =
      (w.ownKeys id).filter fun k => !k.isSymbol && (w.slot? id k).any Slot.isEnumerable := by
    cases found : w.object? id with
    | none => simp [enumerableNames, ownKeys, found]
    | some o =>
      simp only [enumerableNames, ownKeys, slot?_of_found found, found, Option.elim_some]
      exact o.enumerableNames_eq_filter_ownKeys
  refine ⟨listed, fun k => ?_⟩
  rw [listed, List.mem_filter, mem_ownKeys, Bool.and_eq_true, Bool.not_eq_true', Option.any_eq_true]
  constructor
  · rintro ⟨-, name, s, found, enumerable⟩
    exact ⟨name, s, found, enumerable⟩
  · rintro ⟨name, s, found, enumerable⟩
    exact ⟨⟨s, found⟩, name, s, found, enumerable⟩

end Host

end Compound
