import Compound.Proofs.Changes
import Compound.Proofs.Listings
import Compound.Proofs.Runs

/-!
How the properties of an object grow, in every session that a script can reach. Keys are only
ever added, and only at the end of the table, so nothing is removed or moved; an object that may
not grow keeps its keys for good; and a slot that may not be redefined can lose nothing but its
writable flag, and its value can change only while it has that flag. Each change of an object
keeps to these laws, and they compose, so they hold between any two states of a run.
-/
namespace Compound

/-- What may become of a slot that may not be redefined. -/
inductive Slot.Settles : Slot → Slot → Prop
  | data {v v' : Value} {writable writable' enumerable : Bool}
      (locked : writable' = true → writable = true) (kept : writable = false → v' = v) :
      Settles (.data v writable enumerable false) (.data v' writable' enumerable false)
  | accessor {get set : Option ObjectId} {enumerable : Bool} :
      Settles (.accessor get set enumerable false) (.accessor get set enumerable false)

namespace Slot.Settles

variable {s s' s'' : Slot}

theorem refl (unconfigurable : s.isConfigurable = false) : s.Settles s := by
  cases s with
  | data v writable enumerable configurable =>
    cases unconfigurable
    exact .data id fun _ => rfl
  | accessor get set enumerable configurable =>
    cases unconfigurable
    exact .accessor

theorem unconfigurable (h : s.Settles s') : s'.isConfigurable = false := by
  cases h <;> rfl

theorem trans (h : s.Settles s') (h' : s'.Settles s'') : s.Settles s'' := by
  cases h with
  | data locked kept =>
    cases h' with
    | data locked' kept' =>
      refine .data (fun h => locked (locked' h)) fun fixed => ?_
      exact (kept' (Bool.eq_false_iff.2 fun h => by simp [locked h] at fixed)).trans (kept fixed)
  | accessor => exact h'

theorem frozen (unconfigurable : s.isConfigurable = false) : s.Settles s.frozen := by
  cases s with
  | data v writable enumerable configurable =>
    cases unconfigurable
    exact .data (fun h => by cases h) fun _ => rfl
  | accessor get set enumerable configurable =>
    cases unconfigurable
    exact .accessor

end Slot.Settles

/-- What may become of the properties of an object. -/
structure Object.Matures (o o' : Object) : Prop where
  keys : o.slots.keys <+: o'.slots.keys
  closed : o.extensible = false → o'.extensible = false ∧ o'.slots.keys = o.slots.keys
  settled : ∀ k s, o.slots.get? k = some s → s.isConfigurable = false →
    ∃ s', o'.slots.get? k = some s' ∧ s.Settles s'

namespace Object.Matures

variable {o o' o'' : Object} {id : ObjectId} {d : Deed}

/-- A change that leaves the properties alone. -/
theorem same (slots : o'.slots = o.slots) (extensible : o'.extensible = o.extensible) :
    o.Matures o' := by
  refine ⟨slots ▸ List.prefix_rfl, fun closed => ?_, fun k s stored unconfigurable => ?_⟩
  · exact ⟨extensible.trans closed, by rw [slots]⟩
  · exact ⟨s, slots ▸ stored, .refl unconfigurable⟩

theorem trans (m : o.Matures o') (m' : o'.Matures o'') : o.Matures o'' := by
  refine ⟨m.keys.trans m'.keys, fun closed => ?_, fun k s stored unconfigurable => ?_⟩
  · obtain ⟨closed', keys⟩ := m.closed closed
    obtain ⟨closed'', keys'⟩ := m'.closed closed'
    exact ⟨closed'', keys'.trans keys⟩
  · obtain ⟨s', stored', settles⟩ := m.settled k s stored unconfigurable
    obtain ⟨s'', stored'', settles'⟩ := m'.settled k s' stored' settles.unconfigurable
    exact ⟨s'', stored'', settles.trans settles'⟩

/-- A slot that may be written in the place of another one, which is there already. -/
theorem settles_of_permits {k : Key} {s old : Slot} (permitted : o.Permits k s)
    (stored : o.slots.get? k = some old) (unconfigurable : old.isConfigurable = false) :
    old.Settles s := by
  rw [Permits, stored] at permitted
  rcases permitted with configurable | ⟨u, v, enumerable, configurable, rfl, rfl⟩
  · rw [unconfigurable] at configurable
    cases configurable
  · cases unconfigurable
    exact .data id fun h => by cases h

theorem put {n : Nat} {k : Key} {s : Slot} (permitted : o.Permits k s) :
    o.Matures { o with refs := n, slots := o.slots.put k s } := by
  have keys := Table.keys_put o.slots k s
  refine ⟨?_, fun closed => ⟨closed, ?_⟩, fun j u stored unconfigurable => ?_⟩
  · simp only [keys]
    split
    · exact List.prefix_rfl
    · exact List.prefix_append _ _
  · -- a closed object permits writes only under the keys that it has
    have present : k ∈ o.slots.keys := by
      rw [Table.mem_keys]
      cases stored : o.slots.get? k with
      | some old => exact ⟨old, rfl⟩
      | none =>
        rw [Permits, stored, closed] at permitted
        cases permitted
    simp only [keys, if_pos present]
  · by_cases same : j = k
    · subst same
      exact ⟨s, Table.get?_put_same _ _ _, settles_of_permits permitted stored unconfigurable⟩
    · exact ⟨u, (Table.get?_put_other _ _ same).trans stored, .refl unconfigurable⟩

theorem freeze (o : Object) : o.Matures o.freeze := by
  have keys : o.freeze.slots.keys = o.slots.keys := Table.keys_map _ _
  refine ⟨keys ▸ List.prefix_rfl, fun _ => ⟨rfl, keys⟩, fun k s stored unconfigurable => ?_⟩
  refine ⟨s.frozen, ?_, .frozen unconfigurable⟩
  rw [Object.freeze, Table.get?_map, stored, Option.map_some]

theorem of_change (change : o.Change id d o') : o.Matures o' := by
  cases change with
  | elsewhere | finalize | tag | join => exact same rfl rfl
  | write permitted => exact put permitted
  | freeze => exact freeze o
  | prevent =>
    exact ⟨List.prefix_rfl, fun _ => ⟨rfl, rfl⟩, fun k s stored unconfigurable =>
      ⟨s, stored, .refl unconfigurable⟩⟩

theorem ownKeys_sublist (m : o.Matures o') : o.ownKeys.Sublist o'.ownKeys :=
  Key.ordered_sublist_ordered o'.slots.keys_nodup m.keys.sublist

end Object.Matures

/-- The properties of an object keep to the laws through every run that it survives. -/
theorem Moves.matures {allowed : Deed → Prop} {c c' : Client} {id : ObjectId} {o o' : Object}
    (m : Moves allowed c c') (s : c.Sound) (found : c.host.object? id = some o)
    (found' : c'.host.object? id = some o') : o.Matures o' :=
  m.lasts (fun u => o.Matures u) (fun _ before change => before.trans (.of_change change))
    (s.accounted.bounded id o found) found (.same rfl rfl) found'

namespace Session

variable {s : Session} {id : ObjectId} {o o' : Object}

/-- Between a session that a script reaches and any session that follows it, an object that
lives in both has kept its keys in their places, so that it lists all of them in their order. If
it could not grow it still cannot, and has the same keys. Slots that could not be redefined are
of the same kind, with the same functions and flags, but for values that could be written and for
a writable flag that is gone. -/
theorem properties_grow (reach : s.Reachable) (ts : List Step)
    (found : s.host.object? id = some o) (found' : (s.run ts).host.object? id = some o') :
    o.Matures o' ∧ o.ownKeys.Sublist o'.ownKeys := by
  have matures := (moves_run reach.sound ts).matures reach.sound.client found found'
  exact ⟨matures, matures.ownKeys_sublist⟩

/-- An index is added to a closed object in vain, before it is closed it goes to the end of the
table but to the front of the list, and a value that may be written is written until its object
is frozen. -/
theorem properties_grow_frozen :
    let s := (start none).run [.create (some "o"),
      .define (.data (.bool true) true false false) "o" (.name "b"),
      .set "o" (.index 7) .null, .set "o" (.name "a") .null]
    let ts : List Step := [.set "o" (.index 2) .null, .set "o" (.name "b") .undefined, .prevent "o",
      .set "o" (.name "c") .null, .freeze "o", .set "o" (.name "b") .null]
    ∃ o o', s.host.object? 1 = some o ∧ (s.run ts).host.object? 1 = some o' ∧
      o.slots.keys = [.name "b", .name "7", .name "a"] ∧
      o'.slots.keys = [.name "b", .name "7", .name "a", .name "2"] ∧
      o.ownKeys = [.name "7", .name "b", .name "a"] ∧
      o'.ownKeys = [.name "2", .name "7", .name "b", .name "a"] ∧
      o'.slots.get? (.name "b") = some (.data .undefined false false false) ∧
      o.Matures o' ∧ o.ownKeys.Sublist o'.ownKeys := by
  intro s ts
  have reach : s.Reachable := ⟨_, _, rfl⟩
  obtain ⟨o, found, before⟩ := (Option.any_eq_true _ _).1
    (by decide +kernel : (s.host.object? 1).any (fun o => decide
      (o.slots.keys = [.name "b", .name "7", .name "a"])) = true)
  obtain ⟨o', found', after⟩ := (Option.any_eq_true _ _).1
    (by decide +kernel : ((s.run ts).host.object? 1).any (fun o => decide
      (o.slots.keys = [.name "b", .name "7", .name "a", .name "2"] ∧
        o.slots.get? (.name "b") = some (.data .undefined false false false))) = true)
  have keys := of_decide_eq_true before
  obtain ⟨keys', written⟩ := of_decide_eq_true after
  have listed : o.ownKeys = [.name "7", .name "b", .name "a"] := by
    rw [Object.ownKeys, keys, @Key.ordered_eq _ [(7, .name "7")] (by decide +kernel)
      (by decide +kernel)]
    decide +kernel
  have listed' : o'.ownKeys = [.name "2", .name "7", .name "b", .name "a"] := by
    rw [Object.ownKeys, keys', @Key.ordered_eq _ [(2, .name "2"), (7, .name "7")]
      (by decide +kernel) (by decide +kernel)]
    decide +kernel
  exact ⟨o, o', found, found', keys, keys', listed, listed', written,
    properties_grow reach ts found found'⟩

end Session

end Compound
