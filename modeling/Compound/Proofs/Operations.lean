import Compound.Host.Embedding
import Compound.Proofs.Calls
import Compound.Proofs.Changes
import Compound.Proofs.Edits

/-!
The operations of a host as runs of moves. Each lemma asks for just the deeds on registries
that its operation may come to, so that it is plain from the statement what an operation
cannot do. What an operation hands out is added to what the client holds.
-/
namespace Compound

/-- The object may grow, and each of its slots may be redefined. -/
def Object.Open (o : Object) : Prop :=
  o.extensible = true ∧ ∀ k s, o.slots.get? k = some s → s.isConfigurable = true

namespace Object.Open

theorem permits {o : Object} (h : o.Open) (k : Key) (s : Slot) : o.Permits k s := by
  rw [Object.Permits]
  cases found : o.slots.get? k with
  | none => exact h.1
  | some old => exact Or.inl (h.2 k old found)

theorem put {o o' : Object} {k : Key} {s : Slot} (h : o.Open)
    (configurable : s.isConfigurable = true) (slots : o'.slots = o.slots.put k s)
    (extensible : o'.extensible = o.extensible) : o'.Open := by
  refine ⟨extensible.trans h.1, fun j u found => ?_⟩
  rw [slots] at found
  by_cases hj : j = k
  · subst hj
    rw [Table.get?_put_same, Option.some.injEq] at found
    exact found ▸ configurable
  · rw [Table.get?_put_other _ _ hj] at found
    exact h.2 j u found

end Object.Open

namespace Client.Sound

variable {held : Multiset ObjectId} {w : Host} {r : RegistryId} {reg : Registry}

/-- The values of boxes are kept alive by their registry. -/
theorem alive_boxed (s : Sound ⟨held, w⟩) (found : w.registry? r = some reg) {box value : ObjectId}
    (paired : reg.pairing.values.get? box = some value) : w.isAlive value = true := by
  have gathered : value ∈ w.registries.gather fun reg => reg.pairing.values.values :=
    Table.mem_gather_of_get? _ _ _ found (Table.mem_values _ _ paired)
  have rooted : value ∈ w.rooted := Multiset.mem_add.2 (Or.inr gathered)
  exact s.accounted.alive_outside (Multiset.mem_add.2 (Or.inr rooted))

end Client.Sound

namespace Host

section Pairing

variable {w : Host} {r : RegistryId} {reg : Registry}

theorem pairing_of_found (found : w.registry? r = some reg) : w.pairing r = reg.pairing := by
  rw [pairing, found]
  rfl

theorem pairing_of_none (absent : w.registry? r = none) : w.pairing r = .empty := by
  rw [pairing, absent]
  rfl

/-- A registry that knows a pair is open. -/
theorem found_of_paired {box value : ObjectId}
    (paired : (w.pairing r).values.get? box = some value) :
    ∃ reg, w.registry? r = some reg ∧ reg.pairing.values.get? box = some value := by
  cases found : w.registry? r with
  | none =>
    rw [pairing_of_none found] at paired
    cases paired
  | some reg =>
    rw [pairing_of_found found] at paired
    exact ⟨reg, rfl, paired⟩

/-- The box that is found for a value is alive. -/
theorem alive_of_boxOf? {v : Value} {box : ObjectId} (h : w.boxOf? r v = some box) :
    w.isAlive box = true := by
  obtain ⟨value, -, living⟩ := Option.bind_eq_some_iff.1 h
  rw [Pairing.livingBox?, Option.filter_eq_some_iff, Bool.and_eq_true] at living
  exact living.2.2

end Pairing

section Objects

variable {held : Multiset ObjectId} {w : Host}

theorem moves_create {function : Option Function}
    (kept : ∀ id ∈ (Object.new function).bodyReferences, w.isAlive id = true) :
    Moves Deed.plain ⟨held, w⟩ ⟨(w.create function).1 ::ₘ held, (w.create function).2⟩ :=
  .one (.create kept) rfl

/-- Writing plain slots one after the other to an object that is open throughout. -/
theorem moves_writeAll (s : Client.Sound ⟨held, w⟩) {id : ObjectId} (inside : id ∈ held)
    (entries : List (Key × Value)) (opened : ∀ o, w.object? id = some o → o.Open)
    (kept : ∀ e ∈ entries, ∀ j ∈ e.2.references, Client.Keeps ⟨held, w⟩ j) :
    Moves Deed.plain ⟨held, w⟩
      ⟨held, entries.foldl (fun w e => w.writeSlot id e.1 (.plain e.2)) w⟩ := by
  induction entries generalizing w with
  | nil => exact .refl _
  | cons e rest ih =>
    have alive : w.isAlive id = true := Client.Keeps.alive (.held inside) s
    obtain ⟨o, found⟩ := (Heap.isAlive_iff _ id).1 alive
    have open_o := opened o found
    have written : Moves Deed.plain ⟨held, w⟩ ⟨held, w.writeSlot id e.1 (.plain e.2)⟩ :=
      .one (.write found (open_o.permits _ _)
        (s.alive_kept fun j h => kept e List.mem_cons_self j h)) rfl
    refine written.trans (ih (written.sound s) (fun o' found' => ?_) fun e' he j h => ?_)
    · obtain ⟨u, n, found_u, rfl⟩ := object?_writeSlot_same found'
      cases Option.some.inj (found.symm.trans found_u)
      exact open_o.put rfl rfl rfl
    · exact (kept e' (List.mem_cons_of_mem e he) j h).after written s le_rfl

theorem moves_createFrom (s : Client.Sound ⟨held, w⟩) (entries : List (Key × Value))
    (kept : ∀ e ∈ entries, ∀ j ∈ e.2.references, Client.Keeps ⟨held, w⟩ j) :
    Moves Deed.plain ⟨held, w⟩ ⟨(w.createFrom entries).1 ::ₘ held, (w.createFrom entries).2⟩ := by
  have created : Moves Deed.plain ⟨held, w⟩ ⟨(w.create none).1 ::ₘ held, (w.create none).2⟩ :=
    moves_create fun id h => (List.not_mem_nil h).elim
  refine created.trans (moves_writeAll (created.sound s) (Multiset.mem_cons_self _ _) entries
    (fun o found => ?_) fun e he j h => ?_)
  · have new : (w.create none).2.object? (w.create none).1 = some (Object.new none) :=
      Heap.get?_create_same _ _
    cases Option.some.inj (new.symm.trans found)
    exact ⟨rfl, fun k s h => by cases h⟩
  · exact (kept e he j h).after created s (Multiset.le_cons_self _ _)

theorem moves_defineAll (s : Client.Sound ⟨held, w⟩) (id : ObjectId) (specs : List (Key × Spec))
    (kept : ∀ p ∈ specs, ∀ j ∈ p.2.slot.references, Client.Keeps ⟨held, w⟩ j) :
    Moves Deed.plain ⟨held, w⟩ ⟨held, (defineAll id specs w).2⟩ := by
  induction specs generalizing w with
  | nil => exact .refl _
  | cons p rest ih =>
    have defined : Moves Deed.plain ⟨held, w⟩ ⟨held, (w.defineSlot id p.1 p.2.slot).2⟩ :=
      moves_defineSlot s id p.1 (kept p List.mem_cons_self)
    rw [defineAll]
    cases result : w.defineSlot id p.1 p.2.slot with
    | mk outcome w' =>
      rw [result] at defined
      cases outcome with
      | error e => exact defined
      | ok _ =>
        refine defined.trans (ih (defined.sound s) fun p' hp j h => ?_)
        exact (kept p' (List.mem_cons_of_mem p hp) j h).after defined s le_rfl

theorem moves_call (s : Client.Sound ⟨held, w⟩) {f : ObjectId} {this : Value} {args : List Value}
    (kept : Client.Keeps ⟨held, w⟩ f) (lends : Client.Lends ⟨held, w⟩ this args) :
    Moves Deed.plain ⟨held, w⟩
      ⟨held + (handed (w.call f this args).1 : Multiset ObjectId), (w.call f this args).2⟩ :=
  lawful_invoke maxDepth held w f this args s kept lends

theorem moves_read (s : Client.Sound ⟨held, w⟩) {id : ObjectId} (kept : Client.Keeps ⟨held, w⟩ id)
    (k : Key) :
    Moves Deed.plain ⟨held, w⟩
      ⟨held + (handed (w.read id k).1 : Multiset ObjectId), (w.read id k).2⟩ :=
  moves_readWith (lawful_invoke maxDepth) s kept k

theorem moves_assign (s : Client.Sound ⟨held, w⟩) {id : ObjectId} (kept : Client.Keeps ⟨held, w⟩ id)
    (k : Key) {v : Value} (kept_value : ∀ j ∈ v.references, Client.Keeps ⟨held, w⟩ j) :
    Moves Deed.plain ⟨held, w⟩ ⟨held, (w.assign id k v).2⟩ :=
  moves_assignWith (lawful_invoke maxDepth) s kept k kept_value

theorem moves_isIterable (s : Client.Sound ⟨held, w⟩) {id : ObjectId}
    (kept : Client.Keeps ⟨held, w⟩ id) :
    Moves Deed.plain ⟨held, w⟩ ⟨held, (w.isIterable id).2⟩ := by
  have read := moves_read s kept (.symbol .iterator)
  rw [isIterable]
  cases result : w.read id (.symbol .iterator) with
  | mk outcome w' =>
    rw [result] at read
    cases outcome with
    | error e => simpa [handed] using read
    | ok v => exact read.trans moves_release

theorem moves_isIterableObject (s : Client.Sound ⟨held, w⟩) {v : Value}
    (kept : ∀ id ∈ v.references, Client.Keeps ⟨held, w⟩ id) :
    Moves Deed.plain ⟨held, w⟩ ⟨held, (w.isIterableObject v).2⟩ := by
  rw [isIterableObject]
  cases h : v.identity with
  | none => exact .refl _
  | some id =>
    simp only
    split
    · exact .refl _
    · exact moves_isIterable s (kept id (Value.mem_references.2 (Value.identity_eq_some h)))

end Objects

section Registries

variable {allowed : Deed → Prop} {held : Multiset ObjectId} {w : Host} {r : RegistryId}

theorem moves_openRegistry (light : ∀ d : Deed, d.Light → allowed d) {config : Config}
    (opens : allowed (.openRegistry config)) :
    Moves allowed ⟨held, w⟩ ⟨held, (w.openRegistry config).2⟩ := by
  rw [openRegistry, require]
  cases config.capabilities.missing with
  | nil =>
    have told : Moves allowed ⟨held, w⟩
        ⟨held, (w.tell .primitivesPresent).tell (.creating config.autoReclaim)⟩ :=
      .one (.remark _ _ _) (light _ .remark)
    exact told.trans (.one .openRegistry opens)
  | cons c rest => exact .one (.remark _ _ _) (light _ .remark)

theorem moves_autoReclaim (drains : allowed (.drain r)) :
    Moves allowed ⟨held, w⟩ ⟨held, w.autoReclaim r⟩ := by
  rw [autoReclaim]
  cases w.registry? r with
  | none => exact .refl _
  | some reg =>
    simp only
    split
    · exact .one .drain drains
    · exact .refl _

theorem found_autoReclaim (s : Client.Sound ⟨held, w⟩) (found : ∃ reg, w.registry? r = some reg) :
    ∃ reg, Host.registry? (w.autoReclaim r) r = some reg := by
  have drained : Moves (· = .drain r) ⟨held, w⟩ ⟨held, w.autoReclaim r⟩ := moves_autoReclaim rfl
  exact drained.stays_open s (by simp) found

theorem moves_tag (plain : ∀ d : Deed, d.plain → allowed d) (drains : allowed (.drain r))
    {id : ObjectId} {t : Tag} (tags : allowed (.tag r id t)) (s : Client.Sound ⟨held, w⟩)
    (found : ∃ reg, w.registry? r = some reg) (kept : Client.Keeps ⟨held, w⟩ id) :
    Moves allowed ⟨held, w⟩ ⟨held, (w.tag r id t).2⟩ := by
  have drained : Moves allowed ⟨held, w⟩ ⟨held, w.autoReclaim r⟩ := moves_autoReclaim drains
  have alive := (kept.after drained s le_rfl).alive (drained.sound s)
  obtain ⟨reg, found'⟩ := found_autoReclaim s found
  simp only [tag, found', Option.bind_some]
  cases free : reg.tags.get? id with
  | some existing =>
    simp only
    split <;> exact drained
  | none =>
    have tagged := drained.trans (.one (.tag found' free alive) tags)
    exact tagged.trans ((moves_remark _ _ _).mono plain)

theorem moves_joinIfFresh {box value : ObjectId} (joins : allowed (.join r box value))
    (found : ∃ reg, w.registry? r = some reg) (ne : value ≠ box) (kept : box ∈ held)
    (alive : w.isAlive value = true) :
    Moves allowed ⟨held, w⟩ ⟨held, (w.joinIfFresh r box value).2⟩ := by
  obtain ⟨reg, found⟩ := found
  rw [joinIfFresh, pairing_of_found found]
  split
  · exact .refl _
  · exact .refl _
  · rename_i fresh
    exact .one (.join found fresh ne kept alive) joins

theorem moves_pair (plain : ∀ d : Deed, d.plain → allowed d) (drains : allowed (.drain r))
    {box : ObjectId} {v : Value} (joins : ∀ value, v = .object value → allowed (.join r box value))
    (s : Client.Sound ⟨held, w⟩) (found : ∃ reg, w.registry? r = some reg) (inside : box ∈ held)
    (kept : ∀ id ∈ v.references, Client.Keeps ⟨held, w⟩ id) :
    Moves allowed ⟨held, w⟩ ⟨held, (w.pair r box v).2⟩ := by
  have drained : Moves allowed ⟨held, w⟩ ⟨held, w.autoReclaim r⟩ := moves_autoReclaim drains
  rw [pair]
  cases h : v.identity with
  | none => exact drained
  | some value =>
    have is := Value.identity_eq_some h
    by_cases itself : value = box
    · simp only [if_pos itself]
      exact drained
    · have alive := ((kept value (Value.mem_references.2 is)).after drained s le_rfl).alive
        (drained.sound s)
      have joined := drained.trans (moves_joinIfFresh (joins value is) (found_autoReclaim s found)
        itself inside alive)
      simp only [if_neg itself]
      split
      · rename_i e w' result
        rw [result] at joined
        exact joined
      · rename_i w' result
        rw [result] at joined
        exact joined
      · rename_i w' result
        rw [result] at joined
        exact joined.trans ((moves_remark _ _ _).mono plain)

theorem moves_boxFor (plain : ∀ d : Deed, d.plain → allowed d) (drains : allowed (.drain r))
    {v : Value} (joins : ∀ box value, v = .object value → allowed (.join r box value))
    (s : Client.Sound ⟨held, w⟩) (found : ∃ reg, w.registry? r = some reg)
    (kept : ∀ id ∈ v.references, Client.Keeps ⟨held, w⟩ id) :
    Moves allowed ⟨held, w⟩
      ⟨held + (handed ((w.boxFor r v).1.map .object) : Multiset ObjectId), (w.boxFor r v).2⟩ := by
  have drained : Moves allowed ⟨held, w⟩ ⟨held, w.autoReclaim r⟩ := moves_autoReclaim drains
  rw [boxFor]
  cases h : v.identity with
  | none => exact moves_of_nothing drained
  | some value =>
    have is := Value.identity_eq_some h
    simp only
    cases known : (w.autoReclaim r).boxOf? r v with
    | some box =>
      have alive := alive_of_boxOf? known
      exact drained.trans ((moves_retain (alive_singleton alive)).mono plain)
    | none =>
      have created : Moves allowed ⟨held, w.autoReclaim r⟩
          ⟨((w.autoReclaim r).create none).1 ::ₘ held, ((w.autoReclaim r).create none).2⟩ :=
        (moves_create fun id h => (List.not_mem_nil h).elim).mono plain
      have frozen : Moves allowed ⟨held, w⟩ ⟨((w.autoReclaim r).create none).1 ::ₘ held,
          ((w.autoReclaim r).create none).2.freeze ((w.autoReclaim r).create none).1⟩ :=
        (drained.trans created).trans (.one .freeze (plain _ rfl))
      have alive_before := ((kept value (Value.mem_references.2 is)).after drained s le_rfl).alive
        (drained.sound s)
      have alive := ((kept value (Value.mem_references.2 is)).after frozen s
        (Multiset.le_cons_self _ _)).alive (frozen.sound s)
      -- the box has a number that no living object had
      have ne : value ≠ ((w.autoReclaim r).create none).1 := by
        obtain ⟨o, living⟩ := (Heap.isAlive_iff _ value).1 alive_before
        exact Nat.ne_of_lt ((drained.sound s).accounted.bounded value o living)
      have opened : ∃ reg, Host.registry? (((w.autoReclaim r).create none).2.freeze
          ((w.autoReclaim r).create none).1) r = some reg := found_autoReclaim s found
      have joined := frozen.trans (moves_joinIfFresh (joins _ value is) opened ne
        (Multiset.mem_cons_self _ held) alive)
      simp only
      split
      · rename_i e w' result
        rw [result, holding_one] at joined
        exact moves_of_nothing (joined.trans (moves_release.mono plain))
      · rename_i fresh w' result
        rw [result, holding_one] at joined
        exact joined.trans ((moves_remark _ _ _).mono plain)

theorem moves_unpair {box : ObjectId} (unpairs : allowed (.unpair r box)) :
    Moves allowed ⟨held, w⟩
      ⟨held + (handed (w.unpair r box).1 : Multiset ObjectId), (w.unpair r box).2⟩ := by
  cases paired : (w.pairing r).values.get? box with
  | none =>
    rw [unpair, Pairing.remove_of_none paired]
    exact moves_of_nothing (.refl _)
  | some value =>
    obtain ⟨reg, found, paired'⟩ := found_of_paired paired
    have outcome : (w.unpair r box).1 = .ok (.object value) := by
      rw [unpair, Pairing.remove, paired]
    have unpaired : Moves allowed ⟨held, w⟩ ⟨value ::ₘ held, (w.unpair r box).2⟩ :=
      .one (.unpair found paired') unpairs
    rw [holding_one] at unpaired
    rw [outcome]
    exact unpaired

theorem moves_unbox (light : ∀ d : Deed, d.Light → allowed d) (s : Client.Sound ⟨held, w⟩)
    (v : Value) :
    Moves allowed ⟨held, w⟩
      ⟨held + (handed (w.unbox r v).1 : Multiset ObjectId), (w.unbox r v).2⟩ := by
  rw [unbox]
  cases h : v.identity.bind (w.pairing r).value? with
  | none => exact moves_of_nothing (.refl _)
  | some value =>
    obtain ⟨box, -, paired⟩ := Option.bind_eq_some_iff.1 h
    obtain ⟨reg, found, paired'⟩ := found_of_paired paired
    have alive := s.alive_boxed found paired'
    exact .one (.retain (alive_singleton alive)) (light _ (.retain _))

theorem moves_livingBox (light : ∀ d : Deed, d.Light → allowed d) (v : Value) :
    Moves allowed ⟨held, w⟩
      ⟨held + ((w.livingBox r v).1.toList : Multiset ObjectId), (w.livingBox r v).2⟩ := by
  refine .one (.retain fun id h => ?_) (light _ (.retain _))
  exact alive_of_boxOf? (Option.mem_toList.1 h)

theorem moves_validate (light : ∀ d : Deed, d.Light → allowed d) (s : Client.Sound ⟨held, w⟩)
    {v : Value} (kept : ∀ id ∈ v.references, Client.Keeps ⟨held, w⟩ id) :
    Moves allowed ⟨held, w⟩
      ⟨held + (handed (w.validate r v).1 : Multiset ObjectId), (w.validate r v).2⟩ := by
  have told : Moves allowed ⟨held, w⟩ ⟨held, w.tell (.validating (w.describe v) (w.classOf r v))⟩ :=
    .one (.remark _ _ _) (light _ .remark)
  rw [validate]
  split
  · exact moves_of_nothing told
  · have kept' : ∀ id ∈ v.references, Client.Keeps ⟨held, _⟩ id :=
      fun id h => (kept id h).after told s le_rfl
    exact told.trans (.one (.retain ((told.sound s).alive_kept kept')) (light _ (.retain _)))

end Registries

end Host

end Compound
