import Compound.Proofs.Calls
import Compound.Session.Script

/-!
What names lead to. Whatever a script looks up is an object of one of its handles or holds
no other objects than these, so the session keeps it alive for as long as a step lasts.
-/
namespace Compound

namespace Lookup

variable {α β γ : Type}

theorem ok_bind (a : α) (f : α → Lookup β) : (.ok a >>= f) = f a := rfl

theorem bind_eq_ok {x : Lookup α} {f : α → Lookup β} {b : β} :
    (x >>= f) = .ok b ↔ ∃ a, x = .ok a ∧ f a = .ok b := by
  cases x with
  | error fault => simp [bind, Except.bind]
  | ok a => simp [bind, Except.bind]

theorem map_eq_ok {x : Lookup α} {f : α → β} {b : β} :
    x.map f = .ok b ↔ ∃ a, x = .ok a ∧ f a = b := by
  cases x with
  | error fault => simp [Except.map]
  | ok a => simp [Except.map]

theorem return_eq_ok {a b : α} : (return a : Lookup α) = .ok b ↔ a = b := by
  constructor
  · intro h
    cases h
    rfl
  · rintro rfl
    rfl

/-- Two names are found if each of them is. -/
theorem pair_eq_ok {x : Lookup α} {y : Lookup β} {a : α} {b : β} :
    (do let a ← x; let b ← y; return (a, b) : Lookup (α × β)) = .ok (a, b) ↔
      x = .ok a ∧ y = .ok b := by
  simp only [bind_eq_ok, return_eq_ok, Prod.mk.injEq]
  constructor
  · rintro ⟨_, found, _, found', rfl, rfl⟩
    exact ⟨found, found'⟩
  · rintro ⟨found, found'⟩
    exact ⟨a, found, b, found', rfl, rfl⟩

/-- Three names are found if each of them is. -/
theorem triple_eq_ok {x : Lookup α} {y : Lookup β} {z : Lookup γ} {a : α} {b : β} {c : γ} :
    (do let a ← x; let b ← y; let c ← z; return (a, b, c) : Lookup (α × β × γ)) = .ok (a, b, c) ↔
      x = .ok a ∧ y = .ok b ∧ z = .ok c := by
  simp only [bind_eq_ok, return_eq_ok, Prod.mk.injEq]
  constructor
  · rintro ⟨_, found, _, found', _, found'', rfl, rfl, rfl⟩
    exact ⟨found, found', found''⟩
  · rintro ⟨found, found', found''⟩
    exact ⟨a, found, b, found', c, found'', rfl, rfl, rfl⟩

/-- Everything in a list of findings was found for something in the list of names. -/
theorem mem_mapM {f : α → Lookup β} {names : List α} {found : List β}
    (h : names.mapM f = .ok found) : ∀ b ∈ found, ∃ a ∈ names, f a = .ok b := by
  induction names generalizing found with
  | nil =>
    rw [List.mapM_nil, return_eq_ok] at h
    rw [← h]
    exact fun b hb => (List.not_mem_nil hb).elim
  | cons a rest ih =>
    rw [List.mapM_cons, bind_eq_ok] at h
    obtain ⟨b, found_b, h⟩ := h
    rw [bind_eq_ok] at h
    obtain ⟨bs, found_bs, h⟩ := h
    rw [return_eq_ok] at h
    subst h
    intro b' hb
    rcases List.mem_cons.1 hb with rfl | hb
    · exact ⟨a, List.mem_cons_self, found_b⟩
    · obtain ⟨a', ha', found_a'⟩ := ih found_bs b' hb
      exact ⟨a', List.mem_cons_of_mem a ha', found_a'⟩

end Lookup

theorem Table.mem_ofList {κ ν : Type} [DecidableEq κ] {pairs : List (κ × ν)} {k : κ} {v : ν}
    (found : (Table.ofList pairs).get? k = some v) : (k, v) ∈ pairs := by
  have written : ∀ (pairs : List (κ × ν)) (t : Table κ ν),
      (pairs.foldl (fun t p => t.put p.1 p.2) t).get? k = some v →
        (k, v) ∈ pairs ∨ t.get? k = some v := by
    intro pairs
    induction pairs with
    | nil => exact fun t h => Or.inr h
    | cons p rest ih =>
      intro t h
      rcases ih _ h with inside | before
      · exact Or.inl (List.mem_cons_of_mem p inside)
      · by_cases hk : k = p.1
        · subst hk
          rw [get?_put_same, Option.some.injEq] at before
          exact Or.inl (by simp [← before])
        · rw [get?_put_other _ _ hk] at before
          exact Or.inr before
  rcases written pairs .empty found with inside | before
  · exact inside
  · cases before

namespace Session

variable {s : Session}

/-- All of some objects are held by handles. -/
def Holds (s : Session) (ids : List ObjectId) : Prop := ∀ id ∈ ids, id ∈ s.handles.values

theorem holds_nil : s.Holds [] := fun _ h => (List.not_mem_nil h).elim

theorem holds_append {ids ids' : List ObjectId} (h : s.Holds ids) (h' : s.Holds ids') :
    s.Holds (ids ++ ids') := by
  intro id inside
  rcases List.mem_append.1 inside with inside | inside
  · exact h id inside
  · exact h' id inside

theorem handle_eq_ok {name : String} {id : ObjectId} :
    s.handle name = .ok id ↔ s.handles.get? name = some id := by
  rw [handle]
  cases s.handles.get? name <;> simp

theorem mem_handles {name : String} {id : ObjectId} (h : s.handle name = .ok id) :
    id ∈ s.handles.values :=
  Table.mem_values _ _ (handle_eq_ok.1 h)

theorem holds_handle {name : String} {id : ObjectId} (h : s.handle name = .ok id) :
    s.Holds [id] := by
  intro j inside
  rw [List.mem_singleton.1 inside]
  exact mem_handles h

theorem holds_handles? {name : Option String} {id : Option ObjectId}
    (h : s.handles? name = .ok id) :
    s.Holds id.toList := by
  cases name with
  | none =>
    cases h
    exact holds_nil
  | some name =>
    rw [handles?, Lookup.map_eq_ok] at h
    obtain ⟨id, found, rfl⟩ := h
    exact holds_handle found

theorem holds_value {t : ValueTerm} {v : Value} (h : s.value t = .ok v) : s.Holds v.references := by
  cases t with
  | handle name =>
    rw [value, Lookup.map_eq_ok] at h
    obtain ⟨id, found, rfl⟩ := h
    exact holds_handle found
  | symbol name =>
    rw [value, Lookup.map_eq_ok] at h
    obtain ⟨x, -, rfl⟩ := h
    exact holds_nil
  | undefined | null | bool b | number n | bigint i | string t =>
    cases h
    exact holds_nil

theorem holds_values {ts : List ValueTerm} {vs : List Value} (h : s.values ts = .ok vs) :
    ∀ v ∈ vs, s.Holds v.references := by
  intro v hv
  obtain ⟨t, -, found⟩ := Lookup.mem_mapM h v hv
  exact holds_value found

theorem mem_registries {name : String} {r : RegistryId} (h : s.registry name = .ok r) :
    (name, r) ∈ s.registries := by
  rw [registry] at h
  cases found : s.registries.find? fun d => d.1 == name with
  | none =>
    rw [found] at h
    cases h
  | some d =>
    rw [found] at h
    cases h
    have named := List.find?_some found
    have inside := List.mem_of_find?_eq_some found
    rw [← (beq_iff_eq.1 named)]
    exact inside

theorem holds_entry {e : KeyTerm × ValueTerm} {p : Key × Value} (h : s.entry e = .ok p) :
    s.Holds p.2.references := by
  obtain ⟨k, v⟩ := p
  exact holds_value (Lookup.pair_eq_ok.1 h).2

theorem holds_slotOf {t : SlotTerm} {slot : Slot} (h : s.slotOf t = .ok slot) :
    s.Holds slot.references := by
  cases t with
  | data v w e c =>
    rw [slotOf, Lookup.bind_eq_ok] at h
    obtain ⟨v, found, h⟩ := h
    rw [Lookup.return_eq_ok] at h
    exact h ▸ holds_value found
  | accessor g t e c =>
    rw [slotOf, Lookup.bind_eq_ok] at h
    obtain ⟨g, found, h⟩ := h
    rw [Lookup.bind_eq_ok] at h
    obtain ⟨t, found', h⟩ := h
    rw [Lookup.return_eq_ok] at h
    exact h ▸ holds_append (holds_handles? found) (holds_handles? found')

theorem holds_slot {get set : Option ObjectId} {v : Option Value} (h : s.Holds get.toList)
    (h' : s.Holds set.toList) (hv : ∀ u ∈ v, s.Holds u.references) :
    s.Holds (Spec.slot ⟨v, get, set⟩).references := by
  rw [Spec.slot]
  split
  · exact holds_append h h'
  · cases v with
    | none => exact holds_nil
    | some u => exact hv u rfl

/-- A specification has the objects of handles only, also a value that it does not install. -/
theorem holds_specOf_parts {t : SpecTerm} {p : Key × Spec} (h : s.specOf t = .ok p) :
    s.Holds p.2.get.toList ∧ s.Holds p.2.set.toList ∧ ∀ u ∈ p.2.value, s.Holds u.references := by
  rw [specOf, Lookup.bind_eq_ok] at h
  obtain ⟨k, -, h⟩ := h
  rw [Lookup.bind_eq_ok] at h
  obtain ⟨g, found_g, h⟩ := h
  rw [Lookup.bind_eq_ok] at h
  obtain ⟨u, found_u, h⟩ := h
  cases hv : t.value with
  | none =>
    rw [hv] at h
    cases h
    exact ⟨holds_handles? found_g, holds_handles? found_u, fun u h => by cases h⟩
  | some term =>
    rw [hv] at h
    simp only at h
    rw [Lookup.bind_eq_ok] at h
    obtain ⟨v, found_v, h⟩ := h
    cases h
    refine ⟨holds_handles? found_g, holds_handles? found_u, fun u h => ?_⟩
    cases h
    exact holds_value found_v

theorem holds_specOf {t : SpecTerm} {p : Key × Spec} (h : s.specOf t = .ok p) :
    s.Holds p.2.slot.references :=
  let ⟨get, set, value⟩ := holds_specOf_parts h
  holds_slot get set value

/-- Each specification that is in order was found for a term. -/
theorem exists_specOf {ts : List SpecTerm} {specs : Specs} (h : s.specsOf ts = .ok specs)
    {p : Key × Spec} (inside : p ∈ specs.ordered) : ∃ t, s.specOf t = .ok p := by
  rw [specsOf, Lookup.map_eq_ok] at h
  obtain ⟨pairs, found, rfl⟩ := h
  rw [Specs.ordered, List.mem_filterMap] at inside
  obtain ⟨k, -, inside⟩ := inside
  rw [Option.map_eq_some_iff] at inside
  obtain ⟨spec, at_key, rfl⟩ := inside
  obtain ⟨t, -, found_p⟩ := Lookup.mem_mapM found _ (Table.mem_ofList at_key)
  exact ⟨t, found_p⟩

theorem holds_specsOf {ts : List SpecTerm} {specs : Specs} (h : s.specsOf ts = .ok specs) :
    ∀ p ∈ specs.ordered, s.Holds p.2.slot.references := by
  intro p inside
  obtain ⟨t, found⟩ := exists_specOf h inside
  exact holds_specOf found

/-- A body captures objects of handles only. -/
theorem holds_resolve (d : Draft) {n n' : Nat} {b : Body} (h : d.resolve s n = .ok (b, n')) :
    s.Holds b.references := by
  induction d generalizing n n' b with
  | receiver | argumentCount | equalsReceiver | count | freeze | create | fail | argument | note
  | load | store =>
    cases h
    exact holds_nil
  | give t =>
    rw [Draft.resolve, Lookup.bind_eq_ok] at h
    obtain ⟨v, found, h⟩ := h
    cases h
    exact holds_value found
  | read k | double k | assign k i =>
    rw [Draft.resolve, Lookup.bind_eq_ok] at h
    obtain ⟨k, -, h⟩ := h
    cases h
    exact holds_nil
  | define k t =>
    rw [Draft.resolve, Lookup.bind_eq_ok] at h
    obtain ⟨k, -, h⟩ := h
    rw [Lookup.bind_eq_ok] at h
    obtain ⟨v, found, h⟩ := h
    cases h
    exact holds_value found
  | call name =>
    rw [Draft.resolve, Lookup.bind_eq_ok] at h
    obtain ⟨id, found, h⟩ := h
    cases h
    exact holds_handle found
  | followedBy first second ih_first ih_second =>
    rw [Draft.resolve, Lookup.bind_eq_ok] at h
    obtain ⟨⟨a, m⟩, found_a, h⟩ := h
    rw [Lookup.bind_eq_ok] at h
    obtain ⟨⟨b, m'⟩, found_b, h⟩ := h
    cases h
    exact holds_append (ih_first found_a) (ih_second found_b)

/-- Making a body of a draft adds counters, and nothing else. -/
theorem body_eq_ok {d : Draft} {b : Body} {s' : Session} (h : s.body d = .ok (b, s')) :
    s.Holds b.references ∧
      ∃ counters, s' = { s with host := { s.host with counters := counters } } := by
  rw [body, Lookup.bind_eq_ok] at h
  obtain ⟨⟨b, n⟩, found, h⟩ := h
  cases h
  exact ⟨holds_resolve d found, _, rfl⟩

/-- The values for a body that runs at once are looked up after it was made. -/
theorem native_eq_ok {d : Draft} {this : ValueTerm} {args : List ValueTerm} {b : Body}
    {s' : Session} {v : Value} {vs : List Value} :
    (do
      let (body, s) ← s.body d
      let this ← s.value this
      let args ← s.values args
      return (body, s, this, args) : Lookup _) = .ok (b, s', v, vs) ↔
      s.body d = .ok (b, s') ∧ s'.value this = .ok v ∧ s'.values args = .ok vs := by
  simp only [Lookup.bind_eq_ok, Lookup.return_eq_ok, Prod.mk.injEq]
  constructor
  · rintro ⟨_, made, _, found, _, found', rfl, rfl, rfl, rfl⟩
    exact ⟨made, found, found'⟩
  · rintro ⟨made, found, found'⟩
    exact ⟨(b, s'), made, v, found, vs, found', rfl, rfl, rfl, rfl⟩

end Session

end Compound
