import Compound.Proofs.Listings
import Compound.Proofs.Loans
import Compound.Proofs.Traces

/-!
What installing specifications comes to, in every session that a script can reach. A key is judged
by the object as it was before: what is written under the earlier keys has no say in it. So all
specifications are installed, or exactly those before the first key that is refused.
-/
namespace Compound

section Lists

variable {α : Type} [DecidableEq α]

theorem eraseDups_of_nodup {l : List α} (nodup : l.Nodup) : l.eraseDups = l := by
  induction l with
  | nil => rfl
  | cons a rest ih =>
    obtain ⟨fresh, nodup⟩ := List.nodup_cons.1 nodup
    have kept : (rest.filter fun b => !b == a) = rest := by
      rw [List.filter_eq_self]
      rintro b inside
      simpa using fun same : b = a => fresh (same ▸ inside)
    rw [List.eraseDups_cons, kept, ih nodup]

theorem eraseDups_concat (l : List α) (a : α) :
    (l ++ [a]).eraseDups = if a ∈ l then l.eraseDups else l.eraseDups ++ [a] := by
  rw [List.eraseDups_append]
  by_cases old : a ∈ l <;> simp [List.removeAll, old, eraseDups_of_nodup (List.nodup_singleton a)]

/-- Of new elements without repetition all are added that are not there yet. -/
theorem eraseDups_append_of_nodup {l l' : List α} (nodup : l.Nodup) (nodup' : l'.Nodup) :
    (l ++ l').eraseDups = l ++ l'.filter fun a => a ∉ l := by
  rw [List.eraseDups_append, eraseDups_of_nodup nodup, List.removeAll,
    eraseDups_of_nodup (nodup'.sublist List.filter_sublist)]
  simp

end Lists

namespace Table

variable {κ ν : Type} [DecidableEq κ]

/-- Write pairs into a table one after the other. -/
def putAll (t : Table κ ν) (pairs : List (κ × ν)) : Table κ ν :=
  pairs.foldl (fun t p => t.put p.1 p.2) t

theorem putAll_concat (t : Table κ ν) (pairs : List (κ × ν)) (p : κ × ν) :
    t.putAll (pairs ++ [p]) = (t.putAll pairs).put p.1 p.2 := by
  rw [putAll, List.foldl_append]
  rfl

/-- The last pair of a key gives its value. -/
theorem get?_putAll (t : Table κ ν) (pairs : List (κ × ν)) (k : κ) :
    (t.putAll pairs).get? k =
      ((pairs.reverse.find? fun p => p.1 = k).map Prod.snd).or (t.get? k) := by
  induction pairs using List.reverseRecOn with
  | nil => rfl
  | append_singleton pairs p ih =>
    rw [putAll_concat, List.reverse_append, List.reverse_singleton, List.singleton_append]
    by_cases same : p.1 = k
    · subst same
      simp
    · rw [get?_put_other _ _ (Ne.symm same), ih]
      simp [same]

theorem get?_putAll_of_mem (t : Table κ ν) {pairs : List (κ × ν)}
    (distinct : (pairs.map Prod.fst).Nodup) {p : κ × ν} (inside : p ∈ pairs) :
    (t.putAll pairs).get? p.1 = some p.2 := by
  have found : (pairs.reverse.find? fun q => q.1 = p.1) = some p := by
    cases found : pairs.reverse.find? fun q => q.1 = p.1 with
    | none =>
      have other := List.find?_eq_none.1 found p (List.mem_reverse.2 inside)
      simp at other
    | some q =>
      have same : q.1 = p.1 := by simpa using List.find?_some found
      have listed := List.mem_reverse.1 (List.mem_of_find?_eq_some found)
      rw [List.inj_on_of_nodup_map distinct listed inside same]
  rw [get?_putAll, found]
  rfl

theorem get?_putAll_of_not_mem (t : Table κ ν) {pairs : List (κ × ν)} {k : κ}
    (absent : k ∉ pairs.map Prod.fst) : (t.putAll pairs).get? k = t.get? k := by
  have missing : (pairs.reverse.find? fun p => p.1 = k) = none := by
    rw [List.find?_eq_none]
    intro p listed
    simpa using fun same : p.1 = k =>
      absent (same ▸ List.mem_map_of_mem (List.mem_reverse.1 listed))
  rw [get?_putAll, missing]
  rfl

/-- The first pair of a key gives its position. -/
theorem keys_putAll (t : Table κ ν) (pairs : List (κ × ν)) :
    (t.putAll pairs).keys = (t.keys ++ pairs.map Prod.fst).eraseDups := by
  induction pairs using List.reverseRecOn with
  | nil =>
    rw [List.map_nil, List.append_nil, eraseDups_of_nodup t.keys_nodup]
    rfl
  | append_singleton pairs p ih =>
    rw [putAll_concat, keys_put, ih, List.map_append, ← List.append_assoc, List.map_singleton,
      eraseDups_concat]
    simp only [List.mem_eraseDups]

/-- To write what stands there already changes nothing. -/
theorem put_of_get? {t : Table κ ν} {k : κ} {v : ν} (found : t.get? k = some v) :
    t.put k v = t := by
  apply ext_get?
  · rw [keys_put, if_pos ((t.mem_keys k).2 ⟨v, found⟩)]
  · intro i
    by_cases same : i = k
    · subst same
      rw [get?_put_same, found]
    · exact get?_put_other t v same

end Table

/-- Why an object refuses to have a slot defined. -/
inductive Object.Refuses (o : Object) (k : Key) : Refusal → Prop
  | notConfigurable {slot : Slot} (found : o.slots.get? k = some slot)
      (fixed : slot.isConfigurable = false) : Refuses o k .notConfigurable
  | notExtensible (absent : o.slots.get? k = none) (full : o.extensible = false) :
      Refuses o k .notExtensible

/-- What stands under other keys has no say in a refusal. -/
theorem Object.Refuses.of_same {o o' : Object} {k : Key} {e : Refusal} (refused : o.Refuses k e)
    (slot : o'.slots.get? k = o.slots.get? k) (extensible : o'.extensible = o.extensible) :
    o'.Refuses k e := by
  cases refused with
  | notConfigurable found fixed => exact .notConfigurable (slot.trans found) fixed
  | notExtensible absent full => exact .notExtensible (slot.trans absent) (extensible.trans full)

/-- What installing specifications makes of an object. The slot of a specification is an accessor
for its functions, if it has any, and else writable with its value. -/
structure Object.Gains (o o' : Object) (specs : List (Key × Spec)) : Prop where
  installed : ∀ k spec, (k, spec) ∈ specs → o'.slots.get? k = some
    (if spec.get = none ∧ spec.set = none then .data (spec.value.getD .undefined) true false true
      else .accessor spec.get spec.set false true)
  others : ∀ k, k ∉ specs.map Prod.fst → o'.slots.get? k = o.slots.get? k
  keys : o'.slots.keys = o.slots.keys ++ (specs.map Prod.fst).filter fun k => k ∉ o.slots.keys
  extensible : o'.extensible = o.extensible
  function : o'.function = o.function
  finalizers : o'.finalizers = o.finalizers

theorem Spec.isConfigurable_slot (spec : Spec) : spec.slot.isConfigurable = true := by
  rw [slot]
  split <;> rfl

namespace Specs

/-- Specifications with the slots that they describe. -/
def slots (specs : List (Key × Spec)) : List (Key × Slot) := specs.map fun p => (p.1, p.2.slot)

theorem keys_slots (specs : List (Key × Spec)) :
    (slots specs).map Prod.fst = specs.map Prod.fst := by
  simp [slots, Function.comp_def]

/-- Specifications are listed in the order of their keys. -/
theorem map_fst_ordered (specs : Specs) : specs.ordered.map Prod.fst = Specs.orderedKeys specs := by
  have keyed : ∀ k ∈ Specs.orderedKeys specs, ∃ spec, specs.get? k = some spec :=
    fun k inside => (Table.mem_keys specs k).1 ((Key.ordered_perm specs.keys).mem_iff.1 inside)
  rw [ordered, List.map_filterMap]
  generalize Specs.orderedKeys specs = keys at keyed
  induction keys with
  | nil => rfl
  | cons k rest ih =>
    obtain ⟨spec, found⟩ := keyed k List.mem_cons_self
    have listed := ih fun j inside => keyed j (List.mem_cons_of_mem k inside)
    rw [List.filterMap_cons, found]
    exact congrArg (k :: ·) listed

theorem mem_ordered {specs : Specs} {k : Key} {spec : Spec} :
    (k, spec) ∈ specs.ordered ↔ specs.get? k = some spec := by
  simp only [ordered, List.mem_filterMap, Option.map_eq_some_iff, Prod.mk.injEq]
  constructor
  · rintro ⟨k, -, spec, found, rfl, rfl⟩
    exact found
  · intro found
    have inside := (Table.mem_keys specs k).2 ⟨spec, found⟩
    exact ⟨k, (Key.ordered_perm specs.keys).mem_iff.2 inside, spec, found, rfl, rfl⟩

/-- Specifications that are given one after the other are listed by their first places. -/
theorem keys_ofList (pairs : List (Key × Spec)) :
    (Specs.ordered (.ofList pairs)).map Prod.fst = Key.ordered (pairs.map Prod.fst).eraseDups := by
  have entered : (Table.ofList pairs).keys = (pairs.map Prod.fst).eraseDups :=
    Table.keys_putAll .empty pairs
  rw [map_fst_ordered, orderedKeys, entered]

/-- Of specifications that are given one after the other the last one of a key counts. -/
theorem mem_ofList {pairs : List (Key × Spec)} {k : Key} {spec : Spec} :
    (k, spec) ∈ Specs.ordered (.ofList pairs) ↔
      (pairs.reverse.find? fun p => p.1 = k).map Prod.snd = some spec := by
  have entered : (Table.ofList pairs).get? k =
      (pairs.reverse.find? fun p => p.1 = k).map Prod.snd :=
    (Table.get?_putAll .empty pairs k).trans (Option.or_none ..)
  rw [mem_ordered, entered]

theorem nodup_ordered (specs : Specs) : (specs.ordered.map Prod.fst).Nodup := by
  rw [map_fst_ordered]
  exact (Key.ordered_perm specs.keys).nodup_iff.2 specs.keys_nodup

end Specs

theorem Spec.slot_eq (spec : Spec) : spec.slot =
    if spec.get = none ∧ spec.set = none then .data (spec.value.getD .undefined) true false true
      else .accessor spec.get spec.set false true := by
  obtain ⟨value, get, set⟩ := spec
  cases get <;> cases set <;> rfl

theorem Object.gains_putAll (o : Object) (n : Nat) {specs : List (Key × Spec)}
    (distinct : (specs.map Prod.fst).Nodup) :
    o.Gains { o with refs := n, slots := o.slots.putAll (Specs.slots specs) } specs := by
  rw [← Specs.keys_slots] at distinct
  refine ⟨fun k spec inside => ?_, fun k absent => ?_, ?_, rfl, rfl, rfl⟩
  · have described : (k, spec.slot) ∈ Specs.slots specs := List.mem_map.2 ⟨_, inside, rfl⟩
    rw [← spec.slot_eq]
    exact o.slots.get?_putAll_of_mem distinct described
  · rw [← Specs.keys_slots] at absent
    exact o.slots.get?_putAll_of_not_mem absent
  · rw [← Specs.keys_slots, ← eraseDups_append_of_nodup o.slots.keys_nodup distinct]
    exact o.slots.keys_putAll _

/-- A change that leaves the object as it is leaves the heap as it is. -/
theorem Heap.modify_eq_self {h : Heap} {id : ObjectId} {f : Object → Object}
    (fixed : ∀ o, h.get? id = some o → f o = o) : h.modify id f = h := by
  refine ext_get? rfl (Table.keys_modify _ _ _) fun j => ?_
  by_cases same : j = id
  · subst same
    rw [get?_modify_same]
    cases found : h.get? j with
    | none => rfl
    | some o => rw [Option.map_some, fixed o found]
  · exact get?_modify_other h f same

namespace Host

variable {held : Multiset ObjectId} {w : Host} {id : ObjectId} {o : Object} {k : Key}

theorem refusal?_eq_some {e : Refusal} (found : w.object? id = some o) :
    w.refusal? id k = some e ↔ o.Refuses k e := by
  rw [refusal?, slot?_of_found found, isExtensible_of_found found]
  constructor
  · intro refused
    cases stands : o.slots.get? k with
    | some s =>
      simp only [stands] at refused
      split at refused
      · cases refused
      · cases refused
        exact .notConfigurable stands (by simpa using ‹¬s.isConfigurable = true›)
    | none =>
      simp only [stands] at refused
      split at refused
      · cases refused
      · cases refused
        exact .notExtensible stands (by simpa using ‹¬o.extensible = true›)
  · rintro (⟨stands, fixed⟩ | ⟨absent, full⟩)
    · simp [stands, fixed]
    · simp [absent, full]

theorem refusal?_eq_none (found : w.object? id = some o) :
    w.refusal? id k = none ↔ ∀ e, ¬o.Refuses k e := by
  simp only [Option.eq_none_iff_forall_ne_some, ne_eq, refusal?_eq_some found]

/-- Definitions go on where all the earlier ones were accepted. -/
theorem defineAll_append (id : ObjectId) (specs rest : List (Key × Spec))
    (accepted : (defineAll id specs w).1 = .ok ()) :
    defineAll id (specs ++ rest) w = defineAll id rest (defineAll id specs w).2 := by
  induction specs generalizing w with
  | nil => rfl
  | cons p specs ih =>
    rw [List.cons_append, defineAll]
    rw [defineAll] at accepted ⊢
    cases defined : w.defineSlot id p.1 p.2.slot with
    | mk outcome w' =>
      rw [defined] at accepted
      cases outcome with
      | error e => cases accepted
      | ok _ => exact ih accepted

/-- Specifications of different keys are all installed if the object refuses none of the keys. -/
theorem defineAll_permitted (s : Client.Sound ⟨held, w⟩) (inside : id ∈ held)
    (found : w.object? id = some o) {specs : List (Key × Spec)}
    (distinct : (specs.map Prod.fst).Nodup)
    (permitted : ∀ p ∈ specs, ∀ e, ¬o.Refuses p.1 e)
    (kept : ∀ p ∈ specs, ∀ j ∈ p.2.slot.references, Client.Keeps ⟨held, w⟩ j) :
    (defineAll id specs w).1 = .ok () ∧ ∃ n, (defineAll id specs w).2.object? id =
      some { o with refs := n, slots := o.slots.putAll (Specs.slots specs) } := by
  induction specs generalizing w o with
  | nil => exact ⟨rfl, o.refs, found⟩
  | cons p rest ih =>
    obtain ⟨fresh, distinct⟩ := List.nodup_cons.1 distinct
    have accepted : w.defineSlot id p.1 p.2.slot = (.ok (), w.writeSlot id p.1 p.2.slot) := by
      rw [defineSlot, (refusal?_eq_none found).2 (permitted p List.mem_cons_self)]
    have defined : Moves Deed.plain ⟨held, w⟩ ⟨held, w.writeSlot id p.1 p.2.slot⟩ := by
      have moves := moves_defineSlot s id p.1 (kept p List.mem_cons_self)
      rw [accepted] at moves
      exact moves
    obtain ⟨o', found'⟩ := (Heap.isAlive_iff _ id).1
      (Client.Keeps.alive (.held inside) (defined.sound s))
    obtain ⟨u, n, found_u, rfl⟩ := object?_writeSlot_same found'
    cases Option.some.inj (found.symm.trans found_u)
    rw [defineAll, accepted]
    -- A later key is judged by the object with this slot. The keys differ, so it was judged before.
    refine ih (defined.sound s) found' distinct (fun q later e refused => ?_) fun q later j h => ?_
    · have ne : q.1 ≠ p.1 := fun same => fresh (same ▸ List.mem_map_of_mem later)
      exact permitted q (List.mem_cons_of_mem p later) e
        (refused.of_same (Table.get?_put_other _ _ ne).symm rfl)
    · exact (kept q (List.mem_cons_of_mem p later) j h).after defined s le_rfl

/-- The first key that is refused ends the installation. -/
theorem defineAll_refused (s : Client.Sound ⟨held, w⟩) (inside : id ∈ held)
    (found : w.object? id = some o) {done rest : List (Key × Spec)} {spec : Spec}
    (distinct : ((done ++ (k, spec) :: rest).map Prod.fst).Nodup)
    (permitted : ∀ p ∈ done, ∀ e, ¬o.Refuses p.1 e) {e : Refusal} (refused : o.Refuses k e)
    (kept : ∀ p ∈ done, ∀ j ∈ p.2.slot.references, Client.Keeps ⟨held, w⟩ j) :
    (defineAll id (done ++ (k, spec) :: rest) w).1 = .error (.definitionRefused k e) ∧
      ∃ n, (defineAll id (done ++ (k, spec) :: rest) w).2.object? id =
        some { o with refs := n, slots := o.slots.putAll (Specs.slots done) } := by
  rw [List.map_append, List.nodup_append] at distinct
  obtain ⟨distinct, -, apart⟩ := distinct
  obtain ⟨accepted, n, found'⟩ := defineAll_permitted s inside found distinct permitted kept
  have fresh : k ∉ done.map Prod.fst := fun listed => apart k listed k List.mem_cons_self rfl
  have still :
      Object.Refuses { o with refs := n, slots := o.slots.putAll (Specs.slots done) } k e := by
    rw [← Specs.keys_slots] at fresh
    exact refused.of_same (o.slots.get?_putAll_of_not_mem fresh) rfl
  have stopped : (defineAll id done w).2.defineSlot id k spec.slot =
      (.error (.definitionRefused k e), (defineAll id done w).2) := by
    rw [defineSlot, (refusal?_eq_some found').2 still]
  rw [defineAll_append id done _ accepted, defineAll, stopped]
  exact ⟨rfl, n, found'⟩

/-- Installing leaves every other object as it was. -/
theorem leaves_defineAll {j : ObjectId} (ne : j ≠ id) (specs : List (Key × Spec)) :
    w.Leaves (defineAll id specs w).2 j := by
  induction specs generalizing w with
  | nil => exact .same rfl
  | cons p rest ih =>
    rw [defineAll, defineSlot]
    cases w.refusal? id p.1 with
    | some e => exact .same rfl
    | none => exact (Leaves.writeSlot w p.1 p.2.slot ne).trans ih

/-- To write the slot that stands there already changes nothing. -/
theorem writeSlot_of_get? {slot : Slot} (s : Client.Sound ⟨held, w⟩) (found : w.object? id = some o)
    (stands : o.slots.get? k = some slot) : w.writeSlot id k slot = w := by
  have old : w.slot? id k = some slot := (slot?_of_found found k).trans stands
  have same : ((w.retain slot.references).modify id fun o =>
      { o with slots := o.slots.put k slot }) = w.retain slot.references := by
    have fixed : ∀ o', (w.retain slot.references).object? id = some o' →
        { o' with slots := o'.slots.put k slot } = o' := by
      intro o' found'
      obtain ⟨u, n, found_u, rfl⟩ := Leaves.retain w slot.references id o' found'
      cases Option.some.inj (found.symm.trans found_u)
      rw [Table.put_of_get? stands]
    rw [Host.modify, Heap.modify_eq_self fixed]
  rw [writeSlot, old, same]
  -- What remains is a loan: the references of the slot are taken and let go.
  exact release_retain s.accounted (s.alive_slot old)

/-- Installing what is installed already changes nothing. -/
theorem defineAll_of_installed (s : Client.Sound ⟨held, w⟩) (found : w.object? id = some o)
    {specs : List (Key × Spec)} (stand : ∀ p ∈ specs, o.slots.get? p.1 = some p.2.slot) :
    defineAll id specs w = (.ok (), w) := by
  induction specs with
  | nil => rfl
  | cons p rest ih =>
    have stands := stand p List.mem_cons_self
    have accepted : w.refusal? id p.1 = none := by
      refine (refusal?_eq_none found).2 fun e refused => ?_
      cases refused with
      | notConfigurable found' fixed =>
        cases Option.some.inj (stands.symm.trans found')
        rw [Spec.isConfigurable_slot] at fixed
        cases fixed
      | notExtensible absent => cases stands.symm.trans absent
    rw [defineAll, defineSlot, accepted, writeSlot_of_get? s found stands]
    exact ih fun q later => stand q (List.mem_cons_of_mem p later)

end Host

namespace Session

variable {s : Session} {ts : List SpecTerm} {h : String} {pairs : List (Key × Spec)} {id : ObjectId}

theorem specsOf_eq_ok (found_ts : ts.mapM s.specOf = .ok pairs) :
    s.specsOf ts = .ok (.ofList pairs) := by
  rw [specsOf, found_ts]
  rfl

/-- The reply to a request to install, and the session after it, once its names are found. -/
theorem answer_install (found_ts : ts.mapM s.specOf = .ok pairs) (found : s.handle h = .ok id) :
    (s.answer (.install ts h)).1.result =
        ((Host.defineAll id (Specs.ordered (.ofList pairs)) s.host.quiet).1.map
          fun _ => Reply.nothing).mapError Fault.failure ∧
      (s.answer (.install ts h)).2 =
        { s with host := (Host.defineAll id (Specs.ordered (.ofList pairs)) s.host.quiet).2 } := by
  have found_specs : specsOf { s with host := s.host.quiet } ts = .ok (.ofList pairs) :=
    specsOf_eq_ok found_ts
  have found' : handle { s with host := s.host.quiet } h = .ok id := found
  have stepped : step { s with host := s.host.quiet } (.install ts h) =
      acting { s with host := s.host.quiet }
        (Host.defineAll id (Specs.ordered (.ofList pairs)) s.host.quiet) fun _ s => s.done := by
    rw [step, found_specs, found']
    rfl
  rw [answer_result, answer_session, stepped, acting_done]
  exact ⟨rfl, rfl⟩

/-- If the object refuses none of the keys, a request to install installs all. -/
theorem answer_install_permitted (sound : s.Sound) (found_ts : ts.mapM s.specOf = .ok pairs)
    (found : s.handle h = .ok id) {o : Object} (found_o : s.host.object? id = some o)
    (permitted : ∀ p ∈ Specs.ordered (.ofList pairs), ∀ e, ¬o.Refuses p.1 e) :
    (s.answer (.install ts h)).1.result = .ok .nothing ∧
      ∃ o', (s.answer (.install ts h)).2.host.object? id = some o' ∧
        o.Gains o' (Specs.ordered (.ofList pairs)) := by
  have distinct := Specs.nodup_ordered (.ofList pairs)
  obtain ⟨replied, left⟩ := answer_install found_ts found
  obtain ⟨accepted, n, installed⟩ := Host.defineAll_permitted (sound_quiet sound).client
    (mem_handles found) found_o distinct permitted fun p listed j inside =>
      .held (holds_specsOf (specsOf_eq_ok found_ts) p listed j inside)
  rw [left]
  exact ⟨replied.trans (by rw [accepted]; rfl), _, installed, o.gains_putAll n distinct⟩

/-- The first key that the object refuses ends a request to install. -/
theorem answer_install_refused (sound : s.Sound) (found_ts : ts.mapM s.specOf = .ok pairs)
    (found : s.handle h = .ok id) {o : Object} (found_o : s.host.object? id = some o)
    {done rest : List (Key × Spec)} {k : Key} {spec : Spec}
    (parts : Specs.ordered (.ofList pairs) = done ++ (k, spec) :: rest)
    (permitted : ∀ p ∈ done, ∀ e, ¬o.Refuses p.1 e) {e : Refusal} (refused : o.Refuses k e) :
    (s.answer (.install ts h)).1.result = .error (.failure (.definitionRefused k e)) ∧
      ∃ o', (s.answer (.install ts h)).2.host.object? id = some o' ∧ o.Gains o' done := by
  have distinct := Specs.nodup_ordered (.ofList pairs)
  have holds := holds_specsOf (specsOf_eq_ok found_ts)
  obtain ⟨replied, left⟩ := answer_install found_ts found
  rw [left]
  rw [parts] at distinct holds replied ⊢
  obtain ⟨stopped, n, installed⟩ := Host.defineAll_refused (sound_quiet sound).client
    (mem_handles found) found_o distinct permitted refused fun p listed j inside =>
      .held (holds p (List.mem_append_left _ listed) j inside)
  rw [List.map_append, List.nodup_append] at distinct
  exact ⟨replied.trans (by rw [stopped]; rfl), _, installed, o.gains_putAll n distinct.1⟩

/-- To install what is installed already succeeds and changes nothing. -/
theorem answer_install_installed (sound : s.Sound) (found_ts : ts.mapM s.specOf = .ok pairs)
    (found : s.handle h = .ok id) {o : Object} (found_o : s.host.object? id = some o)
    (stand : ∀ p ∈ Specs.ordered (.ofList pairs), o.slots.get? p.1 = some p.2.slot) :
    (s.answer (.install ts h)).1.result = .ok .nothing ∧
      (s.answer (.install ts h)).2 = { s with host := s.host.quiet } := by
  obtain ⟨replied, left⟩ := answer_install found_ts found
  rw [Host.defineAll_of_installed (sound_quiet sound).client found_o stand] at replied left
  exact ⟨replied, left⟩

/-- In every session that a script reaches, what installing specifications comes to. Of pairs with
the same key the last one counts, in the place of the first, and the keys go in listing order. If
the object refuses none of them, all are installed, the new keys go behind the old ones, and to
install them again changes nothing. Else the request fails with the first key that is refused, and
those before it are installed. What is refused is judged by the object as it was. No other object
changes. -/
theorem install_all_or_prefix (reach : s.Reachable) (found_ts : ts.mapM s.specOf = .ok pairs)
    (found : s.handle h = .ok id) :
    let specs := Specs.ordered (.ofList pairs)
    let reply := (s.answer (.install ts h)).1.result
    let after := (s.answer (.install ts h)).2
    specs.map Prod.fst = Key.ordered (pairs.map Prod.fst).eraseDups ∧
    (∀ k spec, (k, spec) ∈ specs ↔
      (pairs.reverse.find? fun p => p.1 = k).map Prod.snd = some spec) ∧
    ∃ o o', s.host.object? id = some o ∧ after.host.object? id = some o' ∧
      ((∀ p ∈ specs, ∀ e, ¬o.Refuses p.1 e) →
        reply = .ok .nothing ∧ o.Gains o' specs ∧
        (o.slots.keys = [] → o'.ownKeys = specs.map Prod.fst) ∧
        (after.answer (.install ts h)).1.result = .ok .nothing ∧
        (after.answer (.install ts h)).2 = { after with host := after.host.quiet }) ∧
      (∀ done k spec rest e, specs = done ++ (k, spec) :: rest →
        (∀ p ∈ done, ∀ e, ¬o.Refuses p.1 e) → o.Refuses k e →
        reply = .error (.failure (.definitionRefused k e)) ∧ o.Gains o' done) ∧
      (∀ j, j ≠ id → s.host.Leaves after.host j) ∧ after = { s with host := after.host } := by
  intro specs reply after
  have keys : specs.map Prod.fst = Key.ordered (pairs.map Prod.fst).eraseDups :=
    Specs.keys_ofList pairs
  have sound' : after.Sound := sound_answer reach.sound _
  have left := (answer_install found_ts found).2
  have same : after = { s with host := after.host } := by
    simp only [after, left]
  have found' : after.handle h = .ok id := by
    rw [same]
    exact found
  obtain ⟨o, found_o⟩ := (Heap.isAlive_iff _ id).1 (reach.sound.alive_handle found)
  obtain ⟨o', found_o'⟩ := (Heap.isAlive_iff _ id).1 (sound'.alive_handle found')
  refine ⟨keys, fun k spec => Specs.mem_ofList, o, o', found_o, found_o', fun permitted => ?_,
    fun done k spec rest e parts permitted refused => ?_, fun j ne => ?_, same⟩
  · obtain ⟨replied, o'', installed, gains⟩ :=
      answer_install_permitted reach.sound found_ts found found_o permitted
    cases Option.some.inj (installed.symm.trans found_o')
    refine ⟨replied, gains, fun empty => ?_, ?_⟩
    · have listed : Key.ordered (specs.map Prod.fst) = specs.map Prod.fst := by
        rw [keys, Key.ordered_ordered]
      rw [Object.ownKeys, gains.keys, empty]
      simpa using listed
    · have found_ts' : ts.mapM after.specOf = .ok pairs := by
        rw [same]
        exact found_ts
      refine answer_install_installed sound' found_ts' found' found_o' fun p listed => ?_
      rw [gains.installed p.1 p.2 listed, ← p.2.slot_eq]
  · obtain ⟨replied, o'', installed, gains⟩ :=
      answer_install_refused reach.sound found_ts found found_o parts permitted refused
    cases Option.some.inj (installed.symm.trans found_o')
    exact ⟨replied, gains⟩
  · have host : after.host = (Host.defineAll id specs s.host.quiet).2 := congrArg Session.host left
    rw [host]
    exact Host.leaves_defineAll ne specs

/-- Three keys, one of them given twice, are installed on a new object in listing order. An object
that may not grow takes the first of them, which it has, and refuses the second. -/
theorem install_all_or_prefix_both :
    let s := (start none).run [.create (some "t"), .createFrom [(.name "1", .null)] (some "u"),
      .prevent "u"]
    let ts : List SpecTerm := [⟨.symbol "@@iterator", none, none, none⟩,
      ⟨.name "b", none, none, some .null⟩, ⟨.index 1, some "t", none, none⟩,
      ⟨.name "b", none, none, some (.bool true)⟩]
    (s.answer (.install ts "t")).1.result = .ok .nothing ∧
      (∃ o, (s.answer (.install ts "t")).2.host.object? 1 = some o ∧
        o.ownKeys = [.name "1", .name "b", .symbol .iterator] ∧
        o.slots.get? (.name "b") = some (.data (.bool true) true false true)) ∧
      (s.answer (.install ts "u")).1.result =
        .error (.failure (.definitionRefused (.name "b") .notExtensible)) ∧
      ∃ o, (s.answer (.install ts "u")).2.host.object? 2 = some o ∧
        o.slots.keys = [.name "1"] ∧
        o.slots.get? (.name "1") = some (.accessor (some 1) none false true) := by
  intro s ts
  have reach : s.Reachable := ⟨_, _, rfl⟩
  let pairs : List (Key × Spec) := [(.symbol .iterator, ⟨none, none, none⟩),
    (.name "b", ⟨some .null, none, none⟩), (.name "1", ⟨none, some 1, none⟩),
    (.name "b", ⟨some (.bool true), none, none⟩)]
  have found_ts : ts.mapM s.specOf = .ok pairs := by decide +kernel
  have found_t : s.handle "t" = .ok 1 := by decide +kernel
  have found_u : s.handle "u" = .ok 2 := by decide +kernel
  have ordered : Specs.ordered (.ofList pairs) =
      [(.name "1", ⟨none, some 1, none⟩)] ++ (.name "b", ⟨some (.bool true), none, none⟩) ::
        [(.symbol .iterator, ⟨none, none, none⟩)] := by
    rw [Specs.ordered, Specs.orderedKeys, @Key.ordered_eq _ [(1, .name "1")] (by decide +kernel)
      (by decide +kernel)]
    decide +kernel
  have object_t : s.host.object? 1 = some ⟨1, .empty, true, none, []⟩ := by decide +kernel
  have object_u : s.host.object? 2 =
      some ⟨1, .ofList [(.name "1", .plain .null)], false, none, []⟩ := by decide +kernel
  obtain ⟨-, -, o, o', found, found', all, -⟩ := install_all_or_prefix reach found_ts found_t
  obtain ⟨-, -, u, u', found_o, found_o', -, stops, -⟩ :=
    install_all_or_prefix reach found_ts found_u
  cases Option.some.inj (found.symm.trans object_t)
  cases Option.some.inj (found_o.symm.trans object_u)
  obtain ⟨replied, gains, listed, -⟩ := all fun p _ e refused => by
    cases refused with
    | notConfigurable found => cases found
    | notExtensible _ full => cases full
  have permitted : ∀ p ∈ [(Key.name "1", (⟨none, some 1, none⟩ : Spec))], ∀ e,
      ¬Object.Refuses ⟨1, .ofList [(.name "1", .plain .null)], false, none, []⟩ p.1 e := by
    intro p inside e refused
    cases List.mem_singleton.1 inside
    cases refused with
    | notConfigurable found fixed =>
      have stands : (Table.ofList [(Key.name "1", Slot.plain .null)]).get? (.name "1") =
          some (.plain .null) := by decide +kernel
      cases Option.some.inj (found.symm.trans stands)
      cases fixed
    | notExtensible absent => revert absent; decide +kernel
  obtain ⟨refused, gained⟩ :=
    stops _ _ _ _ .notExtensible ordered permitted (.notExtensible (by decide +kernel) rfl)
  refine ⟨replied, ⟨o', found', ?_, ?_⟩, refused, u', found_o', ?_,
    gained.installed (.name "1") _ List.mem_cons_self⟩
  · rw [listed rfl, ordered]
    rfl
  · exact gains.installed (.name "b") ⟨some (.bool true), none, none⟩ (by simp [ordered])
  · rw [gained.keys]
    decide +kernel

end Session

end Compound
