import Compound.Proofs.Registrations
import Compound.Proofs.Runs

/-!
Two sessions that are the same but for their hosts, the second of which lags behind the first one.
A step that neither reclaims nor looks at weak names or at the sizes of tables has the same result
in both, whatever it looks up, runs and shows, unless it goes by a box that lives in the second
session only.
-/
namespace Compound

/-- A step that does not tell when entries are reclaimed and objects die: it is not about weak
names, and not about what a registry has to reclaim or how much it holds. -/
def Step.isTimeless : Step → Bool
  | .weaken .. | .alive _ | .recover .. | .openRegistry .. | .closeRegistry _ | .reclaim _
  | .boxTable _ => false
  | _ => true

namespace Session

/-- A step goes by the living box of a value. It looks for the box in a registry and in this heap,
which is the one after reclaiming if the registry reclaims first. To pair an object that is paired
already, or with itself, the box of the value is not looked for. -/
inductive Seeks (s : Session) : Step → RegistryId → Value → Heap → Prop
  | pair {name h : String} {term : ValueTerm} {r : RegistryId} {box : ObjectId} {v : Value}
      (found : s.target name h = .ok (r, box)) (given : s.value term = .ok v)
      (other : v ≠ .object box)
      (free : (Host.pairing (s.host.autoReclaim r) r).values.get? box = none) :
      s.Seeks (.pair name h term) r v (s.host.autoReclaim r).heap
  | box {name : String} {term : ValueTerm} {keep : Option String} {r : RegistryId} {v : Value}
      (found : s.subject name term = .ok (r, v)) :
      s.Seeks (.box name term keep) r v (s.host.autoReclaim r).heap
  | livingBox {name : String} {term : ValueTerm} {keep : Option String} {r : RegistryId} {v : Value}
      (found : s.subject name term = .ok (r, v)) :
      s.Seeks (.livingBox name term keep) r v s.host.heap

/-- The second session is the first one on a host that lags behind. -/
inductive Twins (s : Session) : Session → Prop
  | intro {w : Host} (twins : Host.Twins s.handles.values s.host w) : s.Twins { s with host := w }

/-- A step of two sessions has the same result, and leaves twins. -/
structure Agree (done done' : Result × Session) : Prop where
  result : done'.1 = done.1
  twins : done.2.Twins done'.2

variable {s : Session} {w : Host} {id : ObjectId} {v : Value}

section Views

variable (c : s.host.Covers w)
include c

theorem view_eq (alive : ∀ id ∈ v.references, s.host.isAlive id = true) :
    view { s with host := w } v = s.view v := by
  cases v with
  | object id =>
    have callable := c.isCallable_eq (alive id (Value.mem_references.2 rfl))
    simp only [view, callable]
  | _ => rfl

theorem view_object? {found : Option ObjectId}
    (alive : ∀ id ∈ found.toList, s.host.isAlive id = true) :
    (found.map fun id => view { s with host := w } (.object id)) =
      found.map fun id => s.view (.object id) := by
  cases found with
  | none => rfl
  | some id => exact congrArg some (view_eq c alive)

theorem slotView_eq {slot : Slot} (alive : ∀ id ∈ slot.references, s.host.isAlive id = true) :
    slotView { s with host := w } slot = s.slotView slot := by
  cases slot with
  | data v writable enumerable configurable => simp only [slotView, view_eq c alive]
  | accessor get set enumerable configurable =>
    have got := view_object? c fun id inside => alive id (List.mem_append_left _ inside)
    have given := view_object? c fun id inside => alive id (List.mem_append_right _ inside)
    simp only [slotView, got, given]

omit c in
theorem keyView_host : keyView { s with host := w } = s.keyView := by
  funext k
  cases k <;> rfl

theorem slotView?_eq (sound : s.Sound) (alive : s.host.isAlive id = true) (k : Key) :
    (w.slot? id k).map (slotView { s with host := w }) =
      (s.host.slot? id k).map s.slotView := by
  rw [c.slot?_eq alive]
  cases found : s.host.slot? id k with
  | none => rfl
  | some slot => exact congrArg some (slotView_eq c (sound.client.alive_slot found))

theorem dump_eq (sound : s.Sound) (alive : s.host.isAlive id = true) :
    dump { s with host := w } id = s.dump id := by
  have slots : ∀ k,
      (w.slot? id k).map (fun slot => (s.keyView k, slotView { s with host := w } slot)) =
        (s.host.slot? id k).map fun slot => (s.keyView k, s.slotView slot) := by
    intro k
    have shown := congrArg (Option.map (s.keyView k, ·)) (slotView?_eq c sound alive k)
    simpa only [Option.map_map, Function.comp_def] using shown
  have count : (w.object? id).elim 0 (fun o => o.slots.size) =
      (s.host.object? id).elim 0 fun o => o.slots.size := by
    obtain ⟨o, n, found, found'⟩ := c.object alive
    rw [found, found', Option.elim_some, Option.elim_some]
  simp only [dump, c.isExtensible_eq alive, c.isFrozen_eq alive, count, c.enumerableNames_eq alive,
    c.ownKeys_eq alive, keyView_host, slots]

theorem specView_eq {p : Key × Spec}
    (alive : ∀ v ∈ p.2.value, ∀ id ∈ v.references, s.host.isAlive id = true) :
    specView { s with host := w } p = s.specView p := by
  have value : p.2.value.map (view { s with host := w }) = p.2.value.map s.view := by
    cases h : p.2.value with
    | none => rfl
    | some v => exact congrArg some (view_eq c (alive v h))
  rw [specView, specView, keyView_host, value]

end Views

section Handles

/-- A handle takes a reference to its new object, and lets its old one go. -/
theorem twins_setHandle (name : String) {extra : Multiset ObjectId}
    (t : Host.Twins (s.handles.values + extra) s.host w) (alive : s.host.isAlive id = true) :
    Host.Twins ((s.setHandle name id).handles.values + extra) (s.setHandle name id).host
      (setHandle { s with host := w } name id).host := by
  have retained := t.retain (Host.alive_singleton alive)
  rw [values_put_handle] at retained
  exact retained.release

theorem twins_dropHandle {name : String} (t : Host.Twins s.handles.values s.host w)
    (found : s.handle name = .ok id) :
    (s.dropHandle name id).Twins (dropHandle { s with host := w } name id) := by
  rw [values_erase_handle found] at t
  exact .intro t.release

/-- A value that both sessions own goes to the handle that asks for it, or is let go. -/
theorem agree_hand (keep : Option String)
    (t : Host.Twins (s.handles.values + (v.references : Multiset ObjectId)) s.host w) :
    Agree (s.hand keep v) (hand { s with host := w } keep v) := by
  have alive : ∀ id ∈ v.references, s.host.isAlive id = true := fun id inside =>
    Client.Keeps.alive (.held (Multiset.mem_add.2 (Or.inr inside))) t.sound
  have shown := view_eq t.lags.toCovers alive
  cases keep with
  | none => exact ⟨congrArg (Except.ok ∘ Reply.value) shown, .intro t.release⟩
  | some name =>
    cases h : v.identity with
    | none =>
      simp only [hand, h, shown]
      exact ⟨rfl, .intro t.release⟩
    | some id =>
      have held := twins_setHandle name t
        (alive id (Value.mem_references.2 (Value.identity_eq_some h)))
      simp only [hand, h, shown]
      exact ⟨rfl, .intro held.release⟩

end Handles

namespace Agree

variable {α : Type} {w' : Host}

theorem same (t : Host.Twins s.handles.values s.host w) (result : Result) :
    Agree (result, s) (result, { s with host := w }) :=
  ⟨rfl, .intro t⟩

theorem after (t : Host.Twins s.handles.values s.host w) {found : Lookup α}
    {go go' : α → Result × Session} (agree : ∀ a, found = .ok a → Agree (go a) (go' a)) :
    Agree (s.after found go) (Session.after { s with host := w } found go') := by
  cases found with
  | error fault => exact same t _
  | ok a => exact agree a rfl

/-- An operation on the host that hands nothing out. -/
theorem acting {done done' : Outcome α × Host}
    (alike : Host.Alike (fun _ => s.handles.values) done done') (reply : α → Result) :
    Agree (s.acting done fun a s => (reply a, s))
      (Session.acting { s with host := w } done' fun a s => (reply a, s)) := by
  obtain ⟨outcome, u, u', rfl, rfl, twins⟩ := alike.split
  cases outcome <;> exact same (s := { s with host := u }) twins _

/-- An operation on the host that hands something out. -/
theorem acting_hand {done done' : Outcome α × Host} (f : α → Value)
    (alike : Host.Alike (fun outcome => Host.holding s.handles.values (outcome.map f)) done done')
    (keep : Option String) :
    Agree (s.acting done fun a s => s.hand keep (f a))
      (Session.acting { s with host := w } done' fun a s => s.hand keep (f a)) := by
  obtain ⟨outcome, u, u', rfl, rfl, twins⟩ := alike.split
  cases outcome with
  | error e =>
    have nothing : Host.Twins s.handles.values u u' := by
      simpa [Host.holding, handed, Except.map] using twins
    exact same (s := { s with host := u }) nothing _
  | ok a => exact agree_hand (s := { s with host := u }) keep twins

theorem acting_value {done done' : Outcome Value × Host}
    (alike : Host.Alike (Host.holding s.handles.values) done done') (keep : Option String) :
    Agree (s.acting done fun v s => s.hand keep v)
      (Session.acting { s with host := w } done' fun v s => s.hand keep v) := by
  refine acting_hand id ?_ keep
  obtain ⟨outcome, u, u', rfl, rfl, twins⟩ := alike.split
  cases outcome <;> exact ⟨rfl, twins⟩

/-- A new object goes to the handle that asks for it. -/
theorem hand_new {made made' : ObjectId × Host}
    (twins : made'.1 = made.1 ∧ Host.Twins (made.1 ::ₘ s.handles.values) made.2 made'.2)
    (keep : Option String) :
    Agree (Session.hand { s with host := made.2 } keep (.object made.1))
      (Session.hand { s with host := made'.2 } keep (.object made'.1)) := by
  obtain ⟨same, twins⟩ := twins
  rw [Host.holding_one] at twins
  rw [same]
  exact agree_hand (s := { s with host := made.2 }) keep twins

end Agree

section Operations

theorem resolve_host (s : Session) (w : Host) (d : Draft) (n : Nat) :
    d.resolve { s with host := w } n = d.resolve s n := by
  induction d generalizing n with
  | followedBy first second ih_first ih_second =>
    simp only [Draft.resolve, ih_first, ih_second]
  | _ => rfl

/-- A draft becomes the same body in both sessions, or cannot become one for the same reason. -/
theorem body_cases (t : Host.Twins s.handles.values s.host w) (d : Draft) :
    (∃ fault, s.body d = .error fault ∧ body { s with host := w } d = .error fault) ∨
      ∃ b s' w', s.body d = .ok (b, s') ∧
        body { s with host := w } d = .ok (b, { s' with host := w' }) ∧
        Host.Twins s'.handles.values s'.host w' := by
  simp only [body, resolve_host s w d, t.lags.counters]
  cases d.resolve s s.host.counters.length with
  | error fault => exact Or.inl ⟨fault, rfl, rfl⟩
  | ok made =>
    have counted := t.remark (s.host.counters ++ List.replicate (made.2 - s.host.counters.length) 0)
      s.host.events w.events s.host.notices w.notices
    exact Or.inr ⟨made.1, _, _, rfl, rfl, counted⟩

/-- What a body captures is held by both sessions for as long as the body runs. -/
theorem agree_runNative (t : Host.Twins s.handles.values s.host w) {body : Body} (name : String)
    {this : Value} {args : List Value} (captured : ∀ id ∈ body.references, s.client.Keeps id)
    (lends : s.client.Lends this args) :
    Agree (s.runNative body name this args)
      (runNative { s with host := w } body name this args) := by
  have alive := t.sound.alive_kept captured
  have retained : Moves Deed.plain s.client
      ⟨s.handles.values + (body.references : Multiset ObjectId), s.host.retain body.references⟩ :=
    Host.moves_retain alive
  have le : s.client.held ≤ s.handles.values + (body.references : Multiset ObjectId) :=
    Multiset.le_add_right _ _
  obtain ⟨outcome, u, u', result, result', twins⟩ :=
    (Host.alike_run (Host.parallel_invoke Host.maxDepth) (Host.lawful_invoke Host.maxDepth) body
      (t.retain alive) (lends.after retained t.sound le)
      fun id inside => (captured id inside).after retained t.sound le).split
  simp only [runNative, result, result']
  cases outcome with
  | error failure =>
    have twins : Host.Twins (s.handles.values + (body.references : Multiset ObjectId)) u u' := by
      simpa [Host.holding, handed] using twins
    exact ⟨rfl, .intro twins.release⟩
  | ok v =>
    have shown := view_eq (s := { s with host := u }) twins.lags.toCovers fun id inside =>
      Client.Keeps.alive (.held (Multiset.mem_add.2 (Or.inr inside))) twins.sound
    have twins : Host.Twins
        (s.handles.values + (v.references ++ body.references : List ObjectId)) u u' := by
      rwa [Host.holding, handed, add_assoc, add_comm (body.references : Multiset ObjectId),
        Multiset.coe_add] at twins
    refine ⟨?_, .intro twins.release⟩
    simp only [shown]

theorem agree_profile (t : Host.Twins s.handles.values s.host w)
    (kept : ∀ id ∈ v.references, s.client.Keeps id) :
    (profile { s with host := w } v).1 = (s.profile v).1 ∧
      (s.profile v).2.Twins (profile { s with host := w } v).2 := by
  obtain ⟨iterable, twins⟩ := Host.twins_isIterableObject t kept
  have alive := t.sound.alive_kept kept
  have callable : v.identity.any w.isCallable = v.identity.any s.host.isCallable := by
    cases h : v.identity with
    | none => rfl
    | some id =>
      exact t.lags.isCallable_eq (alive id (Value.mem_references.2 (Value.identity_eq_some h)))
  refine ⟨?_, .intro twins⟩
  simp only [profile, iterable, callable, t.lags.describe_eq alive, t.lags.kindOf_eq alive]

theorem findings_eq (t : Host.Twins s.handles.values s.host w) {r : RegistryId}
    (opened : ∃ reg, s.host.registry? r = some reg)
    (alive : ∀ id ∈ v.references, s.host.isAlive id = true) :
    findings { s with host := w } r v = s.findings r v := by
  have agrees := t.agrees opened alive
  have tagged : (w.registry? r).any (·.isTagged v) = (s.host.registry? r).any (·.isTagged v) := by
    have read : ∀ found : Option Registry,
        found.any (·.isTagged v) = (found.bind (·.tagOf v)).isSome := fun found => by
      cases found <;> rfl
    rw [read, read, agrees.tagOf]
  simp only [findings, agrees.tagOf, agrees.isRecord, agrees.isTuple, agrees.tupleLength, tagged,
    agrees.isBox, agrees.classOf]

theorem agree_function (t : Host.Twins s.handles.values s.host w) (draft : Draft) (name : String)
    (getter : Bool) (keep : Option String) :
    Agree (s.step (.function draft name getter keep))
      (step { s with host := w } (.function draft name getter keep)) := by
  rcases body_cases t draft with ⟨fault, failed, failed'⟩ | ⟨b, s', w', made, made', twins⟩
  · simp only [step, failed, failed']
    exact .same t _
  · have captured : ∀ id ∈ (Object.new (some ⟨name, getter, b⟩)).bodyReferences,
        s'.host.isAlive id = true := fun id inside =>
      (kept_body made id inside).alive twins.sound
    simp only [step, made, made', Session.after]
    exact Agree.hand_new (twins.create captured) keep

theorem agree_native (t : Host.Twins s.handles.values s.host w) (draft : Draft) (name : String)
    (this : ValueTerm) (args : List ValueTerm) :
    Agree (s.step (.native draft name this args))
      (step { s with host := w } (.native draft name this args)) := by
  rcases body_cases t draft with ⟨fault, failed, failed'⟩ | ⟨b, s', w', made, made', twins⟩
  · simp only [step, failed, failed']
    exact .same t _
  · have receiver : value { s' with host := w' } this = s'.value this := rfl
    have arguments : values { s' with host := w' } args = s'.values args := rfl
    simp only [step, made, made', Lookup.ok_bind, receiver, arguments]
    cases found_this : s'.value this with
    | error fault => exact .same t _
    | ok this =>
      cases found_args : s'.values args with
      | error fault => exact .same t _
      | ok args =>
        exact agree_runNative twins name (kept_body made) (lends_found found_this found_args)

theorem agree_livingBox (sound : s.Sound) (t : Host.Twins s.handles.values s.host w)
    (name : String) (term : ValueTerm) (keep : Option String)
    (shared : ∀ r v box, s.subject name term = .ok (r, v) → w.boxOf? r v = some box →
      s.host.isAlive box = true) :
    Agree (s.step (.livingBox name term keep))
      (step { s with host := w } (.livingBox name term keep)) := by
  refine Agree.after t fun (r, v) found => ?_
  have opened := sound.open_registry (subject_eq_ok.1 found).1
  obtain ⟨same, twins⟩ := Host.twins_livingBox (v := v) t opened fun b => shared r v b found
  cases result : s.host.livingBox r v with
  | mk box u =>
    cases result' : Host.livingBox w r v with
    | mk box' u' =>
      rw [result, result'] at same twins
      cases same
      simp only [result, result']
      cases box with
      | none =>
        have nothing : Host.Twins s.handles.values u u' := by simpa using twins
        exact .same (s := { s with host := u }) nothing _
      | some box => exact agree_hand (s := { s with host := u }) (v := .object box) keep twins

end Operations

/-- A step that tags an object. -/
theorem agree_tagging (sound : s.Sound) (t : Host.Twins s.handles.values s.host w)
    (name h : String) (tag : Tag) :
    Agree (s.after (s.target name h) fun (r, id) =>
        s.acting (s.host.tag r id tag) fun _ s => s.done)
      (Session.after { s with host := w } (s.target name h) fun (r, id) =>
        Session.acting { s with host := w } (w.tag r id tag) fun _ s => s.done) := by
  refine Agree.after t fun (r, id) found => ?_
  obtain ⟨found_r, found_id⟩ := target_eq_ok.1 found
  exact Agree.acting (Host.alike_tag t (sound.open_registry found_r) (kept_handle found_id) tag) _

/-- A call on a registry has the same result in both sessions if a box that it goes by lives in the
first one, should it be found in the second. -/
theorem agree_call (sound : s.Sound) (twins : Host.Twins s.handles.values s.host w) (t : Step)
    (timeless : t.isTimeless = true) (call : t.registryName?.isSome = true)
    (shared : ∀ r v heap box, s.Seeks t r v heap → w.boxOf? r v = some box →
      heap.isAlive box = true) :
    Agree (s.step t) (step { s with host := w } t) := by
  cases t with
  | openRegistry | closeRegistry | reclaim | boxTable => cases timeless
  | tagRecord name h => exact agree_tagging sound twins name h .record
  | tagTuple name h length => exact agree_tagging sound twins name h (.tuple length)
  | query name v =>
    refine Agree.after twins fun (r, v) found => ⟨?_, .intro twins⟩
    obtain ⟨found_r, found_v⟩ := subject_eq_ok.1 found
    exact congrArg (Except.ok ∘ Reply.findings) (findings_eq twins (sound.open_registry found_r)
      (sound.client.alive_kept (holds_value found_v).kept))
  | validate name v keep =>
    refine Agree.after twins fun (r, v) found => ?_
    obtain ⟨found_r, found_v⟩ := subject_eq_ok.1 found
    exact Agree.acting_value (Host.alike_validate twins (sound.open_registry found_r)
      (sound.client.alive_kept (holds_value found_v).kept)) keep
  | pair name h v =>
    refine Agree.after twins fun ((r, box), v) found => ?_
    obtain ⟨found_p, found_v⟩ := Lookup.pair_eq_ok.1 found
    obtain ⟨found_r, found_box⟩ := target_eq_ok.1 found_p
    refine Agree.acting (Host.alike_pair twins (sound.open_registry found_r)
      (mem_handles found_box) (holds_value found_v).kept fun other free b living => ?_) _
    exact shared r v _ b (.pair found_p found_v other free) living
  | box name v keep =>
    refine Agree.after twins fun (r, v) found => ?_
    obtain ⟨found_r, found_v⟩ := subject_eq_ok.1 found
    exact Agree.acting_hand .object (Host.alike_boxFor twins (sound.open_registry found_r)
      (holds_value found_v).kept fun b living => shared r v _ b (.box found) living) keep
  | release name h keep =>
    refine Agree.after twins fun (r, box) found => ?_
    obtain ⟨found_r, found_box⟩ := target_eq_ok.1 found
    exact Agree.acting_value (Host.alike_unpair twins (sound.open_registry found_r)
      (sound.alive_handle found_box)) keep
  | unbox name v keep =>
    refine Agree.after twins fun (r, v) found => ?_
    obtain ⟨found_r, found_v⟩ := subject_eq_ok.1 found
    exact Agree.acting_value (Host.alike_unbox twins (sound.open_registry found_r)
      (sound.client.alive_kept (holds_value found_v).kept)) keep
  | livingBox name v keep =>
    exact agree_livingBox sound twins name v keep fun r v box found living =>
      shared r v _ box (.livingBox found) living
  | _ => cases call

/-- A step has the same result in both sessions if a box that it goes by lives in the first one,
should it be found in the second. -/
theorem agree_step (sound : s.Sound) (twins : Host.Twins s.handles.values s.host w) (t : Step)
    (timeless : t.isTimeless = true)
    (shared : ∀ r v heap box, s.Seeks t r v heap → w.boxOf? r v = some box →
      heap.isAlive box = true) :
    Agree (s.step t) (step { s with host := w } t) := by
  have covers := twins.lags.toCovers
  cases t with
  | weaken | alive | recover | openRegistry | closeRegistry | reclaim | boxTable => cases timeless
  | declare name description => exact ⟨rfl, .intro twins⟩
  | create keep =>
    exact Agree.hand_new (twins.create fun id h => (List.not_mem_nil h).elim) keep
  | createFrom entries keep =>
    refine Agree.after twins fun entries found => ?_
    refine Agree.hand_new (Host.twins_createFrom twins entries fun e he => ?_) keep
    obtain ⟨term, -, found_e⟩ := Lookup.mem_mapM found e he
    exact holds_entry found_e
  | function draft name getter keep => exact agree_function twins draft name getter keep
  | native draft name this args => exact agree_native twins draft name this args
  | drop h => exact Agree.after twins fun id found => ⟨rfl, twins_dropHandle twins found⟩
  | «alias» h name =>
    refine Agree.after twins fun id found => ?_
    exact agree_hand (s := { s with host := s.host.retain [id] }) (some name)
      (twins.retain (Host.alive_singleton (sound.alive_handle found)))
  | onDrop label hold h =>
    refine Agree.after twins fun (held, id) found => ?_
    obtain ⟨found_held, found_id⟩ := Lookup.pair_eq_ok.1 found
    have alive := sound.client.alive_kept (holds_handles? found_held).kept
    exact ⟨rfl, .intro (twins.finalize (sound.alive_handle found_id) fun j hj =>
      alive j (Option.mem_toList.2 hj))⟩
  | info v =>
    refine Agree.after twins fun v found => ?_
    obtain ⟨profile, twins'⟩ := agree_profile twins (holds_value found).kept
    exact ⟨congrArg (Except.ok ∘ Reply.profile) profile, twins'⟩
  | functionInfo h =>
    refine Agree.after twins fun id found => ?_
    obtain ⟨iterable, twins'⟩ := Host.twins_isIterable twins (kept_handle found)
    refine ⟨?_, .intro twins'⟩
    simp only [iterable, covers.function?_eq (sound.alive_handle found)]
  | call this h args keep =>
    refine Agree.after twins fun (this, id, args) found => ?_
    obtain ⟨found_this, found_id, found_args⟩ := Lookup.triple_eq_ok.1 found
    exact Agree.acting_value (Host.alike_call twins (kept_handle found_id)
      (lends_found found_this found_args)) keep
  | get h k keep =>
    refine Agree.after twins fun (id, k) found => ?_
    exact Agree.acting_value (Host.alike_read twins (kept_handle (place_eq_ok found)) k) keep
  | set h k v =>
    refine Agree.after twins fun (p, v) found => ?_
    obtain ⟨found_p, found_v⟩ := Lookup.pair_eq_ok.1 found
    exact Agree.acting (Host.alike_assign twins (kept_handle (place_eq_ok found_p)) p.2
      (holds_value found_v).kept) _
  | define slot h k =>
    refine Agree.after twins fun (slot, p) found => ?_
    obtain ⟨found_slot, found_p⟩ := Lookup.pair_eq_ok.1 found
    exact Agree.acting (Host.alike_defineSlot twins (sound.alive_handle (place_eq_ok found_p)) p.2
      (sound.client.alive_kept (holds_slotOf found_slot).kept)) _
  | ownSlot h k =>
    refine Agree.after twins fun (id, k) found => ⟨?_, .intro twins⟩
    have shown := slotView?_eq covers sound (sound.alive_handle (place_eq_ok found)) k
    exact congrArg (Except.ok ∘ Reply.slot) shown
  | ownKeys h =>
    refine Agree.after twins fun id found => ⟨?_, .intro twins⟩
    simp only [covers.ownKeys_eq (sound.alive_handle found), keyView_host]
  | names h =>
    refine Agree.after twins fun id found => ⟨?_, .intro twins⟩
    simp only [covers.enumerableNames_eq (sound.alive_handle found), keyView_host]
  | freeze h =>
    exact Agree.after twins fun id found =>
      ⟨rfl, .intro (twins.freeze (sound.alive_handle found))⟩
  | prevent h =>
    exact Agree.after twins fun id found =>
      ⟨rfl, .intro (twins.preventGrowth (sound.alive_handle found))⟩
  | dump h =>
    refine Agree.after twins fun id found => ⟨?_, .intro twins⟩
    exact congrArg (Except.ok ∘ Reply.dump) (dump_eq covers sound (sound.alive_handle found))
  | equal | same | distinct | key => exact Agree.after twins fun _ _ => .same twins _
  | install specs h =>
    refine Agree.after twins fun (specs, id) found => ?_
    obtain ⟨found_specs, found_id⟩ := Lookup.pair_eq_ok.1 found
    exact Agree.acting (Host.alike_defineAll twins (kept_handle found_id) specs.ordered
      fun p hp => (holds_specsOf found_specs p hp).kept) _
  | specs specs =>
    refine Agree.after twins fun specs found => ⟨?_, .intro twins⟩
    have shown : ∀ p ∈ specs.ordered, specView { s with host := w } p = s.specView p := by
      intro p inside
      obtain ⟨term, found_p⟩ := exists_specOf found inside
      exact specView_eq covers fun v h =>
        sound.client.alive_kept ((holds_specOf_parts found_p).2.2 v h).kept
    simp only [List.map_congr_left shown]
  | tagRecord | tagTuple | query | validate | pair | box | release | unbox | livingBox =>
    exact agree_call sound twins _ timeless rfl shared

end Session

end Compound
