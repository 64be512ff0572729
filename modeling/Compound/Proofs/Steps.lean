import Compound.Proofs.Lookups
import Compound.Proofs.Operations

/-!
The steps of a script as runs of moves. The client is the session itself, which holds its
host from outside by its handles; what a step holds for itself it has let go when it is
over. A step does nothing to registries but what it asks for.
-/
namespace Compound

/-- The name of the registry that a step is about. -/
def Step.registryName? : Step → Option String
  | .openRegistry name _ => some name
  | .closeRegistry name => some name
  | .tagRecord name _ => some name
  | .tagTuple name _ _ => some name
  | .query name _ => some name
  | .validate name _ _ => some name
  | .pair name _ _ => some name
  | .box name _ _ => some name
  | .release name _ _ => some name
  | .unbox name _ _ => some name
  | .livingBox name _ _ => some name
  | .reclaim name => some name
  | .boxTable name => some name
  | _ => none

namespace Session

/-- A session as a client: its handles are what it holds. -/
def client (s : Session) : Client := ⟨s.handles.values, s.host⟩

/-- The deeds on registries that a step asks for. -/
def Asks (s : Session) : Step → Deed → Prop
  | .openRegistry name _, d =>
    (∃ config, d = .openRegistry config) ∨ ∃ r, (name, r) ∈ s.registries ∧ d = .closeRegistry r
  | .closeRegistry name, d => ∃ r, s.registry name = .ok r ∧ d = .closeRegistry r
  | .tagRecord name h, d =>
    ∃ r id, s.target name h = .ok (r, id) ∧ (d = .drain r ∨ d = .tag r id .record)
  | .tagTuple name h length, d =>
    ∃ r id, s.target name h = .ok (r, id) ∧ (d = .drain r ∨ d = .tag r id (.tuple length))
  | .pair name h t, d =>
    ∃ r box v, s.target name h = .ok (r, box) ∧ s.value t = .ok v ∧
      (d = .drain r ∨ ∃ value, v = .object value ∧ d = .join r box value)
  | .box name t _, d =>
    ∃ r v, s.subject name t = .ok (r, v) ∧
      (d = .drain r ∨ ∃ box value, v = .object value ∧ d = .join r box value)
  | .release name h _, d => ∃ r box, s.target name h = .ok (r, box) ∧ d = .unpair r box
  | .reclaim name, d => ∃ r, s.registry name = .ok r ∧ d = .drain r
  | _, _ => False

/-- The deeds that a step may do. -/
def Allows (s : Session) (t : Step) (d : Deed) : Prop := d.plain ∨ s.Asks t d

/-- A session whose host is in order, and whose names for registries lead to open registries
that are all different. -/
structure Sound (s : Session) : Prop where
  client : s.client.Sound
  opened : ∀ p ∈ s.registries, ∃ reg, s.host.registry? p.2 = some reg
  distinct : (s.registries.map Prod.snd).Nodup

/-- One session comes of another by allowed deeds, and names the same registries. -/
structure Leads (allowed : Deed → Prop) (s s' : Session) : Prop where
  moves : Moves allowed s.client s'.client
  registries : s'.registries = s.registries

variable {allowed : Deed → Prop} {s s' : Session}

theorem Holds.kept {ids : List ObjectId} (h : s.Holds ids) : ∀ id ∈ ids, s.client.Keeps id :=
  fun id inside => .held (h id inside)

theorem target_eq_ok {name h : String} {r : RegistryId} {id : ObjectId} :
    s.target name h = .ok (r, id) ↔ s.registry name = .ok r ∧ s.handle h = .ok id :=
  Lookup.pair_eq_ok

theorem subject_eq_ok {name : String} {t : ValueTerm} {r : RegistryId} {v : Value} :
    s.subject name t = .ok (r, v) ↔ s.registry name = .ok r ∧ s.value t = .ok v :=
  Lookup.pair_eq_ok

theorem place_eq_ok {h : String} {t : KeyTerm} {id : ObjectId} {k : Key}
    (found : s.place h t = .ok (id, k)) : s.handle h = .ok id :=
  (Lookup.pair_eq_ok.1 found).1

theorem kept_handle {h : String} {id : ObjectId} (found : s.handle h = .ok id) :
    s.client.Keeps id :=
  .held (mem_handles found)

/-- What is found for a call may be lent to it. -/
theorem lends_found {t : ValueTerm} {ts : List ValueTerm} {this : Value} {args : List Value}
    (found : s.value t = .ok this) (found' : s.values ts = .ok args) : s.client.Lends this args :=
  ⟨(holds_value found).kept, fun v inside => (holds_values found' v inside).kept⟩

theorem Sound.alive_handle (sound : s.Sound) {h : String} {id : ObjectId}
    (found : s.handle h = .ok id) : s.host.isAlive id = true :=
  (kept_handle found).alive sound.client

/-- The name of a registry leads to an open one. -/
theorem Sound.open_registry (sound : s.Sound) {name : String} {r : RegistryId}
    (found : s.registry name = .ok r) : ∃ reg, s.host.registry? r = some reg :=
  sound.opened _ (mem_registries found)

/-- The handles and what they hold when one of them gets a new object. -/
theorem values_put_handle (s : Session) (name : String) (extra : Multiset ObjectId)
    (id : ObjectId) :
    (s.handles.values : Multiset ObjectId) + extra + ([id] : Multiset ObjectId) =
      (s.handles.put name id).values + extra +
        ((s.handles.get? name).toList : Multiset ObjectId) := by
  have old : (s.handles.values : Multiset ObjectId) =
      ((s.handles.get? name).toList : Multiset ObjectId) + (s.handles.erase name).values := by
    cases found : s.handles.get? name with
    | none => simp [Table.erase_of_none _ _ found]
    | some o => simpa [Multiset.singleton_add] using Table.values_erase _ _ found
  have new : ((s.handles.put name id).values : Multiset ObjectId) =
      (s.handles.erase name).values + ([id] : Multiset ObjectId) := by
    rw [Table.values_put, Host.holding_one]
  calc (s.handles.values : Multiset ObjectId) + extra + ([id] : Multiset ObjectId)
      = (s.handles.get? name).toList + (s.handles.erase name).values + extra + [id] := by rw [old]
    _ = (s.handles.erase name).values + [id] + extra + (s.handles.get? name).toList := by abel
    _ = (s.handles.put name id).values + extra + (s.handles.get? name).toList := by rw [new]

theorem values_erase_handle {name : String} {id : ObjectId} (found : s.handle name = .ok id) :
    (s.handles.values : Multiset ObjectId) =
      (s.handles.erase name).values + ([id] : Multiset ObjectId) := by
  rw [Table.values_erase _ _ (handle_eq_ok.1 found), Host.holding_one]

/-- A handle takes a reference to its new object, and lets its old one go. -/
theorem moves_setHandle (s : Session) (name : String) (extra : Multiset ObjectId) {id : ObjectId}
    (alive : s.host.isAlive id = true) :
    Moves Deed.Light ⟨s.handles.values + extra, s.host⟩
      ⟨(s.setHandle name id).handles.values + extra, (s.setHandle name id).host⟩ := by
  have retained : Moves Deed.Light ⟨s.handles.values + extra, s.host⟩
      ⟨s.handles.values + extra + ([id] : Multiset ObjectId), s.host.retain [id]⟩ :=
    .one (.retain (Host.alive_singleton alive)) (.retain _)
  exact retained.trans (.release (.release _) (values_put_handle s name extra id))

theorem moves_dropHandle {name : String} {id : ObjectId} (found : s.handle name = .ok id) :
    Moves Deed.plain s.client (s.dropHandle name id).client :=
  .release rfl (values_erase_handle found)

/-- The value that a step owns goes to the handle that asks for it, or is let go. -/
theorem moves_hand (s : Session) (keep : Option String) {v : Value}
    (sound : Client.Sound ⟨s.handles.values + (v.references : Multiset ObjectId), s.host⟩) :
    Moves Deed.Light ⟨s.handles.values + (v.references : Multiset ObjectId), s.host⟩
      (s.hand keep v).2.client := by
  have released : ∀ {held : Multiset ObjectId} {w : Host},
      Moves Deed.Light ⟨held + (v.references : Multiset ObjectId), w⟩
        ⟨held, w.release v.references⟩ := .one .release (.release _)
  cases keep with
  | none => exact released
  | some name =>
    cases h : v.identity with
    | none =>
      simp only [hand, h]
      exact released
    | some id =>
      simp only [hand, h]
      have inside :
          id ∈ (s.handles.values : Multiset ObjectId) + (v.references : Multiset ObjectId) :=
        Multiset.mem_add.2 (Or.inr (Value.mem_references.2 (Value.identity_eq_some h)))
      have alive := sound.accounted.alive_outside (Multiset.mem_add.2 (Or.inl inside))
      exact (moves_setHandle s name v.references alive).trans released

theorem registries_hand (s : Session) (keep : Option String) (v : Value) :
    (s.hand keep v).2.registries = s.registries := by
  cases keep with
  | none => rfl
  | some name =>
    simp only [hand]
    cases v.identity <;> rfl

namespace Leads

theorem refl (s : Session) : Leads allowed s s := ⟨.refl _, rfl⟩

theorem trans {s'' : Session} (l : Leads allowed s s') (l' : Leads allowed s' s'') :
    Leads allowed s s'' :=
  ⟨l.moves.trans l'.moves, l'.registries.trans l.registries⟩

/-- An operation on the host that hands nothing out. -/
theorem acts {host : Host} (m : Moves allowed s.client ⟨s.handles.values, host⟩) :
    Leads allowed s { s with host := host } :=
  ⟨m, rfl⟩

theorem after {α : Type} {found : Lookup α} {go : α → Result × Session}
    (leads : ∀ a, found = .ok a → Leads allowed s (go a).2) :
    Leads allowed s (s.after found go).2 := by
  cases found with
  | error fault => exact refl s
  | ok a => exact leads a rfl

theorem acting {α : Type} {done : Outcome α × Host}
    (m : Moves allowed s.client ⟨s.handles.values, done.2⟩) {go : α → Session → Result × Session}
    (still : ∀ a s', (go a s').2 = s') : Leads allowed s (s.acting done go).2 := by
  obtain ⟨outcome, host⟩ := done
  cases outcome with
  | error failure => exact acts m
  | ok a =>
    rw [Session.acting, still]
    exact acts m

theorem hand (light : ∀ d : Deed, d.Light → allowed d) (sound : s.client.Sound) {host : Host}
    {v : Value} (m : Moves allowed s.client
      ⟨s.handles.values + (v.references : Multiset ObjectId), host⟩) (keep : Option String) :
    Leads allowed s (Session.hand { s with host := host } keep v).2 := by
  have given := moves_hand { s with host := host } keep (m.sound sound)
  exact ⟨m.trans (given.mono light), registries_hand { s with host := host } keep v⟩

theorem acting_hand {α : Type} (light : ∀ d : Deed, d.Light → allowed d) (sound : s.client.Sound)
    {done : Outcome α × Host} (f : α → Value)
    (m : Moves allowed s.client
      ⟨s.handles.values + (handed (done.1.map f) : Multiset ObjectId), done.2⟩)
    (keep : Option String) :
    Leads allowed s (s.acting done fun a s => s.hand keep (f a)).2 := by
  obtain ⟨outcome, host⟩ := done
  cases outcome with
  | error failure =>
    apply acts
    simpa [handed, Except.map] using m
  | ok a => exact hand light sound m keep

theorem acting_value (light : ∀ d : Deed, d.Light → allowed d) (sound : s.client.Sound)
    {done : Outcome Value × Host}
    (m : Moves allowed s.client ⟨s.handles.values + (handed done.1 : Multiset ObjectId), done.2⟩)
    (keep : Option String) :
    Leads allowed s (s.acting done fun v s => s.hand keep v).2 := by
  refine acting_hand light sound id ?_ keep
  obtain ⟨outcome, host⟩ := done
  cases outcome <;> exact m

/-- The object that a step owns goes to the handle that asks for it, or is let go. -/
theorem hand_new (light : ∀ d : Deed, d.Light → allowed d) (sound : s.client.Sound)
    {made : ObjectId × Host} (m : Moves allowed s.client ⟨made.1 ::ₘ s.handles.values, made.2⟩)
    (keep : Option String) :
    Leads allowed s (Session.hand { s with host := made.2 } keep (.object made.1)).2 := by
  have handed_out : Moves allowed s.client
      ⟨s.handles.values + ((Value.object made.1).references : Multiset ObjectId), made.2⟩ := by
    rw [Host.holding_one] at m
    exact m
  exact hand light sound handed_out keep

end Leads

/-- A body that was made captures what the session keeps. -/
theorem kept_body {d : Draft} {b : Body} (found : s.body d = .ok (b, s')) :
    ∀ id ∈ b.references, s'.client.Keeps id := by
  obtain ⟨holds, counters, rfl⟩ := body_eq_ok found
  exact fun id inside => .held (holds id inside)

section Plain

variable (plain : ∀ d : Deed, d.plain → allowed d)
include plain

theorem leads_body {d : Draft} {b : Body} (found : s.body d = .ok (b, s')) :
    Leads allowed s s' := by
  obtain ⟨-, counters, rfl⟩ := body_eq_ok found
  exact Leads.acts ((Host.moves_remark _ _ _).mono plain)

theorem leads_function (sound : s.Sound) (draft : Draft) (name : String) (getter : Bool)
    (keep : Option String) : Leads allowed s (s.step (.function draft name getter keep)).2 := by
  refine Leads.after fun (body, s') found => ?_
  have made : Leads allowed s s' := leads_body plain found
  have sound' := made.moves.sound sound.client
  refine made.trans (Leads.hand_new (fun d light => plain d light.plain) sound'
    ((Host.moves_create ?_).mono plain) keep)
  exact fun id inside => (kept_body found id inside).alive sound'

/-- What a body captures is held by the step for as long as the body runs. -/
theorem leads_runNative (sound : s.client.Sound) {body : Body} (name : String) {this : Value}
    {args : List Value} (captured : ∀ id ∈ body.references, s.client.Keeps id)
    (lends : s.client.Lends this args) : Leads allowed s (s.runNative body name this args).2 := by
  have retained : Moves Deed.plain s.client
      ⟨s.handles.values + (body.references : Multiset ObjectId), s.host.retain body.references⟩ :=
    Host.moves_retain (sound.alive_kept captured)
  have le : s.client.held ≤ s.handles.values + (body.references : Multiset ObjectId) :=
    Multiset.le_add_right _ _
  have ran := retained.trans (Host.moves_run (Host.lawful_invoke Host.maxDepth) body
    (retained.sound sound) (lends.after retained sound le)
    fun id inside => (captured id inside).after retained sound le)
  rw [runNative]
  cases result : Host.run (Host.invoke Host.maxDepth) this args body
      (s.host.retain body.references) with
  | mk outcome host =>
    rw [result] at ran
    cases outcome with
    | error failure =>
      exact Leads.acts ((ran.trans (.release rfl (by simp [handed]))).mono plain)
    | ok v =>
      have released : Moves Deed.plain s.client
          ⟨s.handles.values, host.release (v.references ++ body.references)⟩ :=
        ran.trans (.release rfl (by simp only [handed, ← Multiset.coe_add]; abel))
      exact Leads.acts (released.mono plain)

end Plain

theorem leads_livingBox (light : ∀ d : Deed, d.Light → allowed d) (sound : s.client.Sound)
    (name : String) (v : ValueTerm) (keep : Option String) :
    Leads allowed s (s.step (.livingBox name v keep)).2 := by
  refine Leads.after fun (r, v) found => ?_
  have found_box : Moves allowed s.client
      ⟨s.handles.values + ((s.host.livingBox r v).1.toList : Multiset ObjectId),
        (s.host.livingBox r v).2⟩ := Host.moves_livingBox light v
  simp only
  split
  · rename_i host result
    rw [result] at found_box
    exact Leads.acts (by simpa using found_box)
  · rename_i box host result
    rw [result] at found_box
    have handed_out : Moves allowed s.client
        ⟨s.handles.values + ((Value.object box).references : Multiset ObjectId), host⟩ :=
      found_box
    exact Leads.hand light sound handed_out keep

theorem leads_native (plain : ∀ d : Deed, d.plain → allowed d) (sound : s.client.Sound)
    (draft : Draft) (name : String) (this : ValueTerm) (args : List ValueTerm) :
    Leads allowed s (s.step (.native draft name this args)).2 := by
  refine Leads.after fun (body, s', this, args) found => ?_
  obtain ⟨made, found_this, found_args⟩ := native_eq_ok.1 found
  have leads : Leads allowed s s' := leads_body plain made
  exact leads.trans (leads_runNative plain (leads.moves.sound sound) name (kept_body made)
    (lends_found found_this found_args))

theorem leads_recover (plain : ∀ d : Deed, d.plain → allowed d) (sound : s.client.Sound)
    (weak : String) (keep : Option String) : Leads allowed s (s.step (.recover weak keep)).2 := by
  refine Leads.after fun id found => ?_
  cases alive : s.host.isAlive id with
  | true =>
    simp only [if_true]
    exact Leads.hand (fun d light => plain d light.plain) sound
      ((Host.moves_retain (Host.alive_singleton alive)).mono plain) keep
  | false =>
    simp only [Bool.false_eq_true, if_false]
    exact .refl s

/-- A step that tags an object drains the registry, if it should, and tags the object. -/
theorem leads_tagging (plain : ∀ d : Deed, d.plain → allowed d) (sound : s.Sound) (tag : Tag)
    {name h : String} (asked : ∀ r id, s.target name h = .ok (r, id) →
      allowed (.drain r) ∧ allowed (.tag r id tag)) :
    Leads allowed s (s.after (s.target name h) fun (r, id) =>
      s.acting (s.host.tag r id tag) fun _ s => s.done).2 := by
  refine Leads.after fun (r, id) found => Leads.acting ?_ fun _ _ => rfl
  obtain ⟨found_r, found_id⟩ := target_eq_ok.1 found
  obtain ⟨drains, tags⟩ := asked r id found
  exact Host.moves_tag plain drains tags sound.client (sound.open_registry found_r)
    (kept_handle found_id)

/-- A call on a registry does what it may do, if it neither opens nor closes one. -/
theorem leads_call (sound : s.Sound) (t : Step)
    (stays : ∀ name, (∀ config, t ≠ .openRegistry name config) ∧ t ≠ .closeRegistry name)
    (call : t.registryName?.isSome = true) : Leads (s.Allows t) s (s.step t).2 := by
  have plain : ∀ d : Deed, d.plain → s.Allows t d := fun d h => Or.inl h
  have light : ∀ d : Deed, d.Light → s.Allows t d := fun d h => plain d h.plain
  cases t with
  | openRegistry name config => exact absurd rfl ((stays name).1 config)
  | closeRegistry name => exact absurd rfl (stays name).2
  | query | boxTable => exact Leads.after fun _ _ => .refl s
  | tagRecord name h =>
    exact leads_tagging plain sound .record fun r id found =>
      ⟨Or.inr ⟨r, id, found, Or.inl rfl⟩, Or.inr ⟨r, id, found, Or.inr rfl⟩⟩
  | tagTuple name h length =>
    exact leads_tagging plain sound (.tuple length) fun r id found =>
      ⟨Or.inr ⟨r, id, found, Or.inl rfl⟩, Or.inr ⟨r, id, found, Or.inr rfl⟩⟩
  | validate name v keep =>
    refine Leads.after fun (r, v) found => ?_
    obtain ⟨-, found_v⟩ := subject_eq_ok.1 found
    exact Leads.acting_value light sound.client
      (Host.moves_validate light sound.client (holds_value found_v).kept) keep
  | pair name h v =>
    refine Leads.after fun ((r, box), v) found => Leads.acting ?_ fun _ _ => rfl
    obtain ⟨found_p, found_v⟩ := Lookup.pair_eq_ok.1 found
    obtain ⟨found_r, found_box⟩ := target_eq_ok.1 found_p
    exact Host.moves_pair plain (Or.inr ⟨r, box, v, found_p, found_v, Or.inl rfl⟩)
      (fun value is => Or.inr ⟨r, box, v, found_p, found_v, Or.inr ⟨value, is, rfl⟩⟩) sound.client
      (sound.open_registry found_r) (mem_handles found_box) (holds_value found_v).kept
  | box name v keep =>
    refine Leads.after fun (r, v) found => ?_
    obtain ⟨found_r, found_v⟩ := subject_eq_ok.1 found
    exact Leads.acting_hand light sound.client .object
      (Host.moves_boxFor plain (Or.inr ⟨r, v, found, Or.inl rfl⟩)
        (fun box value is => Or.inr ⟨r, v, found, Or.inr ⟨box, value, is, rfl⟩⟩) sound.client
        (sound.open_registry found_r) (holds_value found_v).kept) keep
  | release name h keep =>
    refine Leads.after fun (r, box) found => ?_
    exact Leads.acting_value light sound.client
      (Host.moves_unpair (Or.inr ⟨r, box, found, rfl⟩)) keep
  | unbox name v keep =>
    exact Leads.after fun (r, v) found =>
      Leads.acting_value light sound.client (Host.moves_unbox light sound.client v) keep
  | livingBox name v keep => exact leads_livingBox light sound.client name v keep
  | reclaim name =>
    exact Leads.after fun r found => Leads.acts (.one .drain (Or.inr ⟨r, found, rfl⟩))
  | _ => cases call

/-- A step that leaves the names of registries as they are does what it may do. -/
theorem leads_step (sound : s.Sound) (t : Step)
    (stays : ∀ name, (∀ config, t ≠ .openRegistry name config) ∧ t ≠ .closeRegistry name) :
    Leads (s.Allows t) s (s.step t).2 := by
  have plain : ∀ d : Deed, d.plain → s.Allows t d := fun d h => Or.inl h
  have light : ∀ d : Deed, d.Light → s.Allows t d := fun d h => plain d h.plain
  cases t with
  | openRegistry name config => exact absurd rfl ((stays name).1 config)
  | closeRegistry name => exact absurd rfl (stays name).2
  | declare name description => exact ⟨.refl _, rfl⟩
  | create keep =>
    exact Leads.hand_new light sound.client
      ((Host.moves_create fun id h => (List.not_mem_nil h).elim).mono plain) keep
  | createFrom entries keep =>
    refine Leads.after fun entries found => ?_
    refine Leads.hand_new light sound.client
      ((Host.moves_createFrom sound.client entries fun e he => ?_).mono plain) keep
    obtain ⟨term, -, found_e⟩ := Lookup.mem_mapM found e he
    exact (holds_entry found_e).kept
  | function draft name getter keep => exact leads_function plain sound draft name getter keep
  | native draft name this args => exact leads_native plain sound.client draft name this args
  | drop h =>
    exact Leads.after fun id found => ⟨(moves_dropHandle found).mono plain, rfl⟩
  | «alias» h name =>
    refine Leads.after fun id found => Leads.hand light sound.client ?_ (some name)
    exact (Host.moves_retain (Host.alive_singleton (sound.alive_handle found))).mono plain
  | weaken h name => exact Leads.after fun id found => ⟨.refl _, rfl⟩
  | alive weak => exact Leads.after fun id found => .refl s
  | recover weak keep => exact leads_recover plain sound.client weak keep
  | onDrop label hold h =>
    refine Leads.after fun (held, id) found => ?_
    obtain ⟨found_held, found_id⟩ := Lookup.pair_eq_ok.1 found
    have alive := sound.client.alive_kept (holds_handles? found_held).kept
    exact Leads.acts (.one (.finalize (sound.alive_handle found_id)
      fun j hj => alive j (Option.mem_toList.2 hj)) (plain _ rfl))
  | info v =>
    refine Leads.after fun v found => Leads.acts ?_
    exact (Host.moves_isIterableObject sound.client (holds_value found).kept).mono plain
  | functionInfo h =>
    exact Leads.after fun id found =>
      Leads.acts ((Host.moves_isIterable sound.client (kept_handle found)).mono plain)
  | call this h args keep =>
    refine Leads.after fun (this, id, args) found => ?_
    obtain ⟨found_this, found_id, found_args⟩ := Lookup.triple_eq_ok.1 found
    exact Leads.acting_value light sound.client ((Host.moves_call sound.client
      (kept_handle found_id) (lends_found found_this found_args)).mono plain) keep
  | get h k keep =>
    refine Leads.after fun (id, k) found => ?_
    exact Leads.acting_value light sound.client
      ((Host.moves_read sound.client (kept_handle (place_eq_ok found)) k).mono plain) keep
  | set h k v =>
    refine Leads.after fun (p, v) found => ?_
    obtain ⟨found_p, found_v⟩ := Lookup.pair_eq_ok.1 found
    exact Leads.acting ((Host.moves_assign sound.client (kept_handle (place_eq_ok found_p)) p.2
      (holds_value found_v).kept).mono plain) fun _ _ => rfl
  | define slot h k =>
    refine Leads.after fun (slot, p) found => ?_
    obtain ⟨found_slot, -⟩ := Lookup.pair_eq_ok.1 found
    exact Leads.acting ((Host.moves_defineSlot sound.client p.1 p.2
      (holds_slotOf found_slot).kept).mono plain) fun _ _ => rfl
  | ownSlot | ownKeys | names | dump | equal | same | distinct | key | specs =>
    exact Leads.after fun _ _ => .refl s
  | freeze h => exact Leads.after fun id found => Leads.acts (.one .freeze (plain _ rfl))
  | prevent h => exact Leads.after fun id found => Leads.acts (.one .prevent (plain _ rfl))
  | install specs h =>
    refine Leads.after fun (specs, id) found => ?_
    obtain ⟨found_specs, -⟩ := Lookup.pair_eq_ok.1 found
    exact Leads.acting ((Host.moves_defineAll sound.client id specs.ordered
      fun p hp => (holds_specsOf found_specs p hp).kept).mono plain) fun _ _ => rfl
  | tagRecord | tagTuple | query | validate | pair | box | release | unbox | livingBox | reclaim
  | boxTable => exact leads_call sound _ stays rfl

/-- A session stays sound under steps that close no registry. -/
theorem Leads.sound (l : Leads allowed s s') (sound : s.Sound)
    (spared : ∀ r, ¬allowed (.closeRegistry r)) : s'.Sound := by
  refine ⟨l.moves.sound sound.client, fun p hp => ?_, ?_⟩
  · rw [l.registries] at hp
    exact l.moves.stays_open sound.client (spared p.2) (sound.opened p hp)
  · rw [l.registries]
    exact sound.distinct

section Lifecycle

variable {held : Multiset ObjectId} {w : Host}

/-- The number of a registry that was opened is the next one, under which there is none yet. -/
theorem openRegistry_eq_ok {config : Config} {r : RegistryId} {w' : Host}
    (opened : w.openRegistry config = (.ok r, w')) :
    r = w.nextRegistry ∧ w'.registry? r = some (.new config) := by
  rw [Host.openRegistry, Host.require] at opened
  cases missing : config.capabilities.missing with
  | nil =>
    simp only [missing, Prod.mk.injEq, Except.ok.injEq] at opened
    obtain ⟨rfl, rfl⟩ := opened
    exact ⟨rfl, Table.get?_put_same _ _ _⟩
  | cons c rest => simp [missing] at opened

/-- Closing registries one after the other. -/
theorem moves_closeAll (names : List (String × RegistryId))
    (closes : ∀ p ∈ names, allowed (.closeRegistry p.2)) :
    Moves allowed ⟨held, w⟩ ⟨held, names.foldl (fun w p => w.closeRegistry p.2) w⟩ := by
  induction names generalizing w with
  | nil => exact .refl _
  | cons p rest ih =>
    have first : Moves allowed ⟨held, w⟩ ⟨held, w.closeRegistry p.2⟩ :=
      .one .closeRegistry (closes p List.mem_cons_self)
    exact first.trans (ih fun q hq => closes q (List.mem_cons_of_mem p hq))

theorem moves_addRegistry (s : Session) (name : String) (config : Config)
    (light : ∀ d : Deed, d.Light → allowed d) (opens : allowed (.openRegistry config))
    (closes : ∀ r, (name, r) ∈ s.registries → allowed (.closeRegistry r)) :
    Moves allowed s.client (s.addRegistry name config).2.client := by
  have opened : Moves allowed s.client ⟨s.handles.values, (s.host.openRegistry config).2⟩ :=
    Host.moves_openRegistry light opens
  rw [addRegistry]
  cases result : s.host.openRegistry config with
  | mk outcome host =>
    rw [result] at opened
    cases outcome with
    | error failure => exact opened
    | ok r =>
      refine opened.trans (moves_closeAll _ fun p hp => ?_)
      obtain ⟨inside, named⟩ := List.mem_filter.1 hp
      exact closes p.2 (beq_iff_eq.1 named ▸ inside)

/-- A registry has one name. -/
theorem Sound.name_eq (sound : s.Sound) {p q : String × RegistryId} (inside : p ∈ s.registries)
    (inside' : q ∈ s.registries) (same : p.2 = q.2) : p = q :=
  List.inj_on_of_nodup_map sound.distinct inside inside' same

/-- No registry has two names when a name goes over to a registry that had none. -/
theorem Sound.distinct_rename (sound : s.Sound) (name : String) {r : RegistryId}
    (new : ∀ p ∈ s.registries, p.2 ≠ r) :
    ((s.registries.filter (fun d => d.1 != name) ++ [(name, r)]).map Prod.snd).Nodup := by
  rw [List.map_append, List.nodup_append]
  refine ⟨sound.distinct.sublist (List.filter_sublist.map _), by simp, ?_⟩
  intro a ha b hb
  obtain ⟨p, hp, rfl⟩ := List.mem_map.1 ha
  simp only [List.map_cons, List.map_nil, List.mem_singleton] at hb
  rw [hb]
  exact new p (List.mem_filter.1 hp).1

/-- The names that are kept lead to registries that are still open, and the new name to the
new one. -/
theorem sound_addRegistry (sound : s.Sound) (name : String) (config : Config) :
    (s.addRegistry name config).2.Sound := by
  have whole := (@moves_addRegistry (fun _ => True) s name config (fun _ _ => trivial) trivial
    fun _ _ => trivial).sound sound.client
  have opened : Moves (fun d => d.plain ∨ d = .openRegistry config) s.client
      ⟨s.handles.values, (s.host.openRegistry config).2⟩ :=
    Host.moves_openRegistry (fun d light => Or.inl light.plain) (Or.inr rfl)
  rw [addRegistry] at whole ⊢
  cases result : s.host.openRegistry config with
  | mk outcome host =>
    rw [result] at opened whole
    have still : ∀ p ∈ s.registries, ∃ reg, host.registry? p.2 = some reg := fun p hp =>
      opened.stays_open sound.client (by simp [Deed.plain, Deed.isPlain]) (sound.opened p hp)
    cases outcome with
    | error failure => exact ⟨whole, still, sound.distinct⟩
    | ok r =>
      obtain ⟨new, found⟩ := openRegistry_eq_ok result
      have old : ∀ p ∈ s.registries, p.2 ≠ r := by
        rintro p hp rfl
        obtain ⟨reg, found_p⟩ := sound.opened p hp
        have := sound.client.numbered p.2 reg found_p
        exact absurd this (by simp [new, client])
      have closed : Moves (fun d => ∃ p ∈ s.registries.filter fun d => d.1 == name,
            d = .closeRegistry p.2) ⟨s.handles.values, host⟩
          ⟨s.handles.values, (s.registries.filter fun d => d.1 == name).foldl
            (fun host d => host.closeRegistry d.2) host⟩ :=
        moves_closeAll _ fun p hp => ⟨p, hp, rfl⟩
      have sound' : Client.Sound ⟨s.handles.values, host⟩ := opened.sound sound.client
      refine ⟨whole, fun p hp => ?_, sound.distinct_rename name old⟩
      rcases List.mem_append.1 hp with kept | added
      · obtain ⟨inside, renamed⟩ := List.mem_filter.1 kept
        refine closed.stays_open sound' ?_ (still p inside)
        rintro ⟨q, hq, same⟩
        obtain ⟨inside', named⟩ := List.mem_filter.1 hq
        injection same with same
        cases sound.name_eq inside inside' same
        simp [beq_iff_eq.1 named] at renamed
      · rw [List.mem_singleton.1 added]
        refine closed.stays_open sound' ?_ ⟨_, found⟩
        rintro ⟨q, hq, same⟩
        injection same with same
        exact old q (List.mem_filter.1 hq).1 same.symm

theorem moves_closeStep (s : Session) (name : String) :
    Moves (s.Allows (.closeRegistry name)) s.client (s.step (.closeRegistry name)).2.client := by
  rw [step]
  cases found : s.registry name with
  | error fault => exact .refl _
  | ok r => exact .one .closeRegistry (Or.inr ⟨r, found, rfl⟩)

theorem sound_closeStep (sound : s.Sound) (name : String) :
    (s.step (.closeRegistry name)).2.Sound := by
  have whole := (moves_closeStep s name).sound sound.client
  rw [step] at whole ⊢
  cases found : s.registry name with
  | error fault => exact sound
  | ok r =>
    rw [found] at whole
    have closed : Moves (· = .closeRegistry r) s.client
        ⟨s.handles.values, s.host.closeRegistry r⟩ := .one .closeRegistry rfl
    refine ⟨whole, fun p hp => ?_, sound.distinct.sublist (List.filter_sublist.map _)⟩
    obtain ⟨inside, renamed⟩ := List.mem_filter.1 hp
    refine closed.stays_open sound.client ?_ (sound.opened p inside)
    intro same
    injection same with same
    cases sound.name_eq inside (mem_registries found) same
    simp at renamed

end Lifecycle

/-- Whatever the step, it does what it may do. -/
theorem moves_step (sound : s.Sound) (t : Step) :
    Moves (s.Allows t) s.client (s.step t).2.client := by
  cases t with
  | openRegistry name config =>
    rw [step]
    cases config.config with
    | error fault => exact .refl _
    | ok c =>
      exact moves_addRegistry s name c (fun d light => Or.inl light.plain) (Or.inr (Or.inl ⟨c, rfl⟩))
        fun r inside => Or.inr (Or.inr ⟨r, inside, rfl⟩)
  | closeRegistry name => exact moves_closeStep s name
  | _ => exact (leads_step sound _ (by simp)).moves

/-- A session stays sound whatever the step. -/
theorem sound_step (sound : s.Sound) (t : Step) : (s.step t).2.Sound := by
  cases t with
  | openRegistry name config =>
    rw [step]
    cases config.config with
    | error fault => exact sound
    | ok c => exact sound_addRegistry sound name c
  | closeRegistry name => exact sound_closeStep sound name
  | _ =>
    refine (leads_step sound _ (by simp)).sound sound fun r => ?_
    simp [Allows, Asks, Deed.plain, Deed.isPlain]

end Session

end Compound
