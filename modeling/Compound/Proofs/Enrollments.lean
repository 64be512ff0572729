import Compound.Proofs.Isolation
import Compound.Proofs.Refusals

/-!
Enrolling objects. A registry enrolls an object when it puts a tag on it that had none or makes it
a box that it was not, and from then on it watches the object. A step enrolls one object at most,
and it empties a queue first if it empties one at all. What else a call on a registry does changes
no object that was there before.
-/
namespace Compound

/-- The object that a deed enrolls, and the registry. -/
def Deed.enrolls? : Deed → Option (RegistryId × ObjectId)
  | tag r id _ => some (r, id)
  | join r box _ => some (r, box)
  | _ => none

/-- The registry whose queue a deed empties. -/
def Deed.drained? : Deed → Option RegistryId
  | drain r => some r
  | _ => none

/-- The deed enrolls no object and empties no queue. -/
structure Deed.Casual (d : Deed) : Prop where
  unenrolling : d.enrolls? = none
  undrained : d.drained? = none

/-- Nor does it change an object with a number below a bound. -/
structure Deed.Discreet (bound : ObjectId) (d : Deed) : Prop extends d.Casual where
  spares : ∀ id, d.changed? = some id → bound ≤ id

theorem Deed.Discreet.of_unchanging {bound : ObjectId} {d : Deed} (casual : d.Casual)
    (unchanging : d.changed? = none) : d.Discreet bound :=
  ⟨casual, fun id changes => by
    rw [unchanging] at changes
    cases changes⟩

theorem Deed.Light.casual {d : Deed} (light : d.Light) : d.Casual := by
  cases light <;> exact ⟨rfl, rfl⟩

theorem Deed.Light.discreet {d : Deed} (light : d.Light) (bound : ObjectId) :
    d.Discreet bound := by
  cases light <;> exact .of_unchanging ⟨rfl, rfl⟩ rfl

/-- Moves of one kind, or such moves, one that enrolls an object as it was asked for, and light ones
after it. -/
inductive Enrolling (kind asked : Deed → Prop) :
    Option (RegistryId × ObjectId) → Client → Client → Prop
  | nobody {c c' : Client} (m : Moves kind c c') : Enrolling kind asked none c c'
  | one {c c₁ c₂ c' : Client} {d : Deed} {subject : RegistryId × ObjectId}
      (before : Moves kind c c₁) (m : Move d c₁ c₂) (ok : asked d)
      (enrolls : d.enrolls? = some subject) (after : Moves Deed.Light c₂ c') :
      Enrolling kind asked (some subject) c c'

namespace Enrolling

variable {kind kind' asked : Deed → Prop} {subject : Option (RegistryId × ObjectId)}
  {c c' c'' : Client}

theorem trans (e : Enrolling kind asked subject c c') (m : Moves Deed.Light c' c'')
    (light : ∀ d, d.Light → kind d) : Enrolling kind asked subject c c'' := by
  cases e with
  | nobody m' => exact .nobody (m'.trans (m.mono light))
  | one before move ok enrolls after => exact .one before move ok enrolls (after.trans m)

theorem mono (e : Enrolling kind asked subject c c') (le : ∀ d, kind d → kind' d) :
    Enrolling kind' asked subject c c' := by
  cases e with
  | nobody m => exact .nobody (m.mono le)
  | one before move ok enrolls after => exact .one (before.mono le) move ok enrolls after

theorem moves (e : Enrolling kind asked subject c c') :
    Moves (fun d => kind d ∨ asked d ∨ d.Light) c c' := by
  cases e with
  | nobody m => exact m.mono fun _ => Or.inl
  | one before move ok enrolls after =>
    refine (before.mono fun _ => Or.inl).trans (.trans (.one move (Or.inr (Or.inl ok))) ?_)
    exact after.mono fun _ light => Or.inr (Or.inr light)

end Enrolling

namespace Host

variable {asked : Deed → Prop} {held : Multiset ObjectId} {w : Host} {r : RegistryId}
  {id box value : ObjectId}

/-- The registry reclaims before registrations. -/
def autoReclaims (w : Host) (r : RegistryId) : Bool := (w.registry? r).any (·.config.autoReclaim)

theorem autoReclaim_eq (w : Host) (r : RegistryId) :
    w.autoReclaim r = if w.autoReclaims r then (w.reclaim r).2 else w := by
  rw [autoReclaim, autoReclaims]
  cases w.registry? r <;> rfl

/-- The object has no tag in the registry. -/
def isUntagged (w : Host) (subject : RegistryId × ObjectId) : Bool :=
  (w.tagOf? subject.1 subject.2).isNone

/-- The object is no box of the registry. -/
def isUnboxed (w : Host) (subject : RegistryId × ObjectId) : Bool :=
  !(w.pairing subject.1).hasBox subject.2

theorem filter_of_boxed (boxed : (w.pairing r).hasBox box = true) :
    (some (r, box)).filter w.isUnboxed = none := by
  simp [isUnboxed, boxed]

theorem filter_of_unboxed (unboxed : (w.pairing r).hasBox box = false) :
    (some (r, box)).filter w.isUnboxed = some (r, box) := by
  simp [isUnboxed, unboxed]

/-- Tagging enrolls an object that has no tag. -/
theorem enrolling_tag (s : Client.Sound ⟨held, w⟩) (opened : ∃ reg, w.registry? r = some reg)
    (inside : id ∈ held) {t : Tag} (ok : asked (.tag r id t)) (bound : ObjectId) :
    Enrolling (Deed.Discreet bound) asked ((some (r, id)).filter w.isUntagged)
      ⟨held, w.autoReclaim r⟩ ⟨held, (w.tag r id t).2⟩ := by
  have kept : Client.Keeps ⟨held, w⟩ id := .held inside
  have drained : Moves (· = .drain r) ⟨held, w⟩ ⟨held, w.autoReclaim r⟩ := moves_autoReclaim rfl
  cases tagged : w.tagOf? r id with
  | some existing =>
    have known : (some (r, id)).filter w.isUntagged = none := by simp [isUntagged, tagged]
    rw [known, tag_of_tagged s (kept.alive s) tagged t]
    exact .nobody (.refl _)
  | none =>
    have unknown : (some (r, id)).filter w.isUntagged = some (r, id) := by
      simp [isUntagged, tagged]
    have alive := (kept.after drained s le_rfl).alive (drained.sound s)
    obtain ⟨reg, found⟩ := found_autoReclaim s opened
    have still : (Host.registry? (w.autoReclaim r) r).bind (·.tags.get? id) = none :=
      (tagOf?_autoReclaim s (kept.alive s)).trans tagged
    have free : reg.tags.get? id = none := by rwa [found, Option.bind_some] at still
    rw [unknown]
    simp only [tag, still]
    exact .one (.refl _) (.tag found free alive) ok rfl
      (.one (.remark _ _ _) .remark)

/-- A registry that has no pair of a living box after the automatic reclaim had none before. -/
theorem hasBox_autoReclaim (s : Client.Sound ⟨held, w⟩) (alive : w.isAlive box = true) :
    ((w.autoReclaim r).pairing r).hasBox box = (w.pairing r).hasBox box := by
  simp only [Pairing.hasBox, Table.contains, get?_values_autoReclaim s alive]

/-- Pairing enrolls a box that was none, if it is accepted. -/
theorem enrolling_pair (s : Client.Sound ⟨held, w⟩) (opened : ∃ reg, w.registry? r = some reg)
    (inside : box ∈ held) {v : Value} (kept : ∀ id ∈ v.references, Client.Keeps ⟨held, w⟩ id)
    (ok : ∀ value, v = .object value → asked (.join r box value))
    (accepted : (w.pair r box v).1 = .ok ()) (bound : ObjectId) :
    Enrolling (Deed.Discreet bound) asked
      ((some (r, box)).filter w.isUnboxed) ⟨held, w.autoReclaim r⟩ ⟨held, (w.pair r box v).2⟩ := by
  have drained : Moves (· = .drain r) ⟨held, w⟩ ⟨held, w.autoReclaim r⟩ := moves_autoReclaim rfl
  obtain ⟨reg, found⟩ := found_autoReclaim s opened
  have alive : w.isAlive box = true := Client.Keeps.alive (.held inside) s
  have same := hasBox_autoReclaim s alive (r := r)
  rw [pairing_of_found found] at same
  rw [pair] at accepted ⊢
  cases h : v.identity with
  | none =>
    simp only [h] at accepted
    cases accepted
  | some value =>
    have is := Value.identity_eq_some h
    simp only [h] at accepted ⊢
    by_cases itself : value = box
    · rw [if_pos itself] at accepted
      cases accepted
    · rw [if_neg itself] at accepted ⊢
      rw [joinIfFresh, pairing_of_found found] at accepted ⊢
      cases judged : reg.pairing.judge (w.autoReclaim r).isAlive box value with
      | error e =>
        rw [judged] at accepted
        cases accepted
      | ok verdict =>
        cases verdict with
        | known =>
          have boxed : (w.pairing r).hasBox box = true :=
            same ▸ (reg.pairing.hasBox_iff box).2 ⟨value, Pairing.paired_of_known judged⟩
          rw [filter_of_boxed boxed]
          exact .nobody (.refl _)
        | fresh pairs released =>
          have free := ((drained.sound s).attended r reg found).mirrored.admits judged |>.free
          have unboxed : (w.pairing r).hasBox box = false := by
            rw [← same, Pairing.hasBox, Table.contains, free]
            rfl
          rw [filter_of_unboxed unboxed]
          have living := ((kept value (Value.mem_references.2 is)).after drained s le_rfl).alive
            (drained.sound s)
          exact .one (.refl _) (.join found judged itself inside living) (ok value is) rfl
            (.one (.remark _ _ _) .remark)

/-- Whoever asks for the box of a value gets one that is enrolled then, if it was none before. Such
a box is a new object. -/
theorem enrolling_boxFor (s : Client.Sound ⟨held, w⟩) (opened : ∃ reg, w.registry? r = some reg)
    (kept : Client.Keeps ⟨held, w⟩ value) (ok : ∀ box, asked (.join r box value)) :
    ∃ box w', w.boxFor r (.object value) = (.ok box, w') ∧
      Enrolling (Deed.Discreet w.heap.next) asked
        ((some (r, box)).filter w.isUnboxed) ⟨held, w.autoReclaim r⟩
        ⟨held + ([box] : Multiset ObjectId), w'⟩ ∧
      ((w.pairing r).hasBox box = false → w.heap.next ≤ box ∧ w'.isCallable box = false) := by
  have drained : Moves (· = .drain r) ⟨held, w⟩ ⟨held, w.autoReclaim r⟩ := moves_autoReclaim rfl
  have sound := drained.sound s
  obtain ⟨reg, found⟩ := found_autoReclaim s opened
  cases known : (w.autoReclaim r).boxOf? r (.object value) with
  | some box =>
    have paired := ((boxOf?_iff s).1 (boxOf?_autoReclaim s known)).1
    have boxed : (w.pairing r).hasBox box = true :=
      ((w.pairing r).hasBox_iff box).2 ⟨value, paired⟩
    refine ⟨box, (w.autoReclaim r).retain [box], ?_, ?_, fun unboxed => ?_⟩
    · simp only [boxFor, Value.identity_object, known]
    · rw [filter_of_boxed boxed]
      exact .nobody (.one (.retain (alive_singleton (alive_of_boxOf? known)))
        ((Deed.Light.retain _).discreet _))
    · rw [boxed] at unboxed
      cases unboxed
  | none =>
    obtain ⟨pairs, released, fresh⟩ := judge_withBox sound found known
    have new : w.heap.next ≤ ((w.autoReclaim r).create none).1 := drained.evolves.next_le
    have unboxed : (w.pairing r).hasBox ((w.autoReclaim r).create none).1 = false := by
      cases boxed : (w.pairing r).hasBox ((w.autoReclaim r).create none).1 with
      | false => rfl
      | true =>
        obtain ⟨v, paired⟩ := ((w.pairing r).hasBox_iff _).1 boxed
        obtain ⟨reg', found', paired'⟩ := found_of_paired paired
        exact absurd (s.known_of_paired found' paired') (Nat.not_lt_of_le new)
    refine ⟨_, _, boxFor_fresh found known fresh, ?_, fun _ =>
      ⟨new, isCallable_join (isCallable_withBox _) _ _ _ _⟩⟩
    rw [filter_of_unboxed unboxed]
    have created : Moves (Deed.Discreet w.heap.next) ⟨held, w.autoReclaim r⟩
        ⟨((w.autoReclaim r).create none).1 ::ₘ held, ((w.autoReclaim r).create none).2⟩ :=
      .one (.create fun id h => (List.not_mem_nil h).elim) (.of_unchanging ⟨rfl, rfl⟩ rfl)
    have frozen : Moves (Deed.Discreet w.heap.next) ⟨held, w.autoReclaim r⟩
        ⟨((w.autoReclaim r).create none).1 ::ₘ held, (w.autoReclaim r).withBox⟩ :=
      created.trans (.one .freeze ⟨⟨rfl, rfl⟩, fun id changes => by cases changes; exact new⟩)
    have living := (kept.after drained s le_rfl).alive sound
    have living' := ((kept.after drained s le_rfl).after frozen sound
      (Multiset.le_cons_self _ _)).alive (frozen.sound sound)
    -- the box has a number that no living object had
    have ne : value ≠ ((w.autoReclaim r).create none).1 := by
      obtain ⟨o, found_o⟩ := (Heap.isAlive_iff _ value).1 living
      exact Nat.ne_of_lt (sound.accounted.bounded value o found_o)
    rw [← holding_one]
    exact .one frozen (.join (w := (w.autoReclaim r).withBox) found fresh ne
      (Multiset.mem_cons_self _ held) living') (ok _) rfl
      (.one (.remark _ _ _) .remark)

end Host

namespace Session

/-- The object that a step enrolls that has a result, and the registry: one that had no tag and was
marked, or one that was no box and was made one. -/
def enrolledBy (s : Session) : Step → Result → Option (RegistryId × ObjectId)
  | .tagRecord name h, .ok _ => (s.target name h).toOption.filter s.host.isUntagged
  | .tagTuple name h _, .ok _ => (s.target name h).toOption.filter s.host.isUntagged
  | .pair name h _, .ok _ => (s.target name h).toOption.filter s.host.isUnboxed
  | .box name _ _, .ok (.value (.object box)) =>
    ((s.registry name).toOption.map fun r => (r, box)).filter s.host.isUnboxed
  | _, _ => none

/-- The object that a step enrolls, and the registry. -/
def enrolled? (s : Session) (t : Step) : Option (RegistryId × ObjectId) :=
  s.enrolledBy t (s.answer t).1.result

/-- The registry whose queue a step empties: one that is told to reclaim, or one that is to enroll
an object and reclaims before. -/
def drained? (s : Session) : Step → Option RegistryId
  | .tagRecord name h => ((s.target name h).toOption.map Prod.fst).filter s.host.autoReclaims
  | .tagTuple name h _ => ((s.target name h).toOption.map Prod.fst).filter s.host.autoReclaims
  | .pair name h v =>
    ((s.target name h >>= fun p => (s.value v).map fun _ => p.1).toOption).filter
      s.host.autoReclaims
  | .box name v _ => ((s.subject name v).toOption.map Prod.fst).filter s.host.autoReclaims
  | .reclaim name => (s.registry name).toOption
  | _ => none

/-- The host when a step has emptied a queue, if it does. -/
def swept (s : Session) (t : Step) : Host :=
  (s.drained? t).elim s.host fun r => (s.host.reclaim r).2

variable {s : Session} {t : Step}

theorem elim_filter_autoReclaims (w : Host) (r : RegistryId) :
    ((some r).filter w.autoReclaims).elim w (fun r => (w.reclaim r).2) = w.autoReclaim r := by
  rw [Host.autoReclaim_eq, Option.filter_some]
  split <;> rfl

/-- What a step that tags comes to, once its names are found. -/
theorem enrolling_tagging (sound : s.Sound) {name h : String} {r : RegistryId} {id : ObjectId}
    {tag : Tag} (found : s.target name h = .ok (r, id)) (allows : s.Allows t (.tag r id tag))
    (accepted : ∀ reply, s.enrolledBy t (.ok reply) = (some (r, id)).filter s.host.isUntagged)
    (refused : ∀ fault, s.enrolledBy t (.error fault) = none) (bound : ObjectId) :
    Enrolling (Deed.Discreet bound) (s.Allows t)
      (s.enrolledBy t (s.acting (s.host.tag r id tag) fun _ s => s.done).1)
      ⟨s.handles.values, s.host.autoReclaim r⟩
      (s.acting (s.host.tag r id tag) fun _ s => s.done).2.client := by
  obtain ⟨found_r, found_id⟩ := target_eq_ok.1 found
  have opened := sound.open_registry found_r
  have tagged := Host.enrolling_tag sound.client opened (mem_handles found_id) allows bound
  have left : ∀ f, (s.host.tag r id tag).1 = .error f →
      (s.host.tag r id tag).2 = s.host.autoReclaim r := fun f => Host.tag_refused
  cases result : s.host.tag r id tag with
  | mk outcome host =>
    rw [result] at tagged left
    cases outcome with
    | ok _ =>
      exact accepted .nothing ▸ tagged
    | error f =>
      have same : host = s.host.autoReclaim r := left f rfl
      rw [same]
      exact refused (.failure f) ▸ .nobody (.refl _)

/-- What a step that pairs comes to, once its names are found. -/
theorem enrolling_pairing (sound : s.Sound) {name h : String} {term : ValueTerm} {r : RegistryId}
    {box : ObjectId} {v : Value} (found : s.target name h = .ok (r, box))
    (found_v : s.value term = .ok v) (bound : ObjectId) :
    Enrolling (Deed.Discreet bound) (s.Allows (.pair name h term))
      (s.enrolledBy (.pair name h term) (s.acting (s.host.pair r box v) fun _ s => s.done).1)
      ⟨s.handles.values, s.host.autoReclaim r⟩
      (s.acting (s.host.pair r box v) fun _ s => s.done).2.client := by
  obtain ⟨found_r, found_box⟩ := target_eq_ok.1 found
  have opened := sound.open_registry found_r
  have allows : ∀ value, v = .object value → s.Allows (.pair name h term) (.join r box value) :=
    fun value is => Or.inr ⟨r, box, v, found, found_v, Or.inr ⟨value, is, rfl⟩⟩
  have paired := fun accepted => Host.enrolling_pair sound.client opened (mem_handles found_box)
    (holds_value found_v).kept allows accepted bound
  have left : ∀ f, (s.host.pair r box v).1 = .error f →
      (s.host.pair r box v).2 = s.host.autoReclaim r := fun f => Host.pair_refused
  cases result : s.host.pair r box v with
  | mk outcome host =>
    rw [result] at paired left
    cases outcome with
    | error f =>
      have same : host = s.host.autoReclaim r := left f rfl
      rw [same]
      exact .nobody (.refl _)
    | ok _ =>
      have eq : s.enrolledBy (.pair name h term) (.ok .nothing) =
          (some (r, box)).filter s.host.isUnboxed := by
        rw [enrolledBy, found]
        rfl
      exact eq ▸ paired rfl

/-- What a step comes to that asks for a box, once its names are found. -/
theorem enrolling_boxing (sound : s.Sound) {name : String} {term : ValueTerm} {r : RegistryId}
    {v : Value} (keep : Option String) (found : s.subject name term = .ok (r, v)) :
    Enrolling (Deed.Discreet s.host.heap.next) (s.Allows (.box name term keep))
      (s.enrolledBy (.box name term keep)
        (s.acting (s.host.boxFor r v) fun box s => s.hand keep (.object box)).1)
      ⟨s.handles.values, s.host.autoReclaim r⟩
      (s.acting (s.host.boxFor r v) fun box s => s.hand keep (.object box)).2.client := by
  obtain ⟨found_r, found_v⟩ := subject_eq_ok.1 found
  have opened := sound.open_registry found_r
  cases h : v.identity with
  | none =>
    simp only [Host.boxFor, h]
    exact .nobody (.refl _)
  | some value =>
    cases Value.identity_eq_some h
    have kept := (holds_value found_v : s.Holds _).kept value (Value.mem_references.2 rfl)
    have drained : Moves (· = .drain r) s.client ⟨s.handles.values, s.host.autoReclaim r⟩ :=
      Host.moves_autoReclaim rfl
    have allows : ∀ box, s.Allows (.box name term keep) (.join r box value) := fun box =>
      Or.inr ⟨r, .object value, found, Or.inr ⟨box, value, rfl, rfl⟩⟩
    obtain ⟨box, w, made, enrolling, new⟩ := Host.enrolling_boxFor sound.client opened kept allows
    have shown : s.enrolledBy (.box name term keep)
        (.ok (.value (view { s with host := w } (.object box)))) =
          (some (r, box)).filter s.host.isUnboxed := by
      rw [view]
      cases callable : w.isCallable box with
      | false =>
        simp only [Bool.false_eq_true, if_false, enrolledBy, found_r]
        rfl
      | true =>
        cases boxed : (s.host.pairing r).hasBox box with
        | true =>
          rw [Host.filter_of_boxed boxed]
          rfl
        | false =>
          rw [(new boxed).2] at callable
          cases callable
    rw [made]
    have light : ∀ d : Deed, d.Light → d.Discreet s.host.heap.next := fun d h => h.discreet _
    refine shown.symm ▸ enrolling.trans ?_ light
    have owned : Client.Sound
        ⟨s.handles.values + ((Value.object box).references : Multiset ObjectId), w⟩ :=
      enrolling.moves.sound (drained.sound sound.client)
    exact moves_hand { s with host := w } keep owned

/-- What a call on a registry comes to after it has emptied a queue, if it does. -/
theorem enrolling_step (sound : s.Sound) (call : t.registryName?.isSome = true) :
    Enrolling (Deed.Discreet s.host.heap.next) (s.Allows t) (s.enrolledBy t (s.step t).1)
      ⟨s.handles.values, s.swept t⟩ (s.step t).2.client := by
  have light : ∀ d : Deed, d.Light → d.Discreet s.host.heap.next := fun d h => h.discreet _
  cases t with
  | openRegistry name term =>
    rw [step]
    cases term.config with
    | error fault => exact .nobody (.refl _)
    | ok config =>
      exact .nobody (moves_addRegistry s name config light (.of_unchanging ⟨rfl, rfl⟩ rfl)
        fun r _ => .of_unchanging ⟨rfl, rfl⟩ rfl)
  | closeRegistry name =>
    rw [step]
    cases s.registry name with
    | error fault => exact .nobody (.refl _)
    | ok r => exact .nobody (.one .closeRegistry (.of_unchanging ⟨rfl, rfl⟩ rfl))
  | tagRecord name h =>
    rw [step, swept, drained?]
    cases found : s.target name h with
    | error fault => exact .nobody (.refl _)
    | ok p =>
      have allows : s.Allows (.tagRecord name h) (.tag p.1 p.2 .record) :=
        Or.inr ⟨p.1, p.2, found, Or.inr rfl⟩
      rw [Except.toOption, Option.map_some, elim_filter_autoReclaims]
      refine enrolling_tagging sound found allows (fun _ => ?_) (fun _ => rfl) _
      rw [enrolledBy, found]
      rfl
  | tagTuple name h length =>
    rw [step, swept, drained?]
    cases found : s.target name h with
    | error fault => exact .nobody (.refl _)
    | ok p =>
      have allows : s.Allows (.tagTuple name h length) (.tag p.1 p.2 (.tuple length)) :=
        Or.inr ⟨p.1, p.2, found, Or.inr rfl⟩
      rw [Except.toOption, Option.map_some, elim_filter_autoReclaims]
      refine enrolling_tagging sound found allows (fun _ => ?_) (fun _ => rfl) _
      rw [enrolledBy, found]
      rfl
  | query name v => exact .nobody (Leads.after fun _ _ => .refl s).moves
  | validate name v keep =>
    refine .nobody (Leads.after fun p found => ?_).moves
    exact Leads.acting_value light sound.client (Host.moves_validate light sound.client
      (holds_value (subject_eq_ok.1 found).2).kept) keep
  | pair name h v =>
    rw [step, swept, drained?]
    cases found : s.target name h with
    | error fault => exact .nobody (.refl _)
    | ok p =>
      cases found_v : s.value v with
      | error fault => exact .nobody (.refl _)
      | ok u =>
        simp only [Lookup.ok_bind, Except.map, Except.toOption]
        rw [elim_filter_autoReclaims]
        exact enrolling_pairing sound found found_v _
  | box name v keep =>
    rw [step, swept, drained?]
    cases found : s.subject name v with
    | error fault => exact .nobody (.refl _)
    | ok p =>
      rw [Except.toOption, Option.map_some, elim_filter_autoReclaims]
      exact enrolling_boxing sound keep found
  | release name h keep =>
    refine .nobody (Leads.after fun p _ => ?_).moves
    exact Leads.acting_value light sound.client
      (Host.moves_unpair (.of_unchanging ⟨rfl, rfl⟩ rfl)) keep
  | unbox name v keep =>
    refine .nobody (Leads.after fun p _ => ?_).moves
    exact Leads.acting_value light sound.client (Host.moves_unbox light sound.client p.2) keep
  | livingBox name v keep => exact .nobody (leads_livingBox light sound.client name v keep).moves
  | reclaim name =>
    rw [step, swept, drained?]
    cases s.registry name <;> exact .nobody (.refl _)
  | boxTable name => exact .nobody (Leads.after fun _ _ => .refl s).moves
  | _ => cases call

/-- The host when a step that forgets first what was logged has emptied a queue, if it does. -/
def prelude (s : Session) (t : Step) : Host := swept { s with host := s.host.quiet } t

theorem moves_prelude (s : Session) (t : Step) :
    Moves (fun d => d = .remark ∨ ∃ r, s.drained? t = some r ∧ d = .drain r) s.client
      ⟨s.handles.values, s.prelude t⟩ := by
  have quieted : Moves (fun d => d = .remark ∨ ∃ r, s.drained? t = some r ∧ d = .drain r) s.client
      ⟨s.handles.values, s.host.quiet⟩ := .one (.remark _ _ _) (Or.inl rfl)
  have same : drained? { s with host := s.host.quiet } t = s.drained? t := rfl
  rw [prelude, swept, same]
  cases h : s.drained? t with
  | none => rwa [h] at quieted
  | some r =>
    rw [h] at quieted
    exact quieted.trans (.one .drain (Or.inr ⟨r, rfl, rfl⟩))

/-- What a call on a registry comes to after that. -/
theorem enrolling_call (sound : s.Sound) (call : t.registryName?.isSome = true) :
    Enrolling (Deed.Discreet s.host.heap.next) (s.Allows t) (s.enrolled? t)
      ⟨s.handles.values, s.prelude t⟩ (s.answer t).2.client :=
  enrolling_step (sound_quiet sound) call

theorem casual_of_plain {d : Deed} (plain : d.plain) : d.Casual := by
  cases d with
  | openRegistry | closeRegistry | tag | join | unpair | drain => cases plain
  | _ => exact ⟨rfl, rfl⟩

/-- What any step comes to. -/
theorem enrolling_answer (sound : s.Sound) (t : Step) :
    Enrolling Deed.Casual (s.Allows t) (s.enrolled? t) ⟨s.handles.values, s.prelude t⟩
      (s.answer t).2.client := by
  cases call : t.registryName?.isSome with
  | true => exact (enrolling_call sound call).mono fun _ discreet => discreet.toCasual
  | false =>
    have aside : (∀ d, s.Allows t d → d.plain) ∧ s.enrolled? t = none ∧
        s.prelude t = s.host.quiet := by
      cases t with
      | openRegistry | closeRegistry | reclaim | boxTable => cases call
      | tagRecord | tagTuple | pair | box | release => cases call
      | query | validate | unbox | livingBox => cases call
      | _ => exact ⟨fun d allows => allows.resolve_right id, rfl, rfl⟩
    obtain ⟨plain, unenrolling, undrained⟩ := aside
    have moves : Moves (s.Allows t) ⟨s.handles.values, s.host.quiet⟩ (s.answer t).2.client :=
      moves_step (sound_quiet sound) t
    rw [unenrolling, undrained]
    exact .nobody (moves.mono fun d allows => casual_of_plain (plain d allows))

end Session

end Compound
