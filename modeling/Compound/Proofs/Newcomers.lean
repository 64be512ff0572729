import Compound.Proofs.Entries

/-!
New objects, in every session that a script can reach. Numbers are given out in order and never
again, and whatever mentions an object beside the objects themselves, an entry, a queue or a weak
name, mentions one that has lived. So nothing that is left of the dead is about an object that is
made later, and a registry knows nothing of a new object until a step enrolls or boxes it.
-/
namespace Compound

namespace Registry

/-- The registry has no entry about the object: no tag, no value and no box. -/
structure Ignores (reg : Registry) (id : ObjectId) : Prop where
  untagged : reg.tags.get? id = none
  unboxed : reg.pairing.values.get? id = none
  boxless : ∀ box, reg.pairing.values.get? box ≠ some id

end Registry

/-- A deed makes an entry about an object in a registry. -/
inductive Deed.Enters (r : RegistryId) (id : ObjectId) : Deed → Prop
  | tag (t : Tag) : Enters r id (.tag r id t)
  | box (value : ObjectId) : Enters r id (.join r id value)
  | value (box : ObjectId) : Enters r id (.join r box id)

theorem Deed.Casual.not_enters {d : Deed} (casual : d.Casual) (r : RegistryId) (id : ObjectId) :
    ¬d.Enters r id := by
  intro enters
  have unenrolling := casual.unenrolling
  cases enters <;> cases unenrolling

/-- A deed enters the object that it enrolls. -/
theorem Deed.enters_of_enrolls {d : Deed} {r : RegistryId} {id : ObjectId}
    (enrolls : d.enrolls? = some (r, id)) : d.Enters r id := by
  cases d with
  | tag q j t =>
    cases enrolls
    exact .tag t
  | join q box value =>
    cases enrolls
    exact .box value
  | _ => cases enrolls

/-- No edit makes an entry about an object but the deeds that enter it. -/
theorem Registry.Edit.ignores {reg edited : Registry} {r : RegistryId} {alive : ObjectId → Bool}
    {d : Deed} {id : ObjectId} (e : reg.Edit r alive d edited) (ignores : reg.Ignores id)
    (spared : ¬d.Enters r id) : edited.Ignores id := by
  have other : d.enrolls? ≠ some (r, id) := fun enrolls => spared (Deed.enters_of_enrolls enrolls)
  refine ⟨e.untagged other ignores.untagged, e.unboxed other ignores.unboxed, fun b paired => ?_⟩
  cases e with
  | elsewhere => exact ignores.boxless b paired
  | tag => exact ignores.boxless b paired
  | @join box value pairs released admits ne =>
    have apart : id ≠ value := by
      rintro rfl
      exact spared (.value box)
    by_cases same : b = box
    · subst same
      rw [Pairing.insert, Table.get?_put_same, Option.some.injEq] at paired
      exact apart paired.symm
    · rw [Pairing.insert, Table.get?_put_other _ _ same] at paired
      exact ignores.boxless b ((admits.others b id).1 paired).1
  | unpair =>
    rw [Pairing.get?_values_remove] at paired
    exact ignores.boxless b (Option.ite_none_left_eq_some.1 paired).2
  | drain =>
    rw [get?_values_drained] at paired
    exact ignores.boxless b (Option.ite_none_left_eq_some.1 paired).2

/-- The registry has no entry about the object, if it is open. -/
def Host.Ignores (w : Host) (r : RegistryId) (id : ObjectId) : Prop :=
  ∀ reg, w.registry? r = some reg → reg.Ignores id

section Ignoring

variable {c c' : Client} {r : RegistryId} {id : ObjectId}

theorem Move.ignores {d : Deed} (m : Move d c c') (s : c.Sound) (ignores : c.host.Ignores r id)
    (spared : ¬d.Enters r id) : c'.host.Ignores r id :=
  m.preserves s (fun _ => ⟨rfl, rfl, fun _ paired => by cases paired⟩)
    (fun _ _ kept => ⟨kept.untagged, kept.unboxed, kept.boxless⟩)
    (fun _ _ _ edit kept => edit.ignores kept spared) ignores

theorem Moves.ignores {allowed : Deed → Prop} (m : Moves allowed c c') (s : c.Sound)
    (ignores : c.host.Ignores r id) (spared : ∀ d, allowed d → ¬d.Enters r id) :
    c'.host.Ignores r id := by
  induction m with
  | refl => exact ignores
  | tail first last ih =>
    obtain ⟨d, ok, move⟩ := last
    exact move.ignores (Moves.sound first s) ih (spared d ok)

theorem Enrolling.ignores {asked : Deed → Prop} {subject : Option (RegistryId × ObjectId)}
    (e : Enrolling Deed.Casual asked subject c c') (s : c.Sound) (ignores : c.host.Ignores r id)
    (spared : ∀ d, asked d → d.enrolls? = subject → ¬d.Enters r id) : c'.host.Ignores r id := by
  have casual : ∀ d : Deed, d.Casual → ¬d.Enters r id := fun d h => h.not_enters r id
  cases e with
  | nobody m => exact m.ignores s ignores casual
  | one before m ok enrolls after =>
    have sound := before.sound s
    have entered := m.ignores sound (before.ignores s ignores casual) (spared _ ok enrolls)
    exact after.ignores (m.sound sound) entered fun d light => casual d light.casual

end Ignoring

namespace Host

/-- What a host answers about an object that a registry has no entry about. -/
structure Disregards (w : Host) (r : RegistryId) (id : ObjectId) : Prop where
  tagOf : (w.registry? r).bind (·.tagOf (.object id)) = none
  isBox : (w.registry? r).any (·.isBox (.object id)) = false
  unbox : (w.unbox r (.object id)).1 = .error .notBox
  livingBox : (w.livingBox r (.object id)).1 = none
  classOf : w.classOf r (.object id) = if w.isCallable id then .function else .object

variable {held : Multiset ObjectId} {w : Host} {r : RegistryId} {id : ObjectId}

theorem disregards (s : Client.Sound ⟨held, w⟩) (ignores : w.Ignores r id) :
    w.Disregards r id := by
  have untagged : w.tagOf? r id = none := by
    cases found : w.registry? r with
    | none => rw [tagOf?, found, Option.bind_none]
    | some reg => rw [tagOf?_of_found found, (ignores reg found).untagged]
  have unboxed : (w.pairing r).values.get? id = none := by
    cases found : w.registry? r with
    | none =>
      rw [pairing_of_none found]
      rfl
    | some reg => rw [pairing_of_found found, (ignores reg found).unboxed]
  have isBox : (w.registry? r).any (·.isBox (.object id)) = false := by
    rw [isBox_eq, Pairing.hasBox, Table.contains, unboxed]
    rfl
  have tagOf : (w.registry? r).bind (·.tagOf (.object id)) = none := untagged
  refine ⟨tagOf, isBox, ?_, ?_, ?_⟩
  · have value? : (Value.object id).identity.bind (w.pairing r).value? = none := unboxed
    rw [outcome_unbox, value?]
  · cases known : w.boxOf? r (.object id) with
    | none => exact known
    | some box =>
      obtain ⟨reg, found, paired⟩ := found_of_paired ((boxOf?_iff s).1 known).1
      exact absurd paired ((ignores reg found).boxless box)
  · simp only [Host.classOf, Value.identity_object, tagOf, isBox, Bool.false_eq_true, if_false]

end Host

namespace Session

variable {s : Session} {t : Step} {r : RegistryId} {id : ObjectId}

/-- A number stands somewhere beside the objects: in the tags or the boxes of a registry, in either
direction, in its queue, or under a weak name. -/
inductive Mentions (s : Session) (id : ObjectId) : Prop
  | tag {r : RegistryId} {reg : Registry} {t : Tag} (opened : s.host.registry? r = some reg)
      (tagged : reg.tags.get? id = some t)
  | box {r : RegistryId} {reg : Registry} {value : ObjectId}
      (opened : s.host.registry? r = some reg) (paired : reg.pairing.values.get? id = some value)
  | value {r : RegistryId} {reg : Registry} {box : ObjectId}
      (opened : s.host.registry? r = some reg) (paired : reg.pairing.values.get? box = some id)
  | boxOf {r : RegistryId} {reg : Registry} {value : ObjectId}
      (opened : s.host.registry? r = some reg) (indexed : reg.pairing.boxes.get? value = some id)
  | valueOf {r : RegistryId} {reg : Registry} {box : ObjectId}
      (opened : s.host.registry? r = some reg) (indexed : reg.pairing.boxes.get? id = some box)
  | queue {r : RegistryId} {reg : Registry} (opened : s.host.registry? r = some reg)
      (queued : id ∈ reg.queue)
  | weak {name : String} (known : s.weak.get? name = some id)

section Weak

theorem weak_after {α : Type} {found : Lookup α} {go : α → Result × Session}
    (same : ∀ a, found = .ok a → (go a).2.weak = s.weak) : (s.after found go).2.weak = s.weak := by
  cases found with
  | error fault => rfl
  | ok a => exact same a rfl

theorem weak_acting {α : Type} (s : Session) (done : Outcome α × Host)
    {go : α → Session → Result × Session} (same : ∀ a s', (go a s').2.weak = s'.weak) :
    (s.acting done go).2.weak = s.weak := by
  obtain ⟨outcome, host⟩ := done
  cases outcome with
  | error f => rfl
  | ok a => exact same a _

theorem weak_hand (s : Session) (keep : Option String) (v : Value) :
    (s.hand keep v).2.weak = s.weak := by
  cases keep with
  | none => rfl
  | some name =>
    simp only [hand]
    cases v.identity <;> rfl

theorem weak_runNative (s : Session) (body : Body) (name : String) (this : Value)
    (args : List Value) : (s.runNative body name this args).2.weak = s.weak := by
  rw [runNative]
  split <;> rfl

/-- Only one kind of step gives weak names. -/
theorem weak_step (s : Session) (t : Step) (other : ∀ h name, t ≠ .weaken h name) :
    (s.step t).2.weak = s.weak := by
  cases t with
  | weaken h name => exact absurd rfl (other h name)
  | declare name description => rfl
  | create keep => exact weak_hand _ keep _
  | createFrom entries keep => exact weak_after fun _ _ => weak_hand _ keep _
  | function draft name getter keep =>
    refine weak_after fun (body, s') found => ?_
    obtain ⟨-, counters, rfl⟩ := body_eq_ok found
    exact weak_hand _ keep _
  | native draft name this args =>
    refine weak_after fun (body, s', this, args) found => ?_
    obtain ⟨made, -, -⟩ := native_eq_ok.1 found
    obtain ⟨-, counters, rfl⟩ := body_eq_ok made
    exact weak_runNative _ _ _ _ _
  | recover weak keep =>
    refine weak_after fun id _ => ?_
    split
    · exact weak_hand _ keep _
    · rfl
  | livingBox name v keep =>
    refine weak_after fun p _ => ?_
    simp only
    split
    · rfl
    · exact weak_hand _ keep _
  | «alias» => exact weak_after fun _ _ => weak_hand _ _ _
  | call | get | validate | box | release | unbox =>
    exact weak_after fun _ _ => weak_acting s _ fun _ _ => weak_hand _ _ _
  | set | define | install | openRegistry | tagRecord | tagTuple | pair =>
    exact weak_after fun _ _ => weak_acting s _ fun _ _ => rfl
  | _ => exact weak_after fun _ _ => rfl

/-- Weak names are given to objects that have lived. -/
theorem weak_known_answer (sound : s.Sound)
    (known : ∀ name id, s.weak.get? name = some id → id < s.host.heap.next) (t : Step) :
    ∀ name id, (s.answer t).2.weak.get? name = some id → id < (s.answer t).2.host.heap.next := by
  have grown := (moves_answer sound t).evolves.next_le
  intro name id named
  refine Nat.lt_of_lt_of_le ?_ grown
  by_cases gives : ∃ h name', t = .weaken h name'
  · obtain ⟨h, name', rfl⟩ := gives
    rw [answer_session, step] at named
    cases found : s.handle h with
    | error fault =>
      have found' : handle { s with host := s.host.quiet } h = .error fault := found
      rw [found'] at named
      exact known name id named
    | ok j =>
      have found' : handle { s with host := s.host.quiet } h = .ok j := found
      rw [found'] at named
      obtain ⟨o, living⟩ := (Heap.isAlive_iff _ j).1 (sound.alive_handle found)
      by_cases same : name = name'
      · subst same
        have given : (s.weak.put name j).get? name = some id := named
        rw [Table.get?_put_same, Option.some.injEq] at given
        exact given ▸ sound.client.accounted.bounded j o living
      · have old : (s.weak.put name' j).get? name = some id := named
        rw [Table.get?_put_other _ _ same] at old
        exact known name id old
  · have same : (s.answer t).2.weak = s.weak :=
      weak_step { s with host := s.host.quiet } t fun h name' is => gives ⟨h, name', is⟩
    exact known name id (same ▸ named)

theorem weak_known_run (sound : s.Sound)
    (known : ∀ name id, s.weak.get? name = some id → id < s.host.heap.next) (ts : List Step) :
    ∀ name id, (s.run ts).weak.get? name = some id → id < (s.run ts).host.heap.next := by
  induction ts generalizing s with
  | nil => exact known
  | cons t rest ih => exact ih (sound_answer sound t) (weak_known_answer sound known t)

theorem Reachable.weak_known (reach : s.Reachable) :
    ∀ name id, s.weak.get? name = some id → id < s.host.heap.next := by
  obtain ⟨reclaiming, ts, rfl⟩ := reach
  refine weak_known_run (sound_start reclaiming) (fun name id named => ?_) ts
  have unnamed : (start reclaiming).weak = .empty := by
    cases reclaiming with
    | none => rfl
    | some b => exact weak_acting empty _ fun _ _ => rfl
  rw [unnamed] at named
  cases named

end Weak

/-- Whatever is mentioned has lived. -/
theorem Mentions.known (mentions : s.Mentions id) (reach : s.Reachable) :
    id < s.host.heap.next := by
  have sound := reach.sound.client
  have boxed : ∀ {r reg box}, s.host.registry? r = some reg →
      reg.pairing.values.get? box = some id → id < s.host.heap.next := fun opened paired => by
    obtain ⟨o, living⟩ := (Heap.isAlive_iff _ id).1 (sound.alive_boxed opened paired)
    exact sound.accounted.bounded id o living
  cases mentions with
  | tag opened tagged =>
    exact ((sound.attended _ _ opened).minded id (Registry.mentions_tag tagged) not_false).known
  | box opened paired => exact sound.known_of_paired opened paired
  | value opened paired => exact boxed opened paired
  | boxOf opened indexed =>
    have paired := ((sound.attended _ _ opened).mirrored.inverse _ _).2 indexed
    exact sound.known_of_paired opened paired
  | valueOf opened indexed =>
    exact boxed opened (((sound.attended _ _ opened).mirrored.inverse _ _).2 indexed)
  | queue opened queued => exact ((sound.attended _ _ opened).buried id queued).2
  | weak known => exact reach.weak_known _ id known

/-- A step wants a box for an object in a registry: one that it names or one that is to be found. -/
inductive Boxes (s : Session) (r : RegistryId) (id : ObjectId) : Step → Prop
  | pair {name h : String} {v : ValueTerm} (found : s.registry name = .ok r)
      (value : s.value v = .ok (.object id)) : Boxes s r id (.pair name h v)
  | box {name : String} {v : ValueTerm} {keep : Option String}
      (found : s.subject name v = .ok (r, .object id)) : Boxes s r id (.box name v keep)

/-- No step of a script enrolls the object in the registry or wants a box for it there. -/
def Unclaimed (r : RegistryId) (id : ObjectId) : Session → List Step → Prop
  | _, [] => True
  | s, t :: ts =>
    s.enrolled? t ≠ some (r, id) ∧ ¬s.Boxes r id t ∧ Unclaimed r id (s.answer t).2 ts

/-- A step that neither enrolls nor boxes an object makes no entry about it. -/
theorem ignores_answer (sound : s.Sound) (ignores : s.host.Ignores r id)
    (unenrolled : s.enrolled? t ≠ some (r, id)) (unboxed : ¬s.Boxes r id t) :
    (s.answer t).2.host.Ignores r id := by
  have prelude := moves_prelude s t
  have before : (s.prelude t).Ignores r id := by
    refine prelude.ignores sound.client ignores ?_
    rintro d (rfl | ⟨q, -, rfl⟩) <;> intro enters <;> cases enters
  refine (enrolling_answer sound t).ignores (prelude.sound sound.client) before ?_
  intro d allows enrolls enters
  cases enters with
  | tag tag => exact unenrolled enrolls.symm
  | box value => exact unenrolled enrolls.symm
  | value box =>
    rcases allows with plain | asks
    · cases plain
    · cases t with
      | pair name h v =>
        obtain ⟨q, box', v', found, found_v, same | ⟨value, is, same⟩⟩ := asks
        · cases same
        · cases same
          exact unboxed (.pair (target_eq_ok.1 found).1 (is ▸ found_v))
      | box name v keep =>
        obtain ⟨q, v', found, same | ⟨box', value, is, same⟩⟩ := asks
        · cases same
        · cases same
          exact unboxed (.box (is ▸ found))
      | openRegistry | closeRegistry | tagRecord | tagTuple | release | reclaim =>
        simp [Asks] at asks
      | _ => exact asks.elim

theorem ignores_run (sound : s.Sound) (ignores : s.host.Ignores r id) (ts : List Step)
    (unclaimed : Unclaimed r id s ts) : (s.run ts).host.Ignores r id := by
  induction ts generalizing s with
  | nil => exact ignores
  | cons t rest ih =>
    exact ih (sound_answer sound t)
      (ignores_answer sound ignores unclaimed.1 unclaimed.2.1) unclaimed.2.2

/-- A step wants boxes for objects that have lived before it. -/
theorem Boxes.known (boxes : s.Boxes r id t) (sound : s.Sound) : id < s.host.heap.next := by
  have named : ∃ v, s.value v = .ok (.object id) := by
    cases boxes with
    | pair found value => exact ⟨_, value⟩
    | box found => exact ⟨_, (subject_eq_ok.1 found).2⟩
  obtain ⟨v, value⟩ := named
  have kept := (holds_value value : s.Holds _).kept id (Value.mem_references.2 rfl)
  obtain ⟨o, living⟩ := (Heap.isAlive_iff _ id).1 (kept.alive sound.client)
  exact sound.client.accounted.bounded id o living

theorem ignores_new (reach : s.Reachable) (new : s.host.heap.next ≤ id) (r : RegistryId) :
    s.host.Ignores r id := by
  have unmentioned : ¬s.Mentions id := fun mentions =>
    absurd (mentions.known reach) (Nat.not_lt_of_le new)
  intro reg opened
  refine ⟨?_, ?_, fun box paired => unmentioned (.value opened paired)⟩
  · cases tagged : reg.tags.get? id with
    | none => rfl
    | some t => exact absurd (.tag opened tagged) unmentioned
  · cases paired : reg.pairing.values.get? id with
    | none => rfl
    | some value => exact absurd (.box opened paired) unmentioned

/-- Different numbers that fit into a word are different words. -/
theorem word_ne {j n bound : Nat} (lt : j < n) (fits : n < bound) (le : bound ≤ 2 ^ 64) :
    UInt64.ofNat j ≠ UInt64.ofNat n := by
  intro same
  have same' := congrArg UInt64.toNat same
  rw [UInt64.toNat_ofNat', UInt64.toNat_ofNat', Nat.mod_eq_of_lt (by omega),
    Nat.mod_eq_of_lt (by omega)] at same'
  omega

/-- Let a session that a script reaches make an object in a step. Nothing that the session mentions
beside its objects, however long they are dead, has the number of the new object, nor its word as
long as numbers fit into words. Unless the step makes it a box there, a registry knows nothing of
the object, and so it stays until a step enrolls the object or wants a box for it, whatever else is
done, reclaimed and left in tables. And while the object lives it is in no queue, and no reclaim
takes out an entry that it has come by. -/
theorem newcomer_unknown (reach : s.Reachable) (t : Step) (new : s.host.heap.next ≤ id)
    (made : id < (s.answer t).2.host.heap.next) :
    (∀ j, s.Mentions j → j ≠ id ∧
      ((s.answer t).2.host.heap.next ≤ 2 ^ 64 → UInt64.ofNat j ≠ UInt64.ofNat id)) ∧
    (∀ r ts, s.enrolled? t ≠ some (r, id) → Unclaimed r id (s.answer t).2 ts →
      ((s.answer t).2.run ts).host.Disregards r id) ∧
    ∀ r ts, ((s.answer t).2.run ts).host.isAlive id = true →
      let w := ((s.answer t).2.run ts).host
      (∀ reg, w.registry? r = some reg → id ∉ reg.queue) ∧
        (w.reclaim r).2.tagOf? r id = w.tagOf? r id ∧
        ((w.reclaim r).2.pairing r).values.get? id = (w.pairing r).values.get? id := by
  have sound := reach.sound
  have answered := sound_answer sound t
  refine ⟨fun j mentions => ?_, fun r ts unenrolled unclaimed => ?_, fun r ts alive => ?_⟩
  · have lt := Nat.lt_of_lt_of_le (mentions.known reach) new
    exact ⟨Nat.ne_of_lt lt, word_ne lt made⟩
  · have unboxed : ¬s.Boxes r id t := fun boxes =>
      absurd (boxes.known sound) (Nat.not_lt_of_le new)
    have ignores := ignores_answer sound (ignores_new reach new r) unenrolled unboxed
    exact Host.disregards (sound_run answered ts).client
      (ignores_run answered ignores ts unclaimed)
  · have client := (sound_run answered ts).client
    exact ⟨fun reg found => client.unqueued_of_alive found alive,
      Host.tagOf?_reclaim client alive, Host.get?_values_reclaim client alive⟩

/-- A dead Record and a dead box wait to be reclaimed, and the Record has a weak name. An object
that is made now is none of them, and the registry does not know it after it has reclaimed and has
tagged the next one. -/
theorem newcomer_unknown_lingering :
    let s := (start (some false)).run [.create (some "record"), .create (some "box"),
      .create (some "value"), .tagRecord "r" "record", .pair "r" "box" (.handle "value"),
      .weaken "record" "w", .drop "record", .drop "box"]
    let t : Step := .createFrom [(.name "k", .null)] (some "new")
    let ts : List Step := [.reclaim "r", .create (some "other"), .tagRecord "r" "other"]
    (s.host.registry? 0).map (·.queue) = some [1, 2] ∧ s.weak.get? "w" = some 1 ∧
      ¬s.Mentions 4 ∧ (s.answer t).2.host.Disregards 0 4 ∧
      ((s.answer t).2.run ts).host.Disregards 0 4 ∧
      ((s.answer t).2.run ts).host.isAlive 4 = true := by
  intro s t ts
  have reach : s.Reachable := ⟨_, _, rfl⟩
  have new : s.host.heap.next ≤ 4 := by decide +kernel
  have made : 4 < (s.answer t).2.host.heap.next := by decide +kernel
  have alive : ((s.answer t).2.run ts).host.isAlive 4 = true := by decide +kernel
  obtain ⟨unmentioned, disregards, -⟩ := newcomer_unknown reach t new made
  have unclaimed : Unclaimed 0 4 (s.answer t).2 ts := by
    refine ⟨?_, ?_, ?_, ?_, ?_, ?_, trivial⟩
    · decide +kernel
    · rintro ⟨⟩
    · decide +kernel
    · rintro ⟨⟩
    · decide +kernel
    · rintro ⟨⟩
  exact ⟨by decide +kernel, by decide +kernel, fun mentions => (unmentioned 4 mentions).1 rfl,
    disregards 0 [] (by decide +kernel) trivial, disregards 0 ts (by decide +kernel) unclaimed,
    alive⟩

end Session

end Compound
