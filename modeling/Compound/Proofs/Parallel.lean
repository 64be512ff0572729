import Compound.Proofs.Operations
import Compound.Proofs.Twins

/-!
Calls in two hosts, the second of which lags behind the first one. A body runs the same way in
both, whatever it calls on the way, and so do reading, assigning and defining, which may call.
-/
namespace Compound.Host

/-- Two operations have the same outcome, and leave twins of which this is held, given the
outcome. -/
structure Alike {α : Type} (held : Outcome α → Multiset ObjectId) (done done' : Outcome α × Host) :
    Prop where
  outcome : done'.1 = done.1
  twins : Twins (held done.1) done.2 done'.2

/-- The references that are held when an operation has handed out a value. -/
def holding (held : Multiset ObjectId) (outcome : Outcome Value) : Multiset ObjectId :=
  held + (handed outcome : Multiset ObjectId)

/-- A call does the same in two hosts in which the same is held. -/
def Parallel (call : Caller) : Prop :=
  ∀ (held : Multiset ObjectId) (w w' : Host) (f : ObjectId) (this : Value) (args : List Value),
    Twins held w w' → Client.Keeps ⟨held, w⟩ f → Client.Lends ⟨held, w⟩ this args →
      Alike (holding held) (call f this args w) (call f this args w')

variable {call : Caller} {held : Multiset ObjectId} {w w' : Host} {id : ObjectId} {k : Key}

namespace Alike

variable {α : Type} {after : Outcome α → Multiset ObjectId} {done done' : Outcome α × Host}

theorem split (a : Alike after done done') :
    ∃ outcome u u', done = (outcome, u) ∧ done' = (outcome, u') ∧ Twins (after outcome) u u' := by
  obtain ⟨outcome, u⟩ := done
  obtain ⟨outcome', u'⟩ := done'
  obtain ⟨same, twins⟩ := a
  exact ⟨outcome, u, u', rfl, congrArg (·, u') same, twins⟩

theorem same (t : Twins held w w') (outcome : Outcome α) :
    Alike (fun _ => held) (outcome, w) (outcome, w') :=
  ⟨rfl, t⟩

/-- Nothing is handed out. -/
theorem nothing (t : Twins held w w') {outcome : Outcome Value} (primitive : handed outcome = []) :
    Alike (holding held) (outcome, w) (outcome, w') := by
  refine ⟨rfl, ?_⟩
  simpa [holding, primitive] using t

/-- A value is handed out that the client does not hold itself. -/
theorem retain (t : Twins held w w') {v : Value}
    (alive : ∀ id ∈ v.references, w.isAlive id = true) :
    Alike (holding held) (.ok v, w.retain v.references) (.ok v, w'.retain v.references) :=
  ⟨rfl, t.retain alive⟩

end Alike

theorem alike_defineSlot (t : Twins held w w') (living : w.isAlive id = true) (k : Key) {s : Slot}
    (alive : ∀ j ∈ s.references, w.isAlive j = true) :
    Alike (fun _ => held) (w.defineSlot id k s) (w'.defineSlot id k s) := by
  rw [defineSlot, defineSlot, t.lags.refusal?_eq living]
  cases w.refusal? id k with
  | some refusal => exact .same t _
  | none => exact .same (t.writeSlot living k alive) _

section Bodies

variable (parallel : Parallel call)
include parallel

theorem alike_runGetter (t : Twins held w w') {getter : ObjectId}
    (alive : w.isAlive getter = true) (kept : Client.Keeps ⟨held, w⟩ id) :
    Alike (holding held) (runGetter call getter id w) (runGetter call getter id w') := by
  have retained := t.retain (alive_singleton alive)
  have kept' : Client.Keeps ⟨held + ([getter] : Multiset ObjectId), w.retain [getter]⟩ id :=
    kept.after (moves_retain (alive_singleton alive)) t.sound (Multiset.le_add_right _ _)
  have called := parallel _ _ _ getter (.object id) [] retained
    (.held (Multiset.mem_add.2 (Or.inr (List.mem_singleton_self getter))))
    ⟨fun j h => by cases Value.mem_references.1 h; exact kept',
      fun v hv => (List.not_mem_nil hv).elim⟩
  obtain ⟨outcome, u, u', result, result', twins⟩ := called.split
  rw [runGetter, runGetter, result, result']
  rw [holding, add_right_comm] at twins
  exact ⟨rfl, twins.release⟩

theorem alike_readWith (t : Twins held w w') (kept : Client.Keeps ⟨held, w⟩ id) (k : Key) :
    Alike (holding held) (readWith call id k w) (readWith call id k w') := by
  rw [readWith, readWith, t.lags.slot?_eq (kept.alive t.sound)]
  cases found : w.slot? id k with
  | none => exact .nothing t rfl
  | some slot =>
    have alive := t.sound.alive_slot found
    cases slot with
    | data v writable enumerable configurable => exact .retain t alive
    | accessor get set enumerable configurable =>
      cases get with
      | none => exact .nothing t rfl
      | some getter =>
        exact alike_runGetter parallel t (alive getter (by simp [Slot.references])) kept

theorem alike_runSetter (t : Twins held w w') {setter : ObjectId}
    (alive : w.isAlive setter = true) (kept : Client.Keeps ⟨held, w⟩ id) {v : Value}
    (kept_value : ∀ j ∈ v.references, Client.Keeps ⟨held, w⟩ j) :
    Alike (fun _ => held) (runSetter call setter id v w) (runSetter call setter id v w') := by
  have retained := t.retain (alive_singleton alive)
  have still : ∀ j, Client.Keeps ⟨held, w⟩ j →
      Client.Keeps ⟨held + ([setter] : Multiset ObjectId), w.retain [setter]⟩ j :=
    fun j h => h.after (moves_retain (alive_singleton alive)) t.sound (Multiset.le_add_right _ _)
  have called := parallel _ _ _ setter (.object id) [v] retained
    (.held (Multiset.mem_add.2 (Or.inr (List.mem_singleton_self setter))))
    ⟨fun j h => by cases Value.mem_references.1 h; exact still id kept,
      fun u hu j h => by cases List.mem_singleton.1 hu; exact still j (kept_value j h)⟩
  obtain ⟨outcome, u, u', result, result', twins⟩ := called.split
  rw [runSetter, runSetter, result, result']
  cases outcome with
  | error e =>
    have twins : Twins (held + ([setter] : Multiset ObjectId)) u u' := by
      simpa [holding, handed] using twins
    exact .same twins.release _
  | ok x =>
    have twins : Twins (held + (x.references ++ [setter] : List ObjectId)) u u' := by
      rwa [holding, handed, add_assoc, add_comm ([setter] : Multiset ObjectId),
        Multiset.coe_add] at twins
    exact .same twins.release _

theorem alike_assignWith (t : Twins held w w') (kept : Client.Keeps ⟨held, w⟩ id) (k : Key)
    {v : Value} (kept_value : ∀ j ∈ v.references, Client.Keeps ⟨held, w⟩ j) :
    Alike (fun _ => held) (assignWith call id k v w) (assignWith call id k v w') := by
  have living := kept.alive t.sound
  have alive_value := t.sound.alive_kept kept_value
  have written : ∀ {s : Slot}, s.references = v.references →
      Twins held (w.writeSlot id k s) (w'.writeSlot id k s) := fun same =>
    t.writeSlot living k (same ▸ alive_value)
  rw [assignWith, assignWith, t.lags.slot?_eq living, t.lags.isExtensible_eq living]
  cases found : w.slot? id k with
  | none =>
    cases w.isExtensible id with
    | false => exact .same t _
    | true => exact .same (written rfl) _
  | some slot =>
    cases slot with
    | data old writable enumerable configurable =>
      cases writable with
      | false => exact .same t _
      | true => exact .same (written rfl) _
    | accessor get set enumerable configurable =>
      cases set with
      | none => exact .same t _
      | some setter =>
        exact alike_runSetter parallel t
          (t.sound.alive_slot found setter (by simp [Slot.references])) kept kept_value

/-- A body runs the same way in both hosts if calling does. The second part of a sequence starts
where the first one ended in each of them. -/
theorem alike_run (lawful : Lawful call) {this : Value} {args : List Value} (body : Body)
    (t : Twins held w w') (lends : Client.Lends ⟨held, w⟩ this args)
    (captured : ∀ id ∈ body.references, Client.Keeps ⟨held, w⟩ id) :
    Alike (holding held) (run call this args body w) (run call this args body w') := by
  have receiver : ∀ id, this.identity = some id → Client.Keeps ⟨held, w⟩ id :=
    fun id h => lends.receiver id (Value.mem_references.2 (Value.identity_eq_some h))
  induction body generalizing held w w' with
  | receiver => exact .retain t (t.sound.alive_kept lends.receiver)
  | argumentCount | equalsReceiver | fail message => exact .nothing t rfl
  | count counter =>
    obtain ⟨counted, ticked⟩ := t.tick counter
    simp only [run, counted]
    exact .nothing ticked rfl
  | note event => exact .nothing (t.log event) rfl
  | freeze =>
    rw [run, run]
    cases h : this.identity with
    | none => exact .nothing t rfl
    | some id => exact .nothing (t.freeze ((receiver id h).alive t.sound)) rfl
  | create =>
    have captures : ∀ id ∈ (Object.new none).bodyReferences, w.isAlive id = true :=
      fun id h => (List.not_mem_nil h).elim
    obtain ⟨same, made⟩ := t.create captures
    rw [holding_one] at made
    simp only [run, same]
    exact ⟨rfl, made⟩
  | give v => exact .retain t (t.sound.alive_kept captured)
  | argument i => exact .retain t (t.sound.alive_kept (lends.argumentAt i))
  | load cell =>
    rw [run, run, t.lags.cell_eq]
    exact .retain t (t.sound.alive_cell cell)
  | store cell => exact .nothing (t.store cell (t.sound.alive_kept (lends.argumentAt 0))) rfl
  | read k =>
    rw [run, run]
    cases h : this.identity with
    | none => exact .nothing t rfl
    | some id => exact alike_readWith parallel t (receiver id h) k
  | assign k i =>
    rw [run, run]
    cases h : this.identity with
    | none => exact .nothing t rfl
    | some id =>
      obtain ⟨outcome, u, u', result, result', twins⟩ :=
        (alike_assignWith parallel t (receiver id h) k (lends.argumentAt i)).split
      simp only [result, result']
      cases outcome <;> exact .nothing twins rfl
  | define k v =>
    rw [run, run]
    cases h : this.identity with
    | none => exact .nothing t rfl
    | some id =>
      have alive : ∀ j ∈ (Slot.plain v).references, w.isAlive j = true :=
        t.sound.alive_kept captured
      obtain ⟨outcome, u, u', result, result', twins⟩ :=
        (alike_defineSlot t ((receiver id h).alive t.sound) k alive).split
      simp only [result, result']
      cases outcome <;> exact .nothing twins rfl
  | call target =>
    exact parallel held w w' target this args t (captured target (by simp [Body.references])) lends
  | double k =>
    rw [run, run]
    cases h : this.identity with
    | none => exact .nothing t rfl
    | some id =>
      obtain ⟨outcome, u, u', result, result', twins⟩ :=
        (alike_readWith parallel t (receiver id h) k).split
      simp only [result, result']
      cases outcome with
      | error e => exact ⟨rfl, twins⟩
      | ok v => exact .nothing twins.release rfl
  | followedBy first second ih_first ih_second =>
    have inside : ∀ id ∈ first.references, Client.Keeps ⟨held, w⟩ id :=
      fun id h => captured id (by simp [Body.references, h])
    have ran := moves_run lawful first t.sound lends inside
    obtain ⟨outcome, u, u', result, result', twins⟩ := (ih_first t lends inside receiver).split
    rw [result] at ran
    rw [run, run, result, result']
    cases outcome with
    | error e => exact ⟨rfl, twins⟩
    | ok v =>
      have le : held ≤ held + (v.references : Multiset ObjectId) := Multiset.le_add_right _ _
      obtain ⟨outcome, x, x', ended, ended', twins'⟩ :=
        (ih_second twins (lends.after ran t.sound le)
          (fun id h => (captured id (by simp [Body.references, h])).after ran t.sound le)
          fun id h => (receiver id h).after ran t.sound le).split
      simp only [ended, ended']
      rw [holding, holding, handed, add_right_comm] at twins'
      exact ⟨rfl, twins'.release⟩

end Bodies

/-- Calls are the same in both hosts however deep they are nested. -/
theorem parallel_invoke (depth : Nat) : Parallel (invoke depth) := by
  induction depth with
  | zero => exact fun held w w' f this args t kept lends => .nothing t rfl
  | succ depth ih =>
    intro held w w' f this args t kept lends
    simp only [invoke, t.lags.function?_eq (kept.alive t.sound)]
    cases found : w.function? f with
    | none => exact .nothing t rfl
    | some function =>
      exact alike_run ih (lawful_invoke depth) function.body t (lends.visible function)
        fun id inside => .captured kept found inside

section Objects

theorem alike_call (t : Twins held w w') {f : ObjectId} {this : Value} {args : List Value}
    (kept : Client.Keeps ⟨held, w⟩ f) (lends : Client.Lends ⟨held, w⟩ this args) :
    Alike (holding held) (w.call f this args) (w'.call f this args) :=
  parallel_invoke maxDepth held w w' f this args t kept lends

theorem alike_read (t : Twins held w w') (kept : Client.Keeps ⟨held, w⟩ id) (k : Key) :
    Alike (holding held) (w.read id k) (w'.read id k) :=
  alike_readWith (parallel_invoke maxDepth) t kept k

theorem alike_assign (t : Twins held w w') (kept : Client.Keeps ⟨held, w⟩ id) (k : Key) {v : Value}
    (kept_value : ∀ j ∈ v.references, Client.Keeps ⟨held, w⟩ j) :
    Alike (fun _ => held) (w.assign id k v) (w'.assign id k v) :=
  alike_assignWith (parallel_invoke maxDepth) t kept k kept_value

theorem twins_isIterable (t : Twins held w w') (kept : Client.Keeps ⟨held, w⟩ id) :
    (w'.isIterable id).1 = (w.isIterable id).1 ∧
      Twins held (w.isIterable id).2 (w'.isIterable id).2 := by
  obtain ⟨outcome, u, u', result, result', twins⟩ := (alike_read t kept (.symbol .iterator)).split
  rw [isIterable, isIterable, result, result']
  cases outcome with
  | error e => exact ⟨rfl, by simpa [holding, handed] using twins⟩
  | ok v =>
    have callable : ∀ j, v.identity = some j → u'.isCallable j = u.isCallable j := fun j h =>
      twins.lags.isCallable_eq (Client.Keeps.alive (.held (Multiset.mem_add.2
        (Or.inr (Value.mem_references.2 (Value.identity_eq_some h))))) twins.sound)
    refine ⟨?_, twins.release⟩
    cases h : v.identity with
    | none => simp only [h, Option.any_none]
    | some j => simpa only [h, Option.any_some] using callable j h

theorem twins_isIterableObject (t : Twins held w w') {v : Value}
    (kept : ∀ id ∈ v.references, Client.Keeps ⟨held, w⟩ id) :
    (w'.isIterableObject v).1 = (w.isIterableObject v).1 ∧
      Twins held (w.isIterableObject v).2 (w'.isIterableObject v).2 := by
  rw [isIterableObject, isIterableObject]
  cases h : v.identity with
  | none => exact ⟨rfl, t⟩
  | some id =>
    have kept_id := kept id (Value.mem_references.2 (Value.identity_eq_some h))
    simp only [t.lags.isCallable_eq (kept_id.alive t.sound)]
    cases w.isCallable id with
    | true => exact ⟨rfl, t⟩
    | false => exact twins_isIterable t kept_id

theorem alike_defineAll (t : Twins held w w') (kept_id : Client.Keeps ⟨held, w⟩ id)
    (specs : List (Key × Spec))
    (kept : ∀ p ∈ specs, ∀ j ∈ p.2.slot.references, Client.Keeps ⟨held, w⟩ j) :
    Alike (fun _ => held) (defineAll id specs w) (defineAll id specs w') := by
  induction specs generalizing w w' with
  | nil => exact .same t _
  | cons p rest ih =>
    have kept_p := kept p List.mem_cons_self
    have defined := moves_defineSlot t.sound id p.1 kept_p
    obtain ⟨outcome, u, u', result, result', twins⟩ :=
      (alike_defineSlot t (kept_id.alive t.sound) p.1 (t.sound.alive_kept kept_p)).split
    rw [result] at defined
    rw [defineAll, defineAll, result, result']
    cases outcome with
    | error e => exact .same twins _
    | ok _ =>
      exact ih twins (kept_id.after defined t.sound le_rfl) fun p' hp j h =>
        (kept p' (List.mem_cons_of_mem p hp) j h).after defined t.sound le_rfl

/-- Plain slots are written one after the other to an object that is held. -/
theorem twins_writeAll (t : Twins held w w') (inside : id ∈ held) (entries : List (Key × Value))
    (kept : ∀ e ∈ entries, ∀ j ∈ e.2.references, j ∈ held) :
    Twins held (entries.foldl (fun w e => w.writeSlot id e.1 (.plain e.2)) w)
      (entries.foldl (fun w e => w.writeSlot id e.1 (.plain e.2)) w') := by
  induction entries generalizing w w' with
  | nil => exact t
  | cons e rest ih =>
    have living : w.isAlive id = true := Client.Keeps.alive (.held inside) t.sound
    have alive : ∀ j ∈ (Slot.plain e.2).references, w.isAlive j = true := fun j h =>
      Client.Keeps.alive (.held (kept e List.mem_cons_self j h)) t.sound
    exact ih (t.writeSlot living e.1 alive) fun e' he => kept e' (List.mem_cons_of_mem e he)

theorem twins_createFrom (t : Twins held w w') (entries : List (Key × Value))
    (kept : ∀ e ∈ entries, ∀ j ∈ e.2.references, j ∈ held) :
    (w'.createFrom entries).1 = (w.createFrom entries).1 ∧
      Twins ((w.createFrom entries).1 ::ₘ held) (w.createFrom entries).2
        (w'.createFrom entries).2 := by
  have captures : ∀ id ∈ (Object.new none).bodyReferences, w.isAlive id = true :=
    fun id h => (List.not_mem_nil h).elim
  obtain ⟨same, made⟩ := t.create captures
  simp only [createFrom, same]
  exact ⟨trivial, twins_writeAll made (Multiset.mem_cons_self _ _) entries fun e he j h =>
    Multiset.mem_cons_of_mem (kept e he j h)⟩

end Objects

end Compound.Host
