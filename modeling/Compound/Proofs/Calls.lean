import Compound.Proofs.Moves

/-!
Calls as runs of moves. Whatever a function does to its receiver, its arguments and the
cells, it does by moves on objects, and in the end it has added to what the client holds
just the references of its result. This is shown of bodies by induction on the body, given
that calls behave so, and of calls by induction on how deep they may be nested.
-/
namespace Compound

/-- The references that come with a result. -/
def handed : Outcome Value → List ObjectId
  | .ok v => v.references
  | .error _ => []

theorem Value.mem_references {v : Value} {id : ObjectId} : id ∈ v.references ↔ v = .object id := by
  rw [references, Option.mem_toList]
  constructor
  · exact identity_eq_some
  · rintro rfl
    rfl

namespace Client

/-- The objects of a receiver and of arguments are kept by the client. -/
structure Lends (c : Client) (this : Value) (args : List Value) : Prop where
  receiver : ∀ id ∈ this.references, c.Keeps id
  arguments : ∀ v ∈ args, ∀ id ∈ v.references, c.Keeps id

namespace Lends

variable {c c' : Client} {this : Value} {args : List Value}

theorem after {allowed : Deed → Prop} (l : c.Lends this args) (m : Moves allowed c c')
    (s : c.Sound) (le : c.held ≤ c'.held) : c'.Lends this args :=
  ⟨fun id h => (l.receiver id h).after m s le,
    fun v hv id h => (l.arguments v hv id h).after m s le⟩

theorem argumentAt (l : c.Lends this args) (i : Nat) :
    ∀ id ∈ (Host.argumentAt args i).references, c.Keeps id := by
  intro id h
  rw [Host.argumentAt, List.getD_eq_getElem?_getD] at h
  cases found : args[i]? with
  | none =>
    rw [found] at h
    cases h
  | some v =>
    rw [found] at h
    exact l.arguments v (List.mem_of_getElem? found) id h

theorem visible (l : c.Lends this args) (f : Function) : c.Lends this (f.visible args) := by
  rw [Function.visible]
  cases f.ignoresArguments with
  | false => exact l
  | true => exact ⟨l.receiver, fun v hv => (List.not_mem_nil hv).elim⟩

end Lends

namespace Sound

variable {held : Multiset ObjectId} {w : Host}

theorem alive_kept (s : Sound ⟨held, w⟩) {ids : List ObjectId}
    (kept : ∀ id ∈ ids, Keeps ⟨held, w⟩ id) : ∀ id ∈ ids, w.isAlive id = true :=
  fun id h => (kept id h).alive s

theorem alive_slot (s : Sound ⟨held, w⟩) {id : ObjectId} {k : Key} {slot : Slot}
    (found : w.slot? id k = some slot) : ∀ j ∈ slot.references, w.isAlive j = true := by
  intro j inside
  obtain ⟨o, living, at_key⟩ := Option.bind_eq_some_iff.1 found
  apply s.accounted.alive_references living
  simp only [Object.references, List.mem_append, List.mem_flatMap]
  exact Or.inl (Or.inr ⟨slot, Table.mem_values _ _ at_key, inside⟩)

theorem alive_cell (s : Sound ⟨held, w⟩) (cell : String) :
    ∀ j ∈ (w.cell cell).references, w.isAlive j = true := by
  intro j inside
  rw [Host.cell] at inside
  cases found : w.cells.get? cell with
  | none =>
    rw [found] at inside
    cases inside
  | some v =>
    rw [found] at inside
    have rooted : j ∈ w.rooted :=
      Multiset.mem_add.2 (Or.inl (Table.mem_gather_of_get? _ _ _ found inside))
    exact s.accounted.alive_outside (Multiset.mem_add.2 (Or.inr rooted))

end Sound

end Client

namespace Host

/-- An object that refuses no definition permits every slot. -/
theorem permits_of_refusal? {w : Host} {id : ObjectId} {k : Key}
    (accepted : w.refusal? id k = none) :
    ∃ o, w.object? id = some o ∧ ∀ s, o.Permits k s := by
  rw [refusal?] at accepted
  cases found : w.slot? id k with
  | some old =>
    obtain ⟨o, living, at_key⟩ := Option.bind_eq_some_iff.1 found
    refine ⟨o, living, fun s => ?_⟩
    rw [Object.Permits, at_key]
    cases h : old.isConfigurable with
    | true => exact Or.inl h
    | false => simp [found, h] at accepted
  | none =>
    cases h : w.isExtensible id with
    | false => simp [found, h] at accepted
    | true =>
      obtain ⟨o, living, extensible⟩ := Option.any_eq_true _ _ |>.1 h
      refine ⟨o, living, fun s => ?_⟩
      rw [slot?_of_found living] at found
      rw [Object.Permits, found]
      exact extensible

/-- Calling touches objects only, and what it adds to the references of the client is the
result. -/
def Lawful (call : Caller) : Prop :=
  ∀ (held : Multiset ObjectId) (w : Host) (f : ObjectId) (this : Value) (args : List Value),
    Client.Sound ⟨held, w⟩ → Client.Keeps ⟨held, w⟩ f → Client.Lends ⟨held, w⟩ this args →
      Moves Deed.plain ⟨held, w⟩
        ⟨held + (handed (call f this args w).1 : Multiset ObjectId), (call f this args w).2⟩

section Bodies

variable {call : Caller} {held : Multiset ObjectId} {w w' : Host}

/-- What hands out nothing leaves the client with what it held. -/
theorem moves_of_nothing {allowed : Deed → Prop} (m : Moves allowed ⟨held, w⟩ ⟨held, w'⟩) :
    Moves allowed ⟨held, w⟩ ⟨held + (([] : List ObjectId) : Multiset ObjectId), w'⟩ := by
  simpa using m

/-- One more reference that is held, as a reference that is handed out. -/
theorem holding_one (held : Multiset ObjectId) (id : ObjectId) :
    id ::ₘ held = held + (([id] : List ObjectId) : Multiset ObjectId) := by
  rw [← Multiset.singleton_add, add_comm]
  rfl

theorem alive_singleton {id : ObjectId} (alive : w.isAlive id = true) :
    ∀ j ∈ [id], w.isAlive j = true := by
  intro j h
  rw [List.mem_singleton.1 h]
  exact alive

theorem moves_retain {ids : List ObjectId} (alive : ∀ id ∈ ids, w.isAlive id = true) :
    Moves Deed.plain ⟨held, w⟩ ⟨held + (ids : Multiset ObjectId), w.retain ids⟩ :=
  .one (.retain alive) rfl

theorem moves_release {ids : List ObjectId} :
    Moves Deed.plain ⟨held + (ids : Multiset ObjectId), w⟩ ⟨held, w.release ids⟩ :=
  .one .release rfl

theorem moves_remark (counters : List Nat) (events : List String) (notices : List Notice) :
    Moves Deed.plain ⟨held, w⟩
      ⟨held, { w with counters := counters, events := events, notices := notices }⟩ :=
  .one (.remark counters events notices) rfl

theorem moves_defineSlot (s : Client.Sound ⟨held, w⟩) (id : ObjectId) (k : Key) {slot : Slot}
    (kept : ∀ j ∈ slot.references, Client.Keeps ⟨held, w⟩ j) :
    Moves Deed.plain ⟨held, w⟩ ⟨held, (w.defineSlot id k slot).2⟩ := by
  rw [defineSlot]
  cases refused : w.refusal? id k with
  | some refusal => exact .refl _
  | none =>
    obtain ⟨o, found, permits⟩ := permits_of_refusal? refused
    exact .one (.write found (permits slot) (s.alive_kept kept)) rfl

/-- A getter is one more object that is held while it runs. -/
theorem moves_runGetter (lawful : Lawful call) (s : Client.Sound ⟨held, w⟩) {getter id : ObjectId}
    (alive : w.isAlive getter = true) (kept : Client.Keeps ⟨held, w⟩ id) :
    Moves Deed.plain ⟨held, w⟩ ⟨held + (handed (runGetter call getter id w).1 : Multiset ObjectId),
      (runGetter call getter id w).2⟩ := by
  have retained : Moves Deed.plain ⟨held, w⟩
      ⟨held + ([getter] : Multiset ObjectId), w.retain [getter]⟩ :=
    moves_retain (alive_singleton alive)
  have kept' : Client.Keeps ⟨held + ([getter] : Multiset ObjectId), w.retain [getter]⟩ id :=
    kept.after retained s (Multiset.le_add_right _ _)
  have called := lawful _ _ getter (.object id) [] (retained.sound s)
    (.held (Multiset.mem_add.2 (Or.inr (List.mem_singleton_self getter))))
    ⟨fun j h => by cases Value.mem_references.1 h; exact kept',
      fun v hv => (List.not_mem_nil hv).elim⟩
  rw [add_right_comm] at called
  exact (retained.trans called).trans moves_release

theorem moves_readWith (lawful : Lawful call) (s : Client.Sound ⟨held, w⟩) {id : ObjectId}
    (kept : Client.Keeps ⟨held, w⟩ id) (k : Key) :
    Moves Deed.plain ⟨held, w⟩ ⟨held + (handed (readWith call id k w).1 : Multiset ObjectId),
      (readWith call id k w).2⟩ := by
  rw [readWith]
  cases found : w.slot? id k with
  | none => exact moves_of_nothing (.refl _)
  | some slot =>
    have alive := s.alive_slot found
    cases slot with
    | data v writable enumerable configurable => exact moves_retain alive
    | accessor get set enumerable configurable =>
      cases get with
      | none => exact moves_of_nothing (.refl _)
      | some getter =>
        exact moves_runGetter lawful s (alive getter (by simp [Slot.references])) kept

theorem moves_runSetter (lawful : Lawful call) (s : Client.Sound ⟨held, w⟩) {setter id : ObjectId}
    (alive : w.isAlive setter = true) (kept : Client.Keeps ⟨held, w⟩ id) {v : Value}
    (kept_value : ∀ j ∈ v.references, Client.Keeps ⟨held, w⟩ j) :
    Moves Deed.plain ⟨held, w⟩ ⟨held, (runSetter call setter id v w).2⟩ := by
  have retained : Moves Deed.plain ⟨held, w⟩
      ⟨held + ([setter] : Multiset ObjectId), w.retain [setter]⟩ :=
    moves_retain (alive_singleton alive)
  have still : ∀ j, Client.Keeps ⟨held, w⟩ j →
      Client.Keeps ⟨held + ([setter] : Multiset ObjectId), w.retain [setter]⟩ j :=
    fun j h => h.after retained s (Multiset.le_add_right _ _)
  have called := retained.trans (lawful _ _ setter (.object id) [v] (retained.sound s)
    (.held (Multiset.mem_add.2 (Or.inr (List.mem_singleton_self setter))))
    ⟨fun j h => by cases Value.mem_references.1 h; exact still id kept,
      fun u hu j h => by cases List.mem_singleton.1 hu; exact still j (kept_value j h)⟩)
  rw [runSetter]
  cases result : call setter (.object id) [v] (w.retain [setter]) with
  | mk outcome w' =>
    rw [result] at called
    cases outcome with
    | error e => exact called.trans (.release rfl (by simp [handed]))
    | ok u =>
      exact called.trans (.release rfl (by simp only [handed, ← Multiset.coe_add]; abel))

theorem moves_assignWith (lawful : Lawful call) (s : Client.Sound ⟨held, w⟩) {id : ObjectId}
    (kept : Client.Keeps ⟨held, w⟩ id) (k : Key) {v : Value}
    (kept_value : ∀ j ∈ v.references, Client.Keeps ⟨held, w⟩ j) :
    Moves Deed.plain ⟨held, w⟩ ⟨held, (assignWith call id k v w).2⟩ := by
  have alive_value := s.alive_kept kept_value
  rw [assignWith]
  cases found : w.slot? id k with
  | none =>
    cases extensible : w.isExtensible id with
    | false => exact .refl _
    | true =>
      have accepted : w.refusal? id k = none := by simp [refusal?, found, extensible]
      obtain ⟨o, living, permits⟩ := permits_of_refusal? accepted
      exact .one (.write living (permits _) alive_value) rfl
  | some slot =>
    obtain ⟨o, living, at_key⟩ := Option.bind_eq_some_iff.1 found
    cases slot with
    | data old writable enumerable configurable =>
      cases writable with
      | false => exact .refl _
      | true =>
        have permitted : o.Permits k (.data v true enumerable configurable) := by
          rw [Object.Permits, at_key]
          exact Or.inr ⟨old, v, enumerable, configurable, rfl, rfl⟩
        exact .one (.write living permitted alive_value) rfl
    | accessor get set enumerable configurable =>
      cases set with
      | none => exact .refl _
      | some setter =>
        exact moves_runSetter lawful s (s.alive_slot found setter (by simp [Slot.references])) kept
          kept_value

/-- Running a body is a run of moves if calling is. The second part of a sequence starts
where the first one ended, and holds its result. -/
theorem moves_run (lawful : Lawful call) {this : Value} {args : List Value} (body : Body)
    (s : Client.Sound ⟨held, w⟩) (lends : Client.Lends ⟨held, w⟩ this args)
    (captured : ∀ id ∈ body.references, Client.Keeps ⟨held, w⟩ id) :
    Moves Deed.plain ⟨held, w⟩ ⟨held + (handed (run call this args body w).1 : Multiset ObjectId),
      (run call this args body w).2⟩ := by
  have receiver : ∀ id, this.identity = some id → Client.Keeps ⟨held, w⟩ id :=
    fun id h => lends.receiver id (Value.mem_references.2 (Value.identity_eq_some h))
  induction body generalizing held w with
  | receiver => exact moves_retain (s.alive_kept lends.receiver)
  | argumentCount | equalsReceiver | fail message => exact moves_of_nothing (.refl _)
  | count counter => exact moves_of_nothing (moves_remark _ _ _)
  | note event => exact moves_of_nothing (moves_remark _ _ _)
  | freeze =>
    rw [run]
    cases h : this.identity with
    | none => exact moves_of_nothing (.refl _)
    | some id => exact moves_of_nothing (.one .freeze rfl)
  | create =>
    have made : Moves Deed.plain ⟨held, w⟩ ⟨(w.create none).1 ::ₘ held, (w.create none).2⟩ :=
      .one (.create fun j h => (List.not_mem_nil h).elim) rfl
    rw [holding_one] at made
    exact made
  | give v => exact moves_retain (s.alive_kept captured)
  | argument i => exact moves_retain (s.alive_kept (lends.argumentAt i))
  | load cell => exact moves_retain (s.alive_cell cell)
  | store cell => exact moves_of_nothing (.one (.store (s.alive_kept (lends.argumentAt 0))) rfl)
  | read k =>
    rw [run]
    cases h : this.identity with
    | none => exact moves_of_nothing (.refl _)
    | some id => exact moves_readWith lawful s (receiver id h) k
  | assign k i =>
    rw [run]
    cases h : this.identity with
    | none => exact moves_of_nothing (.refl _)
    | some id =>
      have assigned := moves_assignWith lawful s (receiver id h) k (lends.argumentAt i)
      simp only
      cases (assignWith call id k (argumentAt args i) w).1 <;> exact moves_of_nothing assigned
  | define k v =>
    rw [run]
    cases h : this.identity with
    | none => exact moves_of_nothing (.refl _)
    | some id =>
      have defined : Moves Deed.plain ⟨held, w⟩ ⟨held, (w.defineSlot id k (.plain v)).2⟩ :=
        moves_defineSlot s id k captured
      simp only
      cases (w.defineSlot id k (.plain v)).1 <;> exact moves_of_nothing defined
  | call target =>
    exact lawful held w target this args s (captured target (by simp [Body.references])) lends
  | double k =>
    rw [run]
    cases h : this.identity with
    | none => exact moves_of_nothing (.refl _)
    | some id =>
      have read := moves_readWith lawful s (receiver id h) k
      simp only
      cases result : readWith call id k w with
      | mk outcome w' =>
        rw [result] at read
        cases outcome with
        | error e => exact read
        | ok v => exact moves_of_nothing (read.trans moves_release)
  | followedBy first second ih_first ih_second =>
    have ran := ih_first s lends (fun id h => captured id (by simp [Body.references, h])) receiver
    rw [run]
    cases result : run call this args first w with
    | mk outcome w' =>
      rw [result] at ran
      cases outcome with
      | error e => exact ran
      | ok v =>
        have le : held ≤ held + (v.references : Multiset ObjectId) := Multiset.le_add_right _ _
        have ran' := ih_second (ran.sound s) (lends.after ran s le)
          (fun id h => (captured id (by simp [Body.references, h])).after ran s le)
          fun id h => (receiver id h).after ran s le
        have both := ran.trans ran'
        simp only [handed] at both ⊢
        rw [add_right_comm] at both
        exact both.trans moves_release

end Bodies

/-- Calls keep to their law however deep they are nested: a function that the client keeps
has captured only what the client keeps. -/
theorem lawful_invoke (depth : Nat) : Lawful (invoke depth) := by
  induction depth with
  | zero => exact fun held w f this args s kept lends => moves_of_nothing (.refl _)
  | succ depth ih =>
    intro held w f this args s kept lends
    simp only [invoke]
    cases found : w.function? f with
    | none => exact moves_of_nothing (.refl _)
    | some function =>
      exact moves_run ih function.body s (lends.visible function) fun id inside =>
        .captured kept found inside

end Host

end Compound
