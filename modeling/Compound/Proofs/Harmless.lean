import Compound.Proofs.Ledger
import Compound.Proofs.Rulings

/-!
Registrations that harm nobody, in every session that a script can reach. A pair that joins may have
to push out the pair of a dead box, and the registry lets go the value of that one. But it is the
very value that is joined, to which somebody refers and to which the new pair refers already, so
nobody dies of it. As long as nothing is reclaimed, no object dies from the beginning of a request
for a box to its end, and no finalizer runs.
-/
namespace Compound

/-- Nobody has died from one host to the other, neither of the old objects nor of the new ones, and
neither the log nor any queue has heard of a death. -/
structure Host.Unharmed (w w' : Host) : Prop where
  spared : ∀ id, w.isAlive id = true → w'.isAlive id = true
  newborn : ∀ id, w.heap.next ≤ id → id < w'.heap.next → w'.isAlive id = true
  events : w'.events = w.events
  queues : ∀ q, w'.queue q = w.queue q

namespace Host.Unharmed

variable {w w' w'' : Host}

/-- Nothing is made, and the same objects are alive. -/
theorem still (alive : ∀ id, w'.isAlive id = w.isAlive id) (next : w'.heap.next = w.heap.next)
    (events : w'.events = w.events) (queues : ∀ q, w'.queue q = w.queue q) : w.Unharmed w' := by
  refine ⟨fun id lives => (alive id).trans lives, fun id le lt => ?_, events, queues⟩
  rw [next] at lt
  exact absurd lt (Nat.not_lt.2 le)

theorem refl (w : Host) : w.Unharmed w := .still (fun _ => rfl) rfl rfl fun _ => rfl

theorem trans (u : w.Unharmed w') (u' : w'.Unharmed w'') : w.Unharmed w'' where
  spared id lives := u'.spared id (u.spared id lives)
  newborn id le lt := by
    by_cases early : id < w'.heap.next
    · exact u'.spared id (u.newborn id le early)
    · exact u'.newborn id (Nat.not_lt.1 early) lt
  events := u'.events.trans u.events
  queues q := (u'.queues q).trans (u.queues q)

theorem tell (w : Host) (n : Notice) : w.Unharmed (w.tell n) :=
  .still (fun _ => rfl) rfl rfl fun _ => rfl

theorem retain (w : Host) (ids : List ObjectId) : w.Unharmed (w.retain ids) :=
  .still (w.heap.isAlive_retain ids) (w.heap.next_retain ids) rfl fun _ => rfl

theorem watch (w : Host) (r : RegistryId) (id : ObjectId) : w.Unharmed (w.watch r id) :=
  .still (w.heap.isAlive_modify id _) rfl rfl fun _ => rfl

/-- The entries of a registry may change, if the queue does not. -/
theorem modifyRegistry (w : Host) (r : RegistryId) {f : Registry → Registry}
    (queue : ∀ reg, (f reg).queue = reg.queue) : w.Unharmed (w.modifyRegistry r f) := by
  refine .still (fun _ => rfl) rfl rfl fun q => ?_
  by_cases same : q = r
  · subst same
    rw [Host.queue, Host.queue, registry?_modifyRegistry_same]
    cases w.registry? q with
    | none => rfl
    | some reg => exact queue reg
  · rw [Host.queue, Host.queue, registry?_modifyRegistry_other w f same]

theorem withBox (w : Host) : w.Unharmed w.withBox := by
  have made : w.withBox.isAlive w.heap.next = true :=
    (Heap.isAlive_modify _ _ Object.freeze _).trans
      (congrArg Option.isSome (Heap.get?_create_same w.heap (.new none)))
  refine ⟨fun id lives => ?_, fun id le lt => ?_, rfl, fun _ => rfl⟩
  · by_cases new : id = w.heap.next
    · exact new ▸ made
    · refine (Heap.isAlive_modify _ _ Object.freeze id).trans ?_
      exact (congrArg Option.isSome (Heap.get?_create_other w.heap (.new none) new)).trans lives
  · exact Nat.le_antisymm (Nat.lt_succ_iff.1 lt) le ▸ made

end Host.Unharmed

namespace History

variable {c c' : Client} {l : List Doing}

/-- Nobody dies of any deed of the history, and no finalizer runs in any. -/
def Harmless (l : List Doing) : Prop :=
  ∀ x ∈ l, (∀ id, x.before.host.isAlive id = true → x.after.host.isAlive id = true) ∧
    ∀ id, x.course.runs id = []

theorem evolves (h : History c l c') : c.host.heap.Evolves c'.host.heap ∧
    ∀ x ∈ l, c.host.heap.Evolves x.before.host.heap := by
  induction h with
  | start => exact ⟨.refl _, fun x inside => (List.not_mem_nil inside).elim⟩
  | @next c' c'' past d before m ih =>
    refine ⟨ih.1.trans m.evolves, fun x inside => ?_⟩
    rcases List.mem_append.1 inside with earlier | last
    · exact ih.2 x earlier
    · rw [List.mem_singleton.1 last]
      exact ih.1

/-- Whoever dies in a history is dead at its end. So if nobody is, nobody has died on the way. -/
theorem harmless (h : History c l c') (s : c.Sound) (u : c.host.Unharmed c'.host) :
    Harmless l := by
  intro x inside
  obtain ⟨sound, move, later⟩ := (h.inside s).2 x inside
  have survives : ∀ id, x.before.host.isAlive id = true → x.after.host.isAlive id = true := by
    intro id lives
    obtain ⟨o, found⟩ := (Heap.isAlive_iff _ id).1 lives
    have lt := Nat.lt_of_lt_of_le (sound.accounted.bounded id o found) move.evolves.next_le
    have lasts : c'.host.isAlive id = true := by
      by_cases old : id < c.host.heap.next
      · exact u.spared id (((h.evolves).2 x inside).alive old lives)
      · exact u.newborn id (Nat.not_lt.1 old) (Nat.lt_of_lt_of_le lt later.next_le)
    exact later.alive lt lasts
  refine ⟨survives, fun id => move.silent sound ?_⟩
  cases lives : x.before.host.isAlive id with
  | true => exact Or.inl (survives id lives)
  | false => exact Or.inr rfl

end History

/-- Whatever leads from one client to the other harms nobody, neither at its end nor on the way
there, and something does lead there. -/
structure Client.Harmless (c c' : Client) : Prop where
  unharmed : c.host.Unharmed c'.host
  reached : ∃ l, History c l c'
  harmless : ∀ l, History c l c' → History.Harmless l

theorem Moves.harmless {allowed : Deed → Prop} {c c' : Client} (m : Moves allowed c c')
    (s : c.Sound) (u : c.host.Unharmed c'.host) : c.Harmless c' :=
  ⟨u, m.history, fun _ history => history.harmless s u⟩

namespace Host

variable {held : Multiset ObjectId} {w : Host} {r : RegistryId} {reg : Registry}
  {box value : ObjectId} {v : Value}

/-- A registry that has nothing to reclaim, or does not, is left as it is. -/
theorem autoReclaim_of_idle (found : w.registry? r = some reg)
    (idle : reg.config.autoReclaim = false ∨ reg.queue = []) : w.autoReclaim r = w := by
  rw [autoReclaim_of_found found]
  rcases idle with off | empty
  · rw [off, if_neg Bool.false_ne_true]
  · rw [reclaim_of_empty found empty, ite_self]

theorem unharmed_join (s : Client.Sound ⟨held, w⟩) (found : w.registry? r = some reg)
    {pairs : Pairing} {released : Option ObjectId}
    (fresh : reg.pairing.judge w.isAlive box value = .ok (.fresh pairs released))
    (alive : w.isAlive value = true) : w.Unharmed (w.join r box value pairs released) := by
  have loan := (s.attended r reg found).mirrored.released_eq fresh
  obtain ⟨ids, joined⟩ := join_eq s r box pairs loan alive
  have entered : w.Unharmed (w.modifyRegistry r fun reg =>
      { reg with pairing := pairs.insert box value }) := .modifyRegistry w r fun _ => rfl
  rw [joined]
  exact (entered.trans (.retain _ ids)).trans (.watch _ r box)

theorem unharmed_joinIfFresh (s : Client.Sound ⟨held, w⟩) (found : w.registry? r = some reg)
    (box : ObjectId) (alive : w.isAlive value = true) :
    w.Unharmed (w.joinIfFresh r box value).2 := by
  rw [joinIfFresh, pairing_of_found found]
  cases judged : reg.pairing.judge w.isAlive box value with
  | error e => exact .refl w
  | ok verdict =>
    cases verdict with
    | known => exact .refl w
    | fresh pairs released => exact unharmed_join s found judged alive

theorem unharmed_pair (s : Client.Sound ⟨held, w⟩) (found : w.registry? r = some reg)
    (still : w.autoReclaim r = w) (box : ObjectId)
    (alive : ∀ id ∈ v.references, w.isAlive id = true) : w.Unharmed (w.pair r box v).2 := by
  rw [pair, still]
  cases identity : v.identity with
  | none => exact .refl w
  | some value =>
    by_cases itself : value = box
    · simp only [if_pos itself]
      exact .refl w
    · have joined := unharmed_joinIfFresh s found box
        (alive value (Value.mem_references.2 (Value.identity_eq_some identity)))
      simp only [if_neg itself]
      cases result : w.joinIfFresh r box value with
      | mk outcome w' =>
        rw [result] at joined
        cases outcome with
        | error e => exact joined
        | ok fresh =>
          cases fresh with
          | false => exact joined
          | true => exact joined.trans (.tell w' _)

theorem unharmed_boxFor (s : Client.Sound ⟨held, w⟩) (found : w.registry? r = some reg)
    (still : w.autoReclaim r = w) (alive : ∀ id ∈ v.references, w.isAlive id = true) :
    w.Unharmed (w.boxFor r v).2 := by
  cases identity : v.identity with
  | none =>
    simp only [boxFor, still, identity]
    exact .refl w
  | some value =>
    cases Value.identity_eq_some identity
    cases known : w.boxOf? r (.object value) with
    | some box =>
      simp only [boxFor, still, Value.identity_object, known]
      exact .retain w [box]
    | none =>
      have s' := moves_withBox.sound s
      have lives := (Unharmed.withBox w).spared value (alive value (Value.mem_references.2 rfl))
      obtain ⟨pairs, released, fresh⟩ := judge_withBox s found known
      have made := @boxFor_fresh w r value reg
      rw [still] at made
      rw [made found known fresh]
      have found' : w.withBox.registry? r = some reg := found
      exact ((Unharmed.withBox w).trans (unharmed_join s' found' fresh lives)).trans (.tell _ _)

end Host

namespace Session

variable {s : Session} {term : ValueTerm} {r : RegistryId} {reg : Registry} {v : Value}

/-- In every session that a script reaches, no object dies of a request to pair a box with a value,
or to have a box for a value, and no finalizer runs, whether the request is granted or not. The
caller has handles on the box and on the value, and the registry has nothing to reclaim first, or
does not. -/
theorem registration_harmless (reach : s.Reachable) (found : s.host.registry? r = some reg)
    (idle : reg.config.autoReclaim = false ∨ reg.queue = []) (found_v : s.value term = .ok v) :
    (∀ h box, s.handle h = .ok box →
      s.client.Harmless ⟨s.handles.values, (s.host.pair r box v).2⟩) ∧
    s.client.Harmless ⟨s.handles.values + (handed ((s.host.boxFor r v).1.map .object) :
      Multiset ObjectId), (s.host.boxFor r v).2⟩ := by
  have sound := reach.sound.client
  have still := Host.autoReclaim_of_idle found idle
  have kept : ∀ id ∈ v.references, s.client.Keeps id := fun id inside =>
    .held (holds_value found_v id inside)
  have alive : ∀ id ∈ v.references, s.host.isAlive id = true := fun id inside =>
    (kept id inside).alive sound
  refine ⟨fun h box found_h => ?_, ?_⟩
  · have moves : Moves (fun _ => True) s.client ⟨s.handles.values, (s.host.pair r box v).2⟩ :=
      Host.moves_pair (fun _ _ => trivial) trivial (fun _ _ => trivial) sound ⟨reg, found⟩
        (mem_handles found_h) kept
    exact moves.harmless sound (Host.unharmed_pair sound found still box alive)
  · have moves : Moves (fun _ => True) s.client _ :=
      Host.moves_boxFor (fun _ _ => trivial) trivial (fun _ _ _ => trivial) sound ⟨reg, found⟩ kept
    exact moves.harmless sound (Host.unharmed_boxFor sound found still alive)

/-- The box of a value is dead and has not been reclaimed. Another box takes its place, or a new
one, and the entry of the dead box goes with its reference to the value, which has a finalizer. -/
theorem registration_harmless_replacing :
    let s := (start (some false)).run [.create (some "a"), .create (some "v"), .create (some "b"),
      .onDrop "gone" none "v", .pair "r" "a" (.handle "v"), .drop "a"]
    let paired := (s.host.pair 0 3 (.object 2)).2
    let boxed := (s.host.boxFor 0 (.object 2)).2
    (s.host.pairing 0).values.get? 1 = some 2 ∧ s.host.isAlive 1 = false ∧ s.host.queue 0 = [1] ∧
      (paired.pairing 0).values.keys = [3] ∧ (boxed.pairing 0).values.keys = [4] ∧
      s.host.Unharmed paired ∧ s.host.Unharmed boxed ∧
      ∃ l, History s.client l ⟨s.handles.values, paired⟩ ∧ History.Harmless l := by
  intro s paired boxed
  have reach : s.Reachable := ⟨_, _, rfl⟩
  obtain ⟨reg, found, off⟩ := (Option.any_eq_true _ _).1
    (by decide +kernel : (s.host.registry? 0).any (fun reg => !reg.config.autoReclaim) = true)
  have found_v : s.value (.handle "v") = .ok (.object 2) := by decide +kernel
  have found_b : s.handle "b" = .ok 3 := by decide +kernel
  obtain ⟨pairs, boxes⟩ := registration_harmless reach found (.inl (by simpa using off)) found_v
  obtain ⟨unharmed, ⟨l, history⟩, harmless⟩ := pairs "b" 3 found_b
  exact ⟨by decide +kernel, by decide +kernel, by decide +kernel, by decide +kernel,
    by decide +kernel, unharmed, boxes.unharmed, l, history, harmless l history⟩

end Session

end Compound
