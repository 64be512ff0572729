import Compound.Proofs.Loans
import Compound.Proofs.Traces

/-!
What pairing a box with a value comes to, in every session that a script can reach. The value is
judged before the box and the box before the value's other boxes, so each request has one ruling.
Only a new pair changes anything: it joins the pairs that there are, in the place of a pair whose
box has died, and it has the box watched once more.
-/
namespace Compound

/-- The value that a join lets go is that of the pair in the way, if there is one. -/
theorem Pairing.Mirrored.released_eq {p pairs : Pairing} {alive : ObjectId → Bool}
    {box value : ObjectId} {released : Option ObjectId} (m : p.Mirrored)
    (fresh : p.judge alive box value = .ok (.fresh pairs released)) :
    released.toList ⊆ [value] := by
  have free := (m.admits fresh).free
  cases single : p.boxes.get? value with
  | none =>
    simp only [judge, free, single, Except.ok.injEq, Verdict.fresh.injEq] at fresh
    rw [← fresh.2]
    exact List.nil_subset _
  | some previous =>
    have removed := m.remove_of_some ((m.inverse previous value).2 single)
    simp only [judge, free, single] at fresh
    split at fresh
    · cases fresh
    · rw [removed] at fresh
      cases fresh
      exact List.Subset.refl _

namespace Host

variable {held : Multiset ObjectId} {w w' : Host} {r : RegistryId} {box value : ObjectId}

/-- From one host to the other a pair has joined those of a registry. A pair of the same value has
made way, whose box was dead. The box has one watch more, and no other finalizer, no tag, no queue
and no other registry has changed. -/
structure Joins (w w' : Host) (r : RegistryId) (box value : ObjectId) : Prop where
  pairs : ∀ b v, (w'.pairing r).values.get? b = some v ↔
    (b = box ∧ v = value) ∨ ((w.pairing r).values.get? b = some v ∧ v ≠ value)
  mirrored : ∀ b v, (w'.pairing r).boxes.get? v = some b ↔
    (w'.pairing r).values.get? b = some v
  replaced : ∀ b, (w.pairing r).values.get? b = some value → w.isAlive b = false
  registries : ∀ q, w'.registry? q = (w.registry? q).map fun reg =>
    if q = r then { reg with pairing := w'.pairing r } else reg
  finalizers : ∀ id, (w'.object? id).map Object.finalizers =
    (w.object? id).map fun o => o.finalizers ++ watchOn id (some (r, box))

/-- A join leaves no more than its pair, a reference to the value or none, and a watch on the
box. -/
theorem join_eq (s : Client.Sound ⟨held, w⟩) (r : RegistryId) (box : ObjectId) (pairs : Pairing)
    {released : Option ObjectId} (loan : released.toList ⊆ [value])
    (alive : w.isAlive value = true) :
    ∃ ids, w.join r box value pairs released =
      ((w.modifyRegistry r fun reg => { reg with pairing := pairs.insert box value }).retain
        ids).watch r box := by
  cases released with
  | none =>
    refine ⟨[value], ?_⟩
    rw [join, Option.toList_none, release_nil]
    rfl
  | some u =>
    have same : u = value := List.mem_singleton.1 (loan List.mem_cons_self)
    subst same
    refine ⟨[], ?_⟩
    have back := release_retain
      (w := w.modifyRegistry r fun reg => { reg with pairing := pairs.insert box u })
      s.accounted (alive_singleton alive)
    exact congrArg (fun w => watch w r box) back

theorem finalizers_watch (w : Host) (ids : List ObjectId) (r : RegistryId) (box id : ObjectId) :
    (((w.retain ids).watch r box).object? id).map Object.finalizers =
      (w.object? id).map fun o => o.finalizers ++ watchOn id (some (r, box)) := by
  have lent : (w.retain ids).object? id =
      (w.object? id).map fun o => { o with refs := o.refs + ids.count id } :=
    Heap.get?_retain w.heap ids id
  by_cases same : id = box
  · subst same
    have watched : ((w.retain ids).watch r id).object? id = ((w.retain ids).object? id).map
        fun o => { o with finalizers := o.finalizers ++ [.watch r] } :=
      Heap.get?_modify_same _ _ _
    rw [watched, lent, watchOn_same]
    cases w.object? id <;> rfl
  · have other : ((w.retain ids).watch r box).object? id = (w.retain ids).object? id :=
      Heap.get?_modify_other _ _ same
    have unwatched : watchOn id (some (r, box)) = [] := watchOn_other fun q h => by
      cases h
      exact same rfl
    rw [other, lent, unwatched]
    cases w.object? id <;> simp

theorem joins_join (s : Client.Sound ⟨held, w⟩) {reg : Registry} (found : w.registry? r = some reg)
    {pairs : Pairing} {released : Option ObjectId}
    (fresh : reg.pairing.judge w.isAlive box value = .ok (.fresh pairs released))
    (ne : value ≠ box) (alive : w.isAlive value = true) :
    w.Joins (w.join r box value pairs released) r box value := by
  have mirrored := (s.attended r reg found).mirrored
  have admits := mirrored.admits fresh
  have before : w.pairing r = reg.pairing := pairing_of_found found
  obtain ⟨ids, joined⟩ := join_eq s r box pairs (mirrored.released_eq fresh) alive
  have registries : ∀ q, Host.registry? (w.join r box value pairs released) q =
      (w.registry? q).map fun reg =>
        if q = r then { reg with pairing := pairs.insert box value } else reg := by
    intro q
    rw [joined]
    by_cases same : q = r
    · subst same
      rw [funext fun reg => if_pos rfl]
      exact registry?_modifyRegistry_same w q _
    · rw [funext fun reg => if_neg same, Option.map_id']
      exact registry?_modifyRegistry_other w _ same
  have after : (w.join r box value pairs released).pairing r = pairs.insert box value := by
    have entered := registries r
    rw [found, Option.map_some, if_pos rfl] at entered
    exact pairing_of_found entered
  constructor
  · intro b v
    rw [after, before, Pairing.insert]
    by_cases same : b = box
    · subst same
      rw [Table.get?_put_same, admits.free]
      simp [eq_comm]
    · rw [Table.get?_put_other _ _ same, admits.others]
      simp [same]
  · intro b v
    rw [after]
    exact ((admits.mirrored.insert admits.still_free admits.single ne).inverse b v).symm
  · rw [before]
    exact admits.orphan
  · rw [after]
    exact registries
  · intro id
    rw [joined]
    exact finalizers_watch _ ids r box id

/-- The rules on a request to pair a box with a value, each with what it asks for, the outcome and
the host afterwards. -/
inductive Ruling (w : Host) (r : RegistryId) (box : ObjectId) : Value → Outcome Unit → Host → Prop
  | noIdentity {v : Value} (without : v.identity = none) :
      Ruling w r box v (.error (.unpairable .noIdentity)) w
  | itself : Ruling w r box (.object box) (.error (.unpairable .itself)) w
  | known {value : ObjectId} (ne : value ≠ box)
      (paired : (w.pairing r).values.get? box = some value) :
      Ruling w r box (.object value) (.ok ()) w
  | boxTaken {value u : ObjectId} (ne : value ≠ box)
      (paired : (w.pairing r).values.get? box = some u) (other : u ≠ value) :
      Ruling w r box (.object value) (.error (.unpairable .boxTaken)) w
  | valueTaken {value b : ObjectId} (ne : value ≠ box)
      (free : (w.pairing r).values.get? box = none)
      (paired : (w.pairing r).values.get? b = some value) (alive : w.isAlive b = true) :
      Ruling w r box (.object value) (.error (.unpairable .valueTaken)) w
  | joined {value : ObjectId} {w' : Host} (ne : value ≠ box)
      (free : (w.pairing r).values.get? box = none)
      (orphan : ∀ b, (w.pairing r).values.get? b = some value → w.isAlive b = false)
      (joins : w.Joins w' r box value) : Ruling w r box (.object value) (.ok ()) w'

/-- A box that is registered is judged by its value, whatever other box that has. -/
theorem ruling_of_boxed {u : ObjectId} (ne : value ≠ box)
    (paired : ((w.autoReclaim r).pairing r).values.get? box = some u) :
    (w.autoReclaim r).Ruling r box (.object value) (w.pair r box (.object value)).1
      (w.pair r box (.object value)).2 := by
  by_cases same : u = value
  · subst same
    have known : w.pair r box (.object u) = (.ok (), w.autoReclaim r) := by
      simp [pair, ne, joinIfFresh, Pairing.judge_same paired]
    rw [known]
    exact .known ne paired
  · have taken : w.pair r box (.object value) =
        (.error (.unpairable .boxTaken), w.autoReclaim r) := by
      simp [pair, ne, joinIfFresh, Pairing.judge_taken paired same]
    rw [taken]
    exact .boxTaken ne paired same

/-- A box that is free is refused for the sake of a living box of the value. -/
theorem ruling_of_living {b : ObjectId} (s : Client.Sound ⟨held, w.autoReclaim r⟩)
    (ne : value ≠ box) (free : ((w.autoReclaim r).pairing r).values.get? box = none)
    (paired : ((w.autoReclaim r).pairing r).values.get? b = some value)
    (alive : (w.autoReclaim r).isAlive b = true) :
    (w.autoReclaim r).Ruling r box (.object value) (w.pair r box (.object value)).1
      (w.pair r box (.object value)).2 := by
  have other : box ≠ b := by
    rintro rfl
    rw [free] at paired
    cases paired
  have unboxed : ((w.autoReclaim r).pairing r).hasBox box = false := by
    simp [Pairing.hasBox, Table.contains, free]
  have taken : w.pair r box (.object value) =
      (.error (.unpairable .valueTaken), w.autoReclaim r) := by
    simp [pair, ne, joinIfFresh, (s.mirrored r).judge_other paired alive other, unboxed]
  rw [taken]
  exact .valueTaken ne free paired alive

/-- A box that is free is accepted if the value has no living box. -/
theorem ruling_of_free (s : Client.Sound ⟨held, w.autoReclaim r⟩) (ne : value ≠ box)
    {reg : Registry} (found : Host.registry? (w.autoReclaim r) r = some reg)
    (free : ((w.autoReclaim r).pairing r).values.get? box = none)
    (orphan : ∀ b, ((w.autoReclaim r).pairing r).values.get? b = some value →
      (w.autoReclaim r).isAlive b = false)
    (alive : (w.autoReclaim r).isAlive value = true) :
    (w.autoReclaim r).Ruling r box (.object value) (w.pair r box (.object value)).1
      (w.pair r box (.object value)).2 := by
  have pairing := pairing_of_found found
  have lonely : reg.pairing.livingBox? (w.autoReclaim r).isAlive value = none := by
    cases living : reg.pairing.livingBox? (w.autoReclaim r).isAlive value with
    | none => rfl
    | some b =>
      obtain ⟨paired, lives⟩ := (s.attended r reg found).mirrored.livingBox_iff.1 living
      rw [orphan b (pairing ▸ paired)] at lives
      cases lives
  obtain ⟨pairs, released, fresh⟩ := Pairing.judge_fresh (pairing ▸ free) lonely
  have joins := joins_join s found fresh ne alive
  have accepted : w.pair r box (.object value) =
      (.ok (), ((w.autoReclaim r).join r box value pairs released).tell (.registered box)) := by
    simp only [pair, Value.identity_object, if_neg ne, joinIfFresh, pairing, fresh]
  rw [accepted]
  exact .joined ne free orphan
    ⟨joins.pairs, joins.mirrored, joins.replaced, joins.registries, joins.finalizers⟩

/-- Every request to pair falls under one of the rules. -/
theorem ruling_pair (s : Client.Sound ⟨held, w.autoReclaim r⟩) {reg : Registry}
    (found : Host.registry? (w.autoReclaim r) r = some reg) (box : ObjectId) {v : Value}
    (alive : ∀ id ∈ v.references, (w.autoReclaim r).isAlive id = true) :
    (w.autoReclaim r).Ruling r box v (w.pair r box v).1 (w.pair r box v).2 := by
  cases identity : v.identity with
  | none =>
    have refused : w.pair r box v = (.error (.unpairable .noIdentity), w.autoReclaim r) := by
      simp only [pair, identity]
    rw [refused]
    exact .noIdentity identity
  | some value =>
    cases Value.identity_eq_some identity
    by_cases itself : value = box
    · subst itself
      have refused : w.pair r value (.object value) =
          (.error (.unpairable .itself), w.autoReclaim r) := by simp [pair]
      rw [refused]
      exact .itself
    · cases free : ((w.autoReclaim r).pairing r).values.get? box with
      | some u => exact ruling_of_boxed itself free
      | none =>
        by_cases orphan : ∀ b, ((w.autoReclaim r).pairing r).values.get? b = some value →
            (w.autoReclaim r).isAlive b = false
        · exact ruling_of_free s itself found free orphan
            (alive value (Value.mem_references.2 rfl))
        · obtain ⟨b, living⟩ := not_forall.1 orphan
          obtain ⟨paired, lives⟩ := Classical.not_imp.1 living
          exact ruling_of_living s itself free paired (by simpa using lives)

end Host

namespace Session

variable {s : Session} {name h : String} {term : ValueTerm} {r : RegistryId} {box : ObjectId}
  {v : Value}

/-- The reply to a request to pair, and the session after it, once its names are found. -/
theorem answer_pair (found : s.target name h = .ok (r, box)) (found_v : s.value term = .ok v) :
    (s.answer (.pair name h term)).1.result =
        ((s.host.quiet.pair r box v).1.map fun _ => Reply.nothing).mapError Fault.failure ∧
      (s.answer (.pair name h term)).2 = { s with host := (s.host.quiet.pair r box v).2 } := by
  have found' : target { s with host := s.host.quiet } name h = .ok (r, box) := found
  have found_v' : value { s with host := s.host.quiet } term = .ok v := found_v
  rw [answer_result, answer_session, step_pair found' found_v', acting_done]
  exact ⟨rfl, rfl⟩

/-- A rule on the request applies to it in every session that a script reaches. -/
theorem ruling_answer (reach : s.Reachable) (found : s.target name h = .ok (r, box))
    (found_v : s.value term = .ok v) :
    (s.host.quiet.autoReclaim r).Ruling r box v (s.host.quiet.pair r box v).1
      (s.host.quiet.pair r box v).2 := by
  have quiet : Session.Sound { s with host := s.host.quiet } := sound_quiet reach.sound
  have drained : Moves (· = .drain r) ⟨s.handles.values, s.host.quiet⟩
      ⟨s.handles.values, s.host.quiet.autoReclaim r⟩ := Host.moves_autoReclaim rfl
  obtain ⟨reg, opened⟩ := Host.found_autoReclaim quiet.client
    (quiet.open_registry (target_eq_ok.1 found).1)
  refine Host.ruling_pair (drained.sound quiet.client) opened box fun id inside => ?_
  have kept : Client.Keeps ⟨s.handles.values, s.host.quiet⟩ id :=
    .held (holds_value found_v id inside)
  exact (kept.after drained quiet.client le_rfl).alive (drained.sound quiet.client)

/-- In every session that a script reaches, the ruling on a request to pair, once the registry has
reclaimed if it should. A value without an identity is refused, and then the box as its own value.
A box that is registered is confirmed for its value and refused for every other, whatever boxes that
has. A free box is refused exactly if the value has a living box, and else the pair joins those that
there are. In all other cases the session is left as it was. -/
theorem pair_decides (reach : s.Reachable) (found : s.target name h = .ok (r, box))
    (found_v : s.value term = .ok v) :
    let w := s.host.quiet.autoReclaim r
    let ruling := (s.answer (.pair name h term)).1.result
    let after := (s.answer (.pair name h term)).2
    (ruling = .error (.failure (.unpairable .noIdentity)) ↔ v.identity = none) ∧
    (ruling = .error (.failure (.unpairable .itself)) ↔ v = .object box) ∧
    (∀ value u, v = .object value → value ≠ box → (w.pairing r).values.get? box = some u →
      (ruling = .ok .nothing ↔ u = value) ∧
      (ruling = .error (.failure (.unpairable .boxTaken)) ↔ u ≠ value)) ∧
    (∀ value, v = .object value → value ≠ box → (w.pairing r).values.get? box = none →
      (ruling = .error (.failure (.unpairable .valueTaken)) ↔
        ∃ b, (w.pairing r).values.get? b = some value ∧ w.isAlive b = true) ∧
      ((∀ b, (w.pairing r).values.get? b = some value → w.isAlive b = false) →
        ruling = .ok .nothing ∧ w.Joins after.host r box value)) ∧
    (ruling ≠ .ok .nothing ∨ (w.pairing r).values.get? box ≠ none → after.host = w) ∧
    after = { s with host := after.host } := by
  intro w ruling after
  obtain ⟨replied, left⟩ := answer_pair found found_v
  have rule : w.Ruling r box v _ _ := ruling_answer reach found found_v
  have stays : after = { s with host := after.host } := by
    simp only [after, left]
  have host : after.host = (s.host.quiet.pair r box v).2 := congrArg Session.host left
  -- The reply and the host are the two parts of one ruling, so the cases are those of the rule.
  generalize s.host.quiet.pair r box v = p at rule replied host
  obtain ⟨outcome, w'⟩ := p
  change ruling = _ at replied
  simp only [Except.map, Except.mapError] at replied rule host
  cases rule with
  | noIdentity without =>
    have plain : ∀ value, v ≠ .object value := by
      rintro value rfl
      cases without
    refine ⟨iff_of_true replied without, ?_, ?_, ?_, fun _ => host, stays⟩
    · simp [replied, plain]
    · exact fun value u is => absurd is (plain value)
    · exact fun value is => absurd is (plain value)
  | itself =>
    refine ⟨by simp [replied], iff_of_true replied rfl, ?_, ?_, fun _ => host, stays⟩
    · exact fun value u is ne => absurd (Value.object.inj is).symm ne
    · exact fun value is ne => absurd (Value.object.inj is).symm ne
  | known ne paired =>
    refine ⟨by simp [replied], by simp [replied, ne], ?_, ?_, fun _ => host, stays⟩
    · intro value' u is _ entered
      cases is
      cases Option.some.inj (paired.symm.trans entered)
      exact ⟨iff_of_true replied rfl, by simp [replied]⟩
    · intro value' _ _ free
      cases paired.symm.trans free
  | boxTaken ne paired other =>
    refine ⟨by simp [replied], by simp [replied, ne], ?_, ?_, fun _ => host, stays⟩
    · intro value' u is _ entered
      cases is
      cases Option.some.inj (paired.symm.trans entered)
      exact ⟨by simp [replied, other], iff_of_true replied other⟩
    · intro value' _ _ free
      cases paired.symm.trans free
  | valueTaken ne free paired alive =>
    refine ⟨by simp [replied], by simp [replied, ne], ?_, ?_, fun _ => host, stays⟩
    · intro value' u _ _ entered
      cases free.symm.trans entered
    · intro value' is _ _
      cases is
      refine ⟨iff_of_true replied ⟨_, paired, alive⟩, fun orphan => ?_⟩
      cases alive.symm.trans (orphan _ paired)
  | joined ne free orphan joins =>
    refine ⟨by simp [replied], by simp [replied, ne], ?_, ?_, ?_, stays⟩
    · intro value' u _ _ entered
      cases free.symm.trans entered
    · intro value' is _ _
      cases is
      refine ⟨?_, fun _ => ⟨replied, host ▸ joins⟩⟩
      simp only [replied, reduceCtorEq, false_iff, not_exists, not_and]
      exact fun b paired => by simp [orphan b paired]
    · rintro (refused | boxed)
      · exact absurd replied refused
      · exact absurd free boxed

/-- A registry that does not reclaim keeps the pair of a dead box. Another box of that value is
accepted in its place. The value itself is no box for it, and a third box is refused. -/
theorem pair_decides_dead_box :
    let s := (start (some false)).run [.create (some "a"), .create (some "v"), .create (some "b"),
      .create (some "c"), .pair "r" "a" (.handle "v"), .drop "a"]
    let s' := (s.answer (.pair "r" "b" (.handle "v"))).2
    (s.host.pairing 0).values.get? 1 = some 2 ∧ s.host.isAlive 1 = false ∧
      (s.answer (.pair "r" "b" (.handle "v"))).1.result = .ok .nothing ∧
      (s'.host.pairing 0).values.get? 3 = some 2 ∧ (s'.host.pairing 0).values.get? 1 = none ∧
      (s'.answer (.pair "r" "v" (.handle "v"))).1.result =
        .error (.failure (.unpairable .itself)) ∧
      (s'.answer (.pair "r" "c" (.handle "v"))).1.result =
        .error (.failure (.unpairable .valueTaken)) ∧
      (s'.answer (.pair "r" "c" (.handle "v"))).2.host = s'.host.quiet.autoReclaim 0 := by
  intro s s'
  have reach : s.Reachable := ⟨_, _, rfl⟩
  have reach' : s'.Reachable := reach.run [.pair "r" "b" (.handle "v")]
  have found : s.target "r" "b" = .ok (0, 3) := by decide +kernel
  have found_c : s'.target "r" "c" = .ok (0, 4) := by decide +kernel
  have found_v : s'.target "r" "v" = .ok (0, 2) := by decide +kernel
  have value : s.value (.handle "v") = .ok (.object 2) := by decide +kernel
  have value' : s'.value (.handle "v") = .ok (.object 2) := by decide +kernel
  have keys : ((s.host.quiet.autoReclaim 0).pairing 0).values.keys = [1] := by decide +kernel
  have dead : (s.host.quiet.autoReclaim 0).isAlive 1 = false := by decide +kernel
  have free : ((s.host.quiet.autoReclaim 0).pairing 0).values.get? 3 = none := by decide +kernel
  have free' : ((s'.host.quiet.autoReclaim 0).pairing 0).values.get? 4 = none := by decide +kernel
  obtain ⟨-, -, -, unboxed, -, -⟩ := pair_decides reach found value
  obtain ⟨-, itself, -⟩ := pair_decides reach' found_v value'
  obtain ⟨-, -, -, taken, unchanged, -⟩ := pair_decides reach' found_c value'
  obtain ⟨accepted, joins⟩ := (unboxed 2 rfl (by decide) free).2 fun b paired => by
    have inside := (Table.mem_keys _ _).2 ⟨2, paired⟩
    rw [keys, List.mem_singleton] at inside
    exact inside ▸ dead
  have paired : (s'.host.pairing 0).values.get? 3 = some 2 := (joins.pairs 3 2).2 (.inl ⟨rfl, rfl⟩)
  have refused := (taken 2 rfl (by decide) free').1.2 ⟨3, by decide +kernel, by decide +kernel⟩
  refine ⟨by decide +kernel, by decide +kernel, accepted, paired, by decide +kernel, itself.2 rfl,
    refused, unchanged (.inl ?_)⟩
  simp [refused]

end Session

end Compound
