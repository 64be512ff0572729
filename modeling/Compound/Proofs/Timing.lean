import Compound.Proofs.Companions

/-!
What the time of reclaiming shows. A script is run twice, on a registry that reclaims before each
registration and on one that never does. The entries of a dead box keep its value alive until they
are reclaimed, so the second run lags behind the first one. The results are the same in both, up to
the first step that goes by such a value as if it were a living box.
-/
namespace Compound

/-- A free box may be joined to a value in the first registry, and may not in the second one, when
the value has a living box there that is dead for the first one. -/
theorem Registry.Lags.judge_missed {alive alive' : ObjectId → Bool} {reg reg' : Registry}
    {box value b : ObjectId} (l : reg.Lags alive reg') (m : reg.pairing.Mirrored)
    (m' : reg'.pairing.Mirrored) (more : ∀ id, alive id = true → alive' id = true)
    (lives : alive box = true) (free : reg.pairing.values.get? box = none)
    (living : reg'.pairing.livingBox? alive' value = some b) (dead : alive b = false) :
    (∃ pairs released, reg.pairing.judge alive box value = .ok (.fresh pairs released)) ∧
      ∃ e, reg'.pairing.judge alive' box value = .error e := by
  obtain ⟨paired, lives_b⟩ := m'.livingBox_iff.1 living
  have orphan : reg.pairing.livingBox? alive value = none := by
    -- a living box in the first registry would be the one found in the second
    by_contra boxed
    obtain ⟨c, living_c⟩ := Option.ne_none_iff_exists'.1 boxed
    obtain ⟨paired_c, lives_c⟩ := m.livingBox_iff.1 living_c
    have found_c := m'.livingBox_iff.2 ⟨l.entries c value paired_c, more c lives_c⟩
    cases Option.some.inj (found_c.symm.trans living)
    exact Bool.false_ne_true (dead.symm.trans lives_c)
  have other : box ≠ b := by
    rintro rfl
    exact Bool.false_ne_true (dead.symm.trans lives)
  exact ⟨Pairing.judge_fresh free orphan, _, m'.judge_other paired lives_b other⟩

namespace Host

variable {w w' : Host} {held : Multiset ObjectId} {r : RegistryId} {box b : ObjectId} {v : Value}

/-- What was logged and told is nothing to reclaiming. -/
theorem autoReclaim_quiet (w : Host) (r : RegistryId) :
    (w.quiet.autoReclaim r).heap = (w.autoReclaim r).heap ∧
      ∀ q, registry? (w.quiet.autoReclaim r) q = registry? (w.autoReclaim r) q := by
  have same : w.quiet.registry? r = w.registry? r := rfl
  rw [autoReclaim, autoReclaim, same]
  cases found : w.registry? r with
  | none => exact ⟨rfl, fun _ => rfl⟩
  | some reg =>
    simp only [reclaim, same, found]
    split
    · split
      · exact ⟨rfl, fun _ => rfl⟩
      · refine ⟨?_, fun q => ?_⟩
        · simp only [tell, release_heap]
          rfl
        · have told : ∀ (w : Host) (n : Notice), registry? (w.tell n) q = w.registry? q :=
            fun _ _ => rfl
          simp only [told, registry?_release]
          rfl
    · exact ⟨rfl, fun _ => rfl⟩

theorem links_quiet (w : Host) : w.quiet.Links = w.Links := by
  funext i j
  apply propext
  constructor
  · rintro (⟨living, holds⟩ | ⟨living, found, paired⟩)
    · exact .holds living holds
    · exact .boxed living found paired
  · rintro (⟨living, holds⟩ | ⟨living, found, paired⟩)
    · exact .holds living holds
    · exact .boxed living found paired

/-- A value whose box lives in the second host only is free to be paired in the first one, and is
not in the second one. -/
theorem pair_missed (t : Twins held w w') (opened : ∃ reg, w.registry? r = some reg)
    (inside : box ∈ held) (other : v ≠ .object box)
    (free : ((w.autoReclaim r).pairing r).values.get? box = none) (found : w'.boxOf? r v = some b)
    (dead : (w.autoReclaim r).isAlive b = false) :
    (w.pair r box v).1 = .ok () ∧ ∃ e, (w'.pair r box v).1 = .error e := by
  have reclaimed := t.autoReclaim r
  obtain ⟨reg, reg', found_r, found_r', lags, mirrored, mirrored'⟩ :=
    reclaimed.found (opened_autoReclaim t opened)
  cases h : v.identity with
  | none => simp [boxOf?, h] at found
  | some value =>
    cases Value.identity_eq_some h
    have itself : value ≠ box := by simpa using other
    rw [pairing_of_found found_r] at free
    rw [boxOf?, pairing_of_found found_r'] at found
    obtain ⟨⟨pairs, released, fresh⟩, e, refused⟩ := lags.judge_missed mirrored mirrored'
      (fun _ => reclaimed.lags.alive) (alive_autoReclaim t r (.held inside)) free found dead
    constructor
    · simp only [pair, Value.identity_object, if_neg itself, joinIfFresh,
        pairing_of_found found_r, fresh]
    · simp only [pair, Value.identity_object, if_neg itself, t.lags.autoReclaim_eq, joinIfFresh,
        pairing_of_found found_r', refused]
      exact ⟨_, rfl⟩

/-- A value whose box lives in the second host only does not get that box in the first one. -/
theorem boxFor_missed (t : Twins held w w') (opened : ∃ reg, w.registry? r = some reg)
    (found : w'.boxOf? r v = some b) (dead : (w.autoReclaim r).isAlive b = false) :
    (w'.boxFor r v).1 = .ok b ∧ (w.boxFor r v).1 ≠ .ok b := by
  have reclaimed := t.autoReclaim r
  cases h : v.identity with
  | none => simp [boxOf?, h] at found
  | some value =>
    cases Value.identity_eq_some h
    constructor
    · simp only [boxFor, Value.identity_object, t.lags.autoReclaim_eq, found]
    · cases known : (w.autoReclaim r).boxOf? r (.object value) with
      | some c =>
        simp only [boxFor, Value.identity_object, known]
        rintro ⟨⟩
        exact Bool.false_ne_true (dead.symm.trans (alive_of_boxOf? known))
      | none =>
        obtain ⟨reg, found_r⟩ := opened_autoReclaim t opened
        obtain ⟨pairs, released, fresh⟩ := judge_withBox reclaimed.sound found_r known
        obtain ⟨o, living⟩ := (Heap.isAlive_iff _ b).1 (alive_of_boxOf? found)
        have old := t.sound'.accounted.bounded b o living
        rw [boxFor_fresh found_r known fresh]
        intro same
        have new : (w.autoReclaim r).heap.next = b := Except.ok.inj same
        exact Nat.ne_of_lt old (reclaimed.lags.next.trans new).symm

end Host

namespace Session

variable {s s' : Session} {w : Host} {t : Step} {id : ObjectId}

/-- A reply tells the identity of the object that it shows. -/
theorem hand_object_inj {keep keep' : Option String} {i j : ObjectId}
    (same : (s.hand keep (.object i)).1 = (s'.hand keep' (.object j)).1) : i = j := by
  have shown : s.view (.object i) = s'.view (.object j) := by
    injection same with same
    injection same
  refine eq_of_view (s := s) ?_
  rw [shown, view]
  split
  · exact Or.inr rfl
  · exact Or.inl rfl

theorem acting_ok {α : Type} {done : Outcome α × Host} {go : α → Session → Result × Session} {a : α}
    (ok : done.1 = .ok a) : s.acting done go = go a { s with host := done.2 } := by
  obtain ⟨outcome, u⟩ := done
  cases ok
  rfl

theorem acting_error {α : Type} {done : Outcome α × Host} {go : α → Session → Result × Session}
    {e : Failure} (failed : done.1 = .error e) :
    s.acting done go = (.error (.failure e), { s with host := done.2 }) := by
  obtain ⟨outcome, u⟩ := done
  cases failed
  rfl

/-- What is not lost in the second session lives in the first one. -/
theorem alive_of_not_lost {u : Host} (twins : Host.Twins s.handles.values u w)
    (alive : w.isAlive id = true) (kept : ¬Lost { s with host := w } id) : u.isAlive id = true := by
  have along : ∀ {i}, u.isAlive i = true → Relation.ReflTransGen w.Links i id →
      u.isAlive id = true := fun living way =>
    twins.lags.alive_along twins.sound.accounted living way
  have rooted : ∀ {i}, Root { s with host := w } i → u.isAlive i = true := by
    intro i root
    apply twins.sound.accounted.alive_outside
    cases root with
    | handle held => exact Multiset.mem_add.2 (Or.inl (Table.mem_values _ _ held))
    | @cell name stored =>
      refine Multiset.mem_add.2 (Or.inr ((u.mem_rooted i).2 (Or.inl ⟨name, ?_⟩)))
      exact twins.lags.cells ▸ stored
  by_contra dead
  exact kept ⟨alive, fun ⟨root, is_root, way⟩ => dead (along (rooted is_root) way),
    fun ⟨c, cycle, way⟩ => dead (along (twins.lags.cycles c cycle) way)⟩

/-- What a step goes by does not depend on what was logged and told. -/
theorem Seeks.quiet {r : RegistryId} {v : Value} {heap : Heap} :
    Seeks { s with host := s.host.quiet } t r v heap ↔ s.Seeks t r v heap := by
  have pairing : ∀ r, Host.pairing (s.host.quiet.autoReclaim r) r =
      Host.pairing (s.host.autoReclaim r) r := fun r => by
    rw [Host.pairing, Host.pairing, (Host.autoReclaim_quiet s.host r).2]
  have heaps := fun r => (Host.autoReclaim_quiet s.host r).1
  constructor
  · rintro (⟨found, given, other, free⟩ | found | found)
    · have free := (pairing r).symm ▸ free
      exact heaps r ▸ .pair found given other free
    · exact heaps r ▸ .box found
    · exact .livingBox found
  · rintro (⟨found, given, other, free⟩ | found | found)
    · have free := (pairing r) ▸ free
      exact heaps r ▸ .pair found given other free
    · exact heaps r ▸ .box found
    · exact .livingBox found

/-- A step goes by a box that it finds in the second session and not in the first one: the box
lives in the second session, but no way leads to it from a handle, a cell or a cycle, and in the
first one it is dead. -/
def Misses (s s' : Session) (t : Step) : Prop :=
  ∃ r v heap box, s.Seeks t r v heap ∧ s'.host.boxOf? r v = some box ∧ s'.Lost box ∧
    heap.isAlive box = false

/-- No step of a script goes by a box that is missed. -/
def MissesNone : Session → Session → List Step → Prop
  | _, _, [] => True
  | s, s', t :: ts => ¬s.Misses s' t ∧ MissesNone (s.answer t).2 (s'.answer t).2 ts

/-- The heap in which a step looks is that of a twin of the second session. -/
theorem Seeks.twins {r : RegistryId} {v : Value} {heap : Heap} (seeks : s.Seeks t r v heap)
    (twins : Host.Twins s.handles.values s.host w) :
    ∃ u, u.heap = heap ∧ Host.Twins s.handles.values u w := by
  cases seeks with
  | pair | box => exact ⟨_, rfl, twins.autoReclaim r⟩
  | livingBox => exact ⟨_, rfl, twins⟩

/-- A step that misses nothing has the same result in both sessions. -/
theorem agree_of_not_missed (sound : s.Sound) (twins : Host.Twins s.handles.values s.host w)
    (timeless : t.isTimeless = true) (spared : ¬s.Misses { s with host := w } t) :
    Agree (s.step t) (step { s with host := w } t) := by
  refine agree_step sound twins t timeless fun r v heap box seeks found => ?_
  obtain ⟨u, rfl, twins'⟩ := seeks.twins twins
  by_contra dead
  have dead := Bool.not_eq_true _ ▸ dead
  refine spared ⟨r, v, u.heap, box, seeks, found, ?_, dead⟩
  by_contra kept
  have lives := alive_of_not_lost twins' (Host.alive_of_boxOf? found) kept
  exact Bool.false_ne_true (dead.symm.trans lives)

/-- A step that misses a box has different results. -/
theorem differ_of_missed (sound : s.Sound) (twins : Host.Twins s.handles.values s.host w)
    (missed : s.Misses { s with host := w } t) :
    (step { s with host := w } t).1 ≠ (s.step t).1 := by
  obtain ⟨r, v, heap, box, seeks, found, -, dead⟩ := missed
  cases seeks with
  | pair found_p given other free =>
    obtain ⟨found_r, found_box⟩ := target_eq_ok.1 found_p
    obtain ⟨ok, e, refused⟩ := Host.pair_missed twins (sound.open_registry found_r) (mem_handles found_box) other
      free found dead
    rw [step_pair found_p given, step_pair (s := { s with host := w }) found_p given, acting_ok ok,
      acting_error refused]
    rintro ⟨⟩
  | box found_v =>
    have opened := sound.open_registry (subject_eq_ok.1 found_v).1
    obtain ⟨ok, ne⟩ := Host.boxFor_missed twins opened found dead
    rw [step_box _ found_v, step_box (s := { s with host := w }) _ found_v, acting_ok ok]
    cases result : (s.host.boxFor r v).1 with
    | error e =>
      rw [acting_error result]
      rintro ⟨⟩
    | ok c =>
      rw [acting_ok result]
      intro same
      rw [result, hand_object_inj same] at ne
      exact ne rfl
  | @livingBox name term keep r v found_v =>
    have ne : s.host.boxOf? r v ≠ some box := fun known =>
      Bool.false_ne_true (dead.symm.trans (Host.alive_of_boxOf? known))
    have second : step { s with host := w } (.livingBox name term keep) =
        hand { s with host := w.retain [box] } keep (.object box) := by
      have found_v : subject { s with host := w } name term = .ok (r, v) := found_v
      simp only [step, found_v, after, Host.livingBox, found, Option.toList_some]
    rw [second]
    simp only [step, found_v, after, Host.livingBox]
    cases known : s.host.boxOf? r v with
    | none => rintro ⟨⟩
    | some c =>
      intro same
      rw [known, hand_object_inj same] at ne
      exact ne rfl

theorem root_quiet : Root { s with host := s.host.quiet } = s.Root := by
  funext i
  apply propext
  constructor
  · rintro (held | stored)
    · exact .handle held
    · exact .cell stored
  · rintro (held | stored)
    · exact .handle held
    · exact .cell stored

theorem Lost.quiet : Lost { s with host := s.host.quiet } id ↔ s.Lost id := by
  simp only [Lost, Reaches, Hangs, s.host.links_quiet, root_quiet]
  rfl

/-- What was logged and told does not decide whether a box is missed. -/
theorem Misses.quiet :
    Misses { s with host := s.host.quiet } { s' with host := s'.host.quiet } t ↔ s.Misses s' t := by
  simp only [Misses, Seeks.quiet, Lost.quiet]
  rfl

/-- Of two sessions, the results of a script are the same if and only if no step misses a box. -/
theorem results_eq_iff (sound : s.Sound) (twins : s.Twins s') (ts : List Step)
    (timeless : ∀ t ∈ ts, t.isTimeless = true) :
    (s.answers ts).map (·.result) = (s'.answers ts).map (·.result) ↔ s.MissesNone s' ts := by
  induction ts generalizing s s' with
  | nil => exact ⟨fun _ => trivial, fun _ => rfl⟩
  | cons t rest ih =>
    cases twins with
    | @intro w twins =>
      have quiet := sound_quiet sound
      have results : ∀ s : Session, (s.answers (t :: rest)).map (·.result) =
          (s.answer t).1.result :: ((s.answer t).2.answers rest).map (·.result) := fun _ => rfl
      rw [results, results, MissesNone, List.cons_eq_cons, ← Misses.quiet, answer_result,
        answer_result, answer_session, answer_session]
      by_cases missed : Misses { s with host := s.host.quiet } { s with host := w.quiet } t
      · exact ⟨fun same => absurd same.1.symm (differ_of_missed quiet twins.quiet missed),
          fun spared => absurd missed spared.1⟩
      · have agree := agree_of_not_missed quiet twins.quiet (timeless t List.mem_cons_self) missed
        have later := ih (sound_step quiet t) agree.twins fun t' inside =>
          timeless t' (List.mem_cons_of_mem t inside)
        exact ⟨fun same => ⟨missed, later.1 same.2⟩,
          fun spared => ⟨agree.result.symm, later.2 spared.2⟩⟩

/-- The sessions in which a script starts, with reclaiming and without. -/
theorem twins_start : (start (some true)).Twins (start (some false)) := by
  have entries : ∀ b r, Host.registry? (start (some b)).host r =
      if r = 0 then some (.new (Config.standard.withAutoReclaim b)) else none := by
    intro b r
    have single : (start (some b)).host.registries =
        Table.empty.put 0 (.new (Config.standard.withAutoReclaim b)) := rfl
    rw [Host.registry?, single]
    split
    · next first =>
      rw [first]
      exact Table.get?_put_same _ _ _
    · next other => exact Table.get?_put_other _ _ other
  have shown : (start (some true)).Twins
      { start (some true) with host := (start (some false)).host } := by
    refine .intro ⟨(sound_start (some true)).client, (sound_start (some false)).client,
      ⟨⟨rfl, rfl, rfl, fun id o found => ?_, fun r => ?_⟩, fun c cycle => ?_⟩⟩
    · cases found
    · rw [entries, entries]
      split
      · exact .some ⟨rfl, fun _ _ => rfl, fun _ _ => rfl, fun _ _ paired => paired⟩
      · exact .none
    · obtain ⟨i, link, -⟩ := Relation.TransGen.head'_iff.1 cycle
      cases link with
      | holds living holds => cases living
      | boxed living found paired => cases living
  exact shown

/-- A script that asks nothing about weak names, nor what a registry has to reclaim or how much it
holds, is run with automatic reclaiming and without. The results are the same, with the same numbers
for the same objects, if and only if no step goes by a box that no handle, cell or cycle leads to
any more and that is dead where entries are reclaimed. -/
theorem same_results_iff (ts : List Step) (timeless : ∀ t ∈ ts, t.isTimeless = true) :
    ((start (some true)).answers ts).map (·.result) =
        ((start (some false)).answers ts).map (·.result) ↔
      (start (some true)).MissesNone (start (some false)) ts :=
  results_eq_iff (sound_start _) twins_start ts timeless

/-- The entry of a dead box lingers and is in the way of nothing: its value is still found as the
box of another one, and gets a new box itself. Once that box is dead too and nothing else keeps the
value, it is missed. -/
theorem same_results_iff_lingering :
    let ts : List Step := [.create (some "u"), .create (some "v"), .create (some "b"),
      .pair "r" "v" (.handle "u"), .pair "r" "b" (.handle "v"), .drop "b", .tagRecord "r" "u",
      .livingBox "r" (.handle "u") none, .box "r" (.handle "v") (some "c"),
      .unbox "r" (.handle "c") none]
    let us : List Step := [.drop "v", .drop "c", .tagRecord "r" "u",
      .livingBox "r" (.handle "u") none]
    (start (some true)).MissesNone (start (some false)) ts ∧
      ((start (some true)).answers ts).map (·.sizes) ≠
        ((start (some false)).answers ts).map (·.sizes) ∧
      ¬(start (some true)).MissesNone (start (some false)) (ts ++ us) := by
  intro ts us
  refine ⟨(same_results_iff ts (by decide)).1 (by decide +kernel), by decide +kernel, ?_⟩
  exact mt (same_results_iff (ts ++ us) (by decide)).2 (by decide +kernel)

/-- So the time of reclaiming is not always hidden. A box that only the entry of its own dead box
keeps is found where nothing is reclaimed; where entries are reclaimed there is no box at all, so
that no renaming of objects makes the results the same. -/
theorem not_always_same_results :
    let ts : List Step := [.create (some "u"), .create (some "v"), .create (some "b"),
      .create (some "x"), .pair "r" "v" (.handle "u"), .pair "r" "b" (.handle "v"), .drop "v",
      .drop "b", .tagRecord "r" "x", .livingBox "r" (.handle "u") none]
    (∀ t ∈ ts, t.isTimeless = true) ∧
      (((start (some true)).answers ts).map (·.result)).getLast? = some (.ok .nothing) ∧
      (((start (some false)).answers ts).map (·.result)).getLast? =
        some (.ok (.value (.object 2))) := by
  decide +kernel

end Session

end Compound
