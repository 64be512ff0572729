import Compound.Proofs.Embedding
import Compound.Proofs.Parallel

/-!
Operations on registries in two hosts, the second of which lags behind the first one. The first
one may reclaim before it registers something, and the second one does not. Both answer alike about
whatever lives in the first host, and a pair is judged alike unless it is in the way of a box that
lives in the second host only.
-/
namespace Compound

namespace Registry.Lags

variable {alive alive' : ObjectId → Bool} {reg reg' : Registry} {box value : ObjectId}

/-- Draining takes out nothing that the living have. -/
theorem drained (l : reg.Lags alive reg') (buried : ∀ id, alive id = true → id ∉ reg.queue) :
    reg.drained.Lags alive reg' := by
  refine ⟨l.lazy, fun id lives => ?_, fun id lives => ?_, fun id value paired => ?_⟩
  · rw [Registry.get?_tags_drained, if_neg (buried id lives)]
    exact l.tags id lives
  · rw [Registry.get?_values_drained, if_neg (buried id lives)]
    exact l.pairs id lives
  · rw [Registry.get?_values_drained] at paired
    split at paired
    · cases paired
    · exact l.entries id value paired

theorem tag (l : reg.Lags alive reg') (id : ObjectId) (t : Tag) :
    Registry.Lags alive { reg with tags := reg.tags.put id t }
      { reg' with tags := reg'.tags.put id t } := by
  refine ⟨l.lazy, fun j lives => ?_, l.pairs, l.entries⟩
  by_cases hj : j = id
  · rw [hj, Table.get?_put_same, Table.get?_put_same]
  · rw [Table.get?_put_other _ _ hj, Table.get?_put_other _ _ hj, l.tags j lives]

theorem unpair (l : reg.Lags alive reg') (box : ObjectId) :
    Registry.Lags alive { reg with pairing := (reg.pairing.remove box).2 }
      { reg' with pairing := (reg'.pairing.remove box).2 } := by
  refine ⟨l.lazy, l.tags, fun j lives => ?_, fun j value paired => ?_⟩
  · simp only [Pairing.get?_values_remove, l.pairs j lives]
  · rw [Pairing.get?_values_remove] at paired ⊢
    split at paired
    · cases paired
    · rename_i ne
      rw [if_neg ne]
      exact l.entries j value paired

/-- A pair is joined that both registries admit, whatever was in its way in either. -/
theorem join (l : reg.Lags alive reg') {pairs pairs' : Pairing}
    {released released' : Option ObjectId} {judging judging' : ObjectId → Bool}
    (admits : reg.pairing.Admits judging box value pairs released)
    (admits' : reg'.pairing.Admits judging' box value pairs' released') :
    Registry.Lags alive { reg with pairing := pairs.insert box value }
      { reg' with pairing := pairs'.insert box value } := by
  refine ⟨l.lazy, l.tags, fun b lives => ?_, fun b v paired => ?_⟩
  · by_cases hb : b = box
    · simp only [Pairing.insert, hb, Table.get?_put_same]
    · simp only [Pairing.insert, Table.get?_put_other _ _ hb]
      apply Option.ext
      intro v
      rw [admits.others, admits'.others, l.pairs b lives]
  · by_cases hb : b = box
    · simp only [Pairing.insert, hb, Table.get?_put_same] at paired ⊢
      exact paired
    · simp only [Pairing.insert, Table.get?_put_other _ _ hb] at paired ⊢
      obtain ⟨before, ne⟩ := (admits.others b v).1 paired
      exact (admits'.others b v).2 ⟨l.entries b v before, ne⟩

/-- A value has the same living box in both registries, if a box that it has in the second one
lives for the first one. -/
theorem livingBox?_eq (l : reg.Lags alive reg') (m : reg.pairing.Mirrored)
    (m' : reg'.pairing.Mirrored) (more : ∀ id, alive id = true → alive' id = true)
    (shared : ∀ b, reg'.pairing.livingBox? alive' value = some b → alive b = true) :
    reg'.pairing.livingBox? alive' value = reg.pairing.livingBox? alive value := by
  apply Option.ext
  intro b
  constructor
  · intro living
    have lives := shared b living
    rw [m'.livingBox_iff] at living
    rw [m.livingBox_iff, ← l.pairs b lives]
    exact ⟨living.1, lives⟩
  · intro living
    obtain ⟨paired, lives⟩ := m.livingBox_iff.1 living
    exact m'.livingBox_iff.2 ⟨l.entries b value paired, more b lives⟩

/-- What is said of a pair, but for what is in its way. -/
inductive Concurs : Except Unpairable Pairing.Verdict → Except Unpairable Pairing.Verdict → Prop
  | refused (e : Unpairable) : Concurs (.error e) (.error e)
  | known : Concurs (.ok .known) (.ok .known)
  | fresh {pairs pairs' : Pairing} {released released' : Option ObjectId} :
      Concurs (.ok (.fresh pairs released)) (.ok (.fresh pairs' released'))

/-- A box that lives is judged alike. What box the value has is asked only if the new one is
free. -/
theorem judge (l : reg.Lags alive reg') (m : reg.pairing.Mirrored) (m' : reg'.pairing.Mirrored)
    (more : ∀ id, alive id = true → alive' id = true) (lives : alive box = true)
    (shared : reg.pairing.values.get? box = none →
      ∀ b, reg'.pairing.livingBox? alive' value = some b → alive b = true) :
    Concurs (reg.pairing.judge alive box value) (reg'.pairing.judge alive' box value) := by
  have pairs := l.pairs box lives
  cases free : reg.pairing.values.get? box with
  | some held =>
    rw [free] at pairs
    by_cases same : held = value
    · subst same
      rw [Pairing.judge_same free, Pairing.judge_same pairs]
      exact .known
    · rw [Pairing.judge_taken free same, Pairing.judge_taken pairs same]
      exact .refused _
  | none =>
    rw [free] at pairs
    have same := l.livingBox?_eq m m' more (shared free)
    cases living : reg.pairing.livingBox? alive value with
    | none =>
      rw [living] at same
      obtain ⟨p, released, fresh⟩ := Pairing.judge_fresh free living
      obtain ⟨p', released', fresh'⟩ := Pairing.judge_fresh pairs same
      rw [fresh, fresh']
      exact .fresh
    | some b =>
      rw [living] at same
      obtain ⟨paired, lives_b⟩ := m.livingBox_iff.1 living
      obtain ⟨paired', lives_b'⟩ := m'.livingBox_iff.1 same
      have other : box ≠ b := by
        rintro rfl
        rw [free] at paired
        cases paired
      have unboxed : reg'.pairing.hasBox box = reg.pairing.hasBox box := by
        simp only [Pairing.hasBox, Table.contains, free, pairs]
      rw [m.judge_other paired lives_b other, m'.judge_other paired' lives_b' other, unboxed]
      exact .refused _

end Registry.Lags

namespace Host

variable {w w' : Host} {held : Multiset ObjectId} {r : RegistryId} {reg : Registry}
  {id box value : ObjectId}

/-- The second host does not reclaim by itself. -/
theorem Covers.autoReclaim_eq (c : w.Covers w') (r : RegistryId) : w'.autoReclaim r = w' := by
  rw [autoReclaim]
  cases found' : w'.registry? r with
  | none => rfl
  | some reg' =>
    obtain ⟨reg, -, lags⟩ := c.found_back found'
    simp only [lags.lazy, Bool.false_eq_true, if_false]

namespace Twins

theorem found (t : Twins held w w') (opened : ∃ reg, w.registry? r = some reg) :
    ∃ reg reg', w.registry? r = some reg ∧ w'.registry? r = some reg' ∧
      reg.Lags w.isAlive reg' ∧ reg.pairing.Mirrored ∧ reg'.pairing.Mirrored := by
  obtain ⟨reg, found⟩ := opened
  obtain ⟨reg', found', lags⟩ := t.lags.found found
  exact ⟨reg, reg', found, found', lags, (t.sound.attended r reg found).mirrored,
    (t.sound'.attended r reg' found').mirrored⟩

/-- The first host reclaims alone. -/
theorem reclaim (t : Twins held w w') (r : RegistryId) : Twins held (w.reclaim r).2 w' := by
  refine ⟨t.sound.reclaim r, t.sound', ?_⟩
  rcases w.reclaim_cases r with ⟨same, -⟩ | ⟨reg, found, -, same⟩
  · rw [same]
    exact t.lags
  · have buried : ∀ id, w.isAlive id = true → id ∉ reg.queue := fun id alive =>
      t.sound.unqueued_of_alive found alive
    have swept : Lags (w.modifyRegistry r fun _ => reg.drained) w' := by
      refine t.lags.edit_left r fun reg₁ reg' found₁ lags => ?_
      cases Option.some.inj (found.symm.trans found₁)
      exact lags.drained buried
    rw [same]
    exact (swept.release_left (t.sound.sweep found).accounted).tell_left _

theorem autoReclaim (t : Twins held w w') (r : RegistryId) : Twins held (w.autoReclaim r) w' := by
  rw [Host.autoReclaim]
  cases w.registry? r with
  | none => exact t
  | some reg =>
    simp only
    split
    · exact t.reclaim r
    · exact t

theorem tag (t : Twins held w w') (found : w.registry? r = some reg) (alive : w.isAlive id = true)
    (tag : Tag) :
    Twins held
      ((w.modifyRegistry r fun reg => { reg with tags := reg.tags.put id tag }).watch r id)
      ((w'.modifyRegistry r fun reg => { reg with tags := reg.tags.put id tag }).watch r id) := by
  obtain ⟨reg', found', -⟩ := t.lags.found found
  have sound := t.sound.tag (t := tag) found alive
  refine ⟨sound, t.sound'.tag found' (t.lags.alive alive), ?_⟩
  have balanced : Balanced
      (w.modifyRegistry r fun reg => { reg with tags := reg.tags.put id tag }) held :=
    t.sound.edit_accounted found _ rfl
  have edited := t.lags.edit r balanced (fun _ _ _ _ lags => lags.tag id tag)
    fun _ _ _ _ _ paired => paired
  exact edited.watch r alive sound.accounted

theorem join (t : Twins held w w') {reg' : Registry} {pairs pairs' : Pairing}
    {released released' : Option ObjectId} (found : w.registry? r = some reg)
    (found' : w'.registry? r = some reg')
    (fresh : reg.pairing.judge w.isAlive box value = .ok (.fresh pairs released))
    (fresh' : reg'.pairing.judge w'.isAlive box value = .ok (.fresh pairs' released'))
    (ne : value ≠ box) (inside : box ∈ held) (alive : w.isAlive value = true) :
    Twins held (w.join r box value pairs released) (w'.join r box value pairs' released') := by
  have admits := (t.sound.attended r reg found).mirrored.admits fresh
  have admits' := (t.sound'.attended r reg' found').mirrored.admits fresh'
  have sound := t.sound.join found fresh ne inside alive
  have sound' := t.sound'.join found' fresh' ne inside (t.lags.alive alive)
  have balanced : (w.enter r box value pairs).Balanced
      (held + (released.toList : Multiset ObjectId)) := by
    rw [Balanced, add_right_comm]
    exact t.sound.enter_accounted found admits alive
  have balanced' : (w'.enter r box value pairs').Balanced
      (held + (released'.toList : Multiset ObjectId)) := by
    rw [Balanced, add_right_comm]
    exact t.sound'.enter_accounted found' admits' (t.lags.alive alive)
  have entered : (w.enter r box value pairs).Lags (w'.enter r box value pairs') := by
    refine (t.lags.retain [value]).edit r balanced (fun reg₁ reg₁' found₁ found₁' lags => ?_)
      fun reg₁' b v found₁' dead paired => ?_
    · cases Option.some.inj (found.symm.trans found₁)
      cases Option.some.inj (found'.symm.trans found₁')
      exact lags.join admits admits'
    · cases Option.some.inj (found'.symm.trans found₁')
      have other : b ≠ box := by
        rintro rfl
        have lives : w.isAlive b = true := Client.Keeps.alive (.held inside) t.sound
        rw [Host.isAlive, Host.retain, Heap.isAlive_retain] at dead
        exact Bool.false_ne_true (dead.symm.trans lives)
      rw [Pairing.insert, Table.get?_put_other _ _ other] at paired
      exact ((admits'.others b v).1 paired).1
  have released := (entered.release_left balanced).release_right balanced.release balanced'
  have living := balanced.release.alive_outside (Multiset.mem_add.2 (Or.inl inside))
  exact ⟨sound, sound', released.watch r living sound.accounted⟩

end Twins

/-- A value has the same living box in both hosts, if a box that it has in the second one lives in
the first one. -/
theorem Twins.boxOf?_eq (t : Twins held w w') (opened : ∃ reg, w.registry? r = some reg) {v : Value}
    (shared : ∀ b, w'.boxOf? r v = some b → w.isAlive b = true) :
    w'.boxOf? r v = w.boxOf? r v := by
  obtain ⟨reg, reg', found, found', lags, mirrored, mirrored'⟩ := t.found opened
  rw [boxOf?, boxOf?, pairing_of_found found, pairing_of_found found'] at *
  cases h : v.identity with
  | none => rfl
  | some value =>
    rw [h] at shared
    exact lags.livingBox?_eq mirrored mirrored' (fun _ => t.lags.alive) shared

theorem alike_joinIfFresh (t : Twins held w w') (opened : ∃ reg, w.registry? r = some reg)
    (ne : value ≠ box) (inside : box ∈ held) (alive : w.isAlive value = true)
    (shared : (w.pairing r).values.get? box = none →
      ∀ b, w'.boxOf? r (.object value) = some b → w.isAlive b = true) :
    Alike (fun _ => held) (w.joinIfFresh r box value) (w'.joinIfFresh r box value) := by
  obtain ⟨reg, reg', found, found', lags, mirrored, mirrored'⟩ := t.found opened
  have shared : reg.pairing.values.get? box = none →
      ∀ b, reg'.pairing.livingBox? w'.isAlive value = some b → w.isAlive b = true := by
    rw [← pairing_of_found found, ← pairing_of_found found']
    exact shared
  have judged := lags.judge mirrored mirrored' (fun _ => t.lags.alive)
    (Client.Keeps.alive (.held inside) t.sound) shared
  rw [joinIfFresh, joinIfFresh, pairing_of_found found, pairing_of_found found']
  generalize verdict : reg.pairing.judge w.isAlive box value = answer at judged
  generalize verdict' : reg'.pairing.judge w'.isAlive box value = answer' at judged
  cases judged with
  | refused e => exact .same t _
  | known => exact .same t _
  | fresh => exact .same (t.join found found' verdict verdict' ne inside alive) _

theorem opened_autoReclaim (t : Twins held w w') (opened : ∃ reg, w.registry? r = some reg) :
    ∃ reg, Host.registry? (w.autoReclaim r) r = some reg :=
  found_autoReclaim t.sound opened

/-- What the client keeps is alive also after the automatic reclaim. -/
theorem alive_autoReclaim (t : Twins held w w') (r : RegistryId)
    (kept : Client.Keeps ⟨held, w⟩ id) : (w.autoReclaim r).isAlive id = true := by
  have drained : Moves (· = .drain r) ⟨held, w⟩ ⟨held, w.autoReclaim r⟩ := moves_autoReclaim rfl
  exact (kept.after drained t.sound le_rfl).alive (drained.sound t.sound)

theorem alike_tag (t : Twins held w w') (opened : ∃ reg, w.registry? r = some reg)
    (kept : Client.Keeps ⟨held, w⟩ id) (tag : Tag) :
    Alike (fun _ => held) (w.tag r id tag) (w'.tag r id tag) := by
  have alive := alive_autoReclaim t r kept
  have reclaimed := t.autoReclaim r
  obtain ⟨reg, reg', found, found', lags, -⟩ := reclaimed.found (opened_autoReclaim t opened)
  simp only [Host.tag, t.lags.autoReclaim_eq, found, found', Option.bind_some, lags.tags id alive]
  cases reg.tags.get? id with
  | some existing =>
    simp only
    split <;> exact .same reclaimed _
  | none => exact .same ((reclaimed.tag found alive tag).tell _ _) _

theorem alike_pair (t : Twins held w w') (opened : ∃ reg, w.registry? r = some reg)
    (inside : box ∈ held) {v : Value} (kept : ∀ id ∈ v.references, Client.Keeps ⟨held, w⟩ id)
    (shared : v ≠ .object box → ((w.autoReclaim r).pairing r).values.get? box = none →
      ∀ b, w'.boxOf? r v = some b → (w.autoReclaim r).isAlive b = true) :
    Alike (fun _ => held) (w.pair r box v) (w'.pair r box v) := by
  have reclaimed := t.autoReclaim r
  rw [pair, pair, t.lags.autoReclaim_eq]
  cases h : v.identity with
  | none => exact .same reclaimed _
  | some value =>
    cases Value.identity_eq_some h
    by_cases itself : value = box
    · simp only [if_pos itself]
      exact .same reclaimed _
    · have alive := alive_autoReclaim t r (kept value (Value.mem_references.2 rfl))
      obtain ⟨outcome, u, u', result, result', twins⟩ := (alike_joinIfFresh reclaimed
        (opened_autoReclaim t opened) itself inside alive (shared (by simpa using itself))).split
      simp only [if_neg itself, result, result']
      rcases outcome with e | fresh
      · exact .same twins _
      · cases fresh with
        | false => exact .same twins _
        | true => exact .same (twins.tell _ _) _

theorem Twins.withBox (t : Twins held w w') :
    (w'.create none).1 = (w.create none).1 ∧
      Twins ((w.create none).1 ::ₘ held) w.withBox w'.withBox := by
  have captures : ∀ id ∈ (Object.new none).bodyReferences, w.isAlive id = true :=
    fun id h => (List.not_mem_nil h).elim
  obtain ⟨same, made⟩ := t.create captures
  have living := Client.Keeps.alive (.held (Multiset.mem_cons_self _ _)) made.sound
  refine ⟨same, ?_⟩
  rw [Host.withBox, Host.withBox, same]
  exact made.freeze living

theorem alike_boxFor (t : Twins held w w') (opened : ∃ reg, w.registry? r = some reg) {v : Value}
    (kept : ∀ id ∈ v.references, Client.Keeps ⟨held, w⟩ id)
    (shared : ∀ b, w'.boxOf? r v = some b → (w.autoReclaim r).isAlive b = true) :
    Alike (fun outcome => holding held (outcome.map .object)) (w.boxFor r v) (w'.boxFor r v) := by
  have reclaimed := t.autoReclaim r
  have opened' := opened_autoReclaim t opened
  have boxOf := reclaimed.boxOf?_eq opened' shared
  cases h : v.identity with
  | none =>
    simp only [boxFor, h, t.lags.autoReclaim_eq]
    refine ⟨rfl, ?_⟩
    simpa [holding, handed, Except.map] using reclaimed
  | some value =>
    cases Value.identity_eq_some h
    cases known : (w.autoReclaim r).boxOf? r (.object value) with
    | some box =>
      rw [known] at boxOf
      simp only [boxFor, Value.identity_object, t.lags.autoReclaim_eq, known, boxOf]
      exact ⟨rfl, reclaimed.retain (alive_singleton (alive_of_boxOf? known))⟩
    | none =>
      rw [known] at boxOf
      obtain ⟨reg, reg', found, found', -⟩ := reclaimed.found opened'
      obtain ⟨pairs, released, fresh⟩ := judge_withBox reclaimed.sound found known
      obtain ⟨pairs', released', fresh'⟩ := judge_withBox reclaimed.sound' found' boxOf
      obtain ⟨same, made⟩ := reclaimed.withBox
      have alive := alive_autoReclaim t r (kept value (Value.mem_references.2 rfl))
      obtain ⟨o, living⟩ := (Heap.isAlive_iff _ value).1 alive
      have old := reclaimed.sound.accounted.bounded value o living
      have ne : value ≠ ((w.autoReclaim r).create none).1 := Nat.ne_of_lt old
      have lazy := t.lags.autoReclaim_eq r
      have asked := boxFor_fresh found known fresh
      have asked' := boxFor_fresh (w := w') (lazy.symm ▸ found') (lazy.symm ▸ boxOf)
        (lazy.symm ▸ fresh')
      rw [lazy, same] at asked'
      rw [same] at fresh'
      have joined := made.join found found' fresh fresh' ne (Multiset.mem_cons_self _ _)
        ((isAlive_withBox old).trans alive)
      rw [asked, asked']
      rw [holding_one] at joined
      exact ⟨rfl, joined.tell _ _⟩

/-- A box that lives in the first host is undone in both. -/
theorem alike_unpair (t : Twins held w w') (opened : ∃ reg, w.registry? r = some reg)
    (alive : w.isAlive box = true) : Alike (holding held) (w.unpair r box) (w'.unpair r box) := by
  obtain ⟨reg, reg', found, found', lags, mirrored, mirrored'⟩ := t.found opened
  have pairs := lags.pairs box alive
  cases paired : reg.pairing.values.get? box with
  | none =>
    rw [paired] at pairs
    rw [unpair, unpair, pairing_of_found found, pairing_of_found found',
      Pairing.remove_of_none paired, Pairing.remove_of_none pairs]
    exact .nothing t rfl
  | some value =>
    rw [paired] at pairs
    have sound := t.sound.unpair found paired
    have sound' := t.sound'.unpair found' pairs
    rw [w.unpair_of_paired found paired] at sound ⊢
    rw [w'.unpair_of_paired found' pairs] at sound' ⊢
    have edited : Lags
        (w.modifyRegistry r fun reg₁ => { reg₁ with pairing := (reg.pairing.remove box).2 })
        (w'.modifyRegistry r fun reg₁ => { reg₁ with pairing := (reg'.pairing.remove box).2 }) := by
      refine t.lags.edit r sound.accounted (fun reg₁ reg₁' found₁ found₁' lags => ?_)
        fun reg₁' b v found₁' _ kept => ?_
      · cases Option.some.inj (found.symm.trans found₁)
        cases Option.some.inj (found'.symm.trans found₁')
        exact lags.unpair box
      · cases Option.some.inj (found'.symm.trans found₁')
        rw [Pairing.get?_values_remove] at kept
        split at kept
        · cases kept
        · exact kept
    rw [holding_one] at sound sound'
    exact ⟨rfl, sound, sound', edited.tell _ _⟩

theorem Twins.agrees (t : Twins held w w') (opened : ∃ reg, w.registry? r = some reg) {v : Value}
    (alive : ∀ id ∈ v.references, w.isAlive id = true) : w.Agrees w' r v := by
  obtain ⟨reg, reg', found, found', lags, -⟩ := t.found opened
  exact .of_entries found found' (fun id inside => lags.tags id (alive id inside))
    (fun id inside => lags.pairs id (alive id inside))
    fun id inside => t.lags.function?_eq (alive id inside)

theorem alike_unbox (t : Twins held w w') (opened : ∃ reg, w.registry? r = some reg) {v : Value}
    (alive : ∀ id ∈ v.references, w.isAlive id = true) :
    Alike (holding held) (w.unbox r v) (w'.unbox r v) := by
  obtain ⟨reg, reg', found, found', lags, -⟩ := t.found opened
  rw [unbox, unbox, pairing_of_found found, pairing_of_found found']
  cases h : v.identity with
  | none => exact .nothing t rfl
  | some box =>
    have lives := alive box (Value.mem_references.2 (Value.identity_eq_some h))
    simp only [Option.bind_some, Pairing.value?, lags.pairs box lives]
    cases paired : reg.pairing.values.get? box with
    | none => exact .nothing t rfl
    | some value => exact ⟨rfl, t.retain (alive_singleton (t.sound.alive_boxed found paired))⟩

theorem twins_livingBox (t : Twins held w w') (opened : ∃ reg, w.registry? r = some reg) {v : Value}
    (shared : ∀ b, w'.boxOf? r v = some b → w.isAlive b = true) :
    (w'.livingBox r v).1 = (w.livingBox r v).1 ∧
      Twins (held + ((w.livingBox r v).1.toList : Multiset ObjectId)) (w.livingBox r v).2
        (w'.livingBox r v).2 := by
  have boxOf := t.boxOf?_eq opened shared
  simp only [livingBox, boxOf]
  exact ⟨trivial, t.retain fun id inside => alive_of_boxOf? (Option.mem_toList.1 inside)⟩

theorem alike_validate (t : Twins held w w') (opened : ∃ reg, w.registry? r = some reg) {v : Value}
    (alive : ∀ id ∈ v.references, w.isAlive id = true) :
    Alike (holding held) (w.validate r v) (w'.validate r v) := by
  simp only [validate, kindOf_tell, t.lags.kindOf_eq alive, (t.agrees opened alive).classOf]
  have told := t.tell (.validating (w.describe v) (w.classOf r v))
    (.validating (w'.describe v) (w.classOf r v))
  cases rejection? (w.kindOf v) (w.classOf r v) with
  | some failure => exact .nothing told rfl
  | none => exact .retain told alive

end Host

end Compound
