import Compound.Proofs.Moves

/-!
What a move does to one registry. A move closes the registry, or it makes one of four edits
to its entries, or it leaves them alone; in the last two cases the queue also hears of
whatever died. A registry that is gone stays gone, since numbers are not given out twice.
-/
namespace Compound

/-- The registry whose entries a deed edits. -/
def Deed.edited? : Deed → Option RegistryId
  | tag r .. => some r
  | join r .. => some r
  | unpair r _ => some r
  | drain r => some r
  | _ => none

namespace Registry

/-- What a deed does to the entries of a registry: one rule for each kind of edit. -/
inductive Edit (r : RegistryId) (alive : ObjectId → Bool) (reg : Registry) : Deed → Registry → Prop
  | elsewhere {d : Deed} (other : d.edited? ≠ some r) : Edit r alive reg d reg
  | tag {id : ObjectId} {t : Tag} (free : reg.tags.get? id = none) :
      Edit r alive reg (.tag r id t) { reg with tags := reg.tags.put id t }
  | join {box value : ObjectId} {pairs : Pairing} {released : Option ObjectId}
      (admits : reg.pairing.Admits alive box value pairs released) (ne : value ≠ box) :
      Edit r alive reg (.join r box value) { reg with pairing := pairs.insert box value }
  | unpair {box value : ObjectId} (paired : reg.pairing.values.get? box = some value) :
      Edit r alive reg (.unpair r box) { reg with pairing := (reg.pairing.remove box).2 }
  | drain : Edit r alive reg (.drain r) reg.drained

@[simp] theorem enqueueAll_nil (reg : Registry) : reg.enqueueAll [] = reg := by
  simp [enqueueAll]

@[simp] theorem enqueueAll_tags (reg : Registry) (ids : List ObjectId) :
    (reg.enqueueAll ids).tags = reg.tags := rfl

@[simp] theorem enqueueAll_pairing (reg : Registry) (ids : List ObjectId) :
    (reg.enqueueAll ids).pairing = reg.pairing := rfl

end Registry

namespace Host

variable {w : Host} {r : RegistryId}

theorem registry?_put (w : Host) {reg : Registry} (ne : r ≠ w.nextRegistry) :
    (w.registries.put w.nextRegistry reg).get? r = w.registry? r :=
  Table.get?_put_other _ _ ne

/-- A registry in whose queue nobody waits has nothing to reclaim. -/
theorem reclaim_of_empty {reg : Registry} (found : w.registry? r = some reg)
    (empty : reg.queue = []) : w.reclaim r = (0, w) := by
  simp only [reclaim, found, empty, List.isEmpty_nil, if_true]

/-- Reclaiming drains the registry, and lets the values of the boxes go after that. What
dies of it is queued again, as often as the registry watched it. -/
theorem registry?_reclaim_same {reg : Registry} (found : w.registry? r = some reg) :
    ∃ pushed, Host.registry? (w.reclaim r).2 r = some (reg.drained.enqueueAll pushed) ∧
      ∀ id, pushed.count id = if (w.reclaim r).2.isAlive id then 0 else w.heap.watches r id := by
  rcases w.reclaim_cases r with ⟨same, empty⟩ | ⟨reg', found', -, same⟩
  · rw [same, reg.drained_of_empty (empty reg found)]
    refine ⟨[], by simpa using found, fun id => ?_⟩
    cases alive : w.isAlive id with
    | true => rfl
    | false => simp [Heap.watches, (Heap.isAlive_eq_false _ id).1 alive]
  · cases Option.some.inj (found.symm.trans found')
    have heard := registry?_release (w.modifyRegistry r fun _ => reg.drained) reg.released r
    rw [registry?_modifyRegistry_same, found] at heard
    rw [same]
    exact ⟨_, heard, count_pushes_release _ _ r⟩

theorem registry?_reclaim_other (w : Host) {q : RegistryId} (ne : r ≠ q) :
    ∃ pushed, Host.registry? (w.reclaim q).2 r = (w.registry? r).map (·.enqueueAll pushed) := by
  have unchanged : w.registry? r = (w.registry? r).map (·.enqueueAll []) := by
    cases w.registry? r <;> simp
  rcases w.reclaim_cases q with ⟨same, -⟩ | ⟨reg, -, -, same⟩
  · rw [same]
    exact ⟨[], unchanged⟩
  · have heard := registry?_release (w.modifyRegistry q fun _ => reg.drained) reg.released r
    rw [registry?_modifyRegistry_other w _ ne] at heard
    rw [same]
    exact ⟨_, heard⟩

/-- Joining a pair enters it, and the queue hears of what died with the pair in the way, as often
as the registry watched it. -/
theorem registry?_join_same {reg : Registry} (found : w.registry? r = some reg)
    (box value : ObjectId) (pairs : Pairing) (released : Option ObjectId) :
    ∃ pushed, Host.registry? (w.join r box value pairs released) r =
      some ({ reg with pairing := pairs.insert box value }.enqueueAll pushed) ∧
      ∀ id, pushed.count id =
        if (w.join r box value pairs released).isAlive id then 0 else w.heap.watches r id := by
  have entered : Host.registry? (w.enter r box value pairs) r =
      some { reg with pairing := pairs.insert box value } := by
    refine (registry?_modifyRegistry_same (w.retain [value]) r _).trans ?_
    have retained : Host.registry? (w.retain [value]) r = some reg := found
    rw [retained, Option.map_some]
  have heard := registry?_release (w.enter r box value pairs) released.toList r
  rw [entered] at heard
  refine ⟨_, heard, fun id => ?_⟩
  have watched : (w.enter r box value pairs).heap.watches r id = w.heap.watches r id :=
    w.heap.watches_retain [value] r id
  have alive : (w.join r box value pairs released).isAlive id =
      ((w.enter r box value pairs).release released.toList).isAlive id := Heap.isAlive_modify _ _ _ _
  rw [count_pushes_release, watched, alive]

theorem registry?_join_other (w : Host) {q : RegistryId} (ne : r ≠ q) (box value : ObjectId)
    (pairs : Pairing) (released : Option ObjectId) :
    ∃ pushed, Host.registry? (w.join q box value pairs released) r =
      (w.registry? r).map (·.enqueueAll pushed) := by
  have entered : Host.registry? (w.enter q box value pairs) r = w.registry? r :=
    registry?_modifyRegistry_other (w.retain [value]) _ ne
  have heard := registry?_release (w.enter q box value pairs) released.toList r
  rw [entered] at heard
  exact ⟨_, heard⟩

theorem registry?_unpair_same {reg : Registry} (found : w.registry? r = some reg)
    {box value : ObjectId} (paired : reg.pairing.values.get? box = some value) :
    Host.registry? (w.unpair r box).2 r =
      some { reg with pairing := (reg.pairing.remove box).2 } := by
  have pairing : w.pairing r = reg.pairing := by
    rw [Host.pairing, found]
    rfl
  have removed : (reg.pairing.remove box).1 = some value := by
    rw [Pairing.remove, paired]
  rw [unpair, pairing]
  cases h : reg.pairing.remove box with
  | mk first pairs =>
    rw [h] at removed
    cases removed
    refine (registry?_modifyRegistry_same w r fun reg => { reg with pairing := pairs }).trans ?_
    rw [found, Option.map_some]

theorem registry?_unpair_other (w : Host) {q : RegistryId} (ne : r ≠ q) (box : ObjectId) :
    Host.registry? (w.unpair q box).2 r = w.registry? r := by
  rw [unpair]
  split
  · rfl
  · exact registry?_modifyRegistry_other w _ ne

theorem registry?_closeRegistry_same (w : Host) (r : RegistryId) :
    Host.registry? (w.closeRegistry r) r = none := by
  rw [closeRegistry]
  cases found : w.registry? r with
  | none => exact found
  | some reg =>
    have gone : Host.registry? { w with registries := w.registries.erase r } r = none :=
      Table.get?_erase_same _ _
    have heard := registry?_release { w with registries := w.registries.erase r }
      reg.pairing.values.values r
    rwa [gone, Option.map_none] at heard

theorem registry?_closeRegistry_other (w : Host) {q : RegistryId} (ne : r ≠ q) :
    ∃ pushed, Host.registry? (w.closeRegistry q) r = (w.registry? r).map (·.enqueueAll pushed) := by
  rw [closeRegistry]
  cases w.registry? q with
  | none => exact ⟨[], by cases w.registry? r <;> simp⟩
  | some reg =>
    have left : Host.registry? { w with registries := w.registries.erase q } r = w.registry? r :=
      Table.get?_erase_other _ ne
    have heard := registry?_release { w with registries := w.registries.erase q }
      reg.pairing.values.values r
    rw [left] at heard
    exact ⟨_, heard⟩

end Host

namespace Move

variable {d : Deed} {c c' : Client} {r : RegistryId}

/-- A registry that a move neither edits nor closes at most hears of deaths. -/
theorem elsewhere (m : Move d c c')
    (unopened : ∀ config, d = .openRegistry config → r ≠ c.host.nextRegistry)
    (unedited : d.edited? ≠ some r) (kept : d ≠ .closeRegistry r) :
    ∃ pushed, c'.host.registry? r = (c.host.registry? r).map (·.enqueueAll pushed) := by
  have same : ∀ {w' : Host}, w'.registry? r = c.host.registry? r →
      ∃ pushed, w'.registry? r = (c.host.registry? r).map (·.enqueueAll pushed) := by
    intro w' same
    exact ⟨[], by rw [same]; cases c.host.registry? r <;> simp⟩
  cases m with
  | retain | create | freeze | prevent | finalize | remark => exact same rfl
  | release | write | store => exact ⟨_, Host.registry?_release _ _ r⟩
  | openRegistry => exact same (Host.registry?_put _ (unopened _ rfl))
  | @closeRegistry _ w q =>
    have ne : r ≠ q := fun h => kept (h ▸ rfl)
    exact w.registry?_closeRegistry_other ne
  | @tag _ w q id t reg found free alive =>
    have ne : r ≠ q := fun h => unedited (h ▸ rfl)
    exact same (Host.registry?_modifyRegistry_other w _ ne)
  | @join _ w q box value reg pairs released found fresh ne' held alive =>
    have ne : r ≠ q := fun h => unedited (h ▸ rfl)
    exact w.registry?_join_other ne box value pairs released
  | @unpair _ w q box value reg found paired =>
    have ne : r ≠ q := fun h => unedited (h ▸ rfl)
    exact same (w.registry?_unpair_other ne box)
  | @drain _ w q =>
    have ne : r ≠ q := fun h => unedited (h ▸ rfl)
    exact w.registry?_reclaim_other ne

/-- All that a move can do to an open registry. -/
theorem edits (m : Move d c c') (s : c.Sound) {reg : Registry}
    (found : c.host.registry? r = some reg) :
    (d = .closeRegistry r ∧ c'.host.registry? r = none) ∨
      ∃ edited pushed, reg.Edit r c.host.isAlive d edited ∧
        c'.host.registry? r = some (edited.enqueueAll pushed) := by
  by_cases closed : d = .closeRegistry r
  · subst closed
    cases m with
    | @closeRegistry _ w _ => exact Or.inl ⟨rfl, w.registry?_closeRegistry_same r⟩
  refine Or.inr ?_
  by_cases edited : d.edited? = some r
  · cases m with
    | retain | create | freeze | prevent | finalize | remark => cases edited
    | release | write | store | openRegistry | closeRegistry => cases edited
    | @tag _ w q id t reg' found' free alive =>
      cases edited
      cases Option.some.inj (found.symm.trans found')
      have tagged := Host.registry?_modifyRegistry_same w r
        fun reg => { reg with tags := reg.tags.put id t }
      rw [found', Option.map_some] at tagged
      exact ⟨_, [], .tag free, tagged.trans (by simp)⟩
    | @join _ w q box value reg' pairs released found' fresh ne kept alive =>
      cases edited
      cases Option.some.inj (found.symm.trans found')
      obtain ⟨pushed, entered, -⟩ := Host.registry?_join_same found' box value pairs released
      exact ⟨_, pushed, .join ((s.attended r reg found).mirrored.admits fresh) ne, entered⟩
    | @unpair _ w q box value reg' found' paired =>
      cases edited
      cases Option.some.inj (found.symm.trans found')
      exact ⟨_, [], .unpair paired, (Host.registry?_unpair_same found' paired).trans (by simp)⟩
    | drain =>
      cases edited
      obtain ⟨pushed, swept, -⟩ := Host.registry?_reclaim_same found
      exact ⟨_, pushed, .drain, swept⟩
  · obtain ⟨pushed, heard⟩ :=
      m.elsewhere (fun _ _ => Nat.ne_of_lt (s.numbered r reg found)) edited closed
    rw [found, Option.map_some] at heard
    exact ⟨reg, pushed, .elsewhere edited, heard⟩

theorem nextRegistry_le (m : Move d c c') : c.host.nextRegistry ≤ c'.host.nextRegistry := by
  have same : ∀ {n : RegistryId}, n = c.host.nextRegistry → c.host.nextRegistry ≤ n :=
    fun h => Nat.le_of_eq h.symm
  cases m with
  | retain | create | freeze | prevent | finalize | remark | tag => exact Nat.le_refl _
  | release | write | store | join => exact same (Host.release_nextRegistry _ _)
  | openRegistry => exact Nat.le_succ _
  | @closeRegistry _ w q =>
    rw [Host.closeRegistry]
    cases w.registry? q with
    | none => exact Nat.le_refl _
    | some reg => exact same (Host.release_nextRegistry _ _)
  | @unpair _ w q box value reg found paired =>
    rw [Host.unpair]
    split <;> exact Nat.le_refl _
  | @drain _ w q =>
    rcases w.reclaim_cases q with ⟨still, -⟩ | ⟨reg, -, -, told⟩
    · exact Nat.le_of_eq (congrArg (fun done => Host.nextRegistry done.2) still).symm
    · rw [told]
      exact same (Host.release_nextRegistry _ _)

/-- A registry that is not there before a move is not there after it, unless the move opens it. -/
theorem absent (m : Move d c c') (absent : c.host.registry? r = none) :
    c'.host.registry? r = none ∨
      ∃ config, d = .openRegistry config ∧ r = c.host.nextRegistry ∧
        c'.host.registry? r = some (.new config) := by
  by_cases opens : ∃ config, d = .openRegistry config ∧ r = c.host.nextRegistry
  · obtain ⟨config, rfl, rfl⟩ := opens
    cases m with
    | openRegistry => exact Or.inr ⟨config, rfl, rfl, Table.get?_put_same _ _ _⟩
  refine Or.inl ?_
  by_cases again : d = .closeRegistry r
  · subst again
    cases m with
    | @closeRegistry _ w _ => exact w.registry?_closeRegistry_same r
  by_cases edited : d.edited? = some r
  · cases m with
    | retain | create | freeze | prevent | finalize | remark => cases edited
    | release | write | store | openRegistry | closeRegistry => cases edited
    | tag found | join found | unpair found =>
      cases edited
      rw [found] at absent
      cases absent
    | @drain _ w q =>
      cases edited
      have nothing : (w.reclaim r).2 = w := by
        rw [Host.reclaim]
        simp only [absent]
      rw [nothing]
      exact absent
  · obtain ⟨pushed, heard⟩ :=
      m.elsewhere (fun config is new => opens ⟨config, is, new⟩) edited again
    rw [heard, absent, Option.map_none]

/-- A registry that is gone stays gone. -/
theorem closed (m : Move d c c') (old : r < c.host.nextRegistry)
    (absent : c.host.registry? r = none) : c'.host.registry? r = none := by
  rcases m.absent absent with gone | ⟨config, -, new, -⟩
  · exact gone
  · exact absurd old (Nat.not_lt_of_le (Nat.le_of_eq new.symm))

end Move

namespace Moves

variable {allowed : Deed → Prop} {c c' : Client} {r : RegistryId}

theorem nextRegistry_le (m : Moves allowed c c') : c.host.nextRegistry ≤ c'.host.nextRegistry := by
  induction m with
  | refl => exact Nat.le_refl _
  | tail _ last ih =>
    obtain ⟨d, -, move⟩ := last
    exact Nat.le_trans ih move.nextRegistry_le

/-- A registry stays open if nothing closes it. -/
theorem stays_open (m : Moves allowed c c') (s : c.Sound) (spared : ¬allowed (.closeRegistry r))
    (found : ∃ reg, c.host.registry? r = some reg) : ∃ reg, c'.host.registry? r = some reg := by
  induction m with
  | refl => exact found
  | tail first last ih =>
    obtain ⟨d, ok, move⟩ := last
    obtain ⟨reg, found⟩ := ih
    rcases move.edits (sound first s) found with ⟨rfl, -⟩ | ⟨edited, pushed, -, found'⟩
    · exact absurd ok spared
    · exact ⟨_, found'⟩

end Moves

end Compound
