import Compound.Proofs.Enrollments

/-!
What registries have entries about. Entries are made by enrolling and by nothing else, so a step
enrolls an object in a registry exactly if it gives it a tag there and it had none, or makes it a
box there and it was none.
-/
namespace Compound

/-- What holds of new registries, whatever the queue has heard, and what an edit preserves, a move
preserves that makes such an edit. -/
theorem Move.preserves {d : Deed} {c c' : Client} {r : RegistryId} (m : Move d c c') (s : c.Sound)
    {P : Registry → Prop} (new : ∀ config, P (.new config))
    (deaf : ∀ reg ids, P reg → P (reg.enqueueAll ids))
    (edit : ∀ reg alive edited, reg.Edit r alive d edited → P reg → P edited)
    (before : ∀ reg, c.host.registry? r = some reg → P reg) :
    ∀ reg, c'.host.registry? r = some reg → P reg := by
  intro reg' found'
  cases found : c.host.registry? r with
  | some reg =>
    rcases m.edits s found with ⟨-, gone⟩ | ⟨edited, pushed, edits, same⟩
    · rw [gone] at found'
      cases found'
    · cases Option.some.inj (same.symm.trans found')
      exact deaf _ _ (edit reg _ edited edits (before reg found))
  | none =>
    rcases m.absent found with gone | ⟨config, -, -, opened⟩
    · rw [gone] at found'
      cases found'
    · cases Option.some.inj (opened.symm.trans found')
      exact new config

namespace Registry.Edit

variable {reg edited : Registry} {r : RegistryId} {alive : ObjectId → Bool} {d : Deed}
  {id : ObjectId}

theorem untagged (e : reg.Edit r alive d edited) (other : d.enrolls? ≠ some (r, id))
    (free : reg.tags.get? id = none) : edited.tags.get? id = none := by
  cases e with
  | @tag j t =>
    have ne : id ≠ j := by
      rintro rfl
      exact other rfl
    exact (Table.get?_put_other _ _ ne).trans free
  | drain => rw [get?_tags_drained, free, ite_self]
  | elsewhere | join | unpair => exact free

theorem unboxed (e : reg.Edit r alive d edited) (other : d.enrolls? ≠ some (r, id))
    (free : reg.pairing.values.get? id = none) : edited.pairing.values.get? id = none := by
  cases e with
  | @join box value pairs released admits ne =>
    have ne : id ≠ box := by
      rintro rfl
      exact other rfl
    cases paired : (pairs.insert box value).values.get? id with
    | none => rfl
    | some v =>
      rw [Pairing.insert, Table.get?_put_other _ _ ne] at paired
      have before := ((admits.others id v).1 paired).1
      rw [free] at before
      cases before
  | unpair => rw [Pairing.get?_values_remove, free, ite_self]
  | drain => rw [get?_values_drained, free, ite_self]
  | elsewhere | tag => exact free

end Registry.Edit

namespace Host

variable {w : Host} {r : RegistryId} {id : ObjectId}

theorem isUntagged_iff : w.isUntagged (r, id) = true ↔
    ∀ reg, w.registry? r = some reg → reg.tags.get? id = none := by
  rw [isUntagged, Option.isNone_iff_eq_none, tagOf?, Option.bind_eq_none_iff]

theorem isUnboxed_iff : w.isUnboxed (r, id) = true ↔
    ∀ reg, w.registry? r = some reg → reg.pairing.values.get? id = none := by
  cases found : w.registry? r with
  | none =>
    have unboxed : w.isUnboxed (r, id) = true := by
      rw [isUnboxed, pairing_of_none found]
      rfl
    exact iff_of_true unboxed fun reg opened => by cases opened
  | some reg => simp [isUnboxed, pairing_of_found found, Pairing.hasBox, Table.contains]

end Host

/-- A host has no entry about a subject if another one has none, of tags and of boxes alike. -/
structure Host.Omits (w w' : Host) (p : RegistryId × ObjectId) : Prop where
  untagged : w.isUntagged p = true → w'.isUntagged p = true
  unboxed : w.isUnboxed p = true → w'.isUnboxed p = true

theorem Host.Omits.trans {w w' w'' : Host} {p : RegistryId × ObjectId} (o : w.Omits w' p)
    (o' : w'.Omits w'' p) : w.Omits w'' p :=
  ⟨fun h => o'.untagged (o.untagged h), fun h => o'.unboxed (o.unboxed h)⟩

section Entering

variable {c c' : Client} {p : RegistryId × ObjectId}

/-- A deed that does not enroll the subject makes no entry about it. -/
theorem Move.omits {d : Deed} (m : Move d c c') (s : c.Sound) (other : d.enrolls? ≠ some p) :
    c.host.Omits c'.host p := by
  obtain ⟨r, id⟩ := p
  refine ⟨fun untagged => ?_, fun unboxed => ?_⟩
  · rw [Host.isUntagged_iff] at untagged ⊢
    exact m.preserves s (fun _ => rfl) (fun _ _ free => free)
      (fun _ _ _ edit free => edit.untagged other free) untagged
  · rw [Host.isUnboxed_iff] at unboxed ⊢
    exact m.preserves s (fun _ => rfl) (fun _ _ free => free)
      (fun _ _ _ edit free => edit.unboxed other free) unboxed

theorem Moves.omits {allowed : Deed → Prop} (m : Moves allowed c c') (s : c.Sound)
    (other : ∀ d, allowed d → d.enrolls? ≠ some p) : c.host.Omits c'.host p := by
  induction m with
  | refl => exact ⟨id, id⟩
  | tail first last ih =>
    obtain ⟨d, ok, move⟩ := last
    exact ih.trans (move.omits (Moves.sound first s) (other d ok))

theorem Enrolling.omits {asked : Deed → Prop} {subject : Option (RegistryId × ObjectId)}
    (e : Enrolling Deed.Casual asked subject c c') (s : c.Sound) (other : subject ≠ some p) :
    c.host.Omits c'.host p := by
  have casual : ∀ d : Deed, d.Casual → d.enrolls? ≠ some p := fun d h enrolls => by
    rw [h.unenrolling] at enrolls
    cases enrolls
  cases e with
  | nobody m => exact m.omits s casual
  | one before m ok enrolls after =>
    have s₁ := before.sound s
    have entered := (before.omits s casual).trans (m.omits s₁ (enrolls ▸ other))
    exact entered.trans (after.omits (m.sound s₁) fun d light => casual d light.casual)

/-- Light moves change no entry. -/
theorem Moves.entries_of_light (m : Moves Deed.Light c c') :
    c'.host.isUntagged p = c.host.isUntagged p ∧ c'.host.isUnboxed p = c.host.isUnboxed p := by
  induction m with
  | refl => exact ⟨rfl, rfl⟩
  | @tail c₁ c₂ first last ih =>
    obtain ⟨d, light, move⟩ := last
    obtain ⟨ids, heard⟩ := move.elsewhere (r := p.1)
      (fun _ opens => by subst opens; cases light) (by cases light <;> nofun)
      (by cases light <;> nofun)
    rw [← ih.1, ← ih.2, Host.isUntagged, Host.isUntagged, Host.isUnboxed, Host.isUnboxed,
      Host.tagOf?, Host.tagOf?, Host.pairing, Host.pairing, heard]
    cases c₁.host.registry? p.1 <;> exact ⟨rfl, rfl⟩

/-- A deed that enrolls a subject gives it a tag or makes it a box. -/
theorem Move.enters {d : Deed} (m : Move d c c') (enrolls : d.enrolls? = some p) :
    (∃ t, d = .tag p.1 p.2 t ∧ c'.host.isUntagged p = false) ∨
      ∃ value, d = .join p.1 p.2 value ∧ c'.host.isUnboxed p = false := by
  cases m with
  | @tag _ w r id t reg found free alive =>
    cases enrolls
    have tagged := Host.registry?_modifyRegistry_same w r
      fun reg => { reg with tags := reg.tags.put id t }
    rw [found, Option.map_some] at tagged
    have tag : Host.tagOf? (w.modifyRegistry r fun reg => { reg with tags := reg.tags.put id t }) r
        id = some t := (Host.tagOf?_of_found tagged id).trans (Table.get?_put_same _ _ _)
    refine Or.inl ⟨t, rfl, ?_⟩
    rw [Host.isUntagged]
    exact congrArg Option.isNone tag
  | @join _ w r box value reg pairs released found fresh ne kept alive =>
    cases enrolls
    obtain ⟨ids, entered, -⟩ := Host.registry?_join_same found box value pairs released
    refine Or.inr ⟨value, rfl, ?_⟩
    have paired : (pairs.insert box value).values.get? box = some value :=
      Table.get?_put_same _ _ _
    rw [Host.isUnboxed, Host.pairing_of_found entered, Registry.enqueueAll_pairing,
      Pairing.hasBox, Table.contains, paired]
    rfl
  | _ => cases enrolls

end Entering

namespace Session

variable {s : Session} {t : Step} {r : RegistryId} {id : ObjectId}

/-- An object that a step enrolls by a tag had none before. -/
theorem untagged_of_enrolled {p : RegistryId × ObjectId} {tag : Tag}
    (enrolled : s.enrolled? t = some p) (allows : s.Allows t (.tag r id tag)) :
    s.host.isUntagged p = true := by
  rw [enrolled?] at enrolled
  rcases allows with plain | asks
  · cases plain
  · cases t with
    | tagRecord | tagTuple =>
      cases result : (s.answer _).1.result with
      | error =>
        rw [result] at enrolled
        cases enrolled
      | ok =>
        rw [result] at enrolled
        exact (Option.filter_eq_some_iff.1 enrolled).2
    | openRegistry | closeRegistry | pair | box | release | reclaim => simp [Asks] at asks
    | _ => exact asks.elim

/-- And one that a step enrolls as a box was none. -/
theorem unboxed_of_enrolled {p : RegistryId × ObjectId} {value : ObjectId}
    (enrolled : s.enrolled? t = some p) (allows : s.Allows t (.join r id value)) :
    s.host.isUnboxed p = true := by
  rw [enrolled?] at enrolled
  rcases allows with plain | asks
  · cases plain
  · cases t with
    | pair name h v =>
      cases result : (s.answer (.pair name h v)).1.result with
      | error =>
        rw [result] at enrolled
        cases enrolled
      | ok =>
        rw [result] at enrolled
        exact (Option.filter_eq_some_iff.1 enrolled).2
    | box name v keep =>
      cases result : (s.answer (.box name v keep)).1.result with
      | error =>
        rw [result] at enrolled
        cases enrolled
      | ok reply =>
        rw [result] at enrolled
        cases reply with
        | value shown =>
          cases shown with
          | object box => exact (Option.filter_eq_some_iff.1 enrolled).2
          | _ => cases enrolled
        | _ => cases enrolled
    | openRegistry | closeRegistry | tagRecord | tagTuple | release | reclaim =>
      simp [Asks] at asks
    | _ => exact asks.elim

/-- A step enrolls an object in a registry exactly if the object gets an entry by it, a tag or a
place among the boxes, where it had none. So a step that fails enrolls nobody, nor does one that
asks for what is there. -/
theorem enrolled_iff (sound : s.Sound) (t : Step) (p : RegistryId × ObjectId) :
    s.enrolled? t = some p ↔
      (s.host.isUntagged p = true ∧ (s.answer t).2.host.isUntagged p = false) ∨
        (s.host.isUnboxed p = true ∧ (s.answer t).2.host.isUnboxed p = false) := by
  have prelude := moves_prelude s t
  have call := enrolling_answer sound t
  constructor
  · intro enrolled
    rw [enrolled] at call
    cases call with
    | @one _ c₁ c₂ _ d _ before m ok enrolls after =>
      obtain ⟨tags, boxes⟩ := after.entries_of_light (p := p)
      rcases m.enters enrolls with ⟨tag, rfl, entered⟩ | ⟨value, rfl, entered⟩
      · exact Or.inl ⟨untagged_of_enrolled enrolled ok, tags.trans entered⟩
      · exact Or.inr ⟨unboxed_of_enrolled enrolled ok, boxes.trans entered⟩
  · intro entered
    by_contra other
    have swept : s.host.Omits (s.prelude t) p := by
      refine prelude.omits sound.client ?_
      rintro d (rfl | ⟨q, -, rfl⟩) <;> exact nofun
    have omits : s.host.Omits (s.answer t).2.host p :=
      swept.trans (call.omits (prelude.sound sound.client) other)
    rcases entered with ⟨free, tagged⟩ | ⟨free, boxed⟩
    · rw [omits.untagged free] at tagged
      cases tagged
    · rw [omits.unboxed free] at boxed
      cases boxed

end Session

end Compound
