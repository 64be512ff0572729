import Compound.Proofs.Steps

/-!
Runs of scripts, and the sessions that they reach. Every answer of a script is given by a
session that was reached, and every session that is reached is sound, whatever the script.
-/
namespace Compound.Session

/-- The session after a script. -/
def run (s : Session) (ts : List Step) : Session := ts.foldl (fun s t => (s.answer t).2) s

@[simp] theorem run_cons (s : Session) (t : Step) (ts : List Step) :
    s.run (t :: ts) = (s.answer t).2.run ts := rfl

theorem run_append (s : Session) (ts us : List Step) : s.run (ts ++ us) = (s.run ts).run us :=
  List.foldl_append

/-- Some script leads to the session. -/
def Reachable (s : Session) : Prop := ∃ reclaiming ts, s = (start reclaiming).run ts

theorem Reachable.run {s : Session} (h : s.Reachable) (ts : List Step) : (s.run ts).Reachable := by
  obtain ⟨reclaiming, us, rfl⟩ := h
  exact ⟨reclaiming, us ++ ts, (run_append _ us ts).symm⟩

/-- The step releases a box in a registry. -/
def Releases (s : Session) (t : Step) (r : RegistryId) (box : ObjectId) : Prop :=
  ∃ name h keep, t = .release name h keep ∧ s.target name h = .ok (r, box)

/-- No step of a script releases a box in a registry. -/
def Spares (r : RegistryId) (box : ObjectId) : Session → List Step → Prop
  | _, [] => True
  | s, t :: ts => ¬s.Releases t r box ∧ Spares r box (s.answer t).2 ts

theorem releases_of_allows {s : Session} {t : Step} {r : RegistryId} {box : ObjectId}
    (allows : s.Allows t (.unpair r box)) : s.Releases t r box := by
  rcases allows with plain | asks
  · cases plain
  · cases t with
    | release name h keep =>
      obtain ⟨q, b, found, same⟩ := asks
      cases same
      exact ⟨name, h, keep, rfl, found⟩
    | openRegistry | closeRegistry | tagRecord | tagTuple | pair | box | reclaim =>
      simp [Asks] at asks
    | _ => exact asks.elim

variable {s : Session}

theorem sound_empty : empty.Sound := by
  have closed : ∀ r, Host.registry? Host.empty r = none := fun _ => rfl
  have client : empty.client.Sound := by
    refine ⟨Heap.Accounted.empty, fun r reg found => ?_, fun r reg found => ?_⟩
    · cases (closed r).symm.trans found
    · cases (closed r).symm.trans found
  exact ⟨client, fun p hp => (List.not_mem_nil hp).elim, List.nodup_nil⟩

theorem sound_start (reclaiming : Option Bool) : (start reclaiming).Sound := by
  cases reclaiming with
  | none => exact sound_empty
  | some b => exact sound_addRegistry sound_empty _ _

/-- Forgetting what was logged changes nothing else. -/
theorem leads_quiet (s : Session) : Leads Deed.plain s { s with host := s.host.quiet } :=
  Leads.acts (Host.moves_remark _ _ _)

theorem sound_quiet (sound : s.Sound) : Session.Sound { s with host := s.host.quiet } :=
  (leads_quiet s).sound sound fun r => by simp [Deed.plain, Deed.isPlain]

theorem moves_answer (sound : s.Sound) (t : Step) :
    Moves (s.Allows t) s.client (s.answer t).2.client := by
  have quieted := (leads_quiet s).moves.mono fun d (h : d.plain) => (Or.inl h : s.Allows t d)
  exact quieted.trans (moves_step (sound_quiet sound) t)

theorem sound_answer (sound : s.Sound) (t : Step) : (s.answer t).2.Sound :=
  sound_step (sound_quiet sound) t

theorem sound_run (sound : s.Sound) (ts : List Step) : (s.run ts).Sound := by
  induction ts generalizing s with
  | nil => exact sound
  | cons t rest ih => exact ih (sound_answer sound t)

/-- A script is a run of moves. -/
theorem moves_run (sound : s.Sound) (ts : List Step) :
    Moves (fun _ => True) s.client (s.run ts).client := by
  induction ts generalizing s with
  | nil => exact .refl _
  | cons t rest ih =>
    exact ((moves_answer sound t).mono fun _ _ => trivial).trans (ih (sound_answer sound t))

/-- Every session that a script leads to is sound. -/
theorem Reachable.sound (h : s.Reachable) : s.Sound := by
  obtain ⟨reclaiming, ts, rfl⟩ := h
  exact sound_run (sound_start reclaiming) ts

/-- A run that spares a box is a run of moves that do not undo its pair. -/
theorem moves_run_sparing {r : RegistryId} {box : ObjectId} (sound : s.Sound) (ts : List Step)
    (spares : Spares r box s ts) :
    Moves (· ≠ .unpair r box) s.client (s.run ts).client := by
  induction ts generalizing s with
  | nil => exact .refl _
  | cons t rest ih =>
    have first : Moves (· ≠ .unpair r box) s.client (s.answer t).2.client := by
      refine (moves_answer sound t).mono fun d allows => ?_
      rintro rfl
      exact spares.1 (releases_of_allows allows)
    exact first.trans (ih (sound_answer sound t) spares.2)

end Compound.Session
