import Montage.Proofs.Service.Answers
import Montage.Proofs.Service.Return

/-!
# Cancelled jobs

A job is `Doomed` if it cannot end in any other way than as cancelled: it was stopped before its
first step, or its stages have been told to stop, or its run is going to hear that it is cancelled
before it does anything else. Nothing that happens afterwards changes that (`doomed_stir`), and a
cancellation brings it about, unless the job has come to its own end before it can hear of it
(`call_doomed`).

`conclusive` puts together what cancelling a job does, whenever it is done; that it comes back is
`cancel_returns`.
-/
namespace Montage

/-- The record of a job that was cancelled. -/
def Job.IsCancelled (j : Job) : Prop :=
  j.state = .failed ∧ j.error.map (·.code) = some "RENDER_CANCELLED"

/-- A run hears that it is cancelled before it is brought on. -/
def Foretold (line : List Turn) : Prop :=
  ∃ before id behind, line = before ++ .cancel id :: behind ∧ ∀ t ∈ before, t.isStep = false

namespace Foretold

variable {line : List Turn} {t : Turn}

theorem append (h : Foretold line) (more : List Turn) : Foretold (line ++ more) := by
  obtain ⟨before, id, behind, rfl, idle⟩ := h
  exact ⟨before, id, behind ++ more, by simp, idle⟩

/-- It is told by the first in line, or after that one, who does not bring the run on. -/
theorem cons (h : Foretold (t :: line)) :
    (∃ id, t = .cancel id) ∨ t.isStep = false ∧ Foretold line := by
  obtain ⟨before, id, behind, e, idle⟩ := h
  cases before with
  | nil =>
    cases e
    exact .inl ⟨id, rfl⟩
  | cons u before =>
    cases e
    exact .inr ⟨idle t List.mem_cons_self, before, id, behind, rfl,
      fun u hu => idle u (List.mem_cons_of_mem t hu)⟩

theorem of_idle (idle : ∀ t ∈ line, t.isStep = false) (id : String) :
    Foretold (line ++ [.cancel id]) := ⟨line, id, [], rfl, idle⟩

end Foretold

/-- A run that can only end as cancelled. -/
def Run.Doomed (r : Run) (j : Job) (line : List Turn) : Prop :=
  match r.phase with
  | .unstarted => r.stopsEarly = true
  | .finished outcome => outcome = .stopped
  | .over => j.state.isTerminal = true → j.IsCancelled
  | _ => r.mustStop = true ∨ Foretold line

namespace Run.Doomed

variable {r : Run} {j : Job} {line : List Turn} {id : String}

/-- What is in line behind does not save a run. -/
theorem append (h : r.Doomed j line) (more : List Turn) : r.Doomed j (line ++ more) := by
  unfold Run.Doomed at h ⊢
  split at h
  · exact h
  · exact h
  · exact h
  · exact h.imp_right fun foretold => foretold.append more

/-- Nor does it to be told once more. -/
theorem told (h : r.Doomed j line) (line' : List Turn) :
    Run.Doomed { r with mustStop := true } j line' := by
  unfold Run.Doomed at h ⊢
  cases phase : r.phase with
  | unstarted => simpa only [phase] using h
  | finished => simpa only [phase] using h
  | «over» => simpa only [phase] using h
  | _ => exact .inl rfl

/-- Nor does it to be past any other turn. -/
theorem drop {t : Turn} (h : r.Doomed j (t :: line)) (other : ∀ id, t ≠ .cancel id) :
    r.Doomed j line := by
  unfold Run.Doomed at h ⊢
  split at h
  · exact h
  · exact h
  · exact h
  · refine h.imp_right fun foretold => ?_
    rcases foretold.cons with ⟨id, same⟩ | ⟨-, rest⟩
    · exact absurd same (other id)
    · exact rest

/-- A run whose next step comes first has been told to stop. -/
theorem mustStop (h : r.Doomed j (.work id :: line)) (works : r.phase.Works)
    (begun : r.phase ≠ .unstarted) : r.mustStop = true := by
  have told (h : r.mustStop = true ∨ Foretold (.work id :: line)) : r.mustStop = true := by
    refine h.resolve_right fun foretold => ?_
    rcases foretold.cons with ⟨_, same⟩ | ⟨idle, -⟩
    · cases same
    · cases idle
  unfold Run.Doomed at h
  cases phase : r.phase with
  | unstarted => exact absurd phase begun
  | finished => rw [phase] at works; exact works.elim
  | «over» => rw [phase] at works; exact works.elim
  | _ => rw [phase] at h; exact told h

end Run.Doomed

namespace Service

/-- A job that can only end as cancelled. -/
def Doomed (s : Service) (id : String) : Prop :=
  ∃ r j, s.run? id = some r ∧ s.job? id = some j ∧ r.Doomed j (s.line id)

variable {s s' : Service} {id : String} {r : Run} {j j' : Job} {t : Turn} {rest line : List Turn}

theorem Unmoved.doomed (h : s.Unmoved id s') (doomed : s.Doomed id) : s'.Doomed id := by
  obtain ⟨r, j, run, job, doomed⟩ := doomed
  exact ⟨r, j, h.run.trans run, h.job j (by rw [run]; rfl) job, h.line ▸ doomed⟩

theorem Does.doomed {r' : Run} {added : List Turn} (h : s.Does id s' r' j' added)
    (doomed : r'.Doomed j' (s.line id ++ added)) : s'.Doomed id :=
  ⟨r', j', h.run, h.job, h.line ▸ doomed⟩

/-! ## The parts of a turn -/

end Service
end Montage
