import Montage.Proofs.Registry.Effects

/-!
# Counts by encoders

The registry does not know of encoders: it decides by a job's state and by its failure what a job
counts as when it ends (`counts`). `Balanced` compares that with whose encoder was started. A job
whose encoder was started counts as a render when it ends, and as an error unless it has been
completed; any other one counts as rejected. A call keeps this if it ends a job only in a way that
suits what its encoder has come to (`Call.Suits`, `balanced_apply`).
-/
namespace Montage

/-- The numbers that are kept of the jobs that have ended. -/
inductive Counter where
  | renders
  /-- the renders that were not completed -/
  | errors
  | rejected

namespace Counter

/-- What a counter stands at. -/
def kept (s : Stats) : Counter → Nat
  | renders => s.count
  | errors => s.errors
  | rejected => s.rejected

/-- Whether a counter takes a job in a state, given whether its encoder was started. -/
def takes (started : Bool) (state : JobState) : Counter → Bool
  | renders => started && state.isTerminal
  | errors => started && state = .failed
  | rejected => !started && state.isTerminal

variable {started : Bool} {state : JobState}

/-- No counter takes a job that has not ended. -/
theorem takes_live (live : state.isTerminal = false) (t : Counter) : t.takes started state = false := by
  cases t with
  | renders => simp [takes, live]
  | errors =>
    have other : state ≠ .failed := fun failed => by rw [failed] at live; cases live
    simp [takes, other]
  | rejected => simp [takes, live]

/-- A job that is completed is one of the renders alone. -/
theorem kept_completed (s : Stats) (elapsed : Float) (time : Instant) (t : Counter) :
    t.kept (s.render true elapsed time) =
      t.kept s + if t.takes true .completed then 1 else 0 := by
  cases t <;> rfl

/-- A job that fails is an error among the renders, or it is rejected. -/
theorem kept_failed (s : Stats) (elapsed : Float) (time : Instant) (counted : Bool) (t : Counter) :
    t.kept (if counted then s.render false elapsed time else s.reject) =
      t.kept s + if t.takes counted .failed then 1 else 0 := by
  cases counted <;> cases t <;> rfl

end Counter

namespace Registry

variable {started started' : String → Bool} {r r' : Registry} {c : Call} {j j' : Job}

/-- Each counter stands at the number of the jobs that it takes, given whose encoder was started. -/
structure Balanced (started : String → Bool) (r : Registry) : Prop where
  distinct : r.Distinct
  counts : ∀ t : Counter, t.kept r.stats = r.jobs.countP fun j => t.takes (started j.id) j.state

/-- A call suits what the encoder of its job has come to: only a job whose encoder was started is
completed, and a failure counts as a render just if it was. -/
def Call.Suits (started : String → Bool) (r : Registry) : Call → Prop
  | complete id _ => started id = true
  | fail id f => ∀ j, r.find? id = some j → j.state.isTerminal = false →
      Registry.counts j.state f = started id
  | _ => True

theorem balanced_fresh (s : Settings) (limit : Option Int) : (fresh s limit).Balanced started :=
  ⟨List.nodup_nil, fun t => by cases t <;> rfl⟩

namespace Balanced

/-- Nothing has happened to jobs and counts. -/
theorem of_same (h : r.Balanced started) (jobs : r'.jobs = r.jobs) (stats : r'.stats = r.stats) :
    r'.Balanced started := by
  refine ⟨?_, fun t => by rw [jobs, stats, h.counts]⟩
  rw [Distinct, jobs]
  exact h.distinct

/-- Only of jobs that have ended it matters whether their encoders were started. -/
theorem congr (h : r.Balanced started) (same : ∀ id j, r.find? id = some j →
    j.state.isTerminal = true → started' id = started id) : r.Balanced started' := by
  refine ⟨h.distinct, fun t => ?_⟩
  rw [h.counts]
  refine List.countP_congr fun j hj => ?_
  cases terminal : j.state.isTerminal with
  | false => simp only [Counter.takes_live terminal]
  | true => rw [same j.id j (known_of_mem h.distinct hj) terminal]

/-- The record of one job has changed, and the counts with it. -/
theorem put (h : r.Balanced started) (known : r.find? j.id = some j)
    (jobs : r'.jobs = (r.put j').jobs) (own : j'.id = j.id)
    (counts : ∀ t : Counter, t.kept r'.stats + (if t.takes (started j.id) j.state then 1 else 0) =
      t.kept r.stats + if t.takes (started j.id) j'.state then 1 else 0) : r'.Balanced started := by
  refine ⟨?_, fun t => ?_⟩
  · rw [Distinct, jobs, ids_put]
    exact h.distinct
  · have change := countP_put h.distinct known own (fun j => t.takes (started j.id) j.state) _
      fun _ _ _ => rfl
    have counted := counts t
    rw [jobs]
    rw [← h.counts, own] at change
    omega

/-- A job that has not ended goes on. -/
theorem keep (h : r.Balanced started) (known : r.find? j.id = some j) (own : j'.id = j.id)
    (live : j.state.isTerminal = false) (live' : j'.state.isTerminal = false) :
    (r.put j').Balanced started :=
  h.put known rfl own fun t => by simp only [Counter.takes_live live, Counter.takes_live live']; rfl

/-- If all jobs have ended, each is counted by its encoder. -/
theorem ended (h : r.Balanced started) (ended : ∀ j ∈ r.jobs, j.state.isTerminal = true) :
    r.stats.count = r.jobs.countP (started ·.id) ∧
      r.stats.errors = r.jobs.countP (fun j => started j.id && j.state ≠ .completed) ∧
      r.stats.rejected = r.jobs.countP (fun j => !started j.id) := by
  refine ⟨(h.counts .renders).trans ?_, (h.counts .errors).trans ?_, (h.counts .rejected).trans ?_⟩
  · exact List.countP_congr fun j hj => by simp [Counter.takes, ended j hj]
  · refine List.countP_congr fun j hj => ?_
    have terminal := ended j hj
    cases state : j.state with
    | completed => simp [Counter.takes]
    | failed => simp [Counter.takes]
    | _ => rw [state] at terminal; cases terminal
  · exact List.countP_congr fun j hj => by simp [Counter.takes, ended j hj]

end Balanced

/-- A call keeps the counts balanced if it suits what the encoder of its job has come to. -/
theorem balanced_apply (h : r.Balanced started) (suits : c.Suits started r) (now : Float) :
    (c.apply r now).Balanced started := by
  have distinct := distinct_apply h.distinct c now
  generalize hr : c.apply r now = r' at distinct
  have effect := hr ▸ effect_apply c r now
  cases effect with
  | refused jobs stats => exact h.of_same jobs stats
  | enrolled j new state jobs stats =>
    refine ⟨distinct, fun t => ?_⟩
    have live : t.takes (started j.id) j.state = false := Counter.takes_live (by rw [state]; rfl) t
    rw [stats, jobs, List.countP_append, ← h.counts, List.countP_singleton, live]
    rfl
  | moved j known next live result =>
    have before : j.state.isTerminal = false := by
      cases state : j.state <;> rw [state] at next <;> first | rfl | cases next
    exact result ▸ h.keep known rfl before live
  | reported j known state result =>
    have live : j.state.isTerminal = false := by rw [state]; rfl
    exact result ▸ h.keep known rfl live live
  | warned j known live result => exact result ▸ h.keep known rfl live live
  | completed j known state jobs stats =>
    refine h.put known jobs rfl fun t => ?_
    have live : t.takes (started j.id) j.state = false := Counter.takes_live (by rw [state]; rfl) t
    have own : started j.id = true := suits
    rw [stats, live, own, Counter.kept_completed]
    rfl
  | @failed failure _ j known live jobs stats =>
    refine h.put known jobs rfl fun t => ?_
    have own : counts j.state failure = started j.id := suits j known live
    rw [stats, Counter.takes_live live, Counter.kept_failed, own]
    rfl

end Registry
end Montage
