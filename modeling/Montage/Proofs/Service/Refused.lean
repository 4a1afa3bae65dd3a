import Montage.Proofs.Service.Alone

/-!
# A job that is refused

If the timeline of a job has defects, its first stage ends at once (`locate_refused`). Where the job
is the only one of a service and someone waits for it, few turns are left to be served: the job
begins, fails, and the record is handed out (`wait_refused`). One whose time is up before it begins
is cancelled instead, whatever there is to say of its timeline.
-/
namespace Montage

/-- Whether the time of all jobs is up before they begin. -/
def Setup.expires (setup : Setup) : Bool := setup.timeout.any (· ≤ 0)

/-- What a job fails with whose timeline has some defects. -/
def Setup.refusal (setup : Setup) (list : List Issue) : Failure :=
  if setup.expires then .cancelled "timeout" else .timeline list

namespace Act

variable {setup : Setup} {s : Scene} {j : Job} {list : List Issue}

/-- A new job can be validated. -/
theorem advance_validating (known : s.job? = some j) (new : j.state = .created) :
    ∃ w, (advance .validating).result s = (.ok (), { s with shared := w }) ∧
      ∃ j', Scene.job? ⟨w, s.run⟩ = some j' ∧ j'.state.isTerminal = false := by
  have run : advance .validating = (do
      let _ ← announce (fun r id now => r.transition id .validating now) "state" fun _ =>
        .object [("state", .string JobState.validating.word)]
      return ()) := rfl
  rw [run, result_bind]
  rcases result_announce (Registry.updates_transition .validating) "state"
      (fun _ => .object [("state", .string JobState.validating.word)]) s with
    ⟨f, failed, -⟩ | ⟨i, a, j', r, known', jobs, -, same, ⟨-, -, live, rfl⟩, result⟩
  · have known : s.shared.registry.find? s.run.id = some j := known
    rw [Registry.transition, Registry.withJob, Registry.get, known] at failed
    simp [new, JobState.isTerminal, JobState.next?] at failed
  · have found := Scene.Onward.find?_put known' same jobs
    rw [result]
    exact ⟨_, rfl, _, found, live⟩

/-- The first stage fails if the timeline has defects, and only the record of the job has changed,
which has not ended. -/
theorem locate_refused (known : s.job? = some j) (new : j.state = .created)
    (refused : Timeline.accept (.ok setup.settings.canvas) s.run.request.timeline =
      .error (.issues list)) :
    ∃ w, (locate setup).result s = (.error (.timeline list), { s with shared := w }) ∧
      ∃ j', Scene.job? ⟨w, s.run⟩ = some j' ∧ j'.state.isTerminal = false := by
  obtain ⟨w, validating, job⟩ := advance_validating known new
  refine ⟨w, ?_, job⟩
  rw [locate, result_run_bind]
  dsimp only
  rw [result_bind, validating, refused]
  rfl

end Act

namespace Service

variable {setup : Setup} {w w' : Shared} {r r' : Run} {t : Turn} {ready rest : List Turn}
  {f : Failure} {j : Job} {s : Service} {id : String}

/-- A service with one job, because of which one call has been made. -/
def solo (setup : Setup) (w : Shared) (r : Run) (ready : List Turn) : Service :=
  { setup, shared := w, runs := [r], ready, calls := 1 }

theorem onRun_solo (f : Service → Run → Service) :
    (solo setup w r ready).onRun r.id f = f (solo setup w r ready) r := by
  simp [onRun, run?, solo]

theorem putRun_solo (same : r'.id = r.id) :
    (solo setup w r ready).putRun r' = solo setup w r' ready := by
  simp [putRun, solo, same]

theorem enqueue_solo (same : r'.id = r.id) (t : Turn) :
    ((solo setup w r ready).putRun r').enqueue t = solo setup w r' (ready ++ [t]) := by
  rw [putRun_solo same]
  rfl

theorem retire_solo (same : r'.id = r.id) : (solo setup w r ready).retire r' =
    solo setup w r'.retired (ready ++ r'.callers.map Turn.resume) := by
  have same : r'.retired.id = r.id := same
  have put : (solo setup w r ready).putRun r'.retired = solo setup w r'.retired ready :=
    putRun_solo same
  show { (solo setup w r ready).putRun r'.retired with
    ready := ((solo setup w r ready).putRun r'.retired).ready ++ r'.callers.map Turn.resume } = _
  rw [put]
  rfl

/-- Someone has made the first call, which has been answered. -/
abbrev answered (s : Service) : Bool := (s.reply? 0).isSome

/-- A wait goes on with the turn that is first in line. -/
theorem waits_on (h : (solo setup w r (t :: rest)).Sound)
    (turn : (solo setup w r rest).serve t = solo setup w' r' ready) :
    (solo setup w' r' ready).Sound ∧ (solo setup w r (t :: rest)).waitUntil none answered =
      (solo setup w' r' ready).waitUntil none answered := by
  have sound := (h.served rfl).sound
  have wait : (solo setup w r (t :: rest)).waitUntil none answered =
      ((solo setup w r rest).serve t).waitUntil none answered := waitUntil_turn h none rfl rfl
  rw [show { solo setup w r (t :: rest) with ready := rest } = solo setup w r rest from rfl, turn]
    at sound
  exact ⟨sound, turn ▸ wait⟩

/-- When the only job has come to its end, the one who waits for it gets the failure. -/
theorem reply_concluded (h : s.Sound) (silent : s.answered = false) (front : s.ready = t :: rest)
    (turn : { s with ready := rest }.serve t = (solo setup w r []).conclude r (some f))
    (job : Scene.job? ⟨w, r⟩ = some j) (live : j.state.isTerminal = false)
    (callers : r.callers = [⟨0, r.id, .wait⟩]) :
    (s.waitUntil none answered).reply? 0 =
      some (.job (.ok (j.failed f w.registry.detailLimit w.now))) := by
  obtain ⟨w', fails, result⟩ := result_failJob job f
  have concludes : (solo setup w r []).conclude r (some f) =
      solo setup w' (Run.retired { r with isActive := false }) [.resume ⟨0, r.id, .wait⟩] := by
    have retired : (solo setup w r []).conclude r (some f) =
        (solo setup ((Act.failJob f).result ⟨w, r⟩).2.shared r []).retire
          { ((Act.failJob f).result ⟨w, r⟩).2.run with isActive := false } := rfl
    rw [retired, result, retire_solo (by rfl)]
    exact congrArg (fun line => solo _ _ _ (List.map Turn.resume line)) callers
  have record : w'.registry.find? r.id = some (j.failed f w.registry.detailLimit w.now) := by
    obtain ⟨-, -, ⟨-, i, known, terminal⟩ | ⟨i, known, -, new⟩⟩ := fails.cases (r := r) rfl rfl
    · cases job.symm.trans known
      cases live.symm.trans terminal
    · cases job.symm.trans known
      exact new
  have sound := (h.served front).sound
  rw [turn, concludes] at sound
  rw [waitUntil_turn h none silent front, turn, concludes, waitUntil_turn sound none rfl rfl,
    waitUntil_of_holds none rfl]
  show some (Reply.job (w'.registry.get r.id)) = _
  rw [Registry.get, record]

theorem perform_solo {α : Type} {act : Act α} {a : Except Failure α}
    (result : act.result ⟨w, r⟩ = (a, ⟨w', r'⟩)) :
    (solo setup w r ready).perform r act = (a, solo setup w' r ready, r') := by
  have run : (solo setup w r ready).perform r act = ((act.result ⟨w, r⟩).1,
      solo setup (act.result ⟨w, r⟩).2.shared r ready, (act.result ⟨w, r⟩).2.run) := rfl
  rw [run, result]

theorem work_failed (goes : r.mustStop = false)
    (result : (Act.stage setup r.phase).result ⟨w, r⟩ = (.error f, ⟨w', r⟩)) :
    (solo setup w r ready).work r = (solo setup w' r ready).finish r (.failed f) := by
  have run : (solo setup w r ready).perform r (Act.stage (solo setup w r ready).setup r.phase) =
      (.error f, solo setup w' r ready, r) := perform_solo result
  rw [work, goes, if_neg Bool.false_ne_true, run]

theorem work_stopped (stop : r.mustStop = true) : (solo setup w r ready).work r =
    (solo setup w r ready).finish { r with process := r.process.map Process.kill } .stopped := by
  rw [work, stop, if_pos rfl]

theorem hearEnd_failed (phase : r.phase = .finished (.failed f)) (cause : r.stopCause = none) :
    s.hearEnd r = s.conclude r (some f) := by
  simp only [hearEnd, phase, cause, outcomeFailure]

theorem hearEnd_stopped (phase : r.phase = .finished .stopped)
    (cause : r.stopCause = some .timeout) :
    s.hearEnd r = s.conclude r (some (.cancelled "timeout")) := by
  simp only [hearEnd, phase, cause, stopFailure, if_true]

theorem serve_start : (solo setup w r ready).serve (.start r.id) = (solo setup w r ready).start r :=
  onRun_solo start

theorem serve_work (same : r.id = id) :
    (solo setup w r ready).serve (.work id) = (solo setup w r ready).work r :=
  same ▸ onRun_solo work

theorem serve_settle (same : r.id = id) :
    (solo setup w r ready).serve (.settle id) = (solo setup w r ready).hearEnd r :=
  same ▸ onRun_solo hearEnd

section Free

variable (free : setup.timeout = none)

include free

theorem start_free (early : r.stopsEarly = false) :
    (solo setup w r ready).start r = (solo setup w r ready).work r := by
  have free : (solo setup w r ready).setup.timeout = none := free
  rw [start, early, if_neg Bool.false_ne_true, free]

theorem finish_free (outcome : Outcome) : (solo setup w r ready).finish r outcome =
    (solo setup w r ready).conclude r (outcomeFailure r outcome) := by
  have free : (solo setup w r ready).setup.timeout = none := free
  rw [finish, free]

end Free

section Limited

variable {seconds : Float} (limited : setup.timeout = some seconds)

include limited

/-- A run that begins under a limit, after which it is to stop at once or later. -/
theorem start_limited (early : r.stopsEarly = false) :
    (solo setup w r ready).start r = solo setup w
      (if seconds ≤ 0 then
        { r with phase := .entering, mustStop := true, stopCause := some .timeout }
      else { r with phase := .entering, limitAt := some (w.now + seconds) })
      (ready ++ [.work r.id]) := by
  have limited : (solo setup w r ready).setup.timeout = some seconds := limited
  rw [start, early, if_neg Bool.false_ne_true, limited]
  dsimp only
  split
  · exact enqueue_solo (by rfl) (.work r.id)
  · exact enqueue_solo (by rfl) (.work r.id)

theorem finish_limited (same : r'.id = r.id) (outcome : Outcome) :
    (solo setup w r ready).finish r' outcome =
      solo setup w { r' with phase := .finished outcome } (ready ++ [.settle r.id]) := by
  have limited : (solo setup w r ready).setup.timeout = some seconds := limited
  rw [finish, limited, ← same]
  exact enqueue_solo (by exact same) (.settle r'.id)

end Limited

/-- A run that has not begun, for whose end someone waits. -/
structure Awaited (r : Run) : Prop where
  phase : r.phase = .unstarted
  early : r.stopsEarly = false
  goes : r.mustStop = false
  cause : r.stopCause = none
  callers : r.callers = [⟨0, r.id, .wait⟩]

section Reply

variable (h : (solo setup w r [.start r.id]).Sound) (new : Awaited r)
  (known : Scene.job? ⟨w, r⟩ = some j) (created : j.state = .created)

include h new known created

/-- If the time is up at once, the job is stopped before its first stage. -/
theorem reply_expired {seconds : Float} (limited : setup.timeout = some seconds)
    (up : seconds ≤ 0) : ∃ j : Job,
    ((solo setup w r [.start r.id]).waitUntil none answered).reply? 0 = some (.job (.ok j)) ∧
      j.state = .failed ∧ j.error.map (·.code) = some (Failure.cancelled "timeout").code := by
  obtain ⟨r₁, begun⟩ : ∃ r₁ : Run,
    r₁ = { r with phase := .entering, mustStop := true, stopCause := some .timeout } := ⟨_, rfl⟩
  obtain ⟨r₂, ended⟩ : ∃ r₂ : Run,
    r₂ = { r₁ with process := r₁.process.map Process.kill, phase := .finished .stopped } := ⟨_, rfl⟩
  have begins : (solo setup w r []).serve (.start r.id) = solo setup w r₁ [.work r.id] := by
    rw [serve_start, start_limited limited new.early, if_pos up, begun]
    rfl
  have stops : (solo setup w r₁ []).serve (.work r.id) = solo setup w r₂ [.settle r.id] := by
    rw [serve_work (by rw [begun]), work_stopped (by rw [begun]), finish_limited limited (by rfl),
      ended, begun]
    rfl
  have hears : (solo setup w r₂ []).serve (.settle r.id) =
      (solo setup w r₂ []).conclude r₂ (some (.cancelled "timeout")) := by
    rw [serve_settle (by rw [ended, begun]), hearEnd_stopped] <;> rw [ended, begun]
  obtain ⟨sound, first⟩ := waits_on h begins
  obtain ⟨sound, second⟩ := waits_on sound stops
  rw [first, second]
  have job : Scene.job? ⟨w, r₂⟩ = some j := by
    rw [ended, begun]
    exact known
  have callers : r₂.callers = [⟨0, r₂.id, .wait⟩] := by
    rw [ended, begun]
    exact new.callers
  exact ⟨_, reply_concluded sound rfl rfl hears job (by rw [created]; rfl) callers, rfl, rfl⟩

variable {list : List Issue} (refused : Timeline.accept (.ok setup.settings.canvas)
  r.request.timeline = .error (.issues list))

include refused

/-- Without a limit, the job fails in its first turn. -/
theorem reply_refused_free (free : setup.timeout = none) : ∃ j : Job,
    ((solo setup w r [.start r.id]).waitUntil none answered).reply? 0 = some (.job (.ok j)) ∧
      j.state = .failed ∧ j.error.map (·.code) = some Failure.timelineCode := by
  obtain ⟨w', located, j', job, live⟩ := Act.locate_refused (s := ⟨w, r⟩) known created refused
  have works : (Act.stage setup r.phase).result ⟨w, r⟩ = (.error (.timeline list), ⟨w', r⟩) := by
    rw [new.phase]
    exact located
  have fails : (solo setup w r []).serve (.start r.id) =
      (solo setup w' r []).conclude r (some (.timeline list)) := by
    rw [serve_start, start_free free new.early, work_failed new.goes works, finish_free free]
    rfl
  exact ⟨_, reply_concluded h rfl rfl fails job live new.callers, rfl, rfl⟩

/-- Under a limit that is not up at once, the job begins in its first turn, fails in the second one,
and hears of that in the third one. -/
theorem reply_refused_limited {seconds : Float} (limited : setup.timeout = some seconds)
    (ahead : ¬seconds ≤ 0) : ∃ j : Job,
    ((solo setup w r [.start r.id]).waitUntil none answered).reply? 0 = some (.job (.ok j)) ∧
      j.state = .failed ∧ j.error.map (·.code) = some Failure.timelineCode := by
  obtain ⟨r₁, begun⟩ : ∃ r₁ : Run,
    r₁ = { r with phase := .entering, limitAt := some (w.now + seconds) } := ⟨_, rfl⟩
  obtain ⟨r₂, ended⟩ : ∃ r₂ : Run,
    r₂ = { r₁ with phase := .finished (.failed (.timeline list)) } := ⟨_, rfl⟩
  have begins : (solo setup w r []).serve (.start r.id) = solo setup w r₁ [.work r.id] := by
    rw [serve_start, start_limited limited new.early, if_neg ahead, begun]
    rfl
  obtain ⟨w', located, j', job, live⟩ := Act.locate_refused (s := ⟨w, r₁⟩)
    (by rw [begun]; exact known) created (by rw [begun]; exact refused)
  have works : (Act.stage setup r₁.phase).result ⟨w, r₁⟩ = (.error (.timeline list), ⟨w', r₁⟩) := by
    rw [show r₁.phase = .entering by rw [begun]]
    exact located
  have fails : (solo setup w r₁ []).serve (.work r.id) = solo setup w' r₂ [.settle r.id] := by
    rw [serve_work (by rw [begun]), work_failed (by rw [begun]; exact new.goes) works,
      finish_limited limited rfl, ended, begun]
    rfl
  have hears : (solo setup w' r₂ []).serve (.settle r.id) =
      (solo setup w' r₂ []).conclude r₂ (some (.timeline list)) := by
    rw [serve_settle (by rw [ended, begun]), hearEnd_failed] <;> rw [ended]
    rw [begun]
    exact new.cause
  obtain ⟨sound, first⟩ := waits_on h begins
  obtain ⟨sound, second⟩ := waits_on sound fails
  rw [first, second]
  have job : Scene.job? ⟨w', r₂⟩ = some j' := by
    rw [ended]
    exact job
  have callers : r₂.callers = [⟨0, r₂.id, .wait⟩] := by
    rw [ended, begun]
    exact new.callers
  exact ⟨_, reply_concluded sound rfl rfl hears job live callers, rfl, rfl⟩

/-- Whoever waits gets the record of a job that has failed. -/
theorem reply_refused : ∃ j : Job,
    ((solo setup w r [.start r.id]).waitUntil none answered).reply? 0 = some (.job (.ok j)) ∧
      j.state = .failed ∧ j.error.map (·.code) = some (setup.refusal list).code := by
  cases limit : setup.timeout with
  | none =>
    rw [Setup.refusal, Setup.expires, limit]
    exact reply_refused_free h new known created refused limit
  | some seconds =>
    rw [Setup.refusal, Setup.expires, limit]
    by_cases up : seconds ≤ 0
    · rw [Option.any_some, if_pos (decide_eq_true up)]
      exact reply_expired h new known created limit up
    · rw [Option.any_some, if_neg (by simpa using up)]
      exact reply_refused_limited h new known created refused limit up

end Reply

/-! ## The whole wait -/

theorem wait_of_reply {outcome : Except Failure Job}
    (h : (s.ask id .wait).1 = some (.job outcome)) : (s.wait id).1 = outcome := by
  unfold wait
  generalize s.ask id .wait = asked at h
  obtain ⟨reply, s'⟩ := asked
  cases h
  rfl

/-- The first one who waits for a new job is its caller. -/
theorem call_solo (phase : r.phase = .unstarted) (active : r.isActive = true)
    (callers : r.callers = []) :
    Service.call { setup, shared := w, runs := [r], ready } r.id .wait =
      solo setup w { r with callers := [⟨0, r.id, .wait⟩] } ready := by
  have run : Service.run? { setup, shared := w, runs := [r], ready } r.id = some r := by simp [run?]
  rw [call_wait, run, Option.any_some, if_pos active]
  have attends : (solo setup w r ready).attend ⟨0, r.id, .wait⟩ =
      solo setup w { r with callers := [⟨0, r.id, .wait⟩] } ready := by
    rw [attend, onRun_solo, phase, callers]
    exact putRun_solo (by rfl)
  exact attends

/-- Whoever waits for the only job of a service, the timeline of which is refused, gets the record
of a job that has failed. -/
theorem wait_refused (setup : Setup) (sweeper : Sweeper) (files : Files) {request : RenderRequest}
    {script : EncoderScript} {observes : Bool} {objects : Float → Bool} {list : List Issue}
    (made : (fresh setup sweeper files).submit request script observes objects = (.ok id, s))
    (refused : Timeline.accept (.ok setup.settings.canvas) request.timeline =
      .error (.issues list)) :
    ∃ j, (s.wait id).1 = .ok j ∧ j.state = .failed ∧
      j.error.map (·.code) = some (setup.refusal list).code := by
  obtain ⟨w, submitted, -, j, known, created, -⟩ :=
    submit_fresh setup sweeper files request script observes objects
  have submits := stirs_submit (sound_fresh setup sweeper files) request script observes objects
  have sound := sound_stirs (sound_fresh setup sweeper files) submits
  cases made.symm.trans submitted
  rw [submitted] at sound
  have called := @call_solo setup w { id := Registry.idOf 1, request, script, observes, objects }
    [.start (Registry.idOf 1)] rfl rfl rfl
  have sound := sound_stirs sound (stirs_call sound (Registry.idOf 1) .wait)
  rw [called] at sound
  obtain ⟨j', reply, failed, code⟩ := reply_refused sound ⟨rfl, rfl, rfl, rfl, rfl⟩ known created
    refused
  refine ⟨j', wait_of_reply ?_, failed, code⟩
  rw [← reply, ← called]
  rfl

end Service
end Montage
