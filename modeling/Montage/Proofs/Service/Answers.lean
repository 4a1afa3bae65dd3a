import Montage.Proofs.Service.Moves

/-!
# What callers are told

An answer comes at once, from a call about a job that the service does not count any more, or it
comes when the run is over and the caller's turn has come; `act_answers` says that there is no
third way.

When a run is over, its job has ended, with one exception (`terminal_iff`): a job that was stopped
before its first step has not ended before a caller who cancelled it has been told so. Whoever
waits gets the record as it stands then (`wait_terminal_iff`), which is that of a job that has only
been created if such a caller comes behind (`wait_before_cancel`).
-/
namespace Montage

namespace Service

variable {s s' : Service} {id : String} {r : Run} {j : Job}

/-! ## What does not touch the answers -/

/-- Only runs and the line have changed. -/
def Lines (s s' : Service) : Prop := ∃ runs ready, s' = { s with runs := runs, ready := ready }

theorem Lines.refl (s : Service) : s.Lines s := ⟨s.runs, s.ready, rfl⟩

theorem Lines.trans {s'' : Service} (h : s.Lines s') (h' : s'.Lines s'') : s.Lines s'' := by
  obtain ⟨_, _, rfl⟩ := h
  obtain ⟨runs, ready, rfl⟩ := h'
  exact ⟨runs, ready, rfl⟩

theorem Lines.answers (h : s.Lines s') : s'.answers = s.answers := by
  obtain ⟨_, _, rfl⟩ := h
  rfl

theorem Lines.shared (h : s.Lines s') : s'.shared = s.shared := by
  obtain ⟨_, _, rfl⟩ := h
  rfl

theorem lines_onRun {f : Service → Run → Service} (h : ∀ r, s.Lines (f s r)) (id : String) :
    s.Lines (s.onRun id f) := by
  unfold onRun
  split
  · exact h _
  · exact .refl s

theorem lines_stop (s : Service) (r : Run) : s.Lines (s.stop r) := by
  unfold stop
  split
  · exact ⟨_, _, rfl⟩
  · exact ⟨_, _, rfl⟩
  · split
    · exact ⟨_, _, rfl⟩
    · unfold stopStages
      dsimp only
      split <;> exact ⟨_, _, rfl⟩

theorem lines_attend (s : Service) (c : Caller) : s.Lines (s.attend c) := by
  refine lines_onRun (fun r => ?_) c.job
  split <;> exact ⟨_, _, rfl⟩

theorem lines_ringLimit (s : Service) (r : Run) : s.Lines (s.ringLimit r) := by
  unfold ringLimit
  split
  · split <;> exact ⟨_, _, rfl⟩
  · exact .refl s

theorem lines_ringWake (s : Service) (r : Run) : s.Lines (s.ringWake r) := by
  unfold ringWake
  split
  · split <;> exact ⟨_, _, rfl⟩
  · exact .refl s

theorem lines_ringFor (s : Service) (id : String) : s.Lines (s.ringFor id) :=
  (lines_onRun (lines_ringLimit s) id).trans (lines_onRun (lines_ringWake _) id)

/-- A call is answered at once and touches nothing else, or it touches only runs and the line. -/
theorem call_cases (s : Service) (id : String) (aim : Aim) :
    (∃ reply, s.immediate id aim = some reply ∧ s.call id aim = { s with
        calls := s.calls + 1
        answers := s.answers ++ [⟨⟨s.calls, id, aim⟩, reply⟩] }) ∨
      s.immediate id aim = none ∧ Lines { s with calls := s.calls + 1 } (s.call id aim) := by
  unfold call
  cases now : s.immediate id aim with
  | some reply =>
    have now : { s with calls := s.calls + 1 }.immediate id aim = some reply := now
    simp only [now]
    exact .inl ⟨reply, rfl, rfl⟩
  | none =>
    have now : { s with calls := s.calls + 1 }.immediate id aim = none := now
    refine .inr ⟨rfl, ?_⟩
    cases aim with
    | wait =>
      simp only [now]
      exact lines_attend _ _
    | cancel reason =>
      simp only [now]
      have stopped : Lines { s with calls := s.calls + 1 } (onRun { s with calls := s.calls + 1 } id
          fun s r => s.stop { r with cancelReason := some reason }) :=
        lines_onRun (by exact fun r => lines_stop _ _) id
      exact stopped.trans (lines_attend _ _)

theorem shared_call (s : Service) (id : String) (aim : Aim) : (s.call id aim).shared = s.shared := by
  rcases call_cases s id aim with ⟨reply, -, call⟩ | ⟨-, lines⟩
  · rw [call]
  · exact lines.shared

theorem answers_submit (s : Service) (request : RenderRequest) (script : EncoderScript)
    (observes : Bool) (objects : Float → Bool) :
    (s.submit request script observes objects).2.answers = s.answers := by
  unfold submit
  generalize s.shared.registry.create none s.shared.now = result
  obtain ⟨registry, failure | j⟩ := result <;> rfl

/-- A new run is active. -/
theorem run?_submit {request : RenderRequest} {script : EncoderScript} {observes : Bool}
    {objects : Float → Bool} (h : s.Sound) (made : s.submit request script observes objects = (.ok id, s')) :
    s'.run? id = some { id, request, script, observes, objects } := by
  unfold submit at made
  generalize created : s.shared.registry.create none s.shared.now = result at made
  obtain ⟨registry, failure | j⟩ := result
  · cases made
  · obtain ⟨new, -⟩ := Registry.create_ok created
    cases made
    have unknown : s.runs.find? (·.id == j.id) = none := h.unknown new
    simp only [run?, enqueue, List.find?_append, unknown, Option.none_or, List.find?_singleton,
      beq_self_eq_true, if_true]

/-! ## Answers -/

theorem answers_resume (h : s.Sound) {c : Caller} {rest : List Turn}
    (front : s.ready = .resume c :: rest) :
    ∃ reply, ({ s with ready := rest }.resume c).answers = s.answers ++ [⟨c, reply⟩] := by
  unfold resume
  split
  · exact ⟨_, rfl⟩
  · next reason _ =>
    obtain ⟨_, _, _, _, _, _, _, does, -⟩ := h.closed front reason
    exact ⟨_, congrArg (· ++ _) does.touches.answers⟩

/-- An answer comes at once, or to a caller whose turn has come. -/
theorem act_answers (h : s.Sound) {m : Move} {a : Answer}
    (told : (m.act s).answers = s.answers ++ [a]) :
    (∃ id aim reply, m = .call id aim ∧ a = ⟨⟨s.calls, id, aim⟩, reply⟩ ∧
      s.immediate id aim = some reply ∧ m.act s = { s with
        calls := s.calls + 1
        answers := s.answers ++ [a] }) ∨
      ∃ rest, m = .turn ∧ s.ready = .resume a.caller :: rest ∧
        m.act s = { s with ready := rest }.resume a.caller := by
  have silent (same : (m.act s).answers = s.answers) : False := by
    rw [told] at same
    simpa using congrArg List.length same
  cases m with
  | call id aim =>
    rcases call_cases s id aim with ⟨reply, now, act⟩ | ⟨-, lines⟩
    · change s.call id aim = _ at act
      change (s.call id aim).answers = _ at told
      have same : a = ⟨⟨s.calls, id, aim⟩, reply⟩ := by
        rw [act] at told
        exact (List.singleton_inj.1 (List.append_cancel_left told)).symm
      subst same
      exact .inl ⟨id, aim, reply, rfl, rfl, now, act⟩
    · exact (silent lines.answers).elim
  | turn =>
    cases front : s.ready with
    | nil => exact (silent (by rw [act_turn_nil front])).elim
    | cons t rest =>
      have act := act_turn front
      rw [act] at silent told
      cases idle : t.isResume with
      | false =>
        obtain ⟨r, -, serves⟩ := h.turn front idle
        exact (silent serves.leads.touches.answers).elim
      | true =>
        cases t with
        | resume c =>
          obtain ⟨reply, answers⟩ := answers_resume h front
          have same : a = ⟨c, reply⟩ :=
            List.singleton_inj.1 (List.append_cancel_left (told.symm.trans answers))
          subst same
          exact .inr ⟨rest, rfl, rfl, act⟩
        | _ => cases idle
  | render request script observes objects =>
    refine (silent ?_).elim
    show (s.render request script observes objects).answers = s.answers
    unfold render
    have answers := answers_submit s request script observes objects
    generalize made : s.submit request script observes objects = result at answers
    obtain ⟨failure | id, s'⟩ := result
    · exact answers
    · have run := run?_submit h made
      rcases call_cases s' id .wait with ⟨reply, now, -⟩ | ⟨-, lines⟩
      · simp [immediate, run] at now
      · exact lines.answers.trans answers
  | submit request script observes objects => exact (silent (answers_submit s request script observes objects)).elim
  | interrupt id => exact (silent (lines_onRun (lines_stop s) id).answers).elim
  | ring id => exact (silent (lines_ringFor s id).answers).elim
  | clock moment =>
    refine (silent ?_).elim
    show (if s.shared.now < moment then s.moveTo moment else s).answers = _
    split <;> rfl
  | follow id =>
    refine (silent ?_).elim
    obtain ⟨bus, same, -⟩ := follow_shared s id
    show (s.follow id).2.answers = _
    rw [same]
  | listen id => exact (silent rfl).elim
  | look id queue =>
    refine (silent ?_).elim
    obtain ⟨bus, same, -⟩ := look_shared s id queue
    show (s.look id queue).2.answers = _
    rw [same]
  | read queue => exact (silent rfl).elim
  | leave job queue => exact (silent rfl).elim
  | elsewhere c =>
    refine (silent ?_).elim
    show (s.elsewhere c).answers = _
    unfold elsewhere
    split <;> rfl
  | files fs => exact (silent rfl).elim

/-! ## Whoever waits -/

/-- A job whose run is over has ended, unless it was stopped before its first step and nobody has
been told yet that it is cancelled. -/
theorem Accounted.terminal_iff (h : s.Accounted) (run : s.run? id = some r)
    (job : s.job? id = some j) (ended : r.phase = .over) :
    j.state.isTerminal = true ↔ r.stopsEarly = false ∨ s.Confirmed id := by
  obtain ⟨-, i, hi, stands⟩ := h.sound.stands id r run
  cases job.symm.trans hi
  rcases (stands.ended ended).2 with gone | ⟨created, early, active⟩
  · refine ⟨fun _ => ?_, fun _ => (stands.left gone).2⟩
    cases early : r.stopsEarly with
    | false => exact .inl rfl
    | true => exact .inr (h.excused id r run early gone)
  · constructor
    · intro terminal
      rw [created] at terminal
      cases terminal
    · rintro (began | yes)
      · cases began.symm.trans early
      · obtain ⟨r', run', gone⟩ := h.answered id yes
        cases run.symm.trans run'
        cases active.symm.trans gone

/-- Whoever waits for a job of the service gets its record when its run is over. The job has ended
then if and only if it was not stopped before its first step, or someone has been told before that
it is cancelled. -/
theorem wait_terminal_iff (reach : s.Reachable) (m : Move) (a : Answer) (r : Run)
    (told : (m.act s).answers = s.answers ++ [a]) (waits : a.caller.aim = .wait)
    (submitted : (m.act s).run? a.caller.job = some r) :
    ∃ j, a.reply = .job (.ok j) ∧ (m.act s).job? a.caller.job = some j ∧ r.phase = .over ∧
      (j.state.isTerminal = true ↔ r.stopsEarly = false ∨ s.Confirmed a.caller.job) := by
  have h := reach.accounted
  rcases act_answers h.sound told with ⟨id, aim, reply, rfl, rfl, now, act⟩ | ⟨rest, rfl, front, act⟩
  · rw [act] at submitted ⊢
    change s.run? id = some r at submitted
    cases (waits : aim = .wait)
    obtain ⟨-, j, job, stands⟩ := h.sound.stands id r submitted
    have found : s.shared.registry.get id = .ok j := by
      rw [Registry.get, show s.shared.registry.find? id = some j from job]
    rw [immediate, submitted, found] at now
    split at now
    · cases now
    · next gone =>
      cases now
      have ended := (stands.left (by simpa using gone)).1
      exact ⟨j, rfl, job, ended, h.terminal_iff submitted job ended⟩
  · obtain ⟨q, j, run, job, ended, -⟩ := h.sound.over front
    have found : s.shared.registry.get a.caller.job = .ok j := by
      rw [Registry.get, show s.shared.registry.find? a.caller.job = some j from job]
    have act : Move.turn.act s = { s with ready := rest }.answer a.caller (.job (.ok j)) := by
      rw [act, resume, waits, ← found]
    rw [act] at submitted told ⊢
    cases run.symm.trans submitted
    have same : ⟨a.caller, .job (.ok j)⟩ = a := List.singleton_inj.1 (List.append_cancel_left told)
    exact ⟨j, by rw [← same], job, ended, h.terminal_iff run job ended⟩

/-- Someone who waits after a job has been cancelled before its first step gets the record of a
job that has ended. -/
theorem wait_after_cancel : ∃ j,
    ((plain none).after [.submit { timeline := .null } {} true,
      .call (Registry.idOf 1) (.cancel "cancelled"), .turn, .turn,
      .call (Registry.idOf 1) .wait]).job? (Registry.idOf 1) = some j ∧ j.state.isTerminal = true := by
  have reach := (reachable_plain none).after [.submit { timeline := .null } {} true,
    .call (Registry.idOf 1) (.cancel "cancelled"), .turn, .turn]
  obtain ⟨j, -, job, -, iff⟩ := wait_terminal_iff reach (.call (Registry.idOf 1) .wait) _ _ rfl rfl rfl
  exact ⟨j, job, iff.2 (.inr ⟨_, List.mem_cons_self, rfl, rfl⟩)⟩

/-- Someone who waits for a job that is then cancelled before its first step comes first and gets
the record of a job that has not ended. -/
theorem wait_before_cancel : ∃ a j,
    ((plain none).after [.submit { timeline := .null } {} true, .call (Registry.idOf 1) .wait,
      .call (Registry.idOf 1) (.cancel "cancelled"), .turn, .turn]).answers = [a] ∧
    a.caller = ⟨0, Registry.idOf 1, .wait⟩ ∧ a.reply = .job (.ok j) ∧
    j.state.isTerminal = false :=
  ⟨_, _, rfl, rfl, rfl, rfl⟩

end Service
end Montage
