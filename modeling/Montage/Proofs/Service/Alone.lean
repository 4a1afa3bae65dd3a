import Montage.Proofs.Render.Disk
import Montage.Proofs.Service.Answers
import Montage.Proofs.Service.Course
import Montage.Proofs.Service.Waiting

/-!
# A job by itself

Where a service has one job only and nobody but the service touches the files, whatever is true of
the job's run and kept by each of its steps (`Scene.Lasting`) is true as long as the service goes on
by itself, and whoever waits for the job gets a record that it had at some point (`Alone.wait`).

A wait can also be followed turn by turn (`waitUntil_turn`).
-/
namespace Montage

/-- A property of a run and of what it works on that no step of the run ends, nor the clock. -/
structure Scene.Lasting (setup : Setup) (I : Scene → Prop) : Prop where
  step : ∀ {a b : Scene}, I a → Scene.Step setup a b → I b
  later : ∀ {a : Scene} (now : Float), I a → I { a with shared := { a.shared with now } }

theorem Scene.Lasting.steps {setup : Setup} {I : Scene → Prop} (h : Lasting setup I) {a b : Scene}
    (holds : I a) (steps : Scene.Steps setup a b) : I b := by
  induction steps with
  | refl => exact holds
  | tail _ step ih => exact h.step ih step

namespace Service

variable {s s' : Service} {id : String} {I : Scene → Prop} {t : Turn} {rest : List Turn}

/-! ## Turn by turn -/

/-- A wait does not depend on a bound that is large enough. -/
theorem waitWithin_eq (h : s.Sound) (own : Option Float) (holds : Service → Bool) {n : Nat}
    (enough : s.allEffort own ≤ n) : waitWithin own holds n s = s.waitUntil own holds := by
  have any (n m : Nat) (first : s.allEffort own ≤ n) (second : s.allEffort own ≤ m) :
      waitWithin own holds n s = waitWithin own holds m s := by
    -- every move takes some of the effort, so neither bound is used up before the service is still
    induction n generalizing s m with
    | zero =>
      have still : advance? own s = none := by
        cases step : advance? own s with
        | none => rfl
        | some s' =>
          have := (advance_less h step).1
          omega
      cases m with
      | zero => rfl
      | succ m => rw [waitWithin, waitWithin, still, ite_self]
    | succ n ih =>
      cases step : advance? own s with
      | none => cases m <;> simp only [waitWithin, step, ite_self]
      | some s' =>
        obtain ⟨less, on⟩ := advance_less h step
        cases m with
        | zero => omega
        | succ m =>
          simp only [waitWithin, step]
          rw [ih (on.sound h) (by omega) m (by omega) (by omega)]
  exact any n _ enough (Nat.le_refl _)

/-- A wait goes on with the turn that is first in line. -/
theorem waitUntil_turn (h : s.Sound) (own : Option Float) {holds : Service → Bool}
    (on : holds s = false) (front : s.ready = t :: rest) :
    s.waitUntil own holds = ({ s with ready := rest }.serve t).waitUntil own holds := by
  have step : advance? own s = some ({ s with ready := rest }.serve t) := by
    rw [advance?, stir?, turn?, front]
  have less := (advance_less h step).1
  rw [← waitWithin_eq h own holds (Nat.le_succ _), waitWithin, on, step]
  exact waitWithin_eq (h.served front).sound own holds (Nat.le_of_lt less)

theorem waitUntil_of_holds (own : Option Float) {holds : Service → Bool} (yes : holds s = true) :
    s.waitUntil own holds = s := by
  unfold waitUntil
  cases s.allEffort own with
  | zero => rfl
  | succ n => rw [waitWithin, if_pos yes]

/-! ## The only job -/

/-- A job comes to a service that has not got any. -/
theorem submit_fresh (setup : Setup) (sweeper : Sweeper) (files : Files) (request : RenderRequest)
    (script : EncoderScript) (observes : Bool) (objects : Float → Bool) :
    ∃ w, (fresh setup sweeper files).submit request script observes objects =
        (.ok (Registry.idOf 1),
          { setup
            shared := w
            runs := [{ id := Registry.idOf 1, request, script, observes, objects }]
            ready := [.start (Registry.idOf 1)] }) ∧
      w.disk = ⟨sweeper, files, []⟩ ∧
      ∃ j, w.registry.find? (Registry.idOf 1) = some j ∧ j.state = .created ∧ j.error = none := by
  let registry := Registry.fresh setup.settings (some setup.settings.tailLength)
  let j : Job :=
    { id := Registry.idOf 1
      state := .created
      createdAt := Instant.ofSeconds 0
      updatedAt := Instant.ofSeconds 0 }
  let w : Shared := { registry := { registry with jobs := [j], named := 1 }, sweeper, files }
  exact ⟨w, rfl, rfl, j, List.find?_cons_of_pos (by simp [j]), rfl, rfl⟩

theorem job?_of_get {j : Job} (h : s.shared.registry.get id = .ok j) : s.job? id = some j := by
  unfold Registry.get at h
  split at h
  · next found =>
    cases h
    exact found
  · cases h

/-- Someone who waits for an active job attends it, and anyone else is answered. -/
theorem call_wait (s : Service) (id : String) : s.call id .wait =
    if (s.run? id).any (·.isActive) then
      { s with calls := s.calls + 1 }.attend ⟨s.calls, id, .wait⟩
    else { s with calls := s.calls + 1 }.answer ⟨s.calls, id, .wait⟩
      (.job (s.shared.registry.get id)) := by
  have same : Service.run? { s with calls := s.calls + 1 } id = s.run? id := rfl
  by_cases active : (s.run? id).any (·.isActive) = true
  · simp only [call, immediate, same, if_pos active]
  · simp only [call, immediate, same, if_neg active]

/-- A service with a setup has one job, something is true of its run, and all records that callers
have got are some that the job had when it was true. -/
structure Alone (s : Service) (setup : Setup) (id : String) (I : Scene → Prop) : Prop where
  sound : s.Sound
  setup : s.setup = setup
  only : ∀ id', id' ≠ id → s.run? id' = none
  run : ∃ r, s.run? id = some r ∧ I ⟨s.shared, r⟩
  answers : ∀ a ∈ s.answers, ∀ j, a.reply = .job (.ok j) → ∃ m, I m ∧ m.job? = some j

/-- A job that comes to a service that has not got any is alone. -/
theorem alone_submit (setup : Setup) (sweeper : Sweeper) (files : Files) (request : RenderRequest)
    (script : EncoderScript) (observes : Bool) (objects : Float → Bool)
    (begins : ∀ (w : Shared) j, w.disk = ⟨sweeper, files, []⟩ →
      w.registry.find? (Registry.idOf 1) = some j → j.error = none →
      I ⟨w, { id := Registry.idOf 1, request, script, observes, objects }⟩) :
    ((fresh setup sweeper files).submit request script observes objects).2.Alone setup
      (Registry.idOf 1) I := by
  obtain ⟨w, submits, disk, j, known, -, none⟩ :=
    submit_fresh setup sweeper files request script observes objects
  have sound := sound_stirs (sound_fresh setup sweeper files)
    (stirs_submit (sound_fresh setup sweeper files) request script observes objects)
  rw [submits] at sound ⊢
  refine ⟨sound, rfl, fun id ne => ?_, ⟨_, ?_, begins w j disk known none⟩, fun a mem => ?_⟩
  · simp [run?, Ne.symm ne]
  · simp [run?]
  · cases mem

namespace Alone

variable {setup : Setup} {m : Move}

/-- A job that has been steered at most is alone as before. -/
theorem onRun (h : s.Alone setup id I) (lasting : Scene.Lasting setup I)
    {f : Service → Run → Service} (nudges : ∀ (s : Service) r, s.Nudges r (f s r))
    (lines : ∀ (s : Service) r, s.Lines (f s r)) (sound : (s.onRun id f).Sound) :
    (s.onRun id f).Alone setup id I := by
  obtain ⟨r, run, holds⟩ := h.run
  obtain rfl := id_of_run? run
  have moved : s.onRun r.id f = f s r := by rw [Service.onRun, run]
  rw [moved] at sound ⊢
  obtain ⟨r', run', steers, -⟩ := (nudges s r).run run
  refine ⟨sound, (nudges s r).setup.trans h.setup, fun id' ne => ?_, ⟨r', run', ?_⟩, ?_⟩
  · rw [(nudges s r).others run ne, h.only id' ne]
  · exact (nudges s r).shared ▸ lasting.step holds (.steered steers)
  · exact (lines s r).answers ▸ h.answers

theorem ring (h : s.Alone setup id I) (lasting : Scene.Lasting setup I) (id' : String) :
    (s.ringFor id').Alone setup id I := by
  by_cases own : id' = id
  · subst own
    have limit := h.onRun lasting ringLimit_nudges lines_ringLimit
      (sound_stirs h.sound (stirs_onRun (fun _ => .limit) id'))
    exact limit.onRun lasting ringWake_nudges lines_ringWake
      (sound_stirs limit.sound (stirs_onRun (fun _ => .wake) id'))
  · have none : s.run? id' = none := h.only id' own
    have same : s.ringFor id' = s := by simp only [ringFor, Service.onRun, none]
    rwa [same]

/-- Whoever has come in line has got the record that the job has. -/
theorem answered (h : s.Alone setup id I) (front : s.ready = t :: rest) {a : Answer}
    (ha : a ∈ ({ s with ready := rest }.serve t).answers) {j : Job}
    (reply : a.reply = .job (.ok j)) : a ∈ s.answers ∨ s.job? id = some j := by
  -- only a turn in which a caller resumes adds an answer
  cases idle : t.isResume with
  | false =>
    obtain ⟨_, _, serves⟩ := h.sound.turn front idle
    rw [serves.leads.touches.answers] at ha
    exact .inl ha
  | true =>
    cases t with
    | resume c =>
      obtain ⟨r, i, run, job, -⟩ := h.sound.over front
      have own : c.job = id := by
        by_contra ne
        cases (h.only c.job ne).symm.trans run
      cases aim : c.aim with
      | wait =>
        simp only [serve, resume, aim, answer, List.mem_append, List.mem_singleton] at ha
        refine ha.imp_right fun told => ?_
        rw [told, Registry.get, show s.shared.registry.find? c.job = some i from job] at reply
        cases reply
        exact own ▸ job
      | cancel reason =>
        obtain ⟨_, _, _, _, _, _, _, does, -⟩ := h.sound.closed front reason
        simp only [serve, resume, aim, answer, List.mem_append, List.mem_singleton] at ha
        rw [does.touches.answers] at ha
        refine ha.imp_right fun told => ?_
        rw [told] at reply
        cases reply
    | _ => cases idle

theorem turn (h : s.Alone setup id I) (lasting : Scene.Lasting setup I)
    (front : s.ready = t :: rest) : ({ s with ready := rest }.serve t).Alone setup id I := by
  obtain ⟨same, ⟨r, r', run, run', steps⟩, others⟩ := h.sound.turned front
  rw [act_turn front] at same run' steps others
  have own : t.job = id := by
    by_contra ne
    cases (h.only t.job ne).symm.trans run
  rw [own] at run run' others
  obtain ⟨q, hq, holds⟩ := h.run
  cases run.symm.trans hq
  refine ⟨(h.sound.served front).sound, same.trans h.setup, fun id' ne => ?_, ⟨r', run', ?_⟩, ?_⟩
  · rw [(others id' ne).run, h.only id' ne]
  · exact lasting.steps holds (h.setup ▸ steps)
  · intro a ha j reply
    rcases h.answered front ha reply with old | job
    · exact h.answers a old j reply
    · refine ⟨⟨s.shared, r⟩, holds, ?_⟩
      rw [Scene.job?, id_of_run? run]
      exact job

theorem clock (h : s.Alone setup id I) (lasting : Scene.Lasting setup I) {moment : Float}
    (later : s.shared.now < moment) : (s.moveTo moment).Alone setup id I := by
  obtain ⟨r, run, holds⟩ := h.run
  have moved : Move.act s (.clock moment) = s.moveTo moment := if_pos later
  have sound := sound_stirs h.sound (act_stirs h.sound (.clock moment))
  exact ⟨moved ▸ sound, h.setup, h.only, ⟨r, run, lasting.later moment holds⟩, h.answers⟩

/-- A job stays alone as long as the service goes on by itself. -/
theorem goesOn (h : s.Alone setup id I) (lasting : Scene.Lasting setup I) (on : s.GoesOn s') :
    s'.Alone setup id I := by
  obtain ⟨moves, own, rfl⟩ := on
  induction moves generalizing s with
  | nil => exact h
  | cons m rest ih =>
    refine ih ?_ fun n hn => own n (List.mem_cons_of_mem m hn)
    have own := own m List.mem_cons_self
    cases m with
    | turn =>
      cases front : s.ready with
      | nil => exact (act_turn_nil front).symm ▸ h
      | cons t rest => exact (act_turn front).symm ▸ h.turn lasting front
    | ring id' => exact h.ring lasting id'
    | clock moment =>
      show (if s.shared.now < moment then s.moveTo moment else s).Alone setup id I
      split
      · next later => exact h.clock lasting later
      · exact h
    | _ => exact own.elim

/-- Someone calls for the end of the job. -/
theorem call (h : s.Alone setup id I) (lasting : Scene.Lasting setup I) :
    (s.call id .wait).Alone setup id I := by
  obtain ⟨r, run, holds⟩ := h.run
  have sound := sound_stirs h.sound (stirs_call h.sound id .wait)
  rw [call_wait] at sound ⊢
  split
  · next active =>
    rw [if_pos active] at sound
    have counted : Service.Alone { s with calls := s.calls + 1 } setup id I :=
      ⟨sound_stirs h.sound (.single (stir_counted h.sound)), h.setup, h.only, h.run, h.answers⟩
    refine counted.onRun lasting (fun s r => ?_) (fun s r => ?_) sound
    · exact attend_nudges s r ⟨_, id, .wait⟩
    · split <;> exact ⟨_, _, rfl⟩
  · next gone =>
    rw [if_neg gone] at sound
    refine ⟨sound, h.setup, h.only, h.run, fun a ha j reply => ?_⟩
    rcases List.mem_append.1 ha with old | new
    · exact h.answers a old j reply
    · rw [List.mem_singleton.1 new] at reply
      refine ⟨⟨s.shared, r⟩, holds, ?_⟩
      rw [Scene.job?, id_of_run? run]
      exact job?_of_get (Reply.job.inj reply)

/-- Whoever waits for the job gets a record that it had when the property was true of its run, and
so it is in the end. -/
theorem wait (h : s.Alone setup id I) (lasting : Scene.Lasting setup I) :
    (s.wait id).2.Alone setup id I ∧
      ∀ j, (s.wait id).1 = .ok j → ∃ m, I m ∧ m.job? = some j := by
  have called := h.call lasting
  have alone : (s.ask id .wait).2.Alone setup id I :=
    called.goesOn lasting (waitUntil_ends called.sound none _).1
  have told (j : Job) (reply : (s.ask id .wait).1 = some (.job (.ok j))) :
      ∃ m, I m ∧ m.job? = some j := by
    obtain ⟨a, found, same⟩ := Option.map_eq_some_iff.1 reply
    exact alone.answers a (List.mem_of_find?_eq_some found) j same
  unfold Service.wait
  generalize s.ask id .wait = asked at alone told
  obtain ⟨reply, s'⟩ := asked
  split
  · next outcome _ same =>
    cases same
    exact ⟨alone, fun j ok => told j (congrArg (some ∘ Reply.job) ok)⟩
  · next _ _ same =>
    cases same
    refine ⟨alone, fun j ok => ?_⟩
    obtain ⟨r, run, holds⟩ := alone.run
    refine ⟨_, holds, ?_⟩
    rw [Scene.job?, id_of_run? run]
    exact job?_of_get ok

end Alone
end Service
end Montage
