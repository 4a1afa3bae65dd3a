import Mathlib.Logic.Relation
import Montage.Proofs.Service.Sound

/-!
# Moves

A `Move` is whatever can happen to a service at some point: someone submits, calls, stops or
follows a job, a turn is served, an alarm rings, the clock goes on, or something changes that the
service does not own. A history is a list of moves in any order, so a statement about all
histories is one about all interleavings of all callers with the turns of all jobs; `Service.ring`
and the functions that wait are such histories.

Each move is made of elementary events (`act_stirs`), so what these keep holds after any history
(`sound_after`).
-/
namespace Montage

/-- Something that happens to a service. -/
inductive Move where
  | submit (request : RenderRequest) (script : EncoderScript) (observes : Bool)
      (objects : Float → Bool := fun _ => false)
  | call (id : String) (aim : Aim)
  | render (request : RenderRequest) (script : EncoderScript) (observes : Bool)
      (objects : Float → Bool := fun _ => false)
  /-- a job is stopped from outside, without a reason -/
  | interrupt (id : String)
  /-- the first in line is served -/
  | turn
  /-- a run hears what it is time for -/
  | ring (id : String)
  /-- the clock goes on -/
  | clock (moment : Float)
  | follow (id : String)
  /-- the first half of following: a queue for a job -/
  | listen (id : String)
  /-- the second half: whoever has a queue looks at the job -/
  | look (id : String) (queue : Nat)
  | read (queue : Nat)
  | leave (job : String) (queue : Nat)
  /-- someone else calls the registry about a job of their own -/
  | elsewhere (call : Registry.Call)
  /-- the files change -/
  | files (files : Files)

namespace Service

/-- Someone else calls the registry. The jobs of the service are its own. -/
def elsewhere (s : Service) (c : Registry.Call) : Service :=
  if c.job?.any fun id => (s.run? id).isSome then s
  else { s with shared := { s.shared with registry := c.apply s.shared.registry s.shared.now } }

end Service

/-- The service after a move. The clock does not go back, and without anybody in line no turn is
served. -/
def Move.act (s : Service) : Move → Service
  | submit request script observes objects => (s.submit request script observes objects).2
  | call id aim => s.call id aim
  | render request script observes objects => s.render request script observes objects
  | interrupt id => s.interrupt id
  | turn => s.turn?.getD s
  | ring id => s.ringFor id
  | clock moment => if s.shared.now < moment then s.moveTo moment else s
  | follow id => (s.follow id).2
  | listen id => (s.listen id).2
  | look id queue => (s.look id queue).2
  | read queue => (s.read queue).2
  | leave job queue => s.leave job queue
  | elsewhere c => s.elsewhere c
  | files fs => { s with shared := { s.shared with files := fs } }

namespace Service

/-- The service after a history. -/
def after (s : Service) (moves : List Move) : Service := moves.foldl Move.act s

theorem after_append (s : Service) (ms ns : List Move) :
    s.after (ms ++ ns) = (s.after ms).after ns := List.foldl_append

/-- Whatever happens, in elementary events. -/
abbrev Stirs : Service → Service → Prop := Relation.ReflTransGen Stir

theorem sound_stirs {s s' : Service} (h : s.Sound) (stirs : s.Stirs s') : s'.Sound := by
  induction stirs with
  | refl => exact h
  | tail _ stir ih => exact (stir_keeps ih stir).sound

/-- What each elementary event keeps is kept. -/
theorem Sound.along {P : Service → Prop} {s s' : Service} (h : s.Sound) (stirs : s.Stirs s')
    (step : ∀ {s s' : Service}, s.Sound → s.Stir s' → P s → P s') (holds : P s) : P s' := by
  induction stirs with
  | refl => exact holds
  | tail before stir ih => exact step (sound_stirs h before) stir ih

/-- A run stays, and so does what its encoder is going to do. -/
theorem stirs_run {s s' : Service} {id : String} {r : Run} (h : s.Sound) (stirs : s.Stirs s')
    (run : s.run? id = some r) : ∃ r', s'.run? id = some r' ∧ r'.script = r.script := by
  refine h.along (P := fun s => ∃ r', s.run? id = some r' ∧ r'.script = r.script) stirs
    (fun sound stir ⟨r', run', script⟩ => ?_) ⟨r, run, rfl⟩
  obtain ⟨r'', run'', -, ahead | ⟨same, -⟩⟩ := (stir_keeps sound stir).goes id r' run'
  · exact ⟨r'', run'', ahead.script.trans script⟩
  · exact ⟨r'', run'', same.trans script⟩

variable {s : Service} {id : String} {aim : Aim}

/-- Nobody is told at once that something was cancelled. -/
theorem immediate_ne {reply : Reply} (h : s.immediate id aim = some reply) :
    reply ≠ .cancelled (.ok true) := by
  unfold immediate at h
  rintro rfl
  split at h
  · split at h <;> cases h
  · split at h
    · cases h
    · split at h <;> cases h

/-- Whoever is not answered at once has called for a job that is active, and one that has not
ended if it is to be cancelled. -/
theorem active_of_immediate (h : s.immediate id aim = none) :
    ∃ r, s.run? id = some r ∧ r.isActive = true ∧
      ∀ reason, aim = .cancel reason → ∃ j, s.job? id = some j ∧ j.state.isTerminal = false := by
  have known (active : (s.run? id).any (·.isActive) = true) :
      ∃ r, s.run? id = some r ∧ r.isActive = true := by
    cases run : s.run? id with
    | none => rw [run] at active; cases active
    | some r => exact ⟨r, rfl, by rwa [run] at active⟩
  cases aim with
  | wait =>
    simp only [immediate] at h
    split at h
    · next active =>
      obtain ⟨r, run, active⟩ := known active
      exact ⟨r, run, active, fun _ e => by cases e⟩
    · cases h
  | cancel reason =>
    cases found : s.shared.registry.find? id with
    | none =>
      simp only [immediate, Registry.get, found] at h
      cases h
    | some j =>
      simp only [immediate, Registry.get, found] at h
      split at h
      · next live =>
        rw [Bool.and_eq_true, Bool.not_eq_true'] at live
        obtain ⟨r, run, active⟩ := known live.2
        exact ⟨r, run, active, fun _ _ => ⟨j, found, live.1⟩⟩
      · cases h

theorem act_turn_nil (front : s.ready = []) : Move.turn.act s = s := by
  show s.turn?.getD s = s
  rw [turn?, front]
  rfl

theorem act_turn {t : Turn} {rest : List Turn} (front : s.ready = t :: rest) :
    Move.turn.act s = { s with ready := rest }.serve t := by
  show s.turn?.getD s = _
  rw [turn?, front]
  rfl

/-! ## Moves in elementary events -/

theorem stirs_onRun {f : Service → Run → Service}
    (h : ∀ r, s.run? r.id = some r → s.Stir (f s r)) (id : String) : s.Stirs (s.onRun id f) := by
  unfold onRun
  split
  · next r run => exact .single (h r (id_of_run? run ▸ run))
  · exact .refl

/-- The time and things that belong to nobody. -/
theorem stir_shared (h : s.Sound) {w : Shared} (registry : w.registry = s.shared.registry)
    (time : w.now = s.shared.now) : s.Stir { s with shared := w } :=
  .aside rfl rfl (time ▸ h.time) (fun id j _ hj => by rwa [job?, registry]) rfl (.inl rfl)

/-- A new job leaves all jobs and queues as they are. -/
theorem submit_shared (s : Service) (request : RenderRequest) (script : EncoderScript)
    (observes : Bool) (objects : Float → Bool) :
    (s.submit request script observes objects).2.shared.bus = s.shared.bus ∧ ∀ id j,
      s.job? id = some j → (s.submit request script observes objects).2.job? id = some j := by
  unfold submit
  generalize made : s.shared.registry.create none s.shared.now = result
  obtain ⟨registry, failure | i⟩ := result
  · exact ⟨rfl, fun id j hj => (Registry.find?_congr (Registry.create_error made) id).trans hj⟩
  · obtain ⟨new, -, jobs⟩ := Registry.create_ok made
    refine ⟨rfl, fun id j hj => ?_⟩
    refine (Registry.find?_enrolled jobs new id).trans ((if_neg fun e => ?_).trans hj)
    cases (e ▸ new).symm.trans hj

/-- Whoever looks at a job changes nothing, unless it is not known: then the queue is taken out. -/
theorem look_shared (s : Service) (id : String) (q : Nat) :
    ∃ bus, (s.look id q).2 = { s with shared := { s.shared with bus } } ∧
      (bus = s.shared.bus ∨ s.job? id = none ∧ bus = s.shared.bus.unregister id q) := by
  unfold look
  split
  · next unknown =>
    refine ⟨_, rfl, .inr ⟨?_, rfl⟩⟩
    unfold Registry.get at unknown
    split at unknown
    · cases unknown
    · assumption
  · split <;> exact ⟨_, rfl, .inl rfl⟩

/-- Whoever follows a job changes nothing but the queues, and gets a new one unless the job is not
known. -/
theorem follow_shared (s : Service) (id : String) :
    ∃ bus, (s.follow id).2 = { s with shared := { s.shared with bus } } ∧
      (bus = (s.shared.bus.register id).2 ∨ s.job? id = none ∧
        bus = (s.shared.bus.register id).2.unregister id (s.shared.bus.register id).1) :=
  look_shared (s.listen id).2 id (s.listen id).1

theorem stirs_submit (h : s.Sound) (request : RenderRequest) (script : EncoderScript)
    (observes : Bool) (objects : Float → Bool) :
    s.Stirs (s.submit request script observes objects).2 := by
  have kept := (submit_shared s request script observes objects).2
  unfold submit at kept ⊢
  generalize made : s.shared.registry.create none s.shared.now = result at kept ⊢
  obtain ⟨registry, failure | j⟩ := result
  · exact .single (.aside rfl rfl h.time (fun id j _ => kept id j) rfl (.inl rfl))
  · obtain ⟨new, created, jobs⟩ := Registry.create_ok made
    refine .single (.enrol (j := j) (h.unknown new) rfl rfl ?_ created kept rfl rfl rfl)
    exact (Registry.find?_enrolled jobs new j.id).trans (if_pos rfl)

/-- A call is counted. -/
theorem stir_counted (h : s.Sound) : s.Stir { s with calls := s.calls + 1 } :=
  .aside rfl rfl h.time (fun _ _ _ hj => hj) rfl (.inl rfl)

theorem stirs_stopped (h : s.Sound) {r : Run} (run : s.run? id = some r) (reason : Option String) :
    s.Stirs (stop { s with calls := s.calls + 1 } { r with cancelReason := reason }) := by
  obtain rfl := id_of_run? run
  have run : { s with calls := s.calls + 1 }.run? r.id = some r := run
  exact .tail (.single (stir_counted h)) (.stop run reason)

/-- A cancellation that is not answered at once stops the run, and its caller comes to wait. -/
theorem call_cancel_eq {r : Run} {reason : String} (now : s.immediate id (.cancel reason) = none)
    (run : s.run? id = some r) : s.call id (.cancel reason) =
      (stop { s with calls := s.calls + 1 } { r with cancelReason := some reason }).attend
        ⟨s.calls, id, .cancel reason⟩ := by
  have now : { s with calls := s.calls + 1 }.immediate id (.cancel reason) = none := now
  have run : { s with calls := s.calls + 1 }.run? id = some r := run
  simp only [call, now, onRun, run]

theorem stirs_call (h : s.Sound) (id : String) (aim : Aim) : s.Stirs (s.call id aim) := by
  cases now : s.immediate id aim with
  | some reply =>
    have now : { s with calls := s.calls + 1 }.immediate id aim = some reply := now
    simp only [call, now]
    exact .single (.aside rfl rfl h.time (fun _ _ _ hj => hj) rfl
      (.inr ⟨_, rfl, immediate_ne now⟩))
  | none =>
    obtain ⟨r, run, -⟩ := active_of_immediate now
    cases aim with
    | wait =>
      have now : { s with calls := s.calls + 1 }.immediate id .wait = none := now
      have run : { s with calls := s.calls + 1 }.run? id = some r := run
      simp only [call, now]
      exact .tail (.single (stir_counted h)) (.attend run)
    | cancel reason =>
      have stopped := stirs_stopped h run (some reason)
      obtain ⟨r', run', -⟩ := stirs_run h stopped run
      rw [call_cancel_eq now run]
      exact .tail stopped (.attend run')

/-- Every move is made of elementary events. -/
theorem act_stirs (h : s.Sound) (m : Move) : s.Stirs (m.act s) := by
  cases m with
  | submit request script observes objects => exact stirs_submit h request script observes objects
  | call id aim => exact stirs_call h id aim
  | render request script observes objects =>
    have submitted := stirs_submit h request script observes objects
    show s.Stirs (s.render request script observes objects)
    unfold render
    generalize s.submit request script observes objects = result at submitted
    obtain ⟨failure | id, s'⟩ := result
    · exact submitted
    · exact submitted.trans (stirs_call (sound_stirs h submitted) id .wait)
  | interrupt id => exact stirs_onRun (fun r run => .stop run r.cancelReason) id
  | turn =>
    cases front : s.ready with
    | nil => exact (act_turn_nil front).symm ▸ .refl
    | cons t rest => exact (act_turn front).symm ▸ .single (.turn front)
  | ring id =>
    have limit : s.Stirs (s.onRun id ringLimit) := stirs_onRun (fun r run => .limit run) id
    exact limit.trans (stirs_onRun (fun r run => .wake run) id)
  | clock moment =>
    show s.Stirs (if s.shared.now < moment then s.moveTo moment else s)
    split
    · next later =>
      exact .single (.aside rfl rfl (Double.isNaN_of_lt later) (fun _ _ _ hj => hj) rfl (.inl rfl))
    · exact .refl
  | follow id =>
    obtain ⟨bus, same, -⟩ := follow_shared s id
    show s.Stirs (s.follow id).2
    rw [same]
    exact .single (stir_shared h rfl rfl)
  | listen id => exact .single (stir_shared h rfl rfl)
  | look id queue =>
    obtain ⟨bus, same, -⟩ := look_shared s id queue
    show s.Stirs (s.look id queue).2
    rw [same]
    exact .single (stir_shared h rfl rfl)
  | read queue => exact .single (stir_shared h rfl rfl)
  | leave job queue => exact .single (stir_shared h rfl rfl)
  | elsewhere c =>
    show s.Stirs (s.elsewhere c)
    unfold elsewhere
    split
    · exact .refl
    · next foreign =>
      refine .single (.aside rfl rfl h.time (fun id j known hj => ?_) rfl (.inl rfl))
      refine Registry.find?_apply hj (fun own => foreign ?_) _
      rw [own]
      exact known
  | files fs => exact .single (stir_shared h rfl rfl)

/-! ## What holds after any history -/

/-- A history is made of elementary events. -/
theorem stirs_after (h : s.Sound) (moves : List Move) : s.Stirs (s.after moves) := by
  induction moves generalizing s with
  | nil => exact .refl
  | cons m rest ih =>
    have first := act_stirs h m
    exact first.trans (ih (sound_stirs h first))

theorem sound_after (h : s.Sound) (moves : List Move) : (s.after moves).Sound :=
  sound_stirs h (stirs_after h moves)

/-- A service is sound, and the only jobs that were stopped before they began and have left the
service are those of which a caller was told that they were cancelled. -/
structure Accounted (s : Service) : Prop where
  sound : s.Sound
  answered : ∀ id, s.Confirmed id → ∃ r, s.run? id = some r ∧ r.isActive = false
  excused : ∀ id r, s.run? id = some r → r.stopsEarly = true → r.isActive = false →
    s.Confirmed id

theorem Confirmed.more {s s' : Service} {new : List Answer} (h : s.Confirmed id)
    (answers : s'.answers = s.answers ++ new) : s'.Confirmed id := by
  obtain ⟨a, ha, yes⟩ := h
  exact ⟨a, answers ▸ List.mem_append_left _ ha, yes⟩

theorem accounted_stir {s s' : Service} (h : s.Accounted) (stir : s.Stir s') : s'.Accounted := by
  have keeps := stir_keeps h.sound stir
  obtain ⟨new, answers, confirmed⟩ := keeps.answers
  refine ⟨keeps.sound, fun id yes => ?_, fun id r' run' early gone => ?_⟩
  · obtain ⟨a, ha, rfl, reply⟩ := yes
    rw [answers, List.mem_append] at ha
    rcases ha with old | new
    · obtain ⟨r, run, gone⟩ := h.answered _ ⟨a, old, rfl, reply⟩
      obtain ⟨r', run', -, ahead | ⟨-, -, gone', -⟩⟩ := keeps.goes _ r run
      · exact ⟨r', run', ahead.gone gone⟩
      · exact ⟨r', run', gone'⟩
    · exact confirmed a new reply
  · cases run : s.run? id with
    | none => cases (keeps.fresh id run r' run').symm.trans gone
    | some r =>
      obtain ⟨r'', run'', goes⟩ := keeps.goes id r run
      cases run'.symm.trans run''
      rcases goes with ⟨-, ahead | ⟨-, -, -, yes⟩⟩
      · obtain ⟨early, gone⟩ := ahead.excused early gone
        exact (h.excused id r run early gone).more answers
      · exact yes

theorem accounted_after (h : s.Accounted) (moves : List Move) : (s.after moves).Accounted :=
  h.sound.along (stirs_after h.sound moves) (fun _ stir h => accounted_stir h stir) h

theorem accounted_fresh (setup : Setup) (sweeper : Sweeper) (files : Files) :
    (fresh setup sweeper files).Accounted where
  sound := sound_fresh setup sweeper files
  answered _ yes := by
    obtain ⟨_, none, -⟩ := yes
    cases none
  excused _ _ run := by cases run

/-- A service with the standard settings and a time limit, without any files. -/
def plain (timeout : Option Float) : Service :=
  fresh { settings := .standard, library := .make .standard none none,
          compiler := .make .standard none none, outputDir := "/work/output", timeout }
    (.fresh []) .empty

/-- A service that some history leads to. -/
def Reachable (s : Service) : Prop :=
  ∃ setup sweeper files moves, s = (fresh setup sweeper files).after moves

theorem reachable_plain (timeout : Option Float) : (plain timeout).Reachable :=
  ⟨_, _, _, [], rfl⟩

theorem Reachable.accounted (h : s.Reachable) : s.Accounted := by
  obtain ⟨setup, sweeper, files, moves, rfl⟩ := h
  exact accounted_after (accounted_fresh setup sweeper files) moves

theorem Reachable.after (h : s.Reachable) (more : List Move) : (s.after more).Reachable := by
  obtain ⟨setup, sweeper, files, moves, rfl⟩ := h
  exact ⟨setup, sweeper, files, moves ++ more, (after_append _ moves more).symm⟩

end Service
end Montage
