import Montage.Render.Stage

/-!
# The render service

A service runs many jobs side by side, one turn at a time: whatever has something to do stands
in a line and is served in the order in which it came there. A job may have a time limit. Then
its stages are turns of their own, and the job itself waits for them, for its limit and for
being cancelled, whatever comes first.

Whoever calls because of a job gets an answer at once if there is nothing to wait for; all others
wait for the end of the job's own turns and are then put in line in the order in which they came.

Time passes only when nobody stands in line; it then jumps to the moment at which the next one
wakes.
-/
namespace Montage

/-- Something that stands in line. -/
inductive Turn where
  /-- a job begins -/
  | start (id : String)
  /-- a job does its next stage -/
  | work (id : String)
  /-- a job hears that its time is up -/
  | limit (id : String)
  /-- a job hears that it is cancelled -/
  | cancel (id : String)
  /-- a job hears that its stages have come to an end -/
  | settle (id : String)
  /-- a caller hears that the job's own turns are over -/
  | resume (caller : Caller)
deriving DecidableEq, Repr

/-- The job that a turn is about. -/
def Turn.job : Turn → String
  | start id => id
  | work id => id
  | limit id => id
  | cancel id => id
  | settle id => id
  | resume caller => caller.job

/-- What a caller gets: a record, or whether there was something to cancel. -/
inductive Reply where
  | job (outcome : Except Failure Job)
  | cancelled (outcome : Except Failure Bool)

/-- A call that has come to its end. -/
structure Answer where
  caller : Caller
  reply : Reply

/-- A service with its jobs. -/
structure Service where
  setup : Setup
  shared : Shared
  /-- all jobs that were submitted, the oldest first -/
  runs : List Run := []
  ready : List Turn := []
  /-- how many calls there have been -/
  calls : Nat := 0
  /-- the answers to calls, the oldest first -/
  answers : List Answer := []

namespace Service

/-- A service that has not got any job. -/
def fresh (setup : Setup) (sweeper : Sweeper) (files : Files) : Service where
  setup := setup
  shared := { registry := Registry.fresh setup.settings (some setup.settings.tailLength),
              sweeper := sweeper, files := files }

def run? (s : Service) (id : String) : Option Run := s.runs.find? (·.id == id)

/-- The service with another state of a run. -/
def putRun (s : Service) (r : Run) : Service :=
  { s with runs := s.runs.map fun old => if old.id == r.id then r else old }

/-- Applies a change to the run of an id. -/
def onRun (s : Service) (id : String) (f : Service → Run → Service) : Service :=
  match s.run? id with
  | some r => f s r
  | none => s

/-- The service with one more turn at the end of the line. -/
def enqueue (s : Service) (t : Turn) : Service := { s with ready := s.ready ++ [t] }

/-- The service after a part of a stage for a run, and whether the part failed. -/
def perform {α : Type} (s : Service) (r : Run) (act : Act α) : Except Failure α × Service × Run :=
  let (answer, scene) := StateT.run (ExceptT.run act) ⟨s.shared, r⟩
  (answer, { s with shared := scene.shared }, scene.run)

/-- How many jobs have not ended. -/
def active (s : Service) : Nat := s.runs.countP (·.isActive)

/-- Takes in a request as a new job, which begins when its turn comes. An observer may come with
it, which fails at some percentages. -/
def submit (s : Service) (request : RenderRequest) (script : EncoderScript) (observes : Bool)
    (objects : Float → Bool := fun _ => false) : Except Failure String × Service :=
  let (registry, answer) := s.shared.registry.create none s.shared.now
  let s := { s with shared := { s.shared with registry := registry } }
  match answer with
  | .error f => (.error f, s)
  | .ok job =>
    let r : Run := { id := job.id, request, script, observes, objects }
    (.ok job.id, { s with runs := s.runs ++ [r] }.enqueue (.start job.id))

/-- The failure of a job that was told to stop: by its limit, by a caller with a reason, or from
outside. -/
def stopFailure (r : Run) (byLimit : Bool) : Failure :=
  if byLimit then .cancelled "timeout" else .cancelled (r.cancelReason.getD "interrupted")

/-- The end of a run's turns: those who wait for it come in line. -/
def retire (s : Service) (r : Run) : Service :=
  let s := s.putRun { r with phase := .over, limitAt := none, callers := [] }
  { s with ready := s.ready ++ r.callers.map .resume }

/-- The end of a job: a failure is recorded, and the job is no longer active. -/
def conclude (s : Service) (r : Run) (failure : Option Failure) : Service :=
  let (s, r) := match failure with
    | some f => (s.perform r (Act.failJob f)).2
    | none => (s, r)
  s.retire { r with isActive := false }

/-- What an outcome means where nothing else was heard. -/
def outcomeFailure (r : Run) : Outcome → Option Failure
  | .done => none
  | .failed f => some f
  | .stopped => some (stopFailure r false)

/-- The stages of a run have come to an end. Without a limit the job ends at once; with one, it
has to hear of it. -/
def finish (s : Service) (r : Run) (outcome : Outcome) : Service :=
  match s.setup.timeout with
  | none => s.conclude r (outcomeFailure r outcome)
  | some _ => (s.putRun { r with phase := .finished outcome }).enqueue (.settle r.id)

/-- Tells the stages of a run to stop. One that waits for its encoder gets a turn for it; all
others have one already. -/
def stopStages (s : Service) (r : Run) : Service :=
  let r := { r with mustStop := true }
  match r.phase with
  | .encoding t c (.asleep _) =>
    (s.putRun { r with phase := .encoding t c .awake }).enqueue (.work r.id)
  | .encoding t c .hanging =>
    (s.putRun { r with phase := .encoding t c .awake }).enqueue (.work r.id)
  | _ => s.putRun r

/-- A stage has come to its end: the run comes in line for the next one, unless it waits for its
encoder or has come to its end as well. -/
def arrive (s : Service) (r : Run) : Phase → Service
  | .finished outcome => s.finish r outcome
  | .encoding t c pause => s.putRun { r with phase := .encoding t c pause }
  | phase => (s.putRun { r with phase := phase }).enqueue (.work r.id)

/-- The next stage of a run, or its stop. -/
def work (s : Service) (r : Run) : Service :=
  if r.mustStop then
    s.finish { r with process := r.process.map Process.kill } .stopped
  else
    match s.perform r (Act.stage s.setup r.phase) with
    | (.error f, s, r) => s.finish r (.failed f)
    | (.ok phase, s, r) => s.arrive r phase

/-- A job begins. With a limit, its stages get a turn of their own, and the limit is set. -/
def start (s : Service) (r : Run) : Service :=
  if r.stopsEarly then s.retire r
  else match s.setup.timeout with
    | none => s.work r
    | some seconds =>
      let r := { r with phase := .entering }
      let r := if seconds ≤ 0 then { r with mustStop := true, stopCause := some .timeout }
        else { r with limitAt := some (s.shared.now + seconds) }
      (s.putRun r).enqueue (.work r.id)

/-- A job hears that its time is up: it stops its stages, unless they have ended. -/
def hearLimit (s : Service) (r : Run) : Service :=
  match r.phase, r.stopCause with
  | .over, _ => s
  | .finished outcome, none => s.conclude r (outcomeFailure r outcome)
  | .finished _, some _ => s
  | _, none => s.stopStages { r with stopCause := some .timeout }
  | _, some _ => s

/-- A job hears that it is cancelled: it stops its stages, unless they have ended. -/
def hearCancel (s : Service) (r : Run) : Service :=
  match r.phase, r.stopCause with
  | .over, _ => s
  | .finished outcome, none => s.conclude r (outcomeFailure r outcome)
  | .finished _, some _ => s.conclude r (some (stopFailure r false))
  | _, _ => s.stopStages { r with stopCause := some .cancel, limitAt := none }

/-- A job hears that its stages have ended. -/
def hearEnd (s : Service) (r : Run) : Service :=
  match r.phase with
  | .finished outcome =>
    match r.stopCause, outcome with
    | some .cancel, _ => s.conclude r (some (stopFailure r false))
    | some .timeout, .stopped => s.conclude r (some (stopFailure r true))
    | _, outcome => s.conclude r (outcomeFailure r outcome)
  | _ => s

/-- Gives a caller an answer. -/
def answer (s : Service) (c : Caller) (reply : Reply) : Service :=
  { s with answers := s.answers ++ [⟨c, reply⟩] }

/-- The end of a cancellation: a job that never began is failed by the caller. -/
def close (s : Service) (r : Run) (reason : String) : Service :=
  let (_, s, r) := s.perform r (Act.failJob (.cancelled reason))
  s.putRun { r with isActive := false }

/-- A caller hears that the job's own turns are over. -/
def resume (s : Service) (c : Caller) : Service :=
  match c.aim with
  | .wait => s.answer c (.job (s.shared.registry.get c.job))
  | .cancel reason => (s.onRun c.job (close · · reason)).answer c (.cancelled (.ok true))

/-- Serves one turn. -/
def serve (s : Service) : Turn → Service
  | .start id => s.onRun id start
  | .work id => s.onRun id work
  | .limit id => s.onRun id hearLimit
  | .cancel id => s.onRun id hearCancel
  | .settle id => s.onRun id hearEnd
  | .resume c => s.resume c

/-- Serves the first in line. -/
def turn? (s : Service) : Option Service :=
  match s.ready with
  | [] => none
  | t :: rest => some ({ s with ready := rest }.serve t)

/-- Stops a run from outside. One that has not begun never will. -/
def stop (s : Service) (r : Run) : Service :=
  match r.phase with
  | .unstarted => s.putRun { r with stopsEarly := true }
  | .over => s.putRun r
  | _ =>
    if s.setup.timeout.isSome then (s.putRun r).enqueue (.cancel r.id)
    else s.stopStages r

/-- Stops a job from outside, without a reason. -/
def interrupt (s : Service) (id : String) : Service := s.onRun id stop

/-- What a caller gets at once: the record of a job that the service does not count any more, or
that there is nothing to cancel. -/
def immediate (s : Service) (id : String) : Aim → Option Reply
  | .wait =>
    if (s.run? id).any (·.isActive) then none else some (.job (s.shared.registry.get id))
  | .cancel _ =>
    match s.shared.registry.get id with
    | .error f => some (.cancelled (.error f))
    | .ok job =>
      if !job.state.isTerminal && (s.run? id).any (·.isActive) then none
      else some (.cancelled (.ok false))

/-- A caller comes behind those who wait already. -/
def attend (s : Service) (c : Caller) : Service :=
  s.onRun c.job fun s r => match r.phase with
    | .over => s.enqueue (.resume c)
    | _ => s.putRun { r with callers := r.callers ++ [c] }

/-- Someone calls because of a job. Unless there is an answer at once, a cancellation stops the
job, and the caller waits for its end. -/
def call (s : Service) (id : String) (aim : Aim) : Service :=
  let c : Caller := ⟨s.calls, id, aim⟩
  let s := { s with calls := s.calls + 1 }
  match s.immediate id aim, aim with
  | some reply, _ => s.answer c reply
  | none, .wait => s.attend c
  | none, .cancel reason =>
    (s.onRun id fun s r => s.stop { r with cancelReason := some reason }).attend c

/-- Takes in a request and calls for the end of its job. -/
def render (s : Service) (request : RenderRequest) (script : EncoderScript) (observes : Bool)
    (objects : Float → Bool := fun _ => false) : Service :=
  match s.submit request script observes objects with
  | (.ok id, s) => s.call id .wait
  | (.error _, s) => s

/-- The answer to a call. -/
def reply? (s : Service) (number : Nat) : Option Reply :=
  (s.answers.find? fun a => a.caller.number = number).map (·.reply)

end Service
end Montage
