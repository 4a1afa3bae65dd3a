import Montage.Command.Arguments
import Montage.Compiler
import Montage.Encoder
import Montage.Event
import Montage.Progress
import Montage.Registry
import Montage.Sweep
import Montage.Text.Utf8
import Montage.Timeline.Check

/-!
# Running one job

A run is a job on its way from a request to a result. What it does is cut into stages, at the
points where other runs may go on in between. A stage works on the things that all runs share,
the registry, the queues of events, the files and the clock, and on the run's own notes.
-/
namespace Montage

/-- What all jobs of a service have in common. -/
structure Setup where
  settings : Settings
  library : Library
  compiler : Compiler
  /-- the output directory as an absolute path -/
  outputDir : String
  /-- the seconds that a job may take -/
  timeout : Option Float

namespace Setup

/-- A setup by the settings; a directory and a time limit that are given go before theirs. A
limit of zero is none. -/
def make (s : Settings) (library : Library) (outputDir : Option String)
    (timeout : Option Float) : Setup where
  settings := s
  library := library
  compiler := Compiler.make s none none
  outputDir := Path.absolute ((filled? outputDir).getD s.outputDir)
  timeout :=
    let t := timeout.getD s.timeout
    if t == 0 then none else some t

end Setup

/-- What all runs work on. -/
structure Shared where
  registry : Registry
  bus : Bus := {}
  sweeper : Sweeper
  files : Files
  /-- the seconds since the start -/
  now : Float := 0
  /-- the command lines of all encoders that were started -/
  started : List (List String) := []

/-- Why an encoder is not being read. -/
inductive Pause where
  | asleep (wake : Float)
  | hanging
  /-- the waiting is over -/
  | awake
  /-- there is nothing more to read -/
  | ended

/-- How a run came to an end. -/
inductive Outcome where
  | done
  | failed (failure : Failure)
  /-- it was told to stop -/
  | stopped

/-- How far a run is. -/
inductive Phase where
  | unstarted
  /-- about to begin -/
  | entering
  /-- the assets of the clips have been looked up -/
  | located (timeline : Timeline) (assets : List Asset)
  /-- the background has been looked up as well -/
  | grounded (timeline : Timeline) (assets : List Asset) (background : Option Asset)
  /-- the output directory is there -/
  | prepared (timeline : Timeline) (assets : List Asset) (background : Option Asset)
  /-- the encoder has been started -/
  | encoding (timeline : Timeline) (command : Command) (pause : Pause)
  /-- nothing is left to do but to tell the one who watches the time -/
  | finished (outcome : Outcome)
  | over

/-- Why a run is told to stop. -/
inductive StopCause where
  | timeout
  | cancel
deriving DecidableEq, Repr

/-- What someone wants of a job. -/
inductive Aim where
  /-- its end -/
  | wait
  /-- that it stops -/
  | cancel (reason : String)
deriving DecidableEq, Repr

/-- Someone who called because of a job. Callers are numbered in the order of their calls. -/
structure Caller where
  number : Nat
  job : String
  aim : Aim
deriving DecidableEq, Repr

/-- A job on its way. -/
structure Run where
  id : String
  request : RenderRequest
  script : EncoderScript
  observes : Bool := true
  /-- the percentages at which its observer fails -/
  objects : Float → Bool := fun _ => false
  phase : Phase := .unstarted
  /-- whether the service still counts the job among its own -/
  isActive : Bool := true
  cancelReason : Option String := none
  /-- a run that is to stop before it has begun never begins -/
  stopsEarly : Bool := false
  /-- the run stops at its next stage -/
  mustStop : Bool := false
  stopCause : Option StopCause := none
  /-- the second in which its time is up -/
  limitAt : Option Float := none
  /-- those who wait for its end, in the order in which they came -/
  callers : List Caller := []
  /-- the last percentage that was reported -/
  lastReported : Float := -1
  /-- the percentages that the observer got, the newest first -/
  observed : List Float := []
  /-- the end of the encoder's messages -/
  tail : String := ""
  /-- the line that is not finished -/
  pending : String := ""
  process : Option Process := none

/-- What a stage works on. -/
structure Scene where
  shared : Shared
  run : Run

/-- A stage, or a part of one. A failure keeps what has been done before it. -/
abbrev Act := ExceptT Failure (StateM Scene)

namespace Act

def shared : Act Shared := return (← get).shared
def run : Act Run := return (← get).run

def setShared (f : Shared → Shared) : Act Unit := modify fun s => { s with shared := f s.shared }
def setRun (f : Run → Run) : Act Unit := modify fun s => { s with run := f s.run }

/-- A computation that touches nothing. -/
def pureFault {α : Type} : Except Fault α → Act α
  | .ok a => return a
  | .error f => throw (.fault f)

def pureFailure {α : Type} : Except Failure α → Act α
  | .ok a => return a
  | .error f => throw f

/-- A call on the registry for the run's own job. -/
def call {α : Type} (f : Registry → String → Float → Registry.Called α) : Act α := do
  let s ← get
  let (r, answer) := f s.shared.registry s.run.id s.shared.now
  setShared fun w => { w with registry := r }
  pureFailure answer

/-- Tells the subscribers of the run's job what happened. -/
def publish (kind : String) (data : Json) : Act Unit := do
  let s ← get
  let e : Event := ⟨kind, s.run.id, Instant.ofSeconds s.shared.now, some data⟩
  setShared fun w => { w with bus := (w.bus.publish e).2 }

/-- Makes a call for the run's own job, and tells the subscribers what came of it. -/
def announce (f : Registry → String → Float → Registry.Called Job) (kind : String)
    (data : Job → Json) : Act Job := do
  let job ← call f
  publish kind (data job)
  return job

/-- Moves the job to its next state. -/
def advance (state : JobState) : Act Unit :=
  discard <| announce (fun r id now => r.transition id state now) "state" fun _ =>
    .object [("state", .string state.word)]

end Act
end Montage
