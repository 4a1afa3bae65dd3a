import Montage.Job
import Montage.Text.Quoted

/-!
# The registry of jobs

The registry holds every job that was ever made and counts what becomes of them. A job that
fails before it renders, or whose encoder does not start, is rejected; every other job that ends
counts as a render. A call that is refused changes nothing.
-/
namespace Montage

/-- The counts over all jobs that have ended. -/
structure Stats where
  count : Nat := 0
  errors : Nat := 0
  rejected : Nat := 0
  averageMs : Float := 0
  successRate : Float := 0
  lastRenderedAt : Option Instant := none

namespace Stats

/-- Counts a job that did not get as far as a render. -/
def reject (s : Stats) : Stats := { s with rejected := s.rejected + 1 }

/-- The mean of `n` numbers, the last of which is `x`, from the mean of those before it. -/
def nextMean {α : Type} [Add α] [Sub α] [Div α] (mean x n : α) : α := mean + (x - mean) / n

/-- Counts a render that took some milliseconds and ended at a point in time. -/
def render (s : Stats) (success : Bool) (elapsedMs : Float) (time : Instant) : Stats :=
  let count := s.count + 1
  let errors := if success then s.errors else s.errors + 1
  { s with
    count := count
    errors := errors
    averageMs := nextMean s.averageMs elapsedMs (Float.ofNat count)
    successRate := Float.ofNat (count - errors) / Float.ofNat count * 100
    lastRenderedAt := some time }

def toJson (s : Stats) : Json :=
  .object [("count", .int s.count), ("errors", .int s.errors), ("rejected", .int s.rejected),
    ("avg_time_ms", .float s.averageMs), ("success_rate", .float s.successRate),
    ("last_rendered_at", Json.ofOption (fun t => .string t.recordText) s.lastRenderedAt)]

end Stats

/-- All jobs in the order in which they were registered. -/
structure Registry where
  jobs : List Job := []
  stats : Stats := {}
  /-- how many characters of detail an error keeps -/
  detailLimit : Int
  /-- how many jobs have been given an id -/
  named : Nat := 0

namespace Registry

/-- An empty registry by the settings; a limit that is given goes before theirs unless it is
zero. -/
def fresh (s : Settings) (limit : Option Int) : Registry where
  detailLimit := match limit with
    | some n => if n = 0 then s.tailLength else n
    | none => s.tailLength

/-- The id of the `n`-th job without a name of its own. -/
def idOf (n : Nat) : String :=
  Decimal.padZeros 8 (String.ofList (Nat.toDigits 16 n)) ++ "-0000-4000-8000-000000000000"

def find? (r : Registry) (id : String) : Option Job := r.jobs.find? (·.id == id)

def contains (r : Registry) (id : String) : Bool := (r.find? id).isSome

def size (r : Registry) : Nat := r.jobs.length

/-- The job of an id. -/
def get (r : Registry) (id : String) : Except Failure Job :=
  match r.find? id with
  | some j => .ok j
  | none => .error (.jobNotFound (some id))

/-- The registry with a job replaced by another record of it. -/
def put (r : Registry) (j : Job) : Registry :=
  { r with jobs := r.jobs.map fun old => if old.id == j.id then j else old }

theorem find?_put (r : Registry) (j : Job) (id : String) :
    (r.put j).find? id = (r.find? id).map fun old => if old.id == j.id then j else old := by
  simp only [find?, put, List.find?_map]
  congr 2
  funext old
  by_cases h : old.id = j.id <;> simp [h]

theorem size_put (r : Registry) (j : Job) : (r.put j).size = r.size := by
  simp [size, put]

theorem ids_put (r : Registry) (j : Job) : (r.put j).jobs.map (·.id) = r.jobs.map (·.id) := by
  simp only [put, List.map_map]
  congr 1
  funext old
  by_cases h : old.id = j.id <;> simp [h]

/-- The registry after a call, and what the call gave. -/
abbrev Called (α : Type) := Registry × Except Failure α

/-- Goes on with the job of an id, if there is one. -/
def withJob {α : Type} (r : Registry) (id : String) (k : Job → Called α) : Called α :=
  match r.get id with
  | .ok j => k j
  | .error f => (r, .error f)

/-- Refuses a call that a job's state does not allow. -/
def refuse {α : Type} (r : Registry) (j : Job) (target : String) : Called α :=
  (r, .error (.transition j.id j.state.word target))

/-- The id that a new job gets, unless it brings one. -/
def nameFor (r : Registry) (id : Option String) : String × Registry :=
  match filled? id with
  | some id => (id, r)
  | none => (idOf (r.named + 1), { r with named := r.named + 1 })

/-- Registers a job as it is. -/
def enroll (r : Registry) (j : Job) : Called Job :=
  if r.contains j.id then (r, .error (.fault (.alreadyRegistered j.id)))
  else ({ r with jobs := r.jobs ++ [j] }, .ok j)

/-- Registers a job in a state, under a name of its own or a new one. -/
def record (r : Registry) (id : Option String) (state : JobState) (now : Float) : Called Job :=
  let (id, r) := r.nameFor id
  let t := Instant.ofSeconds now
  r.enroll { id, state, createdAt := t, updatedAt := t }

/-- Registers a new job. -/
def create (r : Registry) (id : Option String) (now : Float) : Called Job :=
  r.record id .created now

/-- Moves a job one state further. -/
def transition (r : Registry) (id : String) (target : JobState) (now : Float) : Called Job :=
  r.withJob id fun j =>
    if target.isTerminal || j.state.next? != some target then r.refuse j target.word
    else
      let j := { j with
        state := target
        updatedAt := Instant.ofSeconds now
        renderingSince := if target = .rendering then some now else j.renderingSince }
      (r.put j, .ok j)

/-- A number of percent as a double between 0 and 100. -/
def clampPercent (p : Number) : Float :=
  if (Number.int 0).lt p then
    if p.lt (.int 100) then match p with
      | .int n => Float.ofInt n
      | .float x => x
    else 100
  else 0

/-- Notes the progress of a job that renders. Progress never goes back. -/
def updateProgress (r : Registry) (id : String) (percent : Number) (now : Float) : Called Job :=
  r.withJob id fun j =>
    if j.state ≠ .rendering then r.refuse j "progress update"
    else
      let p := clampPercent percent
      let j := { j with
        progress := if j.progress < p then p else j.progress
        updatedAt := Instant.ofSeconds now }
      (r.put j, .ok j)

/-- Adds a warning to a job that has not ended. -/
def addWarning (r : Registry) (id message : String) : Called Unit :=
  r.withJob id fun j =>
    if j.state.isTerminal then r.refuse j "warning"
    else (r.put { j with warnings := j.warnings ++ [message] }, .ok ())

/-- The milliseconds since a job began to render; zero if it never did. -/
def elapsedMs (j : Job) (now : Float) : Float :=
  match j.renderingSince with
  | some since => (now - since) * 1000
  | none => 0

/-- Ends a job that renders with its result. -/
def complete (r : Registry) (id : String) (result : RenderResult) (now : Float) : Called Job :=
  r.withJob id fun j =>
    if j.state ≠ .rendering then r.refuse j JobState.completed.word
    else
      let t := Instant.ofSeconds now
      let j := { j with
        state := .completed
        progress := 100
        result := some result
        updatedAt := t }
      ({ r.put j with stats := r.stats.render true (elapsedMs j now) t }, .ok j)

/-- Ends a job that has not ended with a failure. -/
def fail (r : Registry) (id : String) (failure : Failure) (now : Float) : Called Job :=
  r.withJob id fun j =>
    if j.state.isTerminal then r.refuse j JobState.failed.word
    else
      let t := Instant.ofSeconds now
      let counted := j.state = .rendering && failure.countsAsRender
      let stats := if counted then r.stats.render false (elapsedMs j now) t else r.stats.reject
      let j := { j with
        state := .failed
        error := some (failure.info (some r.detailLimit))
        updatedAt := t }
      ({ r.put j with stats := stats }, .ok j)

/-- The jobs in a state, or all, from the oldest to the newest. -/
def list (r : Registry) (state : Option JobState) : List Job :=
  (r.jobs.filter fun j => match state with
    | some s => j.state = s
    | none => true).mergeSort fun a b => a.createdAt.micros ≤ b.createdAt.micros

end Registry
end Montage
