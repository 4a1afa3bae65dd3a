import Montage.Clock
import Montage.Failure
import Montage.Request

/-!
# Jobs

A job goes through its states in one order, one step at a time. It can fail in each of them but
the last.
-/
namespace Montage

/-- The states of a job. -/
inductive JobState where
  | created
  | validating
  | substituting
  | resolving
  | compiling
  | rendering
  | completed
  | failed
deriving DecidableEq, Repr

namespace JobState

/-- All states by their names. -/
def words : List (String × JobState) := [
  ("created", created), ("validating", validating), ("substituting", substituting),
  ("resolving", resolving), ("compiling", compiling), ("rendering", rendering),
  ("completed", completed), ("failed", failed)]

def word : JobState → String
  | created => "created"
  | validating => "validating"
  | substituting => "substituting"
  | resolving => "resolving"
  | compiling => "compiling"
  | rendering => "rendering"
  | completed => "completed"
  | failed => "failed"

/-- Whether nothing comes after the state. -/
def isTerminal : JobState → Bool
  | completed => true
  | failed => true
  | _ => false

/-- The state after this one in a job that goes well. -/
def next? : JobState → Option JobState
  | created => some validating
  | validating => some substituting
  | substituting => some resolving
  | resolving => some compiling
  | compiling => some rendering
  | rendering => some completed
  | _ => none

end JobState

/-- A job as it is recorded. -/
structure Job where
  id : String
  state : JobState := .created
  createdAt : Instant
  updatedAt : Instant
  progress : Float := 0
  result : Option RenderResult := none
  error : Option ErrorInfo := none
  warnings : List String := []
  /-- the second in which the job began to render -/
  renderingSince : Option Float := none

def ErrorInfo.toJson (e : ErrorInfo) : Json :=
  .object [("code", .string e.code), ("message", .string e.message),
    ("detail", Json.ofOption .string e.detail), ("retryable", .bool e.retryable),
    ("suggested_fix", Json.ofOption .string e.suggestedFix)]

/-- A job as callers see it. -/
def Job.toJson (j : Job) : Json :=
  .object [("id", .string j.id), ("state", .string j.state.word),
    ("created_at", .string j.createdAt.recordText), ("updated_at", .string j.updatedAt.recordText),
    ("progress", .float j.progress), ("result", Json.ofOption RenderResult.toJson j.result),
    ("error", Json.ofOption ErrorInfo.toJson j.error),
    ("warnings", .array (j.warnings.map .string))]

end Montage
