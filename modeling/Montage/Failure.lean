import Montage.Issue
import Montage.Text.Tail

/-!
# Failures

Everything that can end a render job, or make a call on a job fail. A failure has a stable code
and a message; what a caller can do about it follows from the code.
-/
namespace Montage

/-- A failure told in free words. What is absent or empty is filled in by its kind. -/
structure Notice where
  message : Option String := none
  code : Option String := none
  detail : Option String := none
  fix : Option String := none
deriving DecidableEq, Repr

/-- Why a job fails or a call on it does. -/
inductive Failure where
  /-- the timeline has defects -/
  | timeline (issues : List Issue)
  /-- a file that a clip refers to is not there -/
  | assetMissing (source : String) (ref : Option String)
  /-- the graph cannot be built -/
  | compile (notice : Notice)
  /-- the encoder did not start -/
  | spawn (binary reason : String)
  /-- the encoder gave an exit code other than zero -/
  | encoding (exit : Int) (tail : Option String)
  /-- the encoder succeeded, but its file is of no use -/
  | output (path reason : String)
  | cancelled (reason : String)
  | jobNotFound (job : Option String)
  /-- a job cannot go from one state to another -/
  | transition (job current target : String)
  /-- anything else -/
  | internal (notice : Notice)
  /-- a computation has no result -/
  | fault (fault : Fault)
deriving DecidableEq, Repr

/-- A text that is there and not empty. -/
def filled? : Option String → Option String
  | some s => if s.isEmpty then none else some s
  | none => none

/-- What a caller is told about a code. -/
structure CodeEntry where
  retryable : Bool
  fatal : Bool
  fix : Option String
deriving DecidableEq, Repr

namespace CodeEntry

/-- The codes and what a caller is told about them. -/
def table : List (String × CodeEntry) := [
  ("TIMELINE_VALIDATION_ERROR",
    ⟨false, true, some "Fix every listed timeline issue and resubmit"⟩),
  ("ASSET_MISSING",
    ⟨false, false, some "Upload the asset or use an absolute path to an existing file"⟩),
  ("COMPILE_ERROR", ⟨false, true, none⟩),
  ("INVALID_JOB_TRANSITION", ⟨false, true, none⟩),
  ("JOB_NOT_FOUND", ⟨false, true, none⟩),
  ("PROCESS_SPAWN_ERROR",
    ⟨false, true, some "Install FFmpeg or set FFMPEG_PATH to an executable binary"⟩),
  ("ENCODING_ERROR", ⟨true, true, some "Inspect the encoder diagnostic tail"⟩),
  ("OUTPUT_VERIFICATION_ERROR",
    ⟨true, true, some "Check free disk space and permissions of the output directory"⟩),
  ("RENDER_CANCELLED", ⟨true, true, none⟩)]

/-- The entry of a code; a code without one is final. -/
def find (code : String) : CodeEntry :=
  ((table.find? fun e => e.1 == code).map (·.2)).getD ⟨false, true, none⟩

end CodeEntry

/-- A failure as callers see it. -/
structure ErrorInfo where
  code : String
  message : String
  detail : Option String
  retryable : Bool
  suggestedFix : Option String
deriving DecidableEq, Repr

namespace Failure

/-- The code of a timeline with defects. -/
def timelineCode : String := "TIMELINE_VALIDATION_ERROR"

/-- The stable name of a failure's kind. -/
def code : Failure → String
  | timeline _ => timelineCode
  | assetMissing .. => "ASSET_MISSING"
  | compile n => (filled? n.code).getD "COMPILE_ERROR"
  | spawn .. => "PROCESS_SPAWN_ERROR"
  | encoding .. => "ENCODING_ERROR"
  | output .. => "OUTPUT_VERIFICATION_ERROR"
  | cancelled _ => "RENDER_CANCELLED"
  | jobNotFound _ => "JOB_NOT_FOUND"
  | transition .. => "INVALID_JOB_TRANSITION"
  | internal n => (filled? n.code).getD "INTERNAL_ERROR"
  | fault _ => "INTERNAL_ERROR"

/-- What happened, for readers. -/
def message : Failure → String
  | timeline issues =>
    "Timeline validation failed (" ++ toString issues.length ++ " issues): " ++
      "; ".intercalate (issues.map Issue.text)
  | assetMissing source ref =>
    "Asset not found: " ++ source ++
      match filled? ref with
      | some r => " (clip " ++ r ++ ")"
      | none => ""
  | compile n => (filled? n.message).getD "Failed to compile timeline"
  | spawn binary reason => "Failed to start encoder '" ++ binary ++ "': " ++ reason
  | encoding exit _ => "Encoder exited with code " ++ toString exit
  | output path reason => "Rendered output " ++ path ++ " is unusable: " ++ reason
  | cancelled reason => "Render cancelled: " ++ reason
  | jobNotFound job =>
    match filled? job with
    | some j => "Job not found: " ++ j
    | none => "Job not found"
  | transition job current target =>
    "Job " ++ job ++ " cannot move from " ++ current ++ " to " ++ target
  | internal n => (filled? n.message).getD "An unexpected error occurred"
  | fault f => f.message

/-- The end of what the encoder said, or other detail. -/
def detail : Failure → Option String
  | encoding _ tail => tail
  | compile n => n.detail
  | internal n => n.detail
  | _ => none

/-- The advice that replaces the one of the code. -/
def ownFix : Failure → Option String
  | compile n => filled? n.fix
  | internal n => filled? n.fix
  | _ => none

/-- Whether a job that fails so while rendering counts as a render. -/
def countsAsRender : Failure → Bool
  | timeline _ => false
  | compile _ => false
  | spawn .. => false
  | _ => true

/-- A text cut to its end if it is longer than the limit. -/
def cutDetail (limit : Option Int) (s : String) : String :=
  match limit with
  | some n => if n < s.length then Text.tail n s else s
  | none => s

/-- The failure as callers see it, with at most `limit` characters of detail. -/
def info (f : Failure) (limit : Option Int) : ErrorInfo :=
  let entry := CodeEntry.find f.code
  { code := f.code
    message := f.message
    detail := f.detail.map (cutDetail limit)
    retryable := entry.retryable
    suggestedFix := f.ownFix <|> entry.fix }

end Failure
end Montage
