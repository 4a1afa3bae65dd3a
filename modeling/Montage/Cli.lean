import Montage.Cli.Arguments
import Montage.Json.Printer
import Montage.Service.Time
import Montage.Text.Shell

/-!
# The commands

`validate` lists what is wrong in a timeline, `compile` prints the encoder's command line, and
`render` renders the timeline and prints the job. They end with 0 if all went well, with 1 if
an input cannot be used, and with 2 if rendering failed.
-/
namespace Montage.Cli

/-- What the commands find outside. -/
structure Surroundings where
  settings : Settings
  files : Files
  encoder : EncoderScript

/-- What a command leaves: the code, and what it printed and complained of. -/
structure Report where
  exit : Nat
  printed : String := ""
  complaints : String := ""

/-- Why a command breaks off. -/
inductive Break where
  /-- a file is not encoded in UTF-8 -/
  | notText
  /-- the level of the log has an unknown name -/
  | unknownLevel
  | mismatches (list : List Mismatch)
  | failure (f : Failure)

/-- A text as a line. -/
def line (s : String) : String := s ++ "\n"

/-- An input that cannot be used. -/
def unusable (message : String) : Report := { exit := 1, complaints := line ("ERROR: " ++ message) }

/-- A path without empty parts and points. -/
def tidy (path : String) : String :=
  let parts := (Path.parts path).filter fun p => p ≠ "" ∧ p ≠ "."
  let text := String.ofList (List.replicate (Path.leadingSlashes path) '/') ++
    "/".intercalate parts
  if text.isEmpty then "." else text

/-- Line ends of all kinds as the one of the system. -/
def unifyLineEnds : List Char → List Char
  | '\r' :: '\n' :: rest => '\n' :: unifyLineEnds rest
  | '\r' :: rest => '\n' :: unifyLineEnds rest
  | c :: rest => c :: unifyLineEnds rest
  | [] => []

/-- The document in a file, or a report that it cannot be used. -/
def load (files : Files) (path : String) : Except Break (Except Report Json) :=
  let path := tidy path
  match files.find? path with
  | none => .ok (.error (unusable ("File not found: " ++ path)))
  | some file =>
    match Text.decodeStrict? file.content with
    | none => .error .notText
    | some text =>
      let source := String.ofList (unifyLineEnds text.toList)
      match Json.read source with
      | .ok v => .ok (.ok v)
      | .error e => match e.fault? with
        | some f => .error (.failure (.fault f))
        | none => .ok (.error (unusable ("Invalid JSON in " ++ path ++ ": " ++ e.message source)))

/-- The merge fields in a file, none without a file. -/
def loadFields (files : Files) (path : Option String) : Except Break (Except Report Fields) := do
  match filled? path with
  | none => return .ok []
  | some path =>
    match ← load files path with
    | .error r => return .error r
    | .ok (.object members) => return .ok members
    | .ok _ => return .error (unusable ("Merge fields in " ++ path ++ " must be a JSON object"))

/-- How many clips a document has that passed the check. -/
def countClips (tracks : List Json) : Nat :=
  (tracks.map fun t => match t.get? "clips" with
    | some (.array clips) => clips.length
    | _ => 0).foldl (· + ·) 0

/-- The `validate` command. -/
def validate (w : Surroundings) (o : Order) : Except Break Report := do
  match ← load w.files o.timeline with
  | .error r => return r
  | .ok data =>
    let report ← (check data).mapError fun f => Break.failure (.fault f)
    let warnings := String.join (report.warnings.map fun i => line ("  warning: " ++ i.text))
    let path := tidy o.timeline
    if report.isValid then
      let tracks := match data.get? "tracks" with
        | some (.array tracks) => tracks
        | _ => []
      return {
        exit := 0
        printed := line ("✓ Timeline is valid: " ++ path) ++
          line ("  Tracks: " ++ toString tracks.length) ++
          line ("  Clips: " ++ toString (countClips tracks))
        complaints := warnings }
    else
      return {
        exit := 1
        complaints := warnings ++ line ("✗ Timeline is invalid: " ++ path) ++
          String.join (report.errors.map fun i => line ("  " ++ i.text)) }

/-- The inputs of a command that produces something. -/
def inputs (w : Surroundings) (o : Order) : Except Break (Except Report (Json × Fields)) := do
  match ← load w.files o.timeline with
  | .error r => return .error r
  | .ok data =>
    match ← loadFields w.files o.fields with
    | .error r => return .error r
    | .ok fields => return .ok (data, fields)

/-- The library that a command uses. -/
def libraryFor (w : Surroundings) (o : Order) : Library :=
  Library.make w.settings o.assetsDir none

/-- The command of a checked timeline. -/
def preview (w : Surroundings) (o : Order) (t : Timeline) : Except Failure Command := do
  let l := libraryFor w o
  let assets ← (l.assets w.files t).mapError .fault
  let background ← (l.background w.files t).mapError .fault
  let dir := (filled? o.outputDir).getD w.settings.outputDir
  let path := Path.join dir ("preview." ++ o.output.format.word)
  (Compiler.make w.settings none none).compile w.files t assets path o.output background

/-- The `compile` command. -/
def compile (w : Surroundings) (o : Order) : Except Break Report := do
  match ← inputs w o with
  | .error r => return r
  | .ok (data, fields) =>
    let canvas := .ok w.settings.canvas
    match Timeline.accept canvas data with
    | .error (.issues list) => return unusable (Failure.timeline list).message
    | .error (.fault f) => throw (.failure (.fault f))
    | .ok t =>
      let t ← (Merge.resolve .standard fields canvas t).mapError .mismatches
      let command ← (preview w o t).mapError .failure
      let argv ← (command.arguments w.settings.encoderPath).mapError fun f =>
        Break.failure (.fault f)
      return {
        exit := 0
        printed := line (Text.shellLine argv)
        complaints := String.join (command.warnings.map fun m => line ("  warning: " ++ m)) }

/-- The code of a finished job. -/
def exitOf (j : Job) : Nat :=
  if j.state = .completed then 0
  else if (j.error.map (·.code)) = some Failure.timelineCode then 1 else 2

/-- The `render` command. -/
def render (w : Surroundings) (o : Order) : Except Break Report := do
  match ← inputs w o with
  | .error r => return r
  | .ok (data, fields) =>
    let setup := Setup.make w.settings (libraryFor w o) o.outputDir none
    let service := Service.fresh setup (Sweeper.fresh w.settings.sweptExtensions) w.files
    let request ← (RenderRequest.make data fields o.output).toExcept.mapError .mismatches
    let (id, service) := service.submit request w.encoder false
    let job ← (service.wait (← id.mapError .failure)).1.mapError .failure
    return { exit := exitOf job, printed := line (Json.print job.toJson) }

/-- The names of the levels of the log. -/
def levels : List String :=
  ["CRITICAL", "FATAL", "ERROR", "WARN", "WARNING", "INFO", "DEBUG", "NOTSET"]

/-- Does what a command line asks for. -/
def run (w : Surroundings) (o : Order) : Except Break Report :=
  let level := String.ofList (w.settings.logLevel.toList.map Char.toUpper)
  if !o.verbose && !levels.contains level then .error .unknownLevel
  else match o.verb with
  | .validate => validate w o
  | .compile => compile w o
  | .render => render w o

end Montage.Cli
