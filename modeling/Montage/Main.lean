import Montage.Cli.Candidates

/-!
# The program

Reads the settings from the environment and the inputs from files, lets the library work, and
prints what it leaves. The program cannot start other programs: rendering ends with a job whose
encoder did not start, and media are taken as they are.
-/
namespace Montage.Program

/-- The environment's names of the settings. -/
def names : List String := [
  "LOG_LEVEL", "FFMPEG_PATH", "FFPROBE_PATH", "ASSETS_DIR", "OUTPUT_DIR", "OUTPUT_URL_PREFIX",
  "OUTPUT_CLEANUP_EXTENSIONS_RAW", "RENDER_OUTPUT_WIDTH", "RENDER_OUTPUT_HEIGHT", "RENDER_FPS",
  "RENDER_MIN_DURATION_S", "RENDER_PRESET", "RENDER_PIX_FMT", "RENDER_AUDIO_BITRATE",
  "RENDER_AUDIO_SAMPLE_RATE", "PROBE_MEDIA", "DIAGNOSTIC_TAIL_CHARS", "RENDER_TIMEOUT_S",
  "PROGRESS_REPORT_STEP"]

/-- The settings that are set. -/
def environment : IO (List (String × String)) :=
  names.filterMapM fun name => do return (← IO.getEnv name).map fun v => (name, v)

/-- A file with its content. -/
def read? (path : String) : IO (Option StoredFile) := do
  try
    let bytes ← IO.FS.readBinFile path
    return some { size := bytes.size, content := bytes.toList }
  catch _ => return none

/-- A file without its content. -/
def look? (path : String) : IO (Option StoredFile) := do
  try
    let handle ← IO.FS.Handle.mk path .read
    let _ ← handle.read 1
    return some { size := 1 }
  catch _ => return none

/-- Adds those of some files that are there. -/
def addFiles (find : String → IO (Option StoredFile)) (files : Files) (paths : List String) :
    IO Files :=
  paths.foldlM (fun files path => do
    match ← find path with
    | some file => return files.put (Path.place path) file
    | none => return files) files

/-- The encoder of a program that cannot start any. -/
def noEncoder : EncoderScript := { spawnError := some (38, "Function not implemented") }

/-- The message of a command that breaks off. -/
def breakMessage : Cli.Break → String
  | .notText => "an input is not encoded in UTF-8"
  | .unknownLevel => "unknown log level"
  | .mismatches ms => "\n".intercalate (ms.map fun m => (Issue.ofMismatch m).text)
  | .failure f => f.message

/-- Runs a command. -/
def runOrder (settings : Settings) (order : Cli.Order) : IO UInt32 := do
  let files ← addFiles read? .empty (order.timeline :: order.fields.toList)
  let w : Cli.Surroundings := ⟨settings, files, noEncoder⟩
  let files ← addFiles look? files (Cli.candidates w order)
  match Cli.run { w with files := files } order with
  | .ok report =>
    (← IO.getStderr).putStr report.complaints
    (← IO.getStdout).putStr report.printed
    return report.exit.toUInt32
  | .error b =>
    (← IO.getStderr).putStrLn (breakMessage b)
    return 1

end Montage.Program

/-- Runs the command line. -/
def main (args : List String) : IO UInt32 := do
  match Montage.Cli.Order.ofArguments args with
  | .error code => return code.toUInt32
  | .ok order =>
    match Montage.Settings.ofEnvironment (← Montage.Program.environment) with
    | .bad ms =>
      (← IO.getStderr).putStrLn (Montage.Program.breakMessage (.mismatches ms))
      return 1
    | .ok settings => Montage.Program.runOrder settings order
