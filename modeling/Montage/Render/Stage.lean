import Montage.Render.Run

/-!
# The stages of a run

The timeline is checked, its placeholders are replaced and its assets are looked up; then the
background is; then the output directory is prepared; then the command is compiled and the
encoder runs until its messages end. Progress is reported where it has grown enough, and the
file that the encoder leaves is looked at before the job counts as completed.
-/
namespace Montage.Act

/-- What the observer does with a percentage: it takes it, and it may fail then. -/
def observe (percent : Float) : Act Unit := do
  setRun fun r => { r with observed := percent :: r.observed }
  if (← run).objects percent then throw (.internal {})

/-- Tells the observer of a percentage, if there is one. Its failure is its own affair. -/
def notify (percent : Float) : Act Unit := do
  if (← run).observes then tryCatch (observe percent) fun _ => return

/-- Reports a percentage if it is greater than the last one by at least the step, or complete. -/
def report (setup : Setup) (percent : Float) : Act Unit := do
  let last := (← run).lastReported
  if percent ≤ last then return
  if percent < 100 && percent - last < setup.settings.progressStep then return
  setRun fun r => { r with lastReported := percent }
  let job ← call fun r id now => r.updateProgress id (.float percent) now
  notify job.progress
  publish "progress" (.object [("progress", .float job.progress)])

/-- Reports the progress that a line of messages tells. -/
def readLine (setup : Setup) (duration : Number) (line : String) : Act Unit := do
  match ← pureFault (Progress.time? line) with
  | some seconds => report setup (← pureFault (Progress.percent (.float seconds) duration))
  | none => return

/-- The longest unfinished line that is kept. -/
def pendingLimit : Int := 4096

/-- Takes a portion of messages: its end is kept, and its finished lines are read. -/
def readPortion (setup : Setup) (duration : Number) (bytes : List UInt8) : Act Unit := do
  let text := Text.decodeLenient bytes
  setRun fun r => { r with tail := Text.appendTail setup.settings.tailLength r.tail text }
  let (lines, rest) := Progress.splitLines ((← run).pending ++ text)
  setRun fun r => { r with pending := Text.tail pendingLimit rest }
  lines.forM (readLine setup duration)

/-- The run with a change to its process. -/
def setProcess (f : Process → Process) : Act Unit :=
  setRun fun r => { r with process := r.process.map f }

/-- Makes the output file have so many bytes. -/
def writeFile (path : String) (size : Int) : Act Unit :=
  setShared fun w => { w with files := w.files.put (Path.place path) { size := size } }

/-- Reads the encoder's messages until it pauses or they end. -/
def readSteps (setup : Setup) (command : Command) : List EncoderStep → Act Pause
  | [] => return .ended
  | step :: rest => do
    setProcess fun p => { p with remaining := rest }
    match step with
    | .output bytes =>
      readPortion setup command.duration bytes
      readSteps setup command rest
    | .sleep seconds => return .asleep ((← shared).now + seconds)
    | .hang => return .hanging
    | .write size =>
      writeFile command.outputPath size
      readSteps setup command rest
    | .exited code =>
      setProcess fun p => { p with state := .exited code }
      readSteps setup command rest
    | .error message => throw (.fault (.unreadable message))

/-- Does something while the encoder runs; if it fails, the encoder is killed. -/
def guarded {α : Type} (act : Act α) : Act α :=
  tryCatch act fun f => do
    setProcess Process.kill
    throw f

/-- The code that the encoder exits with once its messages have ended. -/
def exitCode : Act Int := do
  setProcess Process.finish
  return ((← run).process.map Process.code).getD 0

/-- The name of the output file: the time, the front of the job's id, and the container. -/
def fileName (id : String) (output : OutputOptions) : Act String := do
  let stamp := (Instant.ofSeconds (← shared).now).fileText
  return "video_" ++ stamp ++ "_" ++ (id.take 8).toString ++ "." ++ output.format.word

/-- Looks at the file that the encoder left. -/
def verify (setup : Setup) (timeline : Timeline) (command : Command) (output : OutputOptions) :
    Act RenderResult := do
  let path := command.outputPath
  match (← shared).files.find? path with
  | none => throw (.output path "file does not exist")
  | some file =>
    if file.size = 0 then throw (.output path "file is empty")
    let name := Path.baseName path
    return {
      path := path
      filename := name
      url := Decimal.dropEnd '/' setup.settings.outputUrlPrefix ++ "/" ++ name
      size := file.size
      duration := ← pureFault command.duration.toFloat
      resolution := [("width", command.width), ("height", command.height)]
      frameRate := ← pureFault command.frameRate.toFloat
      codec := output.format.codecName
      format := command.format
      tracks := timeline.trackList.length
      clips := timeline.clips.length }

/-- The end of a run whose encoder has no more messages. -/
def conclude (setup : Setup) (timeline : Timeline) (command : Command) : Act Unit := do
  guarded (do readLine setup command.duration (← run).pending)
  let code ← exitCode
  if code ≠ 0 then throw (.encoding code (some (← run).tail))
  let result ← verify setup timeline command (← run).request.output
  report setup 100
  let _ ← announce (fun r id now => r.complete id result now) "completed" fun _ =>
    .object [("result", result.toJson)]

/-- Reads on, and comes to the end if there is nothing more to read. -/
def readOn (setup : Setup) (timeline : Timeline) (command : Command) : Act Phase := do
  let steps := ((← run).process.map (·.remaining)).getD []
  match ← guarded (readSteps setup command steps) with
  | .ended =>
    conclude setup timeline command
    return .finished .done
  | pause => return .encoding timeline command pause

/-- Mismatches that a resolved timeline has, as a failure. -/
def mismatched (ms : List Mismatch) : Failure :=
  .internal { message := some ("; ".intercalate (ms.map fun m => (Issue.ofMismatch m).text)) }

/-- The stage from the request to the assets. -/
def locate (setup : Setup) : Act Phase := do
  let request := (← run).request
  let canvas := .ok setup.settings.canvas
  advance .validating
  let timeline ← match Timeline.accept canvas request.timeline with
    | .ok t => pure t
    | .error (.issues list) => throw (.timeline list)
    | .error (.fault f) => throw (.fault f)
  advance .substituting
  let timeline ← match Merge.resolve .standard request.fields canvas timeline with
    | .ok t => pure t
    | .error ms => throw (mismatched ms)
  advance .resolving
  let assets ← pureFault (setup.library.assets (← shared).files timeline)
  return .located timeline assets

/-- The stage that looks the background up. -/
def ground (setup : Setup) (timeline : Timeline) (assets : List Asset) : Act Phase := do
  let background ← pureFault (setup.library.background (← shared).files timeline)
  return .grounded timeline assets background

/-- The stage that prepares the output directory. -/
def prepare (setup : Setup) (timeline : Timeline) (assets : List Asset)
    (background : Option Asset) : Act Phase := do
  advance .compiling
  let w ← shared
  let (sweeper, files, _) ← pureFault (w.sweeper.prepare w.files setup.outputDir)
  setShared fun w => { w with sweeper := sweeper, files := files }
  return .prepared timeline assets background

/-- Why an encoder did not start. -/
def spawnReason (binary : String) (errno : Int) (text : String) : String :=
  "[Errno " ++ toString errno ++ "] " ++ text ++ ": " ++ Text.quote binary

/-- The stage that compiles the command and starts the encoder. -/
def launch (setup : Setup) (timeline : Timeline) (assets : List Asset)
    (background : Option Asset) : Act Phase := do
  let r ← run
  let path := Path.join setup.outputDir (← fileName r.id r.request.output)
  let command ← pureFailure (setup.compiler.compile (← shared).files timeline assets path
    r.request.output background)
  command.warnings.forM fun warning => call fun reg id _ => reg.addWarning id warning
  let binary := setup.settings.encoderPath
  let argv ← pureFault (command.arguments binary)
  advance .rendering
  setShared fun w => { w with started := w.started ++ [argv] }
  match r.script.spawnError with
  | some (errno, text) => throw (.spawn binary (spawnReason binary errno text))
  | none =>
    setRun fun r => { r with process := some (Process.start r.script) }
    readOn setup timeline command

/-- The next stage of a run. -/
def stage (setup : Setup) : Phase → Act Phase
  | .unstarted => locate setup
  | .entering => locate setup
  | .located t assets => ground setup t assets
  | .grounded t assets background => prepare setup t assets background
  | .prepared t assets background => launch setup t assets background
  | .encoding t command _ => readOn setup t command
  | .finished outcome => return .finished outcome
  | .over => return .over

/-- Ends the job with a failure, unless it has ended already. -/
def failJob (failure : Failure) : Act Unit := do
  let s ← get
  match s.shared.registry.find? s.run.id with
  | some j =>
    if j.state.isTerminal then return
    let _ ← announce (fun r id now => r.fail id failure now) "failed" fun j =>
      .object [("error", Json.ofOption ErrorInfo.toJson j.error)]
  | none => throw (.jobNotFound (some s.run.id))

end Montage.Act
