import Montage.Proofs.Float.Order
import Montage.Proofs.Render.Acts

/-!
# What each stage does

`Scene.Fits` says what is true of a job while its run is in a phase: its state in the registry
belongs to the phase, and its encoder runs in the phase of encoding only. `stage_fits` says that a
stage leads from a phase to a later one that fits, with less to do, or fails in a job that has not
ended and whose encoder does not run.

The encoder is followed step by step: `Paused` relates what was to be read to where the reading
pauses, and an encoder whose script comes to an end (`EncoderScript.ends`) never hangs.
-/
namespace Montage

/-! ## Scripts that come to an end -/

/-- Whether the reading of some steps comes to an end: it does not hang, and every wait is
finite. Nothing is read after an error. -/
def EncoderStep.reachEnd : List EncoderStep → Bool
  | [] => true
  | .hang :: _ => false
  | .error _ :: _ => true
  | .sleep seconds :: rest => seconds.isFinite && reachEnd rest
  | _ :: rest => reachEnd rest

/-- Whether an encoder comes to an end by itself. -/
def EncoderScript.ends (s : EncoderScript) : Bool := EncoderStep.reachEnd s.steps

theorem EncoderScript.ends_reads {s : EncoderScript} (h : s.ends) : EncoderStep.reachEnd s.reads := by
  have outputs (ps : List (List UInt8)) (rest : List EncoderStep) :
      EncoderStep.reachEnd (ps.map .output ++ rest) = EncoderStep.reachEnd rest := by
    induction ps with
    | nil => rfl
    | cons p ps ih => exact ih
  unfold ends at h
  unfold reads
  generalize s.steps = steps at h ⊢
  induction steps with
  | nil => rfl
  | cons step rest ih =>
    rw [List.flatMap_cons]
    cases step with
    | output bytes => rw [outputs]; exact ih h
    | sleep seconds =>
      obtain ⟨finite, h⟩ := Bool.and_eq_true_iff.1 h
      exact Bool.and_eq_true_iff.2 ⟨finite, ih h⟩
    | hang => cases h
    | error => rfl
    | write => exact ih h
    | exited => exact ih h

/-! ## Reading -/

/-- Where the reading of some steps pauses, and what is left to read then. -/
inductive Paused (now : Float) : List EncoderStep → Pause → List EncoderStep → Prop where
  | ended : Paused now [] .ended []
  | asleep {seconds rest} : Paused now (.sleep seconds :: rest) (.asleep (now + seconds)) rest
  | hanging {rest} : Paused now (.hang :: rest) .hanging rest
  | later {step rest pause left} (read : EncoderStep.reachEnd (step :: rest) → EncoderStep.reachEnd rest)
      (h : Paused now rest pause left) : Paused now (step :: rest) pause left

theorem Paused.length {now : Float} {steps left : List EncoderStep} {pause : Pause}
    (h : Paused now steps pause left) : pause = .ended ∨ left.length < steps.length := by
  induction h with
  | ended => exact .inl rfl
  | asleep => exact .inr (by simp)
  | hanging => exact .inr (by simp)
  | later _ _ ih => exact ih.imp_right fun lt => by rw [List.length_cons]; omega

theorem Paused.ne_awake {now : Float} {steps left : List EncoderStep} {pause : Pause}
    (h : Paused now steps pause left) : pause ≠ .awake := by
  induction h with
  | later _ _ ih => exact ih
  | _ => simp

/-- A pause of an encoder that comes to an end is a sleep, and it wakes. -/
def Pause.Ends (pause : Pause) (left : List EncoderStep) : Prop :=
  EncoderStep.reachEnd left ∧ match pause with
    | .asleep wake => wake.isNaN = false
    | .hanging => False
    | _ => True

theorem Paused.ends {now : Float} {steps left : List EncoderStep} {pause : Pause}
    (h : Paused now steps pause left) (time : now.isNaN = false)
    (ends : EncoderStep.reachEnd steps) : pause.Ends left := by
  induction h with
  | ended => exact ⟨rfl, trivial⟩
  | asleep =>
    obtain ⟨finite, ends⟩ := Bool.and_eq_true_iff.1 ends
    exact ⟨ends, Double.isNaN_add time finite⟩
  | hanging => cases ends
  | later read _ ih => exact ih (read ends)

namespace JobState

/-- Whether a job in a state has yet to render. -/
def isEarly : JobState → Bool
  | rendering => false
  | state => !state.isTerminal

variable {st : JobState}

theorem live_of_isEarly (h : st.isEarly = true) : st.isTerminal = false := by
  cases st <;> first | rfl | cases h

/-- A job that fails before it renders does not count as a render. -/
theorem counts_of_isEarly (h : st.isEarly = true) (f : Failure) : Registry.counts st f = false := by
  cases st <;> first | rfl | cases h

end JobState

namespace Act

open Scene (At)

variable {setup : Setup} {process : EncoderScript → Option Process → Prop}

/-! ### Reading the encoder -/

theorem spec_notify {st : JobState} {percent : Float} {E : Scene → Prop} :
    Spec (At st process) (notify percent) (fun _ => At st process) E := by
  have same : notify percent = setRun fun r => r.noticed percent :=
    ext fun s => result_notify percent s
  rw [same]
  refine spec_setRun (fun r => r.noted_noticed percent) fun r h => ?_
  rw [r.noted_noticed percent]
  unfold Run.noticed
  split <;> exact h

theorem spec_report {percent : Float} :
    Spec (At .rendering process) (report setup percent) (fun _ => At .rendering process)
      (At .rendering process) := by
  have told : Spec (At .rendering process)
      (announce (fun r id now => r.updateProgress id (.float percent) now) "progress"
        fun job => .object [("progress", .float job.progress)])
      (fun _ => At .rendering process) (At .rendering process) := by
    refine spec_announce (Registry.updates_updateProgress _) ?_ fun _ h => h
    rintro _ now j a j' e ⟨rfl, before, rfl⟩ kind data
    exact ⟨.reported before before (by rw [Event.content, kind, data]; rfl), before⟩
  rw [report_eq]
  refine along_run_bind fun r => ?_
  dsimp only
  split
  · exact along_pure fun _ h => h
  split
  · exact along_pure fun _ h => h
  exact Along.bind (spec_setRun (fun _ => rfl) fun _ h => h) fun _ => Along.bind told fun job =>
    spec_notify

theorem spec_readLine {duration : Number} {line : String} :
    Spec (At .rendering process) (readLine setup duration line) (fun _ => At .rendering process)
      (At .rendering process) := by
  refine (along_pureFault (fun _ _ _ h => h) fun _ _ _ h => h).bind fun time => ?_
  split
  · exact (along_pureFault (fun _ _ _ h => h) fun _ _ _ h => h).bind fun _ => spec_report
  · exact along_pure fun _ h => h

theorem spec_readPortion {duration : Number} {bytes : List UInt8} :
    Spec (At .rendering process) (readPortion setup duration bytes)
      (fun _ => At .rendering process) (At .rendering process) := by
  refine Along.bind (spec_setRun (fun _ => rfl) fun _ h => h) fun _ => ?_
  refine along_run_bind fun r => ?_
  refine Along.bind (spec_setRun (fun _ => rfl) fun _ h => h) fun _ => ?_
  exact along_forM _ fun line _ => spec_readLine

/-- The encoder is there, with some steps left. -/
def Left (steps : List EncoderStep) (_ : EncoderScript) (q : Option Process) : Prop :=
  ∃ p, q = some p ∧ p.remaining = steps

/-- The encoder is there. -/
def Started (_ : EncoderScript) (q : Option Process) : Prop := q.isSome

/-- The reading has paused. -/
def Pausing (steps : List EncoderStep) (pause : Pause) (s : Scene) : Prop :=
  At .rendering (fun _ q => ∃ p, q = some p ∧
    (pause = .ended ∨ Paused s.shared.now steps pause p.remaining)) s

theorem spec_readSteps {command : Command} (steps : List EncoderStep) :
    Spec (At .rendering Started) (readSteps setup command steps) (Pausing steps)
      (At .rendering Started) := by
  induction steps with
  | nil =>
    refine along_pure fun s ⟨job, started⟩ => ⟨job, ?_⟩
    obtain ⟨p, hp⟩ := Option.isSome_iff_exists.1 started
    exact ⟨p, hp, .inl rfl⟩
  | cons step rest ih =>
    have left : Spec (At .rendering Started) (setProcess fun p => { p with remaining := rest })
        (fun _ => At .rendering (Left rest)) (At .rendering Started) := by
      refine spec_setRun (fun _ => rfl) fun r h => ?_
      obtain ⟨p, hp⟩ := Option.isSome_iff_exists.1 h
      exact ⟨{ p with remaining := rest }, by rw [hp]; rfl, rfl⟩
    have started {s : Scene} (h : At .rendering (Left rest) s) : At .rendering Started s := by
      obtain ⟨job, p, hp, -⟩ := h
      exact ⟨job, by rw [Started, hp]; rfl⟩
    have on (read : EncoderStep.reachEnd (step :: rest) → EncoderStep.reachEnd rest) :
        Spec (At .rendering Started) (readSteps setup command rest) (Pausing (step :: rest))
          (At .rendering Started) := by
      refine ih.mono (fun _ h => h) (fun pause s ⟨job, p, hp, h⟩ => ?_) fun _ _ h => h
      exact ⟨job, p, hp, h.imp_right (.later read)⟩
    refine Along.bind left fun _ => ?_
    cases step with
    | output bytes =>
      refine Along.bind ?_ fun _ => on fun h => h
      exact spec_readPortion.mono (fun _ h => h) (fun _ _ h => started h) fun _ _ h => started h
    | sleep seconds =>
      refine Along.bind (M := fun w s => At .rendering (Left rest) s ∧ s.shared = w)
        (along_shared fun _ h => ⟨h, rfl⟩) fun w => along_pure ?_
      rintro s ⟨⟨job, p, hp, hrest⟩, rfl⟩
      exact ⟨job, p, hp, .inr (hrest ▸ .asleep)⟩
    | hang =>
      refine along_pure ?_
      rintro s ⟨job, p, hp, hrest⟩
      exact ⟨job, p, hp, .inr (hrest ▸ .hanging)⟩
    | write size =>
      have written : Spec (At .rendering Started) (writeFile command.outputPath size)
          (fun _ => At .rendering Started) (At .rendering Started) :=
        spec_setShared fun _ => ⟨rfl, rfl, rfl⟩
      exact Along.bind (written.mono (fun _ h => started h) (fun _ _ h => h) fun _ _ h => h)
        fun _ => on fun h => h
    | exited code =>
      refine Along.bind ?_ fun _ => on fun h => h
      refine spec_setRun (fun _ => rfl) fun r h => ?_
      obtain ⟨p, hp, -⟩ := h
      rw [hp]
      rfl
    | error message => exact along_throw fun _ h => started h

/-- The encoder does not run, if it has been started at all. -/
def Idle (_ : EncoderScript) (q : Option Process) : Prop := ∀ p, q = some p → p.state ≠ .running

/-- The job has not ended, and its encoder does not run. -/
def Halted (s : Scene) : Prop := ∃ st : JobState, st.isTerminal = false ∧ At st Idle s

theorem halted {st : JobState} (live : st.isTerminal = false) {s : Scene} (h : At st Idle s) :
    Halted s := ⟨st, live, h⟩

theorem idle_kill (q : Option Process) (script : EncoderScript) :
    Idle script (q.map Process.kill) := by
  intro p hp running
  obtain ⟨q, -, rfl⟩ := Option.map_eq_some_iff.1 hp
  unfold Process.kill at running
  split at running
  · dsimp only at running
    split at running <;> cases running
  · next h => exact h running

theorem result_guarded_ok {α : Type} {act : Act α} {s s' : Scene} {a : α}
    (run : act.result s = (.ok a, s')) : (guarded act).result s = (.ok a, s') :=
  result_tryCatch_ok run

theorem result_guarded_error {α : Type} {act : Act α} {s s' : Scene} {f : Failure}
    (run : act.result s = (.error f, s')) : (guarded act).result s =
      (.error f, { s' with run := { s'.run with process := s'.run.process.map Process.kill } }) :=
  result_tryCatch_error run

/-- An encoder whose reading fails is killed. -/
theorem spec_guarded {α : Type} {act : Act α} {P : Scene → Prop} {Q : α → Scene → Prop}
    (h : Spec P act Q (At .rendering Started)) : Spec P (guarded act) Q Halted := by
  intro s hs
  obtain ⟨onward, ends⟩ := h s hs
  rcases answered : act.result s with ⟨f | a, s'⟩
  · rw [answered] at onward ends
    rw [result_guarded_error answered]
    exact ⟨onward.trans (.aside rfl rfl rfl rfl), .rendering, rfl, ends.1, idle_kill _ _⟩
  · rw [answered] at onward ends
    rw [result_guarded_ok answered]
    exact ⟨onward, ends⟩

theorem spec_exitCode {E : Scene → Prop} :
    Spec (At .rendering Started) exitCode (fun _ => At .rendering Idle) E := by
  refine Along.bind (M := fun _ => At .rendering Idle) (spec_setRun (fun _ => rfl) fun r _ => ?_)
    fun _ => along_run_bind fun r => along_pure fun _ h => h
  intro p hp running
  obtain ⟨q, -, rfl⟩ := Option.map_eq_some_iff.1 hp
  unfold Process.finish at running
  split at running
  · cases running
  · next h => exact h running

theorem spec_verify {timeline : Timeline} {command : Command} {output : OutputOptions}
    {P : Scene → Prop} : Spec P (verify setup timeline command output) (fun _ => P) P := by
  refine along_shared_bind fun w => ?_
  split
  · exact along_throw fun _ h => h
  · split
    · exact along_throw fun _ h => h
    · exact Along.bind (along_pureFault (fun _ _ _ h => h) fun _ _ _ h => h) fun _ =>
        Along.bind (along_pureFault (fun _ _ _ h => h) fun _ _ _ h => h) fun _ => along_pure fun _ h => h

theorem spec_conclude {timeline : Timeline} {command : Command} :
    Spec (At .rendering Started) (conclude setup timeline command)
      (fun _ => At .completed Idle) Halted := by
  have complete (result : RenderResult) : Spec (At .rendering Idle)
      (announce (fun r id now => r.complete id result now) "completed" fun _ =>
        .object [("result", result.toJson)])
      (fun _ => At .completed Idle) Halted := by
    refine spec_announce (Registry.updates_complete result) ?_ fun _ => halted rfl
    rintro _ now j a j' e ⟨rfl, before, rfl⟩ kind data
    refine ⟨.ended (by rw [before]; rfl) rfl (fun _ => before) ?_ rfl, rfl⟩
    rw [Event.content, kind, data]
    rfl
  have last : Spec (At .rendering Started)
      (do readLine setup command.duration (← run).pending)
      (fun _ => At .rendering Started) (At .rendering Started) :=
    along_run_bind fun _ => spec_readLine
  have seen : Spec (At .rendering Idle) run (fun _ => At .rendering Idle) Halted :=
    along_run fun _ h => h
  have fails : ∀ s, At .rendering Idle s → Halted s := fun _ => halted rfl
  refine Along.bind (spec_guarded last) fun _ => Along.bind spec_exitCode fun code => ?_
  dsimp only
  split
  · exact Along.bind seen fun _ => along_throw_bind fails
  refine Along.bind seen fun r => ?_
  refine Along.bind (spec_verify.mono (fun _ h => h) (fun _ _ h => h) fun _ => fails) fun result => ?_
  refine Along.bind (spec_report.mono (fun _ h => h) (fun _ _ h => h) fun _ => fails) fun _ => ?_
  exact Along.bind (complete result) fun _ => along_pure fun _ h => h

/-- Where the reading of some steps has come to: to the end of the job, or to a pause. -/
def Come (timeline : Timeline) (command : Command) (steps : List EncoderStep) (phase : Phase)
    (s : Scene) : Prop :=
  phase = .finished .done ∧ At .completed Idle s ∨
    ∃ pause, phase = .encoding timeline command pause ∧ At .rendering (fun _ q =>
      ∃ p, q = some p ∧ Paused s.shared.now steps pause p.remaining ∧ pause ≠ .ended) s

theorem spec_readOn {timeline : Timeline} {command : Command} (steps : List EncoderStep) :
    Spec (At .rendering (Left steps)) (readOn setup timeline command)
      (Come timeline command steps) Halted := by
  have started {s : Scene} (h : At .rendering (Left steps) s) : At .rendering Started s := by
    obtain ⟨job, p, hp, -⟩ := h
    exact ⟨job, by rw [Started, hp]; rfl⟩
  refine Along.bind (M := fun r s => At .rendering (Left steps) s ∧ s.run = r)
    (along_run fun _ h => ⟨h, rfl⟩) fun r => ?_
  intro s hs
  have rest : (r.process.map (·.remaining)).getD [] = steps := by
    obtain ⟨⟨-, p, hp, hrest⟩, rfl⟩ := hs
    rw [hp]
    exact hrest
  simp only [rest]
  refine Along.bind (spec_guarded (spec_readSteps steps)) (fun pause => ?_) s (started hs.1)
  split
  · refine Along.bind (spec_conclude.mono (fun s h => ⟨h.1, ?_⟩) (fun _ _ h => h) fun _ _ h => h)
      fun _ => along_pure fun _ h => .inl ⟨rfl, h⟩
    obtain ⟨p, hp, -⟩ := h.2
    rw [Started, hp]
    rfl
  · next ne =>
    refine along_pure fun s ⟨job, p, hp, h⟩ => .inr ⟨_, rfl, job, p, hp, h.resolve_left ne, ne⟩

/-! ### The stages before the encoder -/

/-- No encoder has been started. -/
def Unstarted (script : EncoderScript) (sc : EncoderScript) (q : Option Process) : Prop :=
  sc = script ∧ q = none

variable {script : EncoderScript}

theorem halted_unstarted {st : JobState} (live : st.isTerminal = false) {s : Scene}
    (h : At st (Unstarted script) s) : Halted s := by
  refine halted live ⟨h.1, fun p hp => ?_⟩
  rw [h.2.2] at hp
  cases hp

/-! Launching is arranging the command and then starting the encoder. -/

/-- What comes before the encoder starts: it gets a command and an argument vector. -/
def arrange (setup : Setup) (timeline : Timeline) (assets : List Asset)
    (background : Option Asset) (r : Run) : Act (Command × List String) := do
  let path := Path.join setup.outputDir (← fileName r.id r.request.output)
  let command ← pureFailure (setup.compiler.compile (← shared).files timeline assets path
    r.request.output background)
  command.warnings.forM fun warning => call fun reg id _ => reg.addWarning id warning
  let argv ← pureFault (command.arguments setup.settings.encoderPath)
  advance .rendering
  return (command, argv)

/-- The encoder starts and is read. -/
def encode (setup : Setup) (timeline : Timeline) (r : Run) (command : Command)
    (argv : List String) : Act Phase := do
  setShared fun w => { w with started := w.started ++ [argv] }
  match r.script.spawnError with
  | some (errno, text) =>
    throw (.spawn setup.settings.encoderPath (spawnReason setup.settings.encoderPath errno text))
  | none =>
    setRun fun r => { r with process := some (Process.start r.script) }
    readOn setup timeline command

theorem launch_eq : launch setup timeline assets background = (do
    let r ← run
    let (command, argv) ← arrange setup timeline assets background r
    encode setup timeline r command argv) := by
  simp only [arrange, encode, bind_assoc, pure_bind]
  rfl

/-- Where the encoder of a run writes to that is started at some time. -/
def outputPath (setup : Setup) (r : Run) (time : Float) : String :=
  Path.join setup.outputDir ("video_" ++ (Instant.ofSeconds time).fileText ++ "_" ++
    (r.id.take 8).toString ++ "." ++ r.request.output.format.word)

theorem outputPath_congr (setup : Setup) {r r' : Run} (id : r'.id = r.id)
    (request : r'.request = r.request) (time : Float) :
    outputPath setup r' time = outputPath setup r time := by
  rw [outputPath, outputPath, id, request]

theorem arrange_ok {timeline : Timeline} {assets : List Asset} {background : Option Asset} {r : Run}
    {command : Command} {argv : List String} {s s' : Scene}
    (h : (arrange setup timeline assets background r).result s = (.ok (command, argv), s')) :
    setup.compiler.compile s.shared.files timeline assets (outputPath setup r s.shared.now)
        r.request.output background = .ok command ∧
      command.arguments setup.settings.encoderPath = .ok argv := by
  obtain ⟨name, m, hname, h⟩ := bind_ok h
  cases hname
  obtain ⟨w, m, hw, h⟩ := bind_ok h
  cases hw
  obtain ⟨compiled, m, hcompile, h⟩ := bind_ok h
  obtain ⟨-, m, -, h⟩ := bind_ok h
  obtain ⟨written, m, hwritten, h⟩ := bind_ok h
  obtain ⟨-, m, -, h⟩ := bind_ok h
  cases h
  exact ⟨(pureFailure_ok hcompile).1, (pureFault_ok hwritten).1⟩

/-- Assertions on a job whose encoder has not been started, one for each state of the job: they lead
from one to the next. Nothing fails between the last of them and the start of the encoder. -/
structure Before (R : Scene → Scene → Prop) (A : JobState → Scene → Prop)
    (E : Failure → Scene → Prop) : Prop where
  advance : ∀ st target, st.isEarly = true →
    Along R (A st) (advance target) (fun _ => A target) E
  warn : ∀ st message, st.isEarly = true →
    Along R (A st) (call fun reg id _ => reg.addWarning id message) (fun _ => A st) E
  aside : ∀ st (f : Shared → Shared),
    (∀ w, (f w).registry = w.registry ∧ (f w).bus = w.bus ∧ (f w).now = w.now) →
    Along R (A st) (setShared f) (fun _ => A st) E
  fails : ∀ st f s, st.isEarly = true → A st s → E f s

namespace Before

variable {R : Scene → Scene → Prop} [IsPreorder Scene R] {A : JobState → Scene → Prop}
  {E : Failure → Scene → Prop} {timeline : Timeline} {assets : List Asset}
  {background : Option Asset}

theorem locate (h : Before R A E) : Along R (A .created) (locate setup)
    (fun phase s => (∃ t assets, phase = .located t assets) ∧ A .resolving s) E := by
  unfold Act.locate
  refine along_run_bind fun r => ?_
  refine Along.bind (h.advance _ _ rfl) fun _ => ?_
  dsimp only
  split
  · refine Along.bind (along_pure fun _ h => h) fun t => Along.bind (h.advance _ _ rfl) fun _ => ?_
    split
    · refine Along.bind (along_pure fun _ h => h) fun t =>
        Along.bind (h.advance _ _ rfl) fun _ => ?_
      refine along_shared_bind fun w => ?_
      exact Along.bind (along_pureFault (fun _ _ _ h => h) fun _ _ _ => h.fails _ _ _ rfl)
        fun assets => along_pure fun _ h => ⟨⟨_, _, rfl⟩, h⟩
    · exact along_throw_bind fun _ => h.fails _ _ _ rfl
  · exact along_throw_bind fun _ => h.fails _ _ _ rfl
  · exact along_throw_bind fun _ => h.fails _ _ _ rfl

theorem ground (h : Before R A E) : Along R (A .resolving) (ground setup timeline assets)
    (fun phase s => (∃ background, phase = .grounded timeline assets background) ∧
      A .resolving s) E := by
  refine along_shared_bind fun w => ?_
  exact Along.bind (along_pureFault (fun _ _ _ h => h) fun _ _ _ => h.fails _ _ _ rfl) fun _ =>
    along_pure fun _ h => ⟨⟨_, rfl⟩, h⟩

theorem prepare (h : Before R A E) :
    Along R (A .resolving) (prepare setup timeline assets background)
      (fun phase s => phase = .prepared timeline assets background ∧ A .compiling s) E := by
  refine Along.bind (h.advance _ _ rfl) fun _ => ?_
  refine along_shared_bind fun w => ?_
  refine Along.bind (along_pureFault (fun _ _ _ h => h) fun _ _ _ => h.fails _ _ _ rfl)
    fun swept => ?_
  exact Along.bind (h.aside _ _ fun _ => ⟨rfl, rfl, rfl⟩) fun _ => along_pure fun _ h => ⟨rfl, h⟩

theorem arrange (h : Before R A E) {r : Run} :
    Along R (A .compiling) (arrange setup timeline assets background r) (fun _ => A .rendering)
      E := by
  have named {id : String} {output : OutputOptions} :
      Along R (A .compiling) (fileName id output) (fun _ => A .compiling) E :=
    along_shared_bind fun _ => along_pure fun _ h => h
  refine Along.bind named fun name => along_shared_bind fun w => ?_
  refine Along.bind (along_pureFailure (fun _ _ _ h => h) fun _ _ _ => h.fails _ _ _ rfl)
    fun command => ?_
  refine Along.bind (along_forM _ fun warning _ => h.warn _ warning rfl) fun _ => ?_
  refine Along.bind (along_pureFault (fun _ _ _ h => h) fun _ _ _ => h.fails _ _ _ rfl)
    fun argv => ?_
  exact Along.bind (h.advance _ _ rfl) fun _ => along_pure fun _ h => h

end Before

theorem spec_before :
    Before Scene.Onward (fun st => At st (Unstarted script)) fun _ => Halted where
  advance _ _ early := spec_advance fun _ => halted_unstarted (JobState.live_of_isEarly early)
  warn _ message early := spec_call (Registry.updates_addWarning message)
    (fun _ _ j _ j' h state => by obtain ⟨live, rfl⟩ := h; exact ⟨.warned live rfl rfl, state⟩)
    fun _ => halted_unstarted (JobState.live_of_isEarly early)
  aside _ _ keeps := spec_setShared keeps
  fails _ _ _ early := halted_unstarted (JobState.live_of_isEarly early)

theorem spec_encode {timeline : Timeline} {command : Command} {argv : List String} {r : Run} :
    Spec (At .rendering (Unstarted script)) (encode setup timeline r command argv)
      (Come timeline command script.reads) Halted := by
  refine Along.bind (spec_setShared fun _ => ⟨rfl, rfl, rfl⟩) fun _ => ?_
  split
  · exact along_throw fun _ => halted_unstarted rfl
  · refine Along.bind (M := fun _ => At .rendering (Left script.reads))
      (spec_setRun (fun _ => rfl) fun r h => ⟨_, rfl, ?_⟩) fun _ => spec_readOn _
    rw [← h.1]
    rfl

theorem spec_launch {timeline : Timeline} {assets : List Asset} {background : Option Asset} :
    Spec (At .compiling (Unstarted script)) (launch setup timeline assets background)
      (fun phase s => ∃ command, Come timeline command script.reads phase s) Halted := by
  rw [launch_eq]
  refine along_run_bind fun r => Along.bind spec_before.arrange fun (command, argv) => ?_
  exact spec_encode.mono (fun _ h => h) (fun _ _ h => ⟨command, h⟩) fun _ _ h => h

end Act

/-! ## All stages -/

open Act

/-- What is true of a job while its run is in a phase. -/
def Run.Fits (r : Run) (j : Job) : Phase → Prop
  | .unstarted => j.state = .created ∧ r.process = none
  | .entering => j.state = .created ∧ r.process = none
  | .located .. => j.state = .resolving ∧ r.process = none
  | .grounded .. => j.state = .resolving ∧ r.process = none
  | .prepared .. => j.state = .compiling ∧ r.process = none
  | .encoding _ _ pause => j.state = .rendering ∧ ∃ p, r.process = some p ∧ pause ≠ .ended ∧
      (r.script.ends → pause.Ends p.remaining)
  | .finished .done => j.state = .completed ∧ Idle r.script r.process
  | .finished _ => j.state.isTerminal = false ∧ Idle r.script r.process
  | .over => Idle r.script r.process

/-- The own job is there, and what is true of it belongs to a phase. -/
def Scene.Fits (s : Scene) (phase : Phase) : Prop := ∃ j, s.job? = some j ∧ s.run.Fits j phase

/-- The phases that a stage can lead to. -/
def Phase.Follows : Phase → Prop
  | .located .. => True
  | .grounded .. => True
  | .prepared .. => True
  | .encoding _ _ pause => pause ≠ .awake
  | .finished .done => True
  | _ => False

/-- The phases in which a run has stages before it. -/
def Phase.Works : Phase → Prop
  | .finished _ => False
  | .over => False
  | _ => True

/-- An encoder that has been started has more to do than to be read. -/
theorem Service.lt_stageEffort {now : Float} {r : Run} {p : Process} {timeline : Timeline}
    {command : Command} {pause : Pause} (hp : r.process = some p) (ne : pause ≠ .ended) :
    4 * p.remaining.length < stageEffort now r (.encoding timeline command pause) := by
  simp only [stageEffort, hp, Option.map_some, Option.getD_some]
  cases pause with
  | ended => exact absurd rfl ne
  | awake => dsimp only; omega
  | hanging => dsimp only; omega
  | asleep wake => dsimp only; omega

/-- What is left to do after a reading. -/
theorem Act.Come.fits {timeline : Timeline} {command : Command} {steps : List EncoderStep}
    {phase : Phase} {s : Scene} (h : Come timeline command steps phase s)
    (time : s.shared.now.isNaN = false)
    (ends : s.run.script.ends → EncoderStep.reachEnd steps) :
    s.Fits phase ∧ phase.Follows ∧
      Service.stageEffort s.shared.now s.run phase ≤ 4 * steps.length := by
  obtain ⟨rfl, ⟨j, hj, state⟩, idle⟩ | ⟨pause, rfl, ⟨j, hj, state⟩, p, hp, paused, ne⟩ := h
  · exact ⟨⟨j, hj, state, idle⟩, trivial, Nat.zero_le _⟩
  · refine ⟨⟨j, hj, state, p, hp, ne, fun e => paused.ends time (ends e)⟩, paused.ne_awake, ?_⟩
    have shorter := paused.length.resolve_left ne
    simp only [Service.stageEffort, hp, Option.map_some, Option.getD_some, Service.weight]
    split
    · omega
    · omega
    · omega
    · split <;> omega

/-- A stage leads onward to a phase that follows and fits, with less to do, or it fails. -/
theorem stage_fits (setup : Setup) {s : Scene} (fits : s.Fits s.run.phase)
    (works : s.run.phase.Works) (time : s.shared.now.isNaN = false) :
    s.Onward ((stage setup s.run.phase).result s).2 ∧
      match (stage setup s.run.phase).result s with
      | (.ok phase, s') => s'.Fits phase ∧ phase.Follows ∧
          Service.stageEffort s'.shared.now s'.run phase <
            Service.stageEffort s.shared.now s.run s.run.phase
      | (.error f, s') => s'.Fits (.finished (.failed f)) := by
  have spec {P : Scene → Prop} {act : Act Phase} {Q : Phase → Scene → Prop} (h : Spec P act Q Halted)
      (hs : P s) (post : ∀ phase s', s.Onward s' → Q phase s' → s'.Fits phase ∧ phase.Follows ∧
        Service.stageEffort s'.shared.now s'.run phase <
          Service.stageEffort s.shared.now s.run s.run.phase) :
      s.Onward (act.result s).2 ∧ match act.result s with
      | (.ok phase, s') => s'.Fits phase ∧ phase.Follows ∧
          Service.stageEffort s'.shared.now s'.run phase <
            Service.stageEffort s.shared.now s.run s.run.phase
      | (.error f, s') => s'.Fits (.finished (.failed f)) := by
    obtain ⟨onward, ends⟩ := h s hs
    generalize act.result s = r at onward ends
    obtain ⟨f | phase, s'⟩ := r
    · obtain ⟨st, live, ⟨j, hj, rfl⟩, idle⟩ := ends
      exact ⟨onward, j, hj, live, idle⟩
    · exact ⟨onward, post phase s' onward ends⟩
  have script {s' : Scene} (h : s.Onward s') : s'.run.script = s.run.script := by rw [h.notes]; rfl
  have own {s' : Scene} {st : JobState} (h : s'.At st (Unstarted s.run.script)) :
      ∃ j, s'.job? = some j ∧ j.state = st ∧ s'.run.process = none := by
    obtain ⟨⟨j, hj, state⟩, -, none⟩ := h
    exact ⟨j, hj, state, none⟩
  have time' {s' : Scene} (h : s.Onward s') : s'.shared.now.isNaN = false := h.time ▸ time
  obtain ⟨j, hj, fits⟩ := fits
  cases hphase : s.run.phase with
  | unstarted =>
    rw [hphase] at fits spec
    refine spec spec_before.locate ⟨⟨j, hj, fits.1⟩, rfl, fits.2⟩ fun phase s' onward h => ?_
    obtain ⟨⟨t, assets, rfl⟩, h⟩ := h
    refine ⟨own h, trivial, ?_⟩
    simp only [Service.stageEffort, script onward]
    omega
  | entering =>
    rw [hphase] at fits spec
    refine spec spec_before.locate ⟨⟨j, hj, fits.1⟩, rfl, fits.2⟩ fun phase s' onward h => ?_
    obtain ⟨⟨t, assets, rfl⟩, h⟩ := h
    refine ⟨own h, trivial, ?_⟩
    simp only [Service.stageEffort, script onward]
    omega
  | located t assets =>
    rw [hphase] at fits spec
    refine spec spec_before.ground ⟨⟨j, hj, fits.1⟩, rfl, fits.2⟩ fun phase s' onward h => ?_
    obtain ⟨⟨background, rfl⟩, h⟩ := h
    refine ⟨own h, trivial, ?_⟩
    simp only [Service.stageEffort, script onward]
    omega
  | grounded t assets background =>
    rw [hphase] at fits spec
    refine spec spec_before.prepare ⟨⟨j, hj, fits.1⟩, rfl, fits.2⟩ fun phase s' onward h => ?_
    obtain ⟨rfl, h⟩ := h
    refine ⟨own h, trivial, ?_⟩
    simp only [Service.stageEffort, script onward]
    omega
  | prepared t assets background =>
    rw [hphase] at fits spec
    refine spec spec_launch ⟨⟨j, hj, fits.1⟩, rfl, fits.2⟩ fun phase s' onward h => ?_
    obtain ⟨command, h⟩ := h
    obtain ⟨fits', follows, less⟩ := h.fits (time' onward)
      fun ends => EncoderScript.ends_reads (script onward ▸ ends)
    refine ⟨fits', follows, Nat.lt_of_le_of_lt less ?_⟩
    simp only [Service.stageEffort]
    omega
  | encoding t command pause =>
    rw [hphase] at fits spec
    obtain ⟨state, p, hp, ne, ends⟩ := fits
    refine spec (spec_readOn p.remaining) ⟨⟨j, hj, state⟩, p, hp, rfl⟩ fun phase s' onward h => ?_
    obtain ⟨fits', follows, less⟩ := h.fits (time' onward) fun e => (ends (script onward ▸ e)).1
    exact ⟨fits', follows, Nat.lt_of_le_of_lt less (Service.lt_stageEffort hp ne)⟩
  | finished => rw [hphase] at works; exact works.elim
  | «over» => rw [hphase] at works; exact works.elim

/-- A failure is recorded in a job that has not ended, and in no other. -/
def Job.Fails (j : Job) (failure : Failure) (j' : Job) : Prop :=
  if j.state.isTerminal then j' = j
  else j'.state = .failed ∧ j'.error.map (·.code) = some failure.code

theorem Job.Fails.isTerminal {j j' : Job} {failure : Failure} (h : j.Fails failure j') :
    j'.state.isTerminal = true := by
  unfold Fails at h
  split at h
  · next t => rwa [h]
  · rw [h.1]
    rfl

theorem Registry.fail_ok {r : Registry} {id : String} {j : Job} (known : r.find? id = some j)
    (live : j.state.isTerminal = false) (failure : Failure) (now : Float) :
    ∃ j', (r.fail id failure now).2 = .ok j' := by
  unfold fail withJob get
  rw [known]
  simp only [live]
  exact ⟨_, rfl⟩

/-- The record of a job that has failed at a time. -/
def Job.failed (j : Job) (failure : Failure) (limit : Int) (now : Float) : Job :=
  { j with
    state := .failed
    error := some (failure.info (some limit))
    updatedAt := Instant.ofSeconds now }

/-- What is told of a job that has failed. -/
def Scene.failure (s : Scene) (j : Job) : Event :=
  s.news "failed" (.object [("error", Json.ofOption ErrorInfo.toJson j.error)])

/-- What the failure of a job makes of the shared things: it is recorded in a job that has not ended,
and told of. -/
inductive Scene.Fails (s : Scene) (failure : Failure) : Shared → Prop
  | ended {j : Job} (known : s.job? = some j) (terminal : j.state.isTerminal = true) :
      Fails s failure s.shared
  | live {j j' : Job} {r : Registry} (known : s.job? = some j) (live : j.state.isTerminal = false)
      (new : j' = j.failed failure s.shared.registry.detailLimit s.shared.now)
      (jobs : r.jobs = (s.shared.registry.put j').jobs)
      (limit : r.detailLimit = s.shared.registry.detailLimit) (same : j'.id = s.run.id)
      (call : r = (Registry.Call.fail s.run.id failure).apply s.shared.registry s.shared.now) :
      Fails s failure { s.shared with
        registry := r, bus := s.shared.bus.tell [s.failure j'] }

/-- A failure is recorded, and nothing else changes. -/
theorem result_failJob {s : Scene} {j : Job} (known : s.job? = some j) (failure : Failure) :
    ∃ w, s.Fails failure w ∧ (failJob failure).result s = (.ok (), { s with shared := w }) := by
  have run : (failJob failure).result s =
      (if j.state.isTerminal then pure () else do
        let _ ← announce (fun r id now => r.fail id failure now) "failed" fun j =>
          .object [("error", Json.ofOption ErrorInfo.toJson j.error)] : Act Unit).result s := by
    have seen (k : Scene → Act Unit) : (get >>= k).result s = (k s).result s := rfl
    have known : s.shared.registry.find? s.run.id = some j := known
    rw [failJob, seen, known]
  rw [run]
  cases terminal : j.state.isTerminal with
  | true => exact ⟨s.shared, .ended known terminal, rfl⟩
  | false =>
    rcases result_announce (Registry.updates_fail failure) "failed"
        (fun j => .object [("error", Json.ofOption ErrorInfo.toJson j.error)]) s with
      ⟨error, herr, -⟩ | ⟨i, a, j', r, hi, jobs, limit, same, ⟨rfl, -, new⟩, hr⟩
    · obtain ⟨j', ok⟩ := Registry.fail_ok known terminal failure s.shared.now
      cases ok.symm.trans herr
    · cases known.symm.trans hi
      obtain ⟨bus, left⟩ := scene_announce (fun r id now => r.fail id failure now) "failed"
        (fun j => .object [("error", Json.ofOption ErrorInfo.toJson j.error)]) s
      rw [hr] at left
      rw [if_neg (by simp), result_bind, hr]
      exact ⟨_, .live known terminal new jobs limit same (congrArg (·.shared.registry) left), rfl⟩

/-- A job that has not ended fails, and that is told of. -/
theorem Job.change_failed {s : Scene} {j j' : Job} {failure : Failure} {limit : Int} {now : Float}
    (live : j.state.isTerminal = false) (new : j' = j.failed failure limit now) :
    j.Change [s.failure j'] j' :=
  .ended live (by rw [new]; rfl) (fun e => by rw [new] at e; cases e) (by rw [new]; rfl)
    (by rw [new]; rfl)

/-- The failure of a job is recorded and told of, and nothing else changes. -/
theorem failJob_fails {s : Scene} {j : Job} (known : s.job? = some j) (failure : Failure) :
    s.Onward ((failJob failure).result s).2 ∧ ((failJob failure).result s).2.run = s.run ∧
      ∃ j', ((failJob failure).result s).2.job? = some j' ∧ j.Fails failure j' := by
  obtain ⟨w, fails, hr⟩ := result_failJob known failure
  rw [hr]
  cases fails with
  | ended known' terminal =>
    cases known.symm.trans known'
    exact ⟨.refl s, rfl, j, known, by rw [Job.Fails, if_pos terminal]⟩
  | @live i j' r known' live new jobs _ same _ =>
    cases known.symm.trans known'
    obtain ⟨onward, found⟩ := Scene.Onward.change s
      { s with shared := { s.shared with registry := r, bus := s.shared.bus.tell [s.failure j'] } }
      [s.failure j'] rfl rfl known same jobs rfl (by simp [Scene.failure, Scene.news])
      (Job.change_failed live new)
    refine ⟨onward, rfl, j', found, ?_⟩
    rw [Job.Fails, if_neg (by simp [live]), new]
    exact ⟨rfl, rfl⟩

end Montage
