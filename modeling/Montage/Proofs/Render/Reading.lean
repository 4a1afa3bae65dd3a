import Montage.Proofs.Compiler.Drawing
import Montage.Proofs.Render.Reports
import Montage.Proofs.Render.Script
import Montage.Proofs.Render.Stages

/-!
# Reading an encoder

`Scene.Reads` says how far an encoder has been read: what is kept of its messages and what is left
in the run's notes is a function of the steps that have been read. Reading keeps it
(`along_readSteps`) up to the end of the script, or stops at a line that cannot be read. From there
on the script alone says what becomes of the job, with the file that is there when the encoder has
exited (`along_conclude`).
-/
namespace Montage

/-- A command whose lengths are doubles. -/
def Command.IsTimed (c : Command) : Prop :=
  (∃ x, c.duration.toFloat = .ok x) ∧ ∃ x, c.frameRate.toFloat = .ok x

theorem Number.toFloat_of_textBy {write : Float → String} {n : Number} {text : String}
    (h : n.textBy write = .ok text) : ∃ x, n.toFloat = .ok x := by
  cases n with
  | float x => exact ⟨x, rfl⟩
  | int n =>
    cases fits : floatOfInt n with
    | error f =>
      have fails : (Number.int n).textBy write = .error f := by rw [textBy, fits]; rfl
      cases fails.symm.trans h
    | ok x => exact ⟨x, fits⟩

/-- What is written as arguments can be reckoned with. -/
theorem Command.isTimed_of_arguments {c : Command} {encoder : String} {argv : List String}
    (h : c.arguments encoder = .ok argv) : c.IsTimed := by
  unfold arguments at h
  cases rate : c.frameRate.compact with
  | error f => rw [rate] at h; cases h
  | ok _ =>
    cases length : c.duration.seconds with
    | error f => rw [rate, length] at h; cases h
    | ok _ => exact ⟨Number.toFloat_of_textBy length, Number.toFloat_of_textBy rate⟩

theorem Number.quotient_ok {duration : Number} (timed : ∃ x, duration.toFloat = .ok x)
    (seconds : Float) : ∃ share, (Number.float seconds).quotient duration = .ok share := by
  obtain ⟨x, fits⟩ := timed
  cases duration with
  | int n =>
    simp only [quotient, fits]
    exact ⟨seconds / x, rfl⟩
  | float y => exact ⟨seconds / y, rfl⟩

theorem Progress.percent_ok {duration : Number} (timed : ∃ x, duration.toFloat = .ok x)
    (seconds : Float) : ∃ p, percent (.float seconds) duration = .ok p := by
  obtain ⟨share, same⟩ := Number.quotient_ok timed seconds
  unfold percent
  split
  · exact ⟨0, rfl⟩
  · rw [same]
    exact ⟨clamp (share * 100), rfl⟩

open EncoderStep (outputs stateAfter)

namespace Scene

/-- The encoder of a script has been started for the own job, and told to write to a path. -/
structure Encodes (setup : Setup) (path : String) (script : EncoderScript) (s : Scene) :
    Prop where
  same : s.run.script = script
  renders : s.Renders
  places : ∃ j t, s.job? = some j ∧ j.renderingSince = some t ∧
    path = Act.outputPath setup s.run t
  started : s.run.process.isSome

/-- Some steps of a script have been read, and others are left. -/
structure Reads (setup : Setup) (path : String) (script : EncoderScript)
    (done rest : List EncoderStep) (s : Scene) : Prop where
  encodes : s.Encodes setup path script
  process : s.run.process = some ⟨rest, script.exit, script.vanishes, stateAfter done⟩
  tail : s.run.tail = Text.tails setup.settings.tailLength (outputs done)
  pending : s.run.pending = (Progress.intakes (outputs done)).2
  legible : ∀ line ∈ (Progress.intakes (outputs done)).1, Progress.isLegible line

variable {setup : Setup} {path : String} {script : EncoderScript} {done rest : List EncoderStep}
  {a b : Scene}

/-- Notes about the encoder and things other than jobs, queues and the time are free to change. -/
theorem Leads.aside (notes : b.run = a.run.noted b.run)
    (registry : b.shared.registry = a.shared.registry) (bus : b.shared.bus = a.shared.bus)
    (time : b.shared.now = a.shared.now) (observed : b.run.observed = a.run.observed)
    (last : b.run.lastReported = a.run.lastReported) : a.Leads setup b := by
  refine ⟨notes, time, [], .aside ?_ ?_ registry bus observed last⟩ <;> rw [notes] <;> rfl

/-- What bears on neither the record nor the encoder may change. -/
theorem Encodes.of_same (h : a.Encodes setup path script) (notes : b.run = a.run.noted b.run)
    (registry : b.shared.registry = a.shared.registry)
    (last : b.run.lastReported = a.run.lastReported) (started : b.run.process.isSome) :
    b.Encodes setup path script := by
  have job : b.job? = a.job? := by rw [job?, registry, notes]; rfl
  have id : b.run.id = a.run.id := by rw [notes]; rfl
  have request : b.run.request = a.run.request := by rw [notes]; rfl
  have script : b.run.script = a.run.script := by rw [notes]; rfl
  obtain ⟨same, ⟨j, known, rendering, level⟩, ⟨i, t, known', since, placed⟩, -⟩ := h
  refine ⟨script.trans same, ⟨j, job.trans known, rendering, ?_⟩,
    ⟨i, t, job.trans known', since, ?_⟩, started⟩
  · rw [Run.Level, last]
    exact level
  · rw [placed, Act.outputPath_congr setup id request]

theorem Encodes.reported (h : a.Encodes setup path script) (reported : a.Reported setup b)
    (renders : b.Renders) : b.Encodes setup path script := by
  have id : b.run.id = a.run.id := by rw [reported.run]
  have request : b.run.request = a.run.request := by rw [reported.run]
  have script : b.run.script = a.run.script := by rw [reported.run]
  have process : b.run.process = a.run.process := by rw [reported.run]
  obtain ⟨same, -, ⟨j, t, known, since, placed⟩, started⟩ := h
  obtain ⟨i, known', new⟩ := reported.job j known
  refine ⟨script.trans same, renders, ⟨i, t, known', ?_, ?_⟩, process ▸ started⟩
  · rw [new]
    exact since
  · rw [placed, Act.outputPath_congr setup id request]

/-- What has been read does not depend on more than the messages. -/
theorem Reads.of_same {done' rest' : List EncoderStep} (h : a.Reads setup path script done rest)
    (notes : b.run = a.run.noted b.run) (registry : b.shared.registry = a.shared.registry)
    (last : b.run.lastReported = a.run.lastReported) (tail : b.run.tail = a.run.tail)
    (pending : b.run.pending = a.run.pending)
    (process : b.run.process = some ⟨rest', script.exit, script.vanishes, stateAfter done'⟩)
    (portions : outputs done' = outputs done) : b.Reads setup path script done' rest' where
  encodes := h.encodes.of_same notes registry last (by rw [process]; rfl)
  process := process
  tail := by rw [tail, portions, h.tail]
  pending := by rw [pending, portions, h.pending]
  legible := by rw [portions]; exact h.legible

theorem Reads.reported (h : a.Reads setup path script done rest) (reported : a.Reported setup b)
    (renders : b.Renders) : b.Reads setup path script done rest where
  encodes := h.encodes.reported reported renders
  process := by rw [reported.run]; exact h.process
  tail := by rw [reported.run]; exact h.tail
  pending := by rw [reported.run]; exact h.pending
  legible := h.legible

end Scene

namespace Act

variable {setup : Setup} {path : String} {script : EncoderScript} {done rest : List EncoderStep}
  {command : Command} {timeline : Timeline}

/-! ## Lines -/

theorem along_report {p : Float} (percent : IsPercent p) {E : Failure → Scene → Prop} :
    Along (Scene.Reported setup) Scene.Renders (report setup p)
      (fun _ s => s.Renders ∧ (p = 100 → s.run.lastReported = 100)) E := by
  intro s renders
  obtain ⟨s', result, reported, renders', last⟩ := result_report renders percent
  rw [result]
  exact ⟨reported, renders', last⟩

/-- A line that can be read is reported at most, and one that cannot is a failure. -/
theorem along_readLine {duration : Number} (timed : ∃ x, duration.toFloat = .ok x)
    (line : String) : Along (Scene.Reported setup) Scene.Renders (readLine setup duration line)
      (fun _ s => s.Renders ∧ Progress.isLegible line = true)
      (fun f s => s.Renders ∧ (∃ fault, f = .fault fault) ∧ Progress.isLegible line = false) := by
  cases read : Progress.time? line with
  | error fault =>
    have fails : readLine setup duration line = throw (.fault fault) := by
      rw [readLine, read]
      rfl
    rw [fails]
    exact along_throw fun s renders => ⟨renders, ⟨fault, rfl⟩, by rw [Progress.isLegible, read]; rfl⟩
  | ok time =>
    have legible : Progress.isLegible line = true := by rw [Progress.isLegible, read]; rfl
    cases time with
    | none =>
      have quiet : readLine setup duration line = pure () := by
        rw [readLine, read]
        rfl
      rw [quiet]
      exact along_pure fun s renders => ⟨renders, legible⟩
    | some seconds =>
      obtain ⟨p, share⟩ := Progress.percent_ok timed seconds
      have told : readLine setup duration line = report setup p := by
        rw [readLine, read]
        show (pureFault (Progress.percent (.float seconds) duration) >>= report setup) = _
        rw [share]
        rfl
      rw [told]
      exact (along_report (isPercent_of_percent share)).mono (fun _ h => h)
        (fun _ s h => ⟨h.1, legible⟩) fun _ _ h => h

theorem along_readLines {duration : Number} (timed : ∃ x, duration.toFloat = .ok x)
    (lines : List String) :
    Along (Scene.Reported setup) Scene.Renders (lines.forM (readLine setup duration))
      (fun _ s => s.Renders ∧ ∀ line ∈ lines, Progress.isLegible line = true)
      (fun f s => s.Renders ∧ (∃ fault, f = .fault fault) ∧
        ∃ line ∈ lines, Progress.isLegible line = false) := by
  induction lines with
  | nil => exact along_pure fun s renders => ⟨renders, by simp⟩
  | cons line lines ih =>
    refine Along.bind ((along_readLine timed line).mono (fun _ h => h) (fun _ _ h => h)
      fun f s ⟨renders, fault, h⟩ => ⟨renders, fault, line, List.mem_cons_self, h⟩) fun _ => ?_
    rintro s ⟨renders, first⟩
    have rest : Along (Scene.Reported setup) Scene.Renders (lines.forM (readLine setup duration))
        (fun _ s => s.Renders ∧ ∀ l ∈ line :: lines, Progress.isLegible l = true)
        (fun f s => s.Renders ∧ (∃ fault, f = .fault fault) ∧
          ∃ l ∈ line :: lines, Progress.isLegible l = false) :=
      ih.mono (fun _ h => h)
        (fun _ s ⟨renders, all⟩ => ⟨renders, List.forall_mem_cons.2 ⟨first, all⟩⟩)
        fun f s ⟨renders, fault, l, mem, h⟩ => ⟨renders, fault, l, List.mem_cons_of_mem _ mem, h⟩
    exact rest s renders

/-! ## Steps -/

theorem result_readPortion (setup : Setup) (duration : Number) (bytes : List UInt8) (s : Scene) :
    (readPortion setup duration bytes).result s =
      ((Progress.splitLines (s.run.pending ++ Text.decodeLenient bytes)).1.forM
        (readLine setup duration)).result { s with run := { s.run with
          tail := Text.appendTail setup.settings.tailLength s.run.tail (Text.decodeLenient bytes)
          pending := Text.tail pendingLimit
            (Progress.splitLines (s.run.pending ++ Text.decodeLenient bytes)).2 } } := rfl

/-- What the script says of a failure that comes while it is read. -/
def Illegible (setup : Setup) (path : String) (script : EncoderScript) (f : Failure) (s : Scene) :
    Prop :=
  s.Encodes setup path script ∧ ∀ file, script.Breaks setup.settings.tailLength path file f

theorem along_readPortion {duration : Number} (timed : ∃ x, duration.toFloat = .ok x)
    {bytes : List UInt8} (whole : done ++ .output bytes :: rest = script.reads) :
    Along (Scene.Leads setup) (Scene.Reads setup path script done rest)
      (readPortion setup duration bytes)
      (fun _ => Scene.Reads setup path script (done ++ [.output bytes]) rest)
      (Illegible setup path script) := by
  intro s reads
  have portions : outputs (done ++ [.output bytes]) = outputs done ++ [bytes] := by
    simp [outputs, EncoderStep.output?]
  have state : stateAfter (done ++ [.output bytes]) = stateAfter done :=
    EncoderStep.stateAfter_append_still rfl done
  have taken := Progress.intakes_append_singleton (outputs done) bytes
  rw [Progress.intake, ← reads.pending] at taken
  rw [result_readPortion]
  generalize Progress.splitLines (s.run.pending ++ Text.decodeLenient bytes) = split at taken ⊢
  generalize hm : ({ s with run := { s.run with tail := _, pending := _ } } : Scene) = m
  have encodes : m.Encodes setup path script :=
    hm ▸ reads.encodes.of_same rfl rfl rfl reads.encodes.started
  have read : Along (Scene.Reported setup) _ _ _ _ := along_readLines timed split.1
  obtain ⟨reported, ends⟩ := read m encodes.renders
  have leads : s.Leads setup m := hm ▸ .aside rfl rfl rfl rfl rfl rfl
  refine ⟨Trans.trans leads reported.leads, ?_⟩
  generalize (split.1.forM (readLine setup duration)).result m = answer at reported ends
  obtain ⟨f | _, s'⟩ := answer
  · obtain ⟨renders, ⟨fault, rfl⟩, line, mem, h⟩ := ends
    refine ⟨encodes.reported reported renders, fun file => .illegible ?_⟩
    have later : (done ++ [.output bytes]) ++ rest = script.reads := by
      rw [← whole, List.append_assoc]
      rfl
    refine EncoderScript.not_isLegible later ?_ h
    rw [portions, taken]
    exact List.mem_append_right _ mem
  · obtain ⟨renders, all⟩ := ends
    refine Scene.Reads.reported (a := m) ⟨encodes, ?_, ?_, ?_, ?_⟩ reported renders
    · rw [← hm, state]
      exact reads.process
    · rw [← hm, portions, Text.tails_append_singleton, ← reads.tail]
    · rw [← hm, portions, taken]
    · rw [portions, taken]
      exact List.forall_mem_append.2 ⟨reads.legible, all⟩

/-- Notes about the encoder. -/
theorem along_setRun {P Q : Scene → Prop} {E : Failure → Scene → Prop} {f : Run → Run}
    (notes : ∀ r, f r = { r with tail := (f r).tail, pending := (f r).pending, process := (f r).process })
    (h : ∀ s, P s → Q { s with run := f s.run }) :
    Along (Scene.Leads setup) P (setRun f) (fun _ => Q) E := by
  intro s hs
  have noted : f s.run = s.run.noted (f s.run) := by rw [notes]; rfl
  have observed : (f s.run).observed = s.run.observed := by rw [notes]
  have last : (f s.run).lastReported = s.run.lastReported := by rw [notes]
  exact ⟨.aside noted rfl rfl rfl observed last, h s hs⟩

/-- Things other than jobs, queues and the time. -/
theorem along_setShared {P Q : Scene → Prop} {E : Failure → Scene → Prop} {f : Shared → Shared}
    (aside : ∀ w, (f w).registry = w.registry ∧ (f w).bus = w.bus ∧ (f w).now = w.now)
    (h : ∀ s, P s → Q { s with shared := f s.shared }) :
    Along (Scene.Leads setup) P (setShared f) (fun _ => Q) E := fun s hs =>
  ⟨.aside rfl (aside s.shared).1 (aside s.shared).2.1 (aside s.shared).2.2 rfl rfl, h s hs⟩

/-- How far an encoder has been read when the reading pauses. -/
def Resting (setup : Setup) (path : String) (script : EncoderScript) (pause : Pause) (s : Scene) :
    Prop :=
  ∃ done rest, done ++ rest = script.reads ∧ s.Reads setup path script done rest ∧
    (pause = .ended → rest = [])

/-- Reading goes on to a pause, and to the end of the script unless there is one, or stops at what
cannot be read. -/
theorem along_readSteps (timed : command.IsTimed) (steps : List EncoderStep)
    (whole : done ++ steps = script.reads) :
    Along (Scene.Leads setup) (Scene.Reads setup command.outputPath script done steps)
      (readSteps setup command steps) (Resting setup command.outputPath script)
      (Illegible setup command.outputPath script) := by
  induction steps generalizing done with
  | nil => exact along_pure fun s reads => ⟨done, [], whole, reads, fun _ => rfl⟩
  | cons step rest ih =>
    have later : (done ++ [step]) ++ rest = script.reads := by
      rw [← whole, List.append_assoc]
      rfl
    have left (P : Scene → Prop) (h : ∀ s, s.Reads setup command.outputPath script done rest → P s) :
        Along (Scene.Leads setup) (Scene.Reads setup command.outputPath script done (step :: rest))
          (setProcess fun p => { p with remaining := rest }) (fun _ => P)
          (Illegible setup command.outputPath script) :=
      along_setRun (fun _ => rfl) fun s reads => h _ <| by
        refine reads.of_same rfl rfl rfl rfl rfl ?_ rfl
        show s.run.process.map _ = _
        rw [reads.process]
        rfl
    -- a step that is no message is read when it has been taken away
    have silent (quiet : step.output? = none) (still : step.exit? = none) (s : Scene)
        (reads : s.Reads setup command.outputPath script done rest) :
        s.Reads setup command.outputPath script (done ++ [step]) rest := by
      refine reads.of_same rfl rfl rfl rfl rfl ?_ (EncoderStep.outputs_append_silent quiet done)
      rw [EncoderStep.stateAfter_append_still still, reads.process]
    have rests (quiet : step.output? = none) (still : step.exit? = none) (pause : Pause)
        (on : pause ≠ .ended) (s : Scene)
        (reads : s.Reads setup command.outputPath script done rest) :
        Resting setup command.outputPath script pause s :=
      ⟨_, rest, later, silent quiet still s reads, fun e => absurd e on⟩
    cases step with
    | output bytes =>
      refine Along.bind (left _ fun _ h => h) fun _ => ?_
      exact Along.bind (along_readPortion timed.1 whole) fun _ => ih later
    | sleep seconds =>
      refine Along.bind (left _ fun _ h => h) fun _ => along_shared_bind fun w => ?_
      exact along_pure (rests rfl rfl _ (by simp))
    | hang =>
      refine Along.bind (left _ fun _ h => h) fun _ => ?_
      exact along_pure (rests rfl rfl _ (by simp))
    | write size =>
      refine Along.bind (left _ (silent rfl rfl)) fun _ => Along.bind ?_ fun _ => ih later
      exact along_setShared (fun _ => ⟨rfl, rfl, rfl⟩) fun s reads =>
        reads.of_same rfl rfl rfl rfl rfl reads.process rfl
    | exited code =>
      refine Along.bind (left _ fun _ h => h) fun _ => Along.bind ?_ fun _ => ih later
      refine along_setRun (fun _ => rfl) fun s reads => ?_
      refine reads.of_same rfl rfl rfl rfl rfl ?_ (EncoderStep.outputs_append_silent rfl done)
      show s.run.process.map _ = _
      rw [reads.process, EncoderStep.stateAfter_append_exited]
      rfl
    | error message =>
      refine Along.bind (left _ fun _ h => h) fun _ => along_throw fun s reads => ?_
      refine ⟨reads.encodes, fun file => .unreadable ?_⟩
      rw [← whole]
      exact List.mem_append_right _ List.mem_cons_self

/-! ## The end of the script -/

/-- An encoder whose reading fails is killed, and that is all. -/
theorem along_guarded {α : Type} {act : Act α} {P : Scene → Prop} {Q : α → Scene → Prop}
    (h : Along (Scene.Leads setup) P act Q (Illegible setup path script)) :
    Along (Scene.Leads setup) P (guarded act) Q (Illegible setup path script) := by
  intro s hs
  obtain ⟨leads, ends⟩ := h s hs
  rcases answered : act.result s with ⟨f | a, m⟩
  · rw [answered] at leads ends
    rw [result_guarded_error answered]
    obtain ⟨encodes, breaks⟩ := ends
    have killed : m.Leads setup { m with run := { m.run with
        process := m.run.process.map Process.kill } } := .aside rfl rfl rfl rfl rfl rfl
    refine ⟨Trans.trans leads killed, encodes.of_same rfl rfl rfl ?_, breaks⟩
    exact (Option.isSome_map ..).trans encodes.started
  · rw [answered] at leads ends
    rw [result_guarded_ok answered]
    exact ⟨leads, ends⟩

/-- The messages of an encoder have ended, and all its lines could be read. -/
structure Exits (setup : Setup) (path : String) (script : EncoderScript) (s : Scene) : Prop where
  encodes : s.Encodes setup path script
  legible : script.isLegible = true
  tail : s.run.tail = script.ending setup.settings.tailLength

/-- The last line, which nothing has ended, is read like the others. -/
theorem along_readPending (timed : command.IsTimed) :
    Along (Scene.Leads setup) (Scene.Reads setup path script script.reads [])
      (do readLine setup command.duration (← run).pending)
      (fun _ s => Exits setup path script s ∧
        s.run.process = some ⟨[], script.exit, script.vanishes, stateAfter script.reads⟩)
      (Illegible setup path script) := by
  intro s reads
  have read : Along (Scene.Reported setup) _ _ _ _ := along_readLine timed.1 s.run.pending
  obtain ⟨reported, ends⟩ := read s reads.encodes.renders
  rw [result_run_bind]
  refine ⟨reported.leads, ?_⟩
  generalize (readLine setup command.duration s.run.pending).result s = answer at reported ends
  rw [reads.pending] at ends
  obtain ⟨f | _, s'⟩ := answer
  · obtain ⟨renders, ⟨fault, rfl⟩, h⟩ := ends
    refine ⟨reads.encodes.reported reported renders, fun file => .illegible ?_⟩
    rw [← Bool.not_eq_true, EncoderScript.isLegible_iff, h]
    simp
  · obtain ⟨renders, last⟩ := ends
    have reads' := reads.reported reported renders
    exact ⟨⟨reads'.encodes, (EncoderScript.isLegible_iff script).2 ⟨reads.legible, last⟩,
      reads'.tail⟩, reads'.process⟩

theorem along_exitCode {E : Failure → Scene → Prop} :
    Along (Scene.Leads setup) (fun s => Exits setup path script s ∧
        s.run.process = some ⟨[], script.exit, script.vanishes, stateAfter script.reads⟩) exitCode
      (fun code s => Exits setup path script s ∧ code = script.code) E := by
  have code : (Process.finish ⟨[], script.exit, script.vanishes, stateAfter script.reads⟩).code =
      script.code := by
    unfold Process.finish EncoderScript.code
    cases stateAfter script.reads <;> rfl
  refine Along.bind (M := fun _ s => Exits setup path script s ∧
    s.run.process.map Process.code = some script.code) (along_setRun (fun _ => rfl) ?_) fun _ => ?_
  · rintro s ⟨exits, process⟩
    refine ⟨⟨exits.encodes.of_same rfl rfl rfl ?_, exits.legible, exits.tail⟩, ?_⟩
    · exact (Option.isSome_map ..).trans exits.encodes.started
    · show (s.run.process.map Process.finish).map Process.code = _
      rw [process]
      exact congrArg some code
  · refine Along.bind (M := fun r s => Exits setup path script s ∧
      r.process.map Process.code = some script.code) (along_run fun _ h => h) fun r => ?_
    exact along_pure fun s ⟨exits, code⟩ => ⟨exits, by rw [code]; rfl⟩

end Act

/-! ## What becomes of the job -/

namespace Scene

/-- The job is completed, as its encoder has earned by the files that there are. -/
structure Completed (setup : Setup) (files : Files) (s : Scene) : Prop where
  last : s.run.lastReported = 100
  started : s.run.process.isSome
  job : ∃ j t, s.job? = some j ∧ j.state = .completed ∧ j.progress = 100 ∧
    j.renderingSince = some t ∧ s.run.script.Succeeds (files.find? (Act.outputPath setup s.run t))

/-- The job still renders, but its encoder has led to a failure by the files that there are. -/
structure Broken (setup : Setup) (files : Files) (f : Failure) (s : Scene) : Prop where
  started : s.run.process.isSome
  job : ∃ j t, s.job? = some j ∧ j.state = .rendering ∧ j.renderingSince = some t ∧
    s.run.script.Breaks setup.settings.tailLength (Act.outputPath setup s.run t)
      (files.find? (Act.outputPath setup s.run t)) f

variable {setup : Setup} {path : String} {script : EncoderScript} {s : Scene}

theorem Encodes.broken (h : s.Encodes setup path script) {files : Files} {f : Failure}
    (breaks : script.Breaks setup.settings.tailLength path (files.find? path) f) :
    s.Broken setup files f := by
  obtain ⟨rfl, ⟨j, known, rendering, -⟩, ⟨i, t, known', since, placed⟩, started⟩ := h
  obtain rfl : j = i := Option.some.inj (known.symm.trans known')
  rw [placed] at breaks
  exact ⟨started, j, t, known, rendering, since, breaks⟩

end Scene

namespace Act

variable {setup : Setup} {path : String} {script : EncoderScript} {command : Command}
  {timeline : Timeline}

/-- A file that is there and not empty is all that is looked for. -/
theorem along_verify (timed : command.IsTimed) {output : OutputOptions} (code : script.code = 0) :
    Along (Scene.Leads setup) (Exits setup command.outputPath script)
      (verify setup timeline command output)
      (fun _ s => s.Encodes setup command.outputPath script ∧
        script.Succeeds (s.shared.files.find? command.outputPath))
      (fun f s => s.Broken setup s.shared.files f) := by
  obtain ⟨⟨length, hlength⟩, rate, hrate⟩ := timed
  refine Along.bind (M := fun w s => Exits setup command.outputPath script s ∧ s.shared = w)
    (along_shared fun _ h => ⟨h, rfl⟩) fun w => ?_
  split
  · next missing =>
    refine along_throw ?_
    rintro s ⟨exits, rfl⟩
    exact exits.encodes.broken (.missing exits.legible code missing)
  · next file found =>
    split
    · next empty =>
      refine along_throw ?_
      rintro s ⟨exits, rfl⟩
      exact exits.encodes.broken (.empty exits.legible code found empty)
    · next size =>
      rw [hlength, hrate]
      refine along_pure ?_
      rintro s ⟨exits, rfl⟩
      exact ⟨exits.encodes, exits.legible, code, file, found, size⟩

theorem along_complete (result : RenderResult) {E : Failure → Scene → Prop} :
    Along (Scene.Leads setup) (fun s => s.Encodes setup path script ∧ s.run.lastReported = 100 ∧
        script.Succeeds (s.shared.files.find? path))
      (announce (fun r id now => r.complete id result now) "completed" fun _ =>
        .object [("result", result.toJson)])
      (fun _ s => s.Completed setup s.shared.files) E := by
  rintro s ⟨⟨same, ⟨j, known, rendering, -⟩, ⟨i, t, known', since, placed⟩, started⟩, last, succeeds⟩
  obtain rfl : j = i := Option.some.inj (known.symm.trans known')
  rw [placed, ← same] at succeeds
  rcases result_announce (Registry.updates_complete result) "completed"
      (fun _ => .object [("result", result.toJson)]) s with
    ⟨failure, refused, -⟩ | ⟨i, a, j', r, known', jobs, limit, own, ⟨rfl, -, new⟩, hr⟩
  · have known : s.shared.registry.find? s.run.id = some j := known
    obtain ⟨j', ok⟩ := Registry.complete_ok known rendering result s.shared.now
    cases ok.symm.trans refused
  · obtain rfl : j = i := Option.some.inj (known.symm.trans known')
    have found : r.find? s.run.id = some a := Scene.Onward.find?_put known own jobs
    rw [hr]
    refine ⟨⟨rfl, rfl, _, .change rfl limit known found rfl (by simp [Scene.news]) ?_ ?_⟩, ?_⟩
    · refine .ended (by rw [rendering]; rfl) (by rw [new]; rfl) (fun _ => rendering) ?_
        (by rw [new]; rfl)
      rw [new]
      rfl
    · simp [Event.percents, Event.percent?_eq_none, Scene.news]
    · refine ⟨last, started, a, t, found, ?_, ?_, ?_, succeeds⟩ <;> rw [new]
      exact since

/-- Once an encoder has been read, its script says what becomes of the job. -/
theorem along_conclude (timed : command.IsTimed) :
    Along (Scene.Leads setup) (Scene.Reads setup command.outputPath script script.reads [])
      (conclude setup timeline command) (fun _ s => s.Completed setup s.shared.files)
      (fun f s => s.Broken setup s.shared.files f) := by
  refine Along.bind ((along_guarded (along_readPending timed)).mono (fun _ h => h) (fun _ _ h => h)
    fun f s h => h.1.broken (h.2 _)) fun _ => Along.bind along_exitCode fun code => ?_
  dsimp only
  split
  · next bad =>
    refine Along.bind (M := fun r s => (Exits setup command.outputPath script s ∧ s.run = r) ∧
      code = script.code) (along_run fun _ h => ⟨⟨h.1, rfl⟩, h.2⟩) fun r => along_throw_bind ?_
    rintro s ⟨⟨exits, rfl⟩, rfl⟩
    rw [exits.tail]
    exact exits.encodes.broken (.exited exits.legible bad)
  · next good =>
    refine along_run_bind fun r => ?_
    by_cases zero : script.code = 0
    · refine Along.bind ((along_verify timed zero).mono (fun _ h => h.1) (fun _ _ h => h)
        fun _ _ h => h) fun result => ?_
      refine Along.bind (M := fun _ s => s.Encodes setup command.outputPath script ∧
        s.run.lastReported = 100 ∧ script.Succeeds (s.shared.files.find? command.outputPath)) ?_
        fun _ => Along.bind (along_complete result) fun _ => along_pure fun _ h => h
      rintro s ⟨encodes, succeeds⟩
      obtain ⟨s', reports, reported, renders, last⟩ := result_report encodes.renders (.inr (.inr rfl))
      rw [reports]
      refine ⟨reported.leads, encodes.reported reported renders, last rfl, ?_⟩
      rw [reported.shared]
      exact succeeds
    · rintro s ⟨-, same⟩
      exact absurd (same.symm.trans (not_not.1 good)) zero

/-- Where a run comes to that reads its encoder on. -/
def Comes (setup : Setup) (timeline : Timeline) (command : Command) (phase : Phase) (s : Scene) :
    Prop :=
  phase = .finished .done ∧ s.Completed setup s.shared.files ∨
    ∃ pause, phase = .encoding timeline command pause ∧ ∃ done rest,
      done ++ rest = s.run.script.reads ∧
      s.Reads setup command.outputPath s.run.script done rest

theorem along_readOn (timed : command.IsTimed) {done rest : List EncoderStep}
    (whole : done ++ rest = script.reads) :
    Along (Scene.Leads setup) (Scene.Reads setup command.outputPath script done rest)
      (readOn setup timeline command) (Comes setup timeline command)
      (fun f s => s.Broken setup s.shared.files f) := by
  intro s reads
  have steps : (s.run.process.map (·.remaining)).getD [] = rest := by rw [reads.process]; rfl
  have read : Along (Scene.Leads setup) (Scene.Reads setup command.outputPath script done rest)
      (guarded (readSteps setup command rest)) (Resting setup command.outputPath script)
      (fun f s => s.Broken setup s.shared.files f) :=
    (along_guarded (along_readSteps timed rest whole)).mono (fun _ h => h) (fun _ _ h => h)
      fun f s h => h.1.broken (h.2 _)
  unfold readOn
  rw [result_run_bind, steps]
  refine Along.bind read (fun pause => ?_) s reads
  split
  · have all (s : Scene) (h : Resting setup command.outputPath script .ended s) :
        s.Reads setup command.outputPath script script.reads [] := by
      obtain ⟨done, rest, whole, reads, none⟩ := h
      obtain rfl := none rfl
      rw [← whole, List.append_nil]
      exact reads
    have ends : Along (Scene.Leads setup) (Resting setup command.outputPath script .ended)
        (conclude setup timeline command) (fun _ s => s.Completed setup s.shared.files)
        (fun f s => s.Broken setup s.shared.files f) :=
      (along_conclude timed).mono all (fun _ _ h => h) fun _ _ h => h
    exact ends.bind fun _ => along_pure fun s h => .inl ⟨rfl, h⟩
  · refine along_pure ?_
    rintro s ⟨done, rest, whole, reads, -⟩
    obtain rfl := reads.encodes.same
    exact .inr ⟨_, rfl, done, rest, whole, reads⟩

end Act
end Montage
