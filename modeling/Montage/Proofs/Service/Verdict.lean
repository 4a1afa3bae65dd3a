import Montage.Proofs.Service.Course
import Montage.Proofs.Service.Story
import Montage.Proofs.Timeline.Ranges

/-!
# What an encoder decides

A job whose encoder was started ends as the exit code and the output file say, and with the end of
the encoder's messages as the detail of its error. Both hold for every script, every other job and
every history, but for what the messages themselves can do:

* `encoder_verdict`: if a line of the messages cannot be read for the progress, the job fails with
  an internal error, whatever the encoder has achieved;
* `encoding_detail`: the messages are decoded one portion at a time, so that the detail is the end of
  the text if and only if no portion ends within a character.
-/
namespace Montage

open EncoderStep (outputs stateAfter)

/-! ## Ends of jobs -/

/-- A job has been completed, or has failed with an error of a code. -/
inductive Job.EndsWith (j : Job) : Option String → Prop
  | completed (state : j.state = .completed) : EndsWith j none
  | failed {code : String} (state : j.state = .failed)
      (error : j.error.map (·.code) = some code) : EndsWith j (some code)

theorem Job.EndsWith.unique {j : Job} {a b : Option String} (h : j.EndsWith a)
    (h' : j.EndsWith b) : a = b := by
  cases h with
  | completed state =>
    cases h' with
    | completed => rfl
    | failed state' => cases state.symm.trans state'
  | failed state error =>
    cases h' with
    | completed state' => cases state.symm.trans state'
    | failed _ error' => exact error.symm.trans error'

/-- The code of the error that an encoder's exit and its file mean, if they mean one. -/
def errorCode? (exit : Int) (file : Option StoredFile) : Option String :=
  if exit ≠ 0 then some "ENCODING_ERROR"
  else if file.any (·.size ≠ 0) then none
  else some "OUTPUT_VERIFICATION_ERROR"

theorem errorCode?_ne_internal (exit : Int) (file : Option StoredFile) :
    errorCode? exit file ≠ some "INTERNAL_ERROR" := by
  unfold errorCode?
  split
  · decide
  · split <;> decide

/-- What has been cut is not cut again. -/
theorem Failure.cutDetail_tail {n : Int} (hn : 0 < n) (s : String) :
    cutDetail (some n) (Text.tail n s) = Text.tail n s := by
  unfold cutDetail
  dsimp only
  split
  · exact Text.tail_tail hn s
  · rfl

/-! ## Scripts -/

/-- Whether a step is a message, a wait, or that the file is written. -/
def EncoderStep.isPlain : EncoderStep → Bool
  | output _ => true
  | sleep _ => true
  | write _ => true
  | _ => false

namespace EncoderScript

variable {s : EncoderScript}

/-- An encoder sends messages, waits and writes its file, and then exits. -/
def IsPlain (s : EncoderScript) : Prop := ∀ step ∈ s.steps, step.isPlain = true

/-- All that an encoder writes as messages. -/
def messages (s : EncoderScript) : List UInt8 := (outputs s.steps).flatten

/-- The portions in which its messages are read. -/
def received (s : EncoderScript) : List (List UInt8) := outputs s.reads

theorem flatten_received (s : EncoderScript) : s.received.flatten = s.messages := by
  unfold received messages reads
  induction s.steps with
  | nil => rfl
  | cons step steps ih =>
    rw [List.flatMap_cons, EncoderStep.outputs_append, List.flatten_append, ih]
    cases step with
    | output bytes =>
      have portions (ps : List (List UInt8)) : outputs (ps.map .output) = ps := by
        simp [outputs, EncoderStep.output?, Function.comp_def]
      rw [portions, flatten_portions]
      rfl
    | _ => rfl

theorem IsPlain.reads (h : s.IsPlain) : ∀ step ∈ s.reads, step.isPlain = true := by
  intro step hstep
  obtain ⟨old, mem, of⟩ := List.mem_flatMap.1 hstep
  cases old with
  | output bytes =>
    obtain ⟨portion, -, rfl⟩ := List.mem_map.1 of
    rfl
  | _ => exact List.mem_singleton.1 of ▸ h _ mem

/-- It exits by itself. -/
theorem IsPlain.code (h : s.IsPlain) : s.code = s.exit := by
  have none : s.reads.filterMap EncoderStep.exit? = [] := by
    refine List.filterMap_eq_nil_iff.2 fun step hstep => ?_
    have plain := h.reads step hstep
    cases step <;> first | rfl | cases plain
  rw [EncoderScript.code, stateAfter, none]
  rfl

theorem Succeeds.errorCode? {file : Option StoredFile} (h : s.Succeeds file) :
    Montage.errorCode? s.code file = none := by
  obtain ⟨found, rfl, size⟩ := h.file
  rw [Montage.errorCode?, if_neg (by simp [h.code]), if_pos (by simpa using size)]

/-- A plain encoder whose messages can be read fails by its exit code and its file alone. -/
theorem Breaks.errorCode? {n : Int} {path : String} {file : Option StoredFile} {f : Failure}
    (h : s.Breaks n path file f) (plain : s.IsPlain) (legible : s.isLegible = true) :
    Montage.errorCode? s.code file = some f.code := by
  cases h with
  | illegible lines => cases legible.symm.trans lines
  | unreadable step => cases plain.reads _ step
  | exited _ code => exact if_pos code
  | missing _ code none =>
    rw [none, Montage.errorCode?, if_neg (by simp [code])]
    rfl
  | empty _ code some size =>
    rw [some, Montage.errorCode?, if_neg (by simp [code]), if_neg (by simp [size])]
    rfl

/-- One whose messages cannot be read fails by them. -/
theorem Breaks.internal {n : Int} {path : String} {file : Option StoredFile} {f : Failure}
    (h : s.Breaks n path file f) (illegible : s.isLegible = false) : f.code = "INTERNAL_ERROR" := by
  cases h with
  | illegible => rfl
  | unreadable => rfl
  | exited legible => cases legible.symm.trans illegible
  | missing legible => cases legible.symm.trans illegible
  | empty legible => cases legible.symm.trans illegible

/-- An encoding error tells the exit code and what has been kept of the messages. -/
theorem Breaks.eq_encoding {n : Int} {path : String} {file : Option StoredFile} {f : Failure}
    (h : s.Breaks n path file f) (code : f.code = "ENCODING_ERROR") :
    f = .encoding s.code (some (s.ending n)) := by
  cases h with
  | exited => rfl
  | _ => simp [Failure.code] at code

end EncoderScript

namespace Service

variable {setup : Setup} {sweeper : Sweeper} {files : Files} {moves : List Move} {id : String}
  {r : Run} {j : Job}

/-- A job whose encoder has been started has been cancelled in the end, or its encoder has decided
how it ends, with the file that it had left at the end of its stages. -/
theorem decided (run : ((fresh setup sweeper files).after moves).run? id = some r)
    (job : ((fresh setup sweeper files).after moves).job? id = some j) (started : r.process.isSome)
    (ended : r.phase = .over ∨ j.state = .failed) :
    r.mustStop = true ∧ j.EndsWith (some "RENDER_CANCELLED") ∨
      ∃ t output, j.renderingSince = some t ∧ (fresh setup sweeper files).Filed moves id output ∧
        (j.state = .completed ∧ r.script.Succeeds (output.find? (Act.outputPath setup r t)) ∨
          ∃ f, j.state = .failed ∧ j.error = some (f.info (some setup.settings.tailLength)) ∧
            r.script.Breaks setup.settings.tailLength (Act.outputPath setup r t)
              (output.find? (Act.outputPath setup r t)) f) := by
  obtain ⟨output, known, which⟩ := (tracked_after setup sweeper files moves).runs id r run
  have here : Scene.job? ⟨((fresh setup sweeper files).after moves).shared, r⟩ = some j := by
    rw [Scene.job?, id_of_run? run]
    exact job
  have knows := known.knows
  have ended : r.phase = .over := by
    rcases ended with ended | failed
    · exact ended
    · rcases knows.ended here (by rw [failed]; rfl) with completed | ⟨ended, -⟩
      · obtain ⟨i, _, known', state, -⟩ := completed.job
        cases here.symm.trans known'
        cases failed.symm.trans state
      · exact ended
  have filed := which.resolve_left (by rw [ended]; exact fun works => works)
  rw [ended] at knows
  rcases knows with completed | ⟨i, known', -, ⟨none, -⟩ | broken | ⟨stop, cancelled⟩⟩
  · obtain ⟨i, t, known', state, -, since, succeeds⟩ := completed.job
    cases here.symm.trans known'
    exact .inr ⟨t, output, since, filed, .inl ⟨state, succeeds⟩⟩
  · rw [show r.process = .none from none] at started
    cases started
  · cases here.symm.trans known'
    obtain ⟨t, f, since, breaks, error⟩ := broken.why
    exact .inr ⟨t, output, since, filed, .inr ⟨f, broken.state, error, breaks⟩⟩
  · cases here.symm.trans known'
    exact .inl ⟨stop, .failed cancelled.1 cancelled.2⟩

/-! ## The verdict -/

/-- A job whose encoder has nothing to do but to send messages, to wait and to write its file comes
to its end. If the encoder has been started and nobody has stopped the run, the job has ended as
the exit code and the output file say if and only if all messages can be read; if they cannot, it
has failed with an internal error. -/
theorem encoder_verdict (run : ((fresh setup sweeper files).after moves).run? id = some r)
    (job : ((fresh setup sweeper files).after moves).job? id = some j) (plain : r.script.IsPlain) :
    (r.script.ends = true →
      GoesOn ((fresh setup sweeper files).after moves)
          (((fresh setup sweeper files).after moves).waitUntil none fun _ => false) ∧
        ∃ r', (((fresh setup sweeper files).after moves).waitUntil none fun _ => false).run? id =
          some r' ∧ r'.phase = .over) ∧
    (r.process.isSome → r.mustStop = false → r.phase = .over →
      ∃ t output, j.renderingSince = some t ∧
        (fresh setup sweeper files).Filed moves id output ∧
        (r.script.isLegible = true ↔
          j.EndsWith (errorCode? r.script.exit (output.find? (Act.outputPath setup r t)))) ∧
        (r.script.isLegible = false → j.EndsWith (some "INTERNAL_ERROR"))) := by
  refine ⟨over_of_waiting (sound_after (sound_fresh setup sweeper files) moves) run,
    fun started on ended => ?_⟩
  rw [← plain.code]
  obtain ⟨stop, -⟩ | ⟨t, output, since, filed, which⟩ := decided run job started (.inl ended)
  · cases on.symm.trans stop
  refine ⟨t, output, since, filed, ?_⟩
  obtain ⟨completed, succeeds⟩ | ⟨f, failed, error, breaks⟩ := which
  · refine ⟨⟨fun _ => ?_, fun _ => succeeds.legible⟩, fun illegible => ?_⟩
    · rw [succeeds.errorCode?]
      exact .completed completed
    · cases succeeds.legible.symm.trans illegible
  · have ends : j.EndsWith (some f.code) := .failed failed (by rw [error]; rfl)
    refine ⟨⟨fun legible => ?_, fun expected => ?_⟩, fun illegible => ?_⟩
    · rw [breaks.errorCode? plain legible]
      exact ends
    · by_contra illegible
      rw [Bool.not_eq_true] at illegible
      rw [breaks.internal illegible] at ends
      exact errorCode?_ne_internal _ _ (expected.unique ends)
    · rwa [breaks.internal illegible] at ends

/-- A job that shows a title, from its beginning to its end. -/
def showingTitle (script : EncoderScript) : List Move :=
  [.submit { timeline := titleDocument 5 } script true, .turn, .turn, .turn, .turn]

/-- Whether something is true of the run, of the record and of the files that it leaves. -/
def titleLeaves (script : EncoderScript) (p : Run → Job → Files → Bool) : Bool :=
  (((plain none).after (showingTitle script)).run? (Registry.idOf 1)).any fun r =>
    (((plain none).after (showingTitle script)).job? (Registry.idOf 1)).any fun j =>
      p r j ((plain none).after (showingTitle script)).shared.files

theorem of_titleLeaves {s : EncoderScript} {p : Run → Job → Files → Bool}
    (h : titleLeaves s p = true) : ∃ r j,
    ((plain none).after (showingTitle s)).run? (Registry.idOf 1) = some r ∧
      ((plain none).after (showingTitle s)).job? (Registry.idOf 1) = some j ∧
      p r j ((plain none).after (showingTitle s)).shared.files = true := by
  obtain ⟨r, run, h⟩ := (Option.any_eq_true ..).1 h
  obtain ⟨j, job, h⟩ := (Option.any_eq_true ..).1 h
  exact ⟨r, j, run, job, h⟩

/-- An encoder that writes its file and says that it has come to some hours, a minute and a
second. -/
def telling (hours : List UInt8) : EncoderScript where
  steps := [.write 15, .output ("time=".toUTF8.toList ++ hours ++ ":01:01\n".toUTF8.toList)]

theorem encoder_verdict_hour : ∃ r j t output,
    ((plain none).after (showingTitle (telling [49]))).run? (Registry.idOf 1) = some r ∧
      ((plain none).after (showingTitle (telling [49]))).job? (Registry.idOf 1) = some j ∧
      j.renderingSince = some t ∧
      (plain none).Filed (showingTitle (telling [49])) (Registry.idOf 1) output ∧
      j.EndsWith (errorCode? 0 (output.find? (Act.outputPath (plain none).setup r t))) ∧
      j.EndsWith none := by
  obtain ⟨r, j, run, job, facts⟩ := of_titleLeaves (s := telling [49]) (p := fun r j _ =>
    r.process.isSome && !r.mustStop && !r.isActive && j.state = .completed && r.script.isLegible &&
      r.script.steps.all (·.isPlain) && r.script.exit = 0) (by decide +kernel)
  simp only [Bool.and_eq_true, Bool.not_eq_true', decide_eq_true_eq, List.all_eq_true] at facts
  obtain ⟨⟨⟨⟨⟨⟨started, on⟩, gone⟩, completed⟩, legible⟩, simple⟩, exit⟩ := facts
  have sound := ((reachable_plain none).after (showingTitle (telling [49]))).accounted.sound
  obtain ⟨-, i, -, stands⟩ := sound.stands _ r run
  have verdict := @encoder_verdict (plain none).setup (.fresh []) .empty (showingTitle (telling [49]))
    (Registry.idOf 1) r j run job simple
  obtain ⟨t, output, since, filed, ends, -⟩ := verdict.2 started on (stands.left gone).1
  rw [exit] at ends
  exact ⟨r, j, t, output, run, job, since, filed, ends.1 legible, .completed completed⟩

/-- More hours than a double can count cannot be read: the job fails, though the encoder exits with
zero and its file is there. -/
theorem encoder_verdict_overlong : (telling (List.replicate 305 57)).ends = true ∧
    (telling (List.replicate 305 57)).exit = 0 ∧ ∃ r j,
      ((plain none).after (showingTitle (telling (List.replicate 305 57)))).run?
        (Registry.idOf 1) = some r ∧
      ((plain none).after (showingTitle (telling (List.replicate 305 57)))).job?
        (Registry.idOf 1) = some j ∧
      r.script.IsPlain ∧ r.process.isSome = true ∧ r.mustStop = false ∧
      (((plain none).after (showingTitle (telling (List.replicate 305 57)))).shared.files.find?
        "/work/output/video_20240102030405_00000001.mp4").any (·.size = 15) = true ∧
      j.EndsWith (some "INTERNAL_ERROR") := by
  obtain ⟨r, j, run, job, facts⟩ := of_titleLeaves (s := telling (List.replicate 305 57))
    (p := fun r j files => r.script.steps.all (·.isPlain) && r.process.isSome && !r.mustStop &&
      (files.find? "/work/output/video_20240102030405_00000001.mp4").any (·.size = 15) &&
      j.state = .failed && j.error.map (·.code) = some "INTERNAL_ERROR") (by decide +kernel)
  simp only [Bool.and_eq_true, Bool.not_eq_true', decide_eq_true_eq, List.all_eq_true] at facts
  obtain ⟨⟨⟨⟨⟨simple, started⟩, on⟩, there⟩, failed⟩, code⟩ := facts
  exact ⟨rfl, rfl, r, j, run, job, simple, started, on, there, .failed failed code⟩

/-! ## The detail of an error -/

/-- The detail of an encoding error is the end of what the portions of the messages give, each for
itself. All such ends are those of the whole text if and only if no portion ends within a
character. -/
theorem encoding_detail (run : ((fresh setup sweeper files).after moves).run? id = some r)
    (job : ((fresh setup sweeper files).after moves).job? id = some j)
    (limit : 0 < setup.settings.tailLength) (started : r.process.isSome)
    (failed : j.state = .failed) {e : ErrorInfo} (error : j.error = some e)
    (code : e.code = "ENCODING_ERROR") :
    e.detail = some (Text.tail setup.settings.tailLength (Text.decodeEach r.script.received)) ∧
      ((∀ n : Int, 0 < n → Text.tail n (Text.decodeEach r.script.received) =
        Text.tail n (Text.decodeLenient r.script.messages)) ↔ Text.Unbroken r.script.received) := by
  refine ⟨?_, r.script.flatten_received ▸ Text.tail_decodeEach_iff r.script.received⟩
  have ends : j.EndsWith (some "ENCODING_ERROR") := .failed failed (by rw [error, ← code]; rfl)
  obtain ⟨-, cancelled⟩ | ⟨t, output, -, -, which⟩ := decided run job started (.inr failed)
  · exact absurd (ends.unique cancelled) (by decide)
  obtain ⟨completed, -⟩ | ⟨f, -, error', breaks⟩ := which
  · cases failed.symm.trans completed
  cases error.symm.trans error'
  rw [breaks.eq_encoding code]
  show some (Failure.cutDetail _ (Text.tails _ _)) = _
  rw [Text.tails_eq _ limit, Failure.cutDetail_tail limit]
  rfl

/-- An encoder that writes its messages in portions and then gives up. -/
def complaining (portions : List (List UInt8)) : EncoderScript where
  steps := portions.map .output
  exit := 1

/-- A job that shows a title fails as its encoder does, with a detail. -/
def FailsWith (script : EncoderScript) (detail : String) : Prop := ∃ r j e,
  ((plain none).after (showingTitle script)).run? (Registry.idOf 1) = some r ∧
    ((plain none).after (showingTitle script)).job? (Registry.idOf 1) = some j ∧
    r.script.received = script.received ∧ r.process.isSome = true ∧ j.state = .failed ∧
    j.error = some e ∧ e.code = "ENCODING_ERROR" ∧ e.detail = some detail

theorem failsWith_of_titleLeaves {script : EncoderScript} {detail : String}
    (h : titleLeaves script (fun r j _ => r.script.received = script.received && r.process.isSome &&
      j.state = .failed && j.error.any fun e => e.code = "ENCODING_ERROR" && e.detail = some detail) =
        true) : FailsWith script detail := by
  obtain ⟨r, j, run, job, facts⟩ := of_titleLeaves h
  simp only [Bool.and_eq_true, decide_eq_true_eq, Option.any_eq_true] at facts
  obtain ⟨⟨⟨received, started⟩, failed⟩, e, error, code, detail⟩ := facts
  exact ⟨r, j, e, run, job, received, started, failed, error, code, detail⟩

theorem encoding_detail_accent : FailsWith (complaining [[0xc3, 0xa9]]) "é" ∧
    some "é" = some (Text.tail 500 (Text.decodeEach (complaining [[0xc3, 0xa9]]).received)) := by
  have fails : FailsWith (complaining [[0xc3, 0xa9]]) "é" :=
    failsWith_of_titleLeaves (by decide +kernel)
  refine ⟨fails, ?_⟩
  obtain ⟨r, j, e, run, job, received, started, failed, error, code, detail⟩ := fails
  have told := @encoding_detail (plain none).setup (.fresh []) .empty
    (showingTitle (complaining [[0xc3, 0xa9]])) (Registry.idOf 1) r j run job (by decide) started
    failed e error code
  rw [received, detail, show (plain none).setup.settings.tailLength = 500 from rfl] at told
  exact told.1

/-- The same two bytes, read one by one, are not read as the character that they are: two runs that
differ in the cutting alone record different details. -/
theorem encoding_detail_cut :
    (complaining [[0xc3], [0xa9]]).messages = (complaining [[0xc3, 0xa9]]).messages ∧
      Text.tail 500 (Text.decodeLenient (complaining [[0xc3], [0xa9]]).messages) = "é" ∧
      FailsWith (complaining [[0xc3, 0xa9]]) "é" ∧
      FailsWith (complaining [[0xc3], [0xa9]]) "\uFFFD\uFFFD" :=
  ⟨rfl, by decide +kernel, failsWith_of_titleLeaves (by decide +kernel),
    failsWith_of_titleLeaves (by decide +kernel)⟩

end Service
end Montage
