import Mathlib.Data.List.Induction
import Montage.Proofs.Text.Bounded
import Montage.Proofs.Text.Portions
import Montage.Render.Stage

/-!
# What a script comes to

All that a run makes of its encoder is a function of the script, of the file that is there in the
end and of how much is kept of the messages: the lines that are read for the progress
(`EncoderScript.lines`), the end of the messages (`EncoderScript.ending`) and the code of the exit
(`EncoderScript.code`). `EncoderScript.Breaks` lists the failures that these lead to; a script that
leads to none `Succeeds`.
-/
namespace Montage

/-! ## Lines -/

namespace Progress

/-- Whether a line can be read, be it that it tells a time or that it tells none. -/
def isLegible (line : String) : Bool := (time? line).isOk

/-- The finished lines and the unfinished one when one more portion has been taken. -/
def intake (read : List String × String) (bytes : List UInt8) : List String × String :=
  let (lines, rest) := splitLines (read.2 ++ Text.decodeLenient bytes)
  (read.1 ++ lines, Text.tail Act.pendingLimit rest)

/-- The finished lines and the unfinished one of some portions. -/
def intakes (portions : List (List UInt8)) : List String × String := portions.foldl intake ([], "")

theorem intakes_append_singleton (portions : List (List UInt8)) (bytes : List UInt8) :
    intakes (portions ++ [bytes]) = intake (intakes portions) bytes := by
  simp [intakes]

/-- What has been finished stays finished. -/
theorem finished_intakes_append (portions more : List (List UInt8)) :
    ∃ lines, (intakes (portions ++ more)).1 = (intakes portions).1 ++ lines := by
  induction more using List.reverseRecOn with
  | nil => exact ⟨[], by simp⟩
  | append_singleton more bytes ih =>
    obtain ⟨lines, same⟩ := ih
    rw [← List.append_assoc, intakes_append_singleton, intake, same]
    exact ⟨_, List.append_assoc ..⟩

/-- All lines of some portions, the unfinished one last. -/
def lines (portions : List (List UInt8)) : List String :=
  (intakes portions).1 ++ [(intakes portions).2]

end Progress

/-- The end of some portions of which only the end has been kept, one after another. -/
def Text.tails (n : Int) (portions : List (List UInt8)) : String :=
  portions.foldl (fun kept bytes => appendTail n kept (decodeLenient bytes)) ""

theorem Text.tails_append_singleton (n : Int) (portions : List (List UInt8)) (bytes : List UInt8) :
    tails n (portions ++ [bytes]) = appendTail n (tails n portions) (decodeLenient bytes) := by
  simp [tails]

/-- It is the end of them all. -/
theorem Text.tails_eq (n : Int) (hn : 0 < n) (portions : List (List UInt8)) :
    tails n portions = tail n (decodeEach portions) := by
  rw [decodeEach, ← kept_eq hn, kept, List.foldl_map]
  rfl

/-! ## Scripts -/

namespace EncoderStep

def output? : EncoderStep → Option (List UInt8)
  | output bytes => some bytes
  | _ => none

def exit? : EncoderStep → Option Int
  | exited code => some code
  | _ => none

/-- The portions of messages among some steps. -/
def outputs (steps : List EncoderStep) : List (List UInt8) := steps.filterMap output?

/-- Whether an encoder is still there after some steps. -/
def stateAfter (steps : List EncoderStep) : ProcessState :=
  match (steps.filterMap exit?).getLast? with
  | some code => .exited code
  | none => .running

theorem outputs_append (steps more : List EncoderStep) :
    outputs (steps ++ more) = outputs steps ++ outputs more := List.filterMap_append

theorem outputs_append_silent {step : EncoderStep} (silent : step.output? = none)
    (steps : List EncoderStep) : outputs (steps ++ [step]) = outputs steps := by
  simp [outputs, silent]

theorem stateAfter_append_still {step : EncoderStep} (still : step.exit? = none)
    (steps : List EncoderStep) : stateAfter (steps ++ [step]) = stateAfter steps := by
  simp [stateAfter, still]

theorem stateAfter_append_exited (steps : List EncoderStep) (code : Int) :
    stateAfter (steps ++ [.exited code]) = .exited code := by
  simp [stateAfter, exit?]

end EncoderStep

namespace EncoderScript

open EncoderStep (outputs stateAfter)

/-- All lines that are read for the progress. -/
def lines (s : EncoderScript) : List String := Progress.lines (outputs s.reads)

/-- Whether all of them can be read. -/
def isLegible (s : EncoderScript) : Bool := s.lines.all Progress.isLegible

/-- What is kept of the messages when they have ended. -/
def ending (s : EncoderScript) (n : Int) : String := Text.tails n (outputs s.reads)

/-- The code that the encoder exits with. -/
def code (s : EncoderScript) : Int :=
  match stateAfter s.reads with
  | .exited code => code
  | _ => s.exit

/-- The failures to which an encoder leads that leaves a file, or none, at a path. -/
inductive Breaks (s : EncoderScript) (n : Int) (path : String) (file : Option StoredFile) :
    Failure → Prop
  | illegible {fault : Fault} (lines : s.isLegible = false) : Breaks s n path file (.fault fault)
  | unreadable {message : String} (step : .error message ∈ s.reads) :
      Breaks s n path file (.fault (.unreadable message))
  | exited (legible : s.isLegible = true) (code : s.code ≠ 0) :
      Breaks s n path file (.encoding s.code (some (s.ending n)))
  | missing (legible : s.isLegible = true) (code : s.code = 0) (none : file = none) :
      Breaks s n path file (.output path "file does not exist")
  | empty {found : StoredFile} (legible : s.isLegible = true) (code : s.code = 0)
      (some : file = some found) (size : found.size = 0) :
      Breaks s n path file (.output path "file is empty")

/-- An encoder does what it was started for: it can be read, and leaves a file. -/
structure Succeeds (s : EncoderScript) (file : Option StoredFile) : Prop where
  legible : s.isLegible = true
  code : s.code = 0
  file : ∃ found, file = some found ∧ found.size ≠ 0

theorem isLegible_iff (s : EncoderScript) :
    s.isLegible = true ↔ (∀ line ∈ (Progress.intakes (outputs s.reads)).1, Progress.isLegible line) ∧
      Progress.isLegible (Progress.intakes (outputs s.reads)).2 := by
  simp [isLegible, lines, Progress.lines, List.all_eq_true]

/-- A line that cannot be read is one of all. -/
theorem not_isLegible {s : EncoderScript} {steps rest : List EncoderStep}
    (whole : steps ++ rest = s.reads) {line : String}
    (mem : line ∈ (Progress.intakes (outputs steps)).1) (h : Progress.isLegible line = false) :
    s.isLegible = false := by
  obtain ⟨more, finished⟩ := Progress.finished_intakes_append (outputs steps) (outputs rest)
  rw [← Bool.not_eq_true, isLegible_iff, ← whole, EncoderStep.outputs_append, finished]
  rintro ⟨all, -⟩
  rw [all line (List.mem_append_left more mem)] at h
  cases h

end EncoderScript
end Montage
