/-!
# The encoder as a process

What an encoder does is a script: it writes messages, waits, writes its file, and exits at the
end. Messages are read in portions of a bounded size. A process that is killed does nothing any
more.
-/
namespace Montage

/-- One thing that an encoder does while its messages are read. -/
inductive EncoderStep where
  | output (bytes : List UInt8)
  | sleep (seconds : Float)
  /-- waits for ever -/
  | hang
  /-- makes its file have so many bytes -/
  | write (size : Int)
  /-- exits, though what it wrote can still be read -/
  | exited (code : Int)
  /-- its messages cannot be read any further -/
  | error (message : String)

/-- All that an encoder is going to do. -/
structure EncoderScript where
  steps : List EncoderStep := []
  exit : Int := 0
  /-- killing it finds no process -/
  vanishes : Bool := false
  /-- it does not start, for a reason with a number -/
  spawnError : Option (Int × String) := none

namespace EncoderScript

/-- How many bytes are read at once. -/
def portion : Nat := 4096

/-- Bytes in portions; no bytes are no portion. -/
def portions (bytes : List UInt8) : List (List UInt8) :=
  match bytes with
  | [] => []
  | b :: rest => (b :: rest.take (portion - 1)) :: portions (rest.drop (portion - 1))
termination_by bytes.length
decreasing_by simp only [List.length_drop, List.length_cons]; omega

theorem flatten_portions (bytes : List UInt8) : (portions bytes).flatten = bytes := by
  fun_induction portions bytes with
  | case1 => rfl
  | case2 b rest ih => simp [ih]

theorem length_of_mem_portions {bytes p : List UInt8} (h : p ∈ portions bytes) :
    0 < p.length ∧ p.length ≤ portion := by
  fun_induction portions bytes with
  | case1 => simp at h
  | case2 b rest ih =>
    rcases List.mem_cons.1 h with rfl | h
    · simp only [List.length_cons, List.length_take, portion]; omega
    · exact ih h

/-- The steps with the messages in portions. -/
def reads (s : EncoderScript) : List EncoderStep :=
  s.steps.flatMap fun
    | .output bytes => (portions bytes).map .output
    | step => [step]

end EncoderScript

/-- Whether a process is still there. -/
inductive ProcessState where
  | running
  | exited (code : Int)
  | killed
deriving DecidableEq, Repr

/-- A started encoder. -/
structure Process where
  /-- what is still to be read -/
  remaining : List EncoderStep
  /-- the code of its end -/
  exit : Int
  vanishes : Bool
  state : ProcessState := .running

namespace Process

def start (s : EncoderScript) : Process := ⟨s.reads, s.exit, s.vanishes, .running⟩

/-- Kills a process that has not exited; one that cannot be found has come to its end. -/
def kill (p : Process) : Process :=
  match p.state with
  | .running => { p with
      remaining := []
      state := if p.vanishes then .exited p.exit else .killed }
  | _ => p

/-- The process after its messages have ended. -/
def finish (p : Process) : Process :=
  match p.state with
  | .running => { p with state := .exited p.exit }
  | _ => p

/-- The code that a process has exited with. -/
def code (p : Process) : Int :=
  match p.state with
  | .exited c => c
  | _ => p.exit

end Process
end Montage
