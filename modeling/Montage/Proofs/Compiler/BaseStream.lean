import Montage.Proofs.Compiler.Missing
import Montage.Proofs.Graph.Source

/-!
# The stream behind everything

Without a background, input 0 is a filter of its own that gives a plain colour. Its description has
the colour as the timeline gives it, without the quoting that all options of the graph get, so it
is up to the colour whether the encoder reads it as it was meant. `base_stream_iff`: it does exactly
if the colour has no reserved character. The other values never have one, as they are numbers
(`free_compactFloat`, `free_compact`).
-/
namespace Montage

/-! ## Numbers -/

namespace Graph

theorem Free.of_subset {s t : String} (h : Free s) (within : t.toList ⊆ s.toList) : Free t :=
  fun c hc => h c (within hc)

theorem not_mem_reserved_of_isDigit {c : Char} (h : c.isDigit = true) : c ∉ reserved := by
  intro hc
  simp only [reserved, List.mem_cons, List.not_mem_nil, or_false] at hc
  rcases hc with rfl | rfl | rfl | rfl | rfl | rfl | rfl <;> cases h

theorem free_nat (n : Nat) : Free (toString n) := by
  intro c hc
  rw [Nat.toString_eq_repr, Nat.toList_repr] at hc
  exact not_mem_reserved_of_isDigit (Nat.isDigit_of_mem_toDigits (by decide) (by decide) hc)

theorem free_int (n : Int) : Free (toString n) := by
  cases n with
  | ofNat m => exact free_nat m
  | negSucc m => exact Free.append (s := "-") (by decide) (free_nat (m + 1))

theorem free_dropEnd {s : String} (h : Free s) (c : Char) : Free (Decimal.dropEnd c s) := by
  refine h.of_subset ?_
  rw [Decimal.dropEnd, String.toList_ofList]
  intro d hd
  exact List.mem_reverse.1 ((List.dropWhile_sublist _).subset (List.mem_reverse.1 hd))

theorem free_fixedText (places : Nat) (x : Float) : Free (Decimal.fixedText places x) := by
  have pad (n : Nat) : Free (Decimal.padZeros places (toString n)) := by
    refine Free.append (fun c hc => ?_) (free_nat n)
    rw [String.toList_ofList] at hc
    obtain rfl := List.eq_of_mem_replicate hc
    decide
  unfold Decimal.fixedText
  split
  · refine Free.append ?_ (Free.append (Free.append (free_nat _) (by decide)) (pad _))
    split <;> decide
  · split
    · decide
    · split <;> decide

theorem free_compactFloat (x : Float) : Free (Number.compactFloat x) := by
  have trimmed (x : Float) : Free (Decimal.trimZeros (Decimal.fixedText 6 x)) :=
    free_dropEnd (free_dropEnd (free_fixedText 6 x) _) _
  unfold Number.compactFloat Number.wholeOr
  split
  · split
    · exact free_int _
    · exact trimmed x
  · exact trimmed x

theorem free_compact {n : Number} {s : String} (h : n.compact = .ok s) : Free s := by
  cases n with
  | int n =>
    obtain ⟨_, -, same⟩ := except_bind_ok.1 h
    cases same
    exact free_int n
  | float x =>
    cases h
    exact free_compactFloat x

end Graph

/-! ## Input 0 -/

namespace Compiler

open Montage.Graph

/-- What input 0 is meant to be: the plain colour in the size of the picture, at its rate and as
long as it. -/
def colorOptions (t : Timeline) (length : String) : List (String × String) := [
  ("c", baseColor t),
  ("s", toString t.width ++ "x" ++ toString t.height),
  ("r", Number.compactFloat t.frameRateValue),
  ("d", length)]

theorem colorInput_path {t : Timeline} {duration : Number} {input : Input}
    (h : colorInput t duration = .ok input) :
    ∃ length, duration.compact = .ok length ∧
      input.path = splice "color" (colorOptions t length) ∧ input.options = ["-f", "lavfi"] := by
  obtain ⟨length, written, same⟩ := except_bind_ok.1 h
  cases same
  refine ⟨length, written, ?_, rfl⟩
  rw [← String.toList_inj, toList_splice]
  simp [colorOptions, spliceChars]

theorem free_colorOptions_iff {t : Timeline} {duration : Number} {length : String}
    (h : duration.compact = .ok length) :
    (∀ o ∈ colorOptions t length, Free o.2) ↔ Free (baseColor t) := by
  have size : Free (toString t.width ++ "x" ++ toString t.height) :=
    Free.append (Free.append (free_int _) (by decide)) (free_int _)
  simp only [colorOptions, List.forall_mem_cons, List.not_mem_nil, false_imp_iff, implies_true,
    and_true, size, free_compactFloat, free_compact h]

/-- Without a background that was found, input 0 is the plain colour. -/
theorem Steps.colored {k : Compiler} {files : Files} {t : Timeline} {assets : List Asset}
    {outputPath : String} {background : Option Asset} {cmd : Command}
    (s : Steps k files t assets outputPath background cmd)
    (unfound : background.bind (·.path) = none) :
    colorInput t cmd.duration = .ok s.input := by
  have based := s.based
  rw [← s.duration_eq] at based
  have none : (background.bind fun a => a.path.map fun p => (a, p)) = none := by
    cases background with
    | none => rfl
    | some a => simpa using unfound
  rw [base, none] at based
  simp only [run_bind_ok, run_attempt_ok, run_pure_ok, Prod.mk.injEq] at based
  obtain ⟨input, _, ⟨made, -⟩, ⟨same, -⟩, -⟩ := based
  rw [made, same]

/-- Without a background that was found, the description of input 0 is read as one filter with just
the options it was made for exactly if the colour holds no reserved character. -/
theorem base_stream_iff {k : Compiler} {files : Files} {t : Timeline} {assets : List Asset}
    {outputPath : String} {output : OutputOptions} {background : Option Asset} {cmd : Command}
    (h : k.compile files t assets outputPath output background = .ok cmd)
    (unfound : background.bind (·.path) = none) :
    ∃ input rest length, cmd.inputs = input :: rest ∧ input.options = ["-f", "lavfi"] ∧
      cmd.duration.compact = .ok length ∧
      (readSource input.path = some ("color", colorOptions t length) ↔ Free (baseColor t)) := by
  obtain ⟨s⟩ := compile_steps h
  obtain ⟨length, written, path, options⟩ := colorInput_path (s.colored unfound)
  have names : ∀ o ∈ colorOptions t length, IsName o.1 := by
    simp only [colorOptions, List.forall_mem_cons, List.not_mem_nil, false_imp_iff, implies_true,
      and_true]
    decide
  refine ⟨s.input, s.inputs, length, s.inputs_eq, options, written, ?_⟩
  rw [path]
  exact (readSource_splice_iff (List.cons_ne_nil _ _) (by decide) names).trans
    (free_colorOptions_iff written)

/-! ## Two colours -/

/-- A title over a colour, with a background whose file is not there. -/
def tinted (color : String) : Timeline where
  duration := none
  frameRate := none
  resolution := none
  background := some ⟨some (some color), some (some "gone.png"), []⟩
  tracks := some [⟨none, some [
    ⟨none, none, 5, none, none, none, .text "Hello" none, []⟩], []⟩]
  soundtrack := none
  extra := []
  canvas := ⟨1920, 1080, 30⟩

def tintedBackground : Asset :=
  { ref := "background", source := "gone.png", path := none, kind := .image }

def tintedCommand (color : String) : Except Failure Command :=
  (make .standard none none).compile ⟨[], []⟩ (tinted color) [] "/out.mp4" ⟨.mp4, .high⟩
    (some tintedBackground)

theorem tintedCommand_paths :
    ((tintedCommand "#0088ff@0.5").map fun cmd => cmd.inputs.map (·.path)).toOption =
        some ["color=c=#0088ff@0.5:s=1920x1080:r=30:d=10"] ∧
      ((tintedCommand "red:s=1x1").map fun cmd => cmd.inputs.map (·.path)).toOption =
        some ["color=c=red:s=1x1:s=1920x1080:r=30:d=10"] := by
  unfold tintedCommand compile build
  rw [show found [] = [] from List.mergeSort_nil]
  decide +kernel

theorem base_stream_translucent :
    ∃ cmd, tintedCommand "#0088ff@0.5" = .ok cmd ∧
      (some tintedBackground).bind (·.path) = none ∧ Free (baseColor (tinted "#0088ff@0.5")) ∧
      ∃ input rest length, cmd.inputs = input :: rest ∧ input.options = ["-f", "lavfi"] ∧
        cmd.duration.compact = .ok length ∧
        readSource input.path = some ("color", colorOptions (tinted "#0088ff@0.5") length) := by
  have paths := tintedCommand_paths.1
  cases h : tintedCommand "#0088ff@0.5" with
  | error e => simp [h, Except.map, Except.toOption] at paths
  | ok cmd =>
    have free : Free (baseColor (tinted "#0088ff@0.5")) := by decide +kernel
    obtain ⟨input, rest, length, inputs, options, written, read⟩ := base_stream_iff h rfl
    exact ⟨cmd, rfl, rfl, free, input, rest, length, inputs, options, written, read.2 free⟩

/-- A colour that brings a size with it: what is read has two sizes, and the colour is another. -/
theorem base_stream_resized :
    baseColor (tinted "red:s=1x1") = "red:s=1x1" ∧
      ∃ cmd input, tintedCommand "red:s=1x1" = .ok cmd ∧ cmd.inputs = [input] ∧
        readSource input.path = some ("color",
          [("c", "red"), ("s", "1x1"), ("s", "1920x1080"), ("r", "30"), ("d", "10")]) := by
  have paths := tintedCommand_paths.2
  cases h : tintedCommand "red:s=1x1" with
  | error e => simp [h, Except.map, Except.toOption] at paths
  | ok cmd =>
    rw [h] at paths
    obtain ⟨input, inputs, path⟩ : ∃ input, cmd.inputs = [input] ∧
        input.path = "color=c=red:s=1x1:s=1920x1080:r=30:d=10" := by
      simpa [Except.map, Except.toOption, List.map_eq_singleton_iff] using paths
    refine ⟨by decide +kernel, cmd, input, rfl, inputs, ?_⟩
    rw [path]
    decide +kernel

end Compiler
end Montage
