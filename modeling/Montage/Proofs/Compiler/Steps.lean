import Montage.Compiler
import Montage.Proofs.Graph.Labels

/-!
# The steps of compiling

Compiling that succeeds has gone through all of its steps, each from the labels that the one
before it left. `compile_steps` opens it once: `Steps` has what each step gave and how the command
is put together from it.
-/
namespace Montage.Compiler

open Montage.Graph

/-- The steps behind a command: input 0 with the picture to start from, the inputs of the assets,
the picture with all clips, and the sound. -/
structure Steps (k : Compiler) (files : Files) (t : Timeline) (assets : List Asset)
    (outputPath : String) (background : Option Asset) (cmd : Command) where
  input : Input
  inputs : List Input
  start : Picture
  picture : Picture
  /-- the length, as it is written -/
  total : String
  sounds : List Node
  baseLabels : Labels
  drawnLabels : Labels
  labels : Labels
  based : (base t background (t.effectiveDuration k.minDuration)).run [] =
    .ok ((input, start), baseLabels)
  numbered : inputsFrom 1 (found assets) = .ok inputs
  drawn : (t.slots.foldlM (drawClip t files assets) start).run baseLabels =
    .ok (picture, drawnLabels)
  total_eq : cmd.duration.compact = .ok total
  mixed : (soundNodes t (assetAt assets) (assets.find? (·.isSoundtrack)) total k.sampleRate).run
    drawnLabels = .ok (sounds, labels)
  inputs_eq : cmd.inputs = input :: inputs
  graph_eq : cmd.graph = finish picture ++ sounds
  warnings_eq : cmd.warnings = picture.warnings
  outputPath_eq : cmd.outputPath = outputPath
  duration_eq : cmd.duration = t.effectiveDuration k.minDuration

theorem compile_steps {k : Compiler} {files : Files} {t : Timeline} {assets : List Asset}
    {outputPath : String} {output : OutputOptions} {background : Option Asset} {cmd : Command}
    (h : k.compile files t assets outputPath output background = .ok cmd) :
    Nonempty (Steps k files t assets outputPath background cmd) := by
  unfold compile at h
  obtain ⟨⟨cmd, labels⟩, hrun, rfl⟩ := except_map_ok.1 h
  simp only [build, run_bind_ok, run_attempt_ok, run_pure_ok] at hrun
  obtain ⟨⟨input, start⟩, baseLabels, based, inputs, _, registered, picture, drawnLabels, drawn,
    total, _, ⟨total_eq, rfl⟩, sounds, _, mixed, rfl, rfl⟩ := hrun
  obtain ⟨numbered, rfl⟩ := run_lift_ok.1 registered
  exact ⟨{
    input, inputs, start, picture, total, sounds, baseLabels, drawnLabels, labels := _
    based, numbered, drawn, total_eq, mixed
    inputs_eq := rfl, graph_eq := rfl, warnings_eq := rfl, outputPath_eq := rfl
    duration_eq := rfl }⟩

end Montage.Compiler
