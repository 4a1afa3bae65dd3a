import Montage.Proofs.Compiler.Compositing

/-!
# Assets that are not there

A source without a file is no failure; the command carries a warning instead. `absences` is what a
reader of the documentation expects of a timeline: one entry for each of its sources that has no
file, be it the background's, a clip's or the soundtrack's. `compile_warnings` says what the
command has: the entries of the background and of the clips, in this order, and none for the
soundtrack, which is left out of the mix without a word. So the warnings are the expected ones
exactly if the soundtrack is no reason for one.
-/
namespace Montage.Compiler

open Montage.Graph

/-! ## What is expected -/

/-- The entry for a source that has no file. -/
def absence (l : Library) (files : Files) (source ref : String) : Option String :=
  if (l.find? files source).isSome then none else some (missing source ref)

/-- The entry for the background, if the timeline names a file for it. -/
def backgroundAbsence (l : Library) (files : Files) (t : Timeline) : Option String :=
  (t.backgroundSource.filter (!·.isEmpty)).bind fun source =>
    absence l files source Library.backgroundRef

/-- The entry for a clip, if it shows a file. -/
def clipAbsence (l : Library) (files : Files) (item : Item) : Option String :=
  (Library.wanted? item.2.content).bind fun w =>
    absence l files w.2 (Clip.ref item.1.1 item.1.2 (some item.2))

/-- The entry for the soundtrack, if there is one. -/
def trackAbsence (l : Library) (files : Files) (t : Timeline) : Option String :=
  t.soundtrack.join.bind fun s => absence l files s.source Library.soundtrackRef

/-- One entry for each asset of a timeline that is not there. -/
def absences (l : Library) (files : Files) (t : Timeline) : List String :=
  (backgroundAbsence l files t).toList ++ t.slots.filterMap (clipAbsence l files) ++
    (trackAbsence l files t).toList

/-! ## What a command says -/

section

variable {l : Library} {files : Files} {t : Timeline} {assets : List Asset}
  {background : Option Asset}

theorem wanted?_eq (c : Content) :
    c.media?.map (·.source) = (Library.wanted? c).map (·.2) := by
  cases c <;> rfl

/-- A clip is warned about if its source has no file. -/
theorem clipWarning_eq (h : l.assets files t = .ok assets) {item : Item} (hitem : item ∈ t.slots) :
    clipWarning assets item = clipAbsence l files item := by
  have found := any_isFound h hitem
  have source := wanted?_eq item.2.content
  unfold clipWarning clipAbsence absence
  rw [found, fileOf]
  cases hm : item.2.content.media? with
  | none =>
    rw [hm] at source
    rw [Option.map_eq_none_iff.1 source.symm]
    rfl
  | some m =>
    rw [hm] at source
    obtain ⟨w, hw, e⟩ := Option.map_eq_some_iff.1 source.symm
    rw [hw, Option.bind_some, Option.bind_some, Option.bind_some, e]

/-- The background is warned about if its source has no file. -/
theorem backgroundWarning_eq (h : l.background files t = .ok background) :
    (background.filter (!·.isFound)).map (fun a => missing a.source a.ref) =
      backgroundAbsence l files t := by
  unfold Library.background at h
  unfold backgroundAbsence absence
  split at h
  · rename_i hs
    cases h
    rw [hs]
    rfl
  · rename_i source hs
    rw [hs]
    split at h
    · rename_i hempty
      cases h
      rw [Option.filter_some_neg (by simp [hempty])]
      rfl
    · rename_i hsome
      obtain ⟨a, ha, h⟩ := except_bind_ok.1 h
      have outlined := Library.asset_ok ha
      have hpath : a.path = l.find? files source := congrArg Asset.path outlined
      have hsource : a.source = source := congrArg Asset.source outlined
      have href : a.ref = Library.backgroundRef := congrArg Asset.ref outlined
      cases h
      have named : (some source).filter (!·.isEmpty) = some source :=
        Option.filter_some_pos (by simpa using hsome)
      rw [named, Option.bind_some, ← hpath]
      cases hp : a.path with
      | none =>
        rw [if_neg (by simp [Asset.isFound, hp]),
          Option.filter_some_pos (by simp [Asset.isFound, hp]), Option.map_some, hsource, href]
        rfl
      | some path =>
        rw [if_pos (by simp [Asset.isFound, hp]),
          Option.filter_some_neg (by simp [Asset.isFound])]
        rfl

end

/-- What the picture starts with is warned about: a background without a file. -/
theorem base_warnings {t : Timeline} {background : Option Asset} {duration : Number}
    {input : Input} {v : Picture} {ls ls' : Labels}
    (h : (base t background duration).run ls = .ok ((input, v), ls')) :
    v.warnings =
      ((background.filter (!·.isFound)).map fun a => missing a.source a.ref).toList := by
  have start := base_start h
  cases background with
  | none =>
    rw [start]
    rfl
  | some a =>
    cases hfound : a.isFound with
    | true =>
      rw [Option.filter_some_pos hfound] at start
      obtain ⟨label, rfl⟩ := start
      rw [Option.filter_some_neg (by simp [hfound])]
      rfl
    | false =>
      rw [Option.filter_some_neg (by simp [hfound])] at start
      rw [start, Option.filter_some_pos (by simp [hfound])]

/-- **Warnings.** A command warns of the background and of the clips whose file is not there, once
each and of nothing else. That is all there is to report unless the soundtrack is not there. -/
theorem compile_warnings {l : Library} {k : Compiler} {files : Files} {t : Timeline}
    {assets : List Asset} {background : Option Asset} {outputPath : String}
    {output : OutputOptions} {cmd : Command} (hassets : l.assets files t = .ok assets)
    (hbackground : l.background files t = .ok background)
    (hcmd : k.compile files t assets outputPath output background = .ok cmd) :
    cmd.warnings =
        (backgroundAbsence l files t).toList ++ t.slots.filterMap (clipAbsence l files) ∧
      (cmd.warnings.Perm (absences l files t) ↔ trackAbsence l files t = none) := by
  obtain ⟨s⟩ := compile_steps hcmd
  have warned : cmd.warnings =
      (backgroundAbsence l files t).toList ++ t.slots.filterMap (clipAbsence l files) := by
    rw [s.warnings_eq, (drawClips_run s.drawn).1, base_warnings s.based,
      backgroundWarning_eq hbackground]
    congr 1
    exact List.filterMap_congr fun item hitem => clipWarning_eq hassets hitem
  refine ⟨warned, ?_⟩
  rw [warned, absences]
  constructor
  · intro perm
    have size := perm.length_eq
    cases htrack : trackAbsence l files t with
    | none => rfl
    | some entry =>
      simp only [htrack, List.length_append, Option.toList_some, List.length_singleton] at size
      omega
  · intro none
    rw [none, Option.toList_none, List.append_nil]

theorem compile_warnings_layered :
    layeredLibrary.assets layeredFiles layeredTimeline = .ok layeredAssets ∧
      layeredLibrary.background layeredFiles layeredTimeline = .ok (some layeredBackground) ∧
      ∃ cmd, layeredCommand = .ok cmd ∧
        cmd.warnings.Perm (absences layeredLibrary layeredFiles layeredTimeline) := by
  refine ⟨rfl, layeredLibrary_background, ?_⟩
  obtain ⟨cmd, h⟩ := layeredCommand_ok
  have found : trackAbsence layeredLibrary layeredFiles layeredTimeline = none := by decide +kernel
  exact ⟨cmd, h, (compile_warnings rfl layeredLibrary_background h).2.2 found⟩

/-! ## A soundtrack that is not there -/

/-- A title over a soundtrack. -/
def soundtrackTimeline : Timeline where
  duration := none
  frameRate := none
  resolution := none
  background := none
  tracks := some [⟨none, some [
    ⟨none, none, 5, none, none, none, .text "Hello" none, []⟩], []⟩]
  soundtrack := some (some ⟨"gone.mp3", none, []⟩)
  extra := []
  canvas := ⟨1920, 1080, 30⟩

/-- The assets of the timeline in a library without files. -/
def soundtrackAssets : List Asset := [
  { ref := "soundtrack", source := "gone.mp3", path := none, kind := .audio }]

def soundtrackCommand : Except Failure Command :=
  (make .standard none none).compile ⟨[], []⟩ soundtrackTimeline soundtrackAssets "/out.mp4"
    ⟨.mp4, .high⟩ none

theorem soundtrackCommand_warnings :
    (soundtrackCommand.map (·.warnings)).toOption = some [] := by
  unfold soundtrackCommand compile build
  rw [show found soundtrackAssets = [] from List.mergeSort_nil]
  decide +kernel

/-- The file of the soundtrack is not there, and the command says nothing of it. -/
theorem compile_silent :
    layeredLibrary.assets ⟨[], []⟩ soundtrackTimeline = .ok soundtrackAssets ∧
      layeredLibrary.background ⟨[], []⟩ soundtrackTimeline = .ok none ∧
      absences layeredLibrary ⟨[], []⟩ soundtrackTimeline =
        ["Asset not found: gone.mp3 (clip soundtrack)"] ∧
      ∃ cmd, soundtrackCommand = .ok cmd ∧ cmd.warnings = [] ∧
        ¬cmd.warnings.Perm (absences layeredLibrary ⟨[], []⟩ soundtrackTimeline) := by
  have expected : absences layeredLibrary ⟨[], []⟩ soundtrackTimeline =
      ["Asset not found: gone.mp3 (clip soundtrack)"] := by decide +kernel
  refine ⟨rfl, rfl, expected, ?_⟩
  have warnings := soundtrackCommand_warnings
  cases h : soundtrackCommand with
  | error e => simp [h, Except.map, Except.toOption] at warnings
  | ok cmd =>
    rw [h] at warnings
    have silent : cmd.warnings = [] := Option.some.inj warnings
    exact ⟨cmd, rfl, silent, by rw [silent, expected]; decide⟩

end Montage.Compiler
