import Montage.Proofs.Compiler.Agreement
import Montage.Proofs.Timeline.Names
import Montage.Proofs.Timeline.Ranges

/-!
# The nodes that a name finds

`Command.nodesFor` finds the nodes of a clip by its name. Names are enough for that where they
differ: `nodesFor_own` says that each node found was made for the clip that is asked for, be it
to draw it or to play it. Two names are given to other parts as well, so a clip of such a name
finds the background's picture or the soundtrack too. `accept_refs_nodup_iff` puts this together
with what the check makes sure of (`refs_nodup`).
-/
namespace Montage.Compiler

open Montage.Graph

/-- Each node that a clip's name finds was made for the clip, or for the background or the
soundtrack if the name is theirs. The nodes that draw and play clips stand in the order of the
clips that they are for. -/
def NodesOwned (l : Library) (files : Files) (t : Timeline) (assets : List Asset)
    (cmd : Command) : Prop :=
  ∃ (input : Nat × Nat → Nat) (base pictures voices track mixers : List Node),
    cmd.graph = base ++ pictures ++ (voices ++ track ++ mixers) ∧
    List.Forall₂ (Draws l files cmd input) (t.slots.filter (isDrawn l files)) pictures ∧
    List.Forall₂ (Plays l files cmd input) (t.slots.filter (isHeard assets)) voices ∧
    ∀ item ∈ t.slots, ∀ n ∈ cmd.nodesFor (Clip.ref item.1.1 item.1.2 (some item.2)),
      (item, n) ∈ (t.slots.filter (isDrawn l files)).zip pictures ∨
      (item, n) ∈ (t.slots.filter (isHeard assets)).zip voices ∨
      Clip.ref item.1.1 item.1.2 (some item.2) = Library.backgroundRef ∧ n ∈ base ∨
      Clip.ref item.1.1 item.1.2 (some item.2) = Library.soundtrackRef ∧ n ∈ track

variable {l : Library} {files : Files} {t : Timeline} {assets : List Asset}
  {background : Option Asset} {cmd : Command}

theorem ref_background {a : Asset} (h : l.background files t = .ok (some a)) :
    a.ref = Library.backgroundRef := by
  unfold Library.background at h
  split at h
  · cases h
  · split at h
    · cases h
    · obtain ⟨b, hb, h⟩ := except_bind_ok.1 h
      have named : b.ref = Library.backgroundRef := congrArg Asset.ref (Library.asset_ok hb)
      cases h
      rw [← named]
      split <;> rfl

/-- Where the names of the clips differ, a name finds the nodes of its own clip only. -/
theorem nodesFor_own (hassets : l.assets files t = .ok assets)
    (hbackground : l.background files t = .ok background) (p : Assembly t assets background cmd)
    (distinct : t.refs.Nodup) : NodesOwned l files t assets cmd := by
  obtain ⟨base, pictures, hfinish, -, hbase, drawn⟩ := pictures_wired hassets p
  obtain ⟨voices, track, mixers, hsounds, plays, -, htrack, hmixers⟩ := sounds_wired hassets p
  have graph : cmd.graph = base ++ pictures ++ (voices ++ track ++ mixers) := by
    rw [p.graph_eq, hfinish, hsounds]
  have inj := (List.nodup_map_iff_inj_on (slots_nodup t).of_map).1 distinct
  refine ⟨inputAt assets, base, pictures, voices, track, mixers, graph, drawn, plays, ?_⟩
  intro item hitem n hn
  rw [Command.nodesFor, List.mem_filter, beq_iff_eq, graph] at hn
  obtain ⟨hn, named⟩ := hn
  simp only [List.mem_append] at hn
  rcases hn with (hn | hn) | (hn | hn) | hn
  · rcases hbase n hn with none | some
    · cases none.symm.trans named
    · rw [named] at some
      obtain ⟨a, rfl, ha⟩ := Option.map_eq_some_iff.1 some.symm
      exact .inr (.inr (.inl ⟨ha.symm.trans (ref_background hbackground), hn⟩))
  · obtain ⟨other, hother, pair, draws⟩ := forall₂_right drawn hn
    have same := inj other (List.mem_of_mem_filter hother) item hitem
      (Option.some.inj (draws.1.symm.trans named))
    exact .inl (same ▸ pair)
  · obtain ⟨other, hother, pair, plays⟩ := forall₂_right plays hn
    have same := inj other (List.mem_of_mem_filter hother) item hitem
      (Option.some.inj (plays.1.symm.trans named))
    exact .inr (.inl (same ▸ pair))
  · exact .inr (.inr (.inr ⟨Option.some.inj (named.symm.trans (htrack n hn)), hn⟩))
  · cases (hmixers n hn).symm.trans named

/-- What the check makes sure of: in a timeline that is accepted the names of the clips differ
unless two clips have the id `0` or one has the place of a nameless clip for its id; and where
they differ, every command for the timeline knows the nodes of a clip by its name. -/
theorem accept_refs_nodup_iff {canvas : Except (List Mismatch) Canvas} {v : Json} {t : Timeline}
    (h : Timeline.accept canvas v = .ok t) :
    (t.refs.Nodup ↔ t.Unambiguous) ∧
      (t.refs.Nodup → ∀ (l : Library) (files : Files) (assets : List Asset)
        (background : Option Asset) (k : Compiler) (outputPath : String) (output : OutputOptions)
        (cmd : Command), l.assets files t = .ok assets → l.background files t = .ok background →
        k.compile files t assets outputPath output background = .ok cmd →
        NodesOwned l files t assets cmd) := by
  obtain ⟨_, _, -, accepted, -⟩ := accept_ok h
  refine ⟨refs_nodup accepted, fun distinct l files assets background k outputPath output cmd
    hassets hbackground hcmd => ?_⟩
  obtain ⟨p⟩ := compile_ok hcmd
  exact nodesFor_own hassets hbackground p distinct

/-- A timeline of two titles with the ids that are given. -/
def twoTitlesDocument (first second : Json) : Json :=
  .object [("tracks", .array [.object [("clips", .array [
    .object [("type", .string "text"), ("text", .string "A"), ("duration", .float 5),
      ("id", first)],
    .object [("type", .string "text"), ("text", .string "B"), ("duration", .float 5),
      ("id", second)]])]])]

/-- The timeline that is read from `twoTitlesDocument`. -/
def twoTitlesTimeline (first second : String) : Timeline where
  duration := none
  frameRate := none
  resolution := none
  background := none
  tracks := some [{
    id := none
    clips := some [
      { id := some (some first), start := none, duration := 5, position := none, opacity := none,
        scale := none, content := .text "A" none, extra := [] },
      { id := some (some second), start := none, duration := 5, position := none, opacity := none,
        scale := none, content := .text "B" none, extra := [] }]
    extra := [] }]
  soundtrack := none
  extra := []
  canvas := fullCanvas

/-- The command for two titles of different names; no file is there. -/
def titlesCommand : Except Failure Command :=
  (make .standard none none).compile ⟨[], []⟩ (twoTitlesTimeline "a" "b") [] "/out.mp4"
    ⟨.mp4, .high⟩ none

theorem titlesCommand_isOk : titlesCommand.isOk = true := by
  unfold titlesCommand compile build
  rw [show found [] = [] from List.mergeSort_nil]
  decide +kernel

theorem accept_named_titles :
    Timeline.accept (.ok fullCanvas) (twoTitlesDocument (.string "a") (.string "b")) =
        .ok (twoTitlesTimeline "a" "b") ∧
      (twoTitlesTimeline "a" "b").Unambiguous ∧
      ∃ cmd, titlesCommand = .ok cmd ∧
        NodesOwned layeredLibrary ⟨[], []⟩ (twoTitlesTimeline "a" "b") [] cmd := by
  have accepted : Timeline.accept (.ok fullCanvas)
    (twoTitlesDocument (.string "a") (.string "b")) = .ok (twoTitlesTimeline "a" "b") := rfl
  have distinct : (twoTitlesTimeline "a" "b").refs.Nodup := by decide
  obtain ⟨unambiguous, own⟩ := accept_refs_nodup_iff accepted
  refine ⟨accepted, unambiguous.1 distinct, ?_⟩
  cases h : titlesCommand with
  | error e => exact absurd titlesCommand_isOk (by simp [h, Except.isOk, Except.toBool])
  | ok cmd =>
    exact ⟨cmd, rfl, own distinct layeredLibrary ⟨[], []⟩ [] none (make .standard none none)
      "/out.mp4" ⟨.mp4, .high⟩ cmd rfl rfl h⟩

/-- The number zero is no id for the check, but both clips are read with the id `0`. -/
theorem accept_zero_titles :
    Timeline.accept (.ok fullCanvas) (twoTitlesDocument (.int 0) (.int 0)) =
        .ok (twoTitlesTimeline "0" "0") ∧
      ¬(twoTitlesTimeline "0" "0").refs.Nodup := ⟨rfl, by decide⟩

end Montage.Compiler
