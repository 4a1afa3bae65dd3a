import Montage.Proofs.Compiler.Numbering

/-!
# Compiled graphs are linear

`compile_linear`: every graph that compiling gives is a well-formed linear dataflow graph over
the inputs of its command, for all timelines, all lists of assets and all backgrounds.

The walk over the clips gives a flow from the picture of input 0 and the pictures of the layers
to the picture `final`, the mix a flow from the voices to the sound `aout` (`Assembly.flow`). The
labels on the way are fresh, hence different from one another and from all names of inputs
(`Assembly.produced_nodup`, `Assembly.not_isSource`), and the streams at the start are pairwise
different because each clip has an input of its own (`Assembly.streams_nodup`).
-/
namespace Montage.Compiler

open Montage.Graph

/-! ## The streams of the inputs -/

theorem unnumbered_of_mem_results {l : String} (h : l ∈ results) : Unnumbered l := by
  have : ∀ l ∈ results, Unnumbered l := by decide
  exact this l h

theorem unnumbered_of_isSource {l : String} (h : IsSource l) : Unnumbered l := by
  obtain ⟨k, rfl | rfl⟩ := h
  · exact unnumbered_of_getLast? (getLast?_pictureOf k) (by decide)
  · exact unnumbered_of_getLast? (getLast?_soundOf k) (by decide)

section

variable {assets : List Asset} {inputs : List Input} (h : inputsFrom 1 (found assets) = .ok inputs)
include h

theorem inputText_of_isFound {a : Asset} (ha : a ∈ assets) (hf : a.isFound = true) :
    ∃ k < inputs.length, a.inputIndex = some ((k + 1 : Nat) : Int) ∧
      inputText a.inputIndex = toString (k + 1) := by
  obtain ⟨p, hp⟩ := Option.isSome_iff_exists.1 hf
  obtain ⟨k, hindex, hinput⟩ := numbered_of_mem h ha hp
  exact ⟨k, (List.getElem?_eq_some_iff.1 hinput).1, hindex, by rw [hindex]; rfl⟩

theorem eq_pictureOf_of_mem_layers {items : List Item} {l : String}
    (hl : l ∈ layers assets items) : ∃ k < inputs.length, l = pictureOf (k + 1) := by
  obtain ⟨item, -, hitem⟩ := List.mem_filterMap.1 hl
  obtain ⟨a, ha, -, hf, rfl⟩ := layerOf_eq_some hitem
  obtain ⟨k, hk, -, htext⟩ := inputText_of_isFound h ha hf
  exact ⟨k, hk, by rw [htext]; rfl⟩

theorem eq_soundOf_of_mem_voiceLabels {t : Timeline} {total l : String}
    (hl : l ∈ voiceLabels (voicesOf t assets total)) :
    ∃ k < inputs.length, l = soundOf (k + 1) := by
  obtain ⟨v, hv, rfl⟩ := List.mem_map.1 hl
  obtain ⟨ha, hf⟩ := mem_voicesOf hv
  obtain ⟨k, hk, -, htext⟩ := inputText_of_isFound h ha hf
  exact ⟨k, hk, by rw [htext]; rfl⟩

/-- Two assets with one number in their labels are one asset. -/
theorem eq_of_inputText_eq {a b : Asset} (ha : a ∈ assets) (hb : b ∈ assets)
    (fa : a.isFound = true) (fb : b.isFound = true)
    (e : inputText a.inputIndex = inputText b.inputIndex) : a = b := by
  obtain ⟨j, -, hj, tj⟩ := inputText_of_isFound h ha fa
  obtain ⟨k, -, hk, tk⟩ := inputText_of_isFound h hb fb
  rw [tj, tk, toString_inj] at e
  exact eq_of_inputIndex_eq h ha hb fa fb (by rw [hj, hk, e])

/-- No two clips lay the picture of one input. -/
theorem layers_nodup {items : List Item} (hitems : (items.map (·.1)).Nodup) :
    (layers assets items).Nodup := by
  refine (List.pairwise_map.1 hitems).filterMap _ ?_
  intro item item' hne l hl l' hl' e
  obtain ⟨a, ha, hslot, fa, rfl⟩ := layerOf_eq_some hl
  obtain ⟨b, hb, hslot', fb, rfl⟩ := layerOf_eq_some hl'
  rw [String.append_left_inj] at e
  obtain rfl := eq_of_inputText_eq h ha hb fa fb e
  rw [hslot, Option.some.injEq] at hslot'
  exact hne hslot'

/-- No two voices are the sound of one input. -/
theorem voiceLabels_nodup (t : Timeline) (total : String) :
    (voiceLabels (voicesOf t assets total)).Nodup := by
  have slots := List.pairwise_map.1 (voicesOf_slots_nodup t assets total)
  refine List.pairwise_map.2 (slots.imp_of_mem ?_)
  intro v w hv hw hne e
  obtain ⟨hva, hvf⟩ := mem_voicesOf hv
  obtain ⟨hwa, hwf⟩ := mem_voicesOf hw
  rw [String.append_left_inj] at e
  exact hne (congrArg Asset.slot (eq_of_inputText_eq h hva hwa hvf hwf e))

end

/-! ## The parts of a command -/

namespace Assembly

variable {t : Timeline} {assets : List Asset} {background : Option Asset} {cmd : Command}
  (p : Assembly t assets background cmd)

/-- The clips that are drawn. -/
abbrev shown (t : Timeline) (assets : List Asset) : List Item := t.slots.filter (isShown assets)

/-- The streams that the graph starts from. -/
def streams : Multiset Stream :=
  {(pictureOf 0, .video)} + ↑((layers assets (shown t assets)).map (·, Medium.video)) +
    ↑((voiceLabels (voicesOf t assets p.total)).map (·, Medium.audio))

include p

theorem flow : StreamFlow p.streams cmd.graph.filters ↑resultStreams := by
  have picture : StreamFlow ({(pictureOf 0, .video)} +
      ↑((layers assets (shown t assets)).map (·, Medium.video)))
      (p.picture.nodes.flatMap Node.flatten) {(p.picture.current, .video)} := by
    rw [p.nodes_eq, List.flatMap_append]
    exact (p.started.chained.flow.frame _).trans p.painting.flow
  have both := (finish_flow picture).beside p.mixed.flow
  rw [p.graph_eq, Graph.filters, List.flatMap_append]
  exact both

theorem labels_streams : p.streams.map Prod.fst =
    ↑(pictureOf 0 :: layers assets (shown t assets) ++
      voiceLabels (voicesOf t assets p.total)) := by
  simp [streams, Function.comp_def]

theorem streams_nodup : (p.streams.map Prod.fst).Nodup := by
  rw [labels_streams, Multiset.coe_nodup, List.nodup_append', List.nodup_cons]
  have items : ((shown t assets).map (·.1)).Nodup :=
    (slots_nodup t).sublist (List.filter_sublist.map _)
  refine ⟨⟨?_, layers_nodup p.numbered items⟩, voiceLabels_nodup p.numbered t p.total, ?_⟩
  · intro h
    obtain ⟨k, -, e⟩ := eq_pictureOf_of_mem_layers p.numbered h
    cases pictureOf_inj e
  · intro l h h'
    obtain ⟨j, -, rfl⟩ := eq_soundOf_of_mem_voiceLabels p.numbered h'
    rcases List.mem_cons.1 h with e | h
    · exact pictureOf_ne_soundOf 0 (j + 1) e.symm
    · obtain ⟨k, -, e⟩ := eq_pictureOf_of_mem_layers p.numbered h
      exact pictureOf_ne_soundOf (k + 1) (j + 1) e.symm

theorem sources {s : Stream} (hs : s ∈ p.streams) :
    ∃ k < cmd.inputs.length, s.1 = pictureOf k ∨ s.1 = soundOf k := by
  have hl : s.1 ∈ p.streams.map Prod.fst := Multiset.mem_map_of_mem _ hs
  rw [labels_streams, Multiset.mem_coe, List.mem_append, List.mem_cons] at hl
  rw [p.inputs_eq, List.length_cons]
  rcases hl with (e | hl) | hl
  · exact ⟨0, by omega, Or.inl e⟩
  · obtain ⟨k, hk, e⟩ := eq_pictureOf_of_mem_layers p.numbered hl
    exact ⟨k + 1, by omega, Or.inl e⟩
  · obtain ⟨k, hk, e⟩ := eq_soundOf_of_mem_voiceLabels p.numbered hl
    exact ⟨k + 1, by omega, Or.inr e⟩

/-- All labels are fresh but for the two results. -/
theorem produced_eq : ∃ xs, Issues [] p.labels xs ∧
    (↑(produced cmd.graph.filters) : Multiset String) = xs + ↑results := by
  obtain ⟨xs, hle, hpicture⟩ := produced_finish p.picture
  obtain ⟨ys, hys, hsounds⟩ := p.mixed.labels
  refine ⟨xs + ys, (p.drawn.mono hle).trans hys, ?_⟩
  rw [p.graph_eq, Graph.filters, List.flatMap_append, produced_append, ← Multiset.coe_add,
    hpicture, hsounds, add_add_add_comm]
  rfl

theorem produced_nodup : (produced cmd.graph.filters).Nodup := by
  obtain ⟨xs, issues, e⟩ := p.produced_eq
  rw [← Multiset.coe_nodup, e, Multiset.nodup_add]
  refine ⟨issues.nodup, by decide, Multiset.disjoint_left.2 ?_⟩
  intro l hl hres
  exact issues.not_unnumbered hl (unnumbered_of_mem_results (Multiset.mem_coe.1 hres))

/-- No filter gives a stream the name of an input. -/
theorem not_isSource {l : String} (h : l ∈ produced cmd.graph.filters) : ¬ IsSource l := by
  obtain ⟨xs, issues, e⟩ := p.produced_eq
  rw [← Multiset.mem_coe, e, Multiset.mem_add] at h
  rcases h with h | h
  · exact fun hsrc => issues.not_unnumbered h (unnumbered_of_isSource hsrc)
  · exact not_isSource_of_mem_results (Multiset.mem_coe.1 h)

end Assembly

/-- **Linearity.** The graph of every compiled command, its filters in the order in which the
encoder is told of them, is a well-formed linear dataflow graph over the command's inputs. -/
theorem compile_linear {k : Compiler} {files : Files} {t : Timeline} {assets : List Asset}
    {outputPath : String} {output : OutputOptions} {background : Option Asset} {cmd : Command}
    (h : k.compile files t assets outputPath output background = .ok cmd) :
    Linear cmd.inputs.length cmd.graph.filters := by
  obtain ⟨p⟩ := compile_ok h
  refine linear_of_flow p.flow p.produced_nodup (fun _ => p.not_isSource) (fun _ => p.sources)
    p.streams_nodup ?_
  rw [p.labels_streams]
  exact Multiset.mem_coe.2 List.mem_cons_self

/-! ## A layered timeline -/

/-- A clip of half the size and half transparent. -/
def faded (content : Content) (start duration : Float) : Clip :=
  ⟨none, some start, duration, none, some 50, some 0.5, content, []⟩

/-- A blurred video with sound, an image whose file is missing, a box with a border and a text,
over a background and with a soundtrack. -/
def layeredTimeline : Timeline where
  duration := none
  frameRate := none
  resolution := none
  background := some ⟨none, some (some "/sky.png"), []⟩
  tracks := some [
    ⟨none, some [
      faded (.video ⟨"/walk.mp4", none, none, some (some .blur), none⟩ (some 0.5)) 1 2,
      faded (.image ⟨"/gone.png", none, none, none, none⟩) 0 4], []⟩,
    ⟨none, some [
      faded (.shape (some ⟨none, none, none, none, some (some "white"), none, []⟩)) 0 3,
      faded (.text "it's late" none) 0.25 5], []⟩]
  soundtrack := some (some ⟨"/song.mp3", none, []⟩)
  extra := []
  canvas := ⟨1920, 1080, 30⟩

def layeredAssets : List Asset := [
  { ref := "tracks[0].clips[0]", source := "/walk.mp4", path := some "/walk.mp4",
    kind := .video, inputIndex := some 1, hasAudio := true, slot := some (0, 0) },
  { ref := "tracks[0].clips[1]", source := "/gone.png", path := none, kind := .image,
    slot := some (0, 1) },
  { ref := "soundtrack", source := "/song.mp3", path := some "/song.mp3", kind := .audio,
    inputIndex := some 2, hasAudio := true }]

def layeredBackground : Asset :=
  { ref := "background", source := "/sky.png", path := some "/sky.png", kind := .image,
    inputIndex := some 0 }

/-- The files of the timeline that are there. -/
def layeredFiles : Files := ⟨[(["walk.mp4"], {}), (["song.mp3"], {}), (["sky.png"], {})], []⟩

def layeredCommand : Except Failure Command :=
  (make .standard none none).compile layeredFiles layeredTimeline layeredAssets "/out.mp4"
    ⟨.mp4, .high⟩ (some layeredBackground)

theorem found_layeredAssets :
    found layeredAssets = layeredAssets.filterMap fun a => a.path.map fun p => (a, p) :=
  List.mergeSort_of_pairwise (by decide +kernel)

theorem layeredCommand_isOk : layeredCommand.isOk = true := by
  unfold layeredCommand compile build
  rw [found_layeredAssets]
  decide +kernel

theorem layeredCommand_ok : ∃ cmd, layeredCommand = .ok cmd := by
  cases h : layeredCommand with
  | error e => exact absurd layeredCommand_isOk (by simp [h, Except.isOk, Except.toBool])
  | ok cmd => exact ⟨cmd, rfl⟩

theorem compile_linear_layered :
    ∃ cmd, layeredCommand = .ok cmd ∧ Linear cmd.inputs.length cmd.graph.filters := by
  cases h : layeredCommand with
  | error e => exact absurd layeredCommand_isOk (by simp [h, Except.isOk, Except.toBool])
  | ok cmd => exact ⟨cmd, rfl, compile_linear h⟩

end Montage.Compiler
