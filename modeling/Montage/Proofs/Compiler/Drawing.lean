import Montage.Proofs.Compiler.Steps
import Montage.Proofs.Graph.Nodes

/-!
# What compiling draws

Compiling walks over the clips in order and draws those that are to be seen, one node each, onto
the picture drawn so far. Here the walk is read as data: `Painting` says which clips were drawn
(`isShown`), by which nodes, and how each node takes the picture of the one before it and, for an
image or a video, the picture of its own input (`Painted`). `drawClip_ok` is the step,
`drawClips_ok` the walk.

`mix_ok` and `silence_ok` do the same for the voices, `finish_flow` for the last label, and
`compile_ok` puts all of it together: what is known of a command that was compiled.
-/
namespace Montage.Compiler

open Montage.Graph

/-- A clip in its slot. -/
abbrev Item := (Nat × Nat) × Clip

/-- The picture that a clip lays over what is drawn so far: that of its file's input. -/
def layerOf (assets : List Asset) (item : Item) : Option String :=
  match item.2.content.media?, assetAt assets item.1 with
  | some _, some a => if a.isFound then some (inputText a.inputIndex ++ ":v") else none
  | _, _ => none

/-- Whether a clip is drawn: texts and shapes are, images and videos if their file is there. -/
def isShown (assets : List Asset) (item : Item) : Bool :=
  match item.2.content with
  | .background .. => false
  | .text .. | .shape .. => true
  | .image _ | .video .. => (assetAt assets item.1).any (·.isFound)

/-- The node that draws a clip on the picture `current`. -/
def Painted (assets : List Asset) (item : Item) (current : String) (n : Node) : Prop :=
  n.filter.ref = some (Clip.ref item.1.1 item.1.2 (some item.2)) ∧
  match layerOf assets item with
  | none => Linked .video current [] n
  | some source => n.filter.operation = "overlay" ∧ Linked .video source [current] n

/-- The nodes that draw some clips one after another, from the picture `first` to the picture
`last`. -/
def Painting (assets : List Asset) :
    (first : String) → List Item → List Node → (last : String) → Prop
  | first, [], [], last => first = last
  | first, item :: items, n :: ns, last =>
    Painted assets item first n ∧ Painting assets n.filter.output items ns last
  | _, _, _, _ => False

/-! ## One clip -/

theorem draw_ok {v v' : Picture} {node : String → String → Build Node} {output : String}
    {ls ls' : Labels} (h : (draw v node output).run ls = .ok (v', ls')) :
    ∃ n, (node v.current output).run ls = .ok (n, ls') ∧
      v' = { v with current := output, nodes := v.nodes ++ [n] } := by
  simp only [draw, run_bind_ok, run_pure_ok] at h
  obtain ⟨n, _, hn, rfl, rfl⟩ := h
  exact ⟨n, hn, rfl⟩

/-- A clip that is not drawn leaves the picture as it is; one that is drawn adds one node. -/
def Drew (assets : List Asset) (item : Item) (v v' : Picture) (ls ls' : Labels) : Prop :=
  (isShown assets item = false ∧ v'.current = v.current ∧ v'.nodes = v.nodes ∧ Issues ls ls' 0) ∨
  (isShown assets item = true ∧ ∃ n, Painted assets item v.current n ∧
    v'.current = n.filter.output ∧ v'.nodes = v.nodes ++ [n] ∧
    Issues ls ls' ↑(produced n.flatten))

theorem drew_of_built {assets : List Asset} {item : Item} {v v' : Picture} {n : Node}
    {first output : String} {others : List String} {ls ls' : Labels}
    (shown : isShown assets item = true) (built : Built .video first others output ls ls' n)
    (painted : Painted assets item v.current n) (hc : v'.current = output)
    (hn : v'.nodes = v.nodes ++ [n]) {stem : String} (hs : Unnumbered stem) {l : Labels}
    (ho : nextLabel stem l = output) (hl : stem :: l = ls) : Drew assets item v v' l ls' := by
  refine Or.inr ⟨shown, n, painted, by rw [hc, built.output], hn, ?_⟩
  subst hl ho
  have := (Issues.next hs l).trans built.labels
  rw [Node.flatten_eq, produced_append, ← Multiset.coe_add, add_comm]
  simpa [produced, built.output] using this

theorem drawClip_ok {t : Timeline} {files : Files} {assets : List Asset} {v v' : Picture}
    {item : Item} {ls ls' : Labels}
    (h : (drawClip t files assets v item).run ls = .ok (v', ls')) :
    Drew assets item v v' ls ls' := by
  obtain ⟨slot, c⟩ := item
  cases hc : c.content with
  | background color source =>
    simp only [drawClip, hc, run_pure_ok] at h
    obtain ⟨rfl, rfl⟩ := h
    exact Or.inl ⟨by simp [isShown, hc], rfl, rfl, Issues.refl ls⟩
  | text text style =>
    simp only [drawClip, hc, run_bind_ok, run_fresh_ok] at h
    obtain ⟨_, _, ⟨rfl, rfl⟩, h⟩ := h
    obtain ⟨n, hn, rfl⟩ := draw_ok h
    obtain ⟨href, built⟩ := textNode_ok hn
    exact drew_of_built (by simp [isShown, hc]) built
      ⟨href, by simpa [layerOf, hc, Content.media?] using built.linked⟩ rfl rfl
      (by decide : Unnumbered "stream") rfl rfl
  | shape shape =>
    simp only [drawClip, hc, run_bind_ok, run_fresh_ok] at h
    obtain ⟨_, _, ⟨rfl, rfl⟩, h⟩ := h
    obtain ⟨n, hn, rfl⟩ := draw_ok h
    obtain ⟨href, built⟩ := shapeNode_ok hn
    exact drew_of_built (by simp [isShown, hc]) built
      ⟨href, by simpa [layerOf, hc, Content.media?] using built.linked⟩ rfl rfl
      (by decide : Unnumbered "stream") rfl rfl
  | image m | video m volume =>
    simp only [drawClip, hc, run_bind_ok, run_fresh_ok] at h
    obtain ⟨_, _, ⟨rfl, rfl⟩, h⟩ := h
    have dropped := (Issues.next (by decide : Unnumbered "stream") ls).mono (Multiset.zero_le _)
    split at h
    · rename_i a ha
      split at h
      · rename_i hfound
        obtain ⟨n, hn, rfl⟩ := draw_ok h
        obtain ⟨href, hop, built⟩ := mediaNode_ok hn
        exact drew_of_built (by simp [isShown, hc, ha, hfound]) built
          ⟨href, by simpa [layerOf, hc, Content.media?, ha, hfound] using ⟨hop, built.linked⟩⟩
          rfl rfl (by decide : Unnumbered "stream") rfl rfl
      · rename_i hfound
        simp only [run_pure_ok] at h
        obtain ⟨rfl, rfl⟩ := h
        exact Or.inl ⟨by simp [isShown, hc, ha, hfound], rfl, rfl, dropped⟩
    · rename_i ha
      simp only [run_pure_ok] at h
      obtain ⟨rfl, rfl⟩ := h
      exact Or.inl ⟨by simp [isShown, hc, ha], rfl, rfl, dropped⟩

/-! ## All clips -/

theorem drawClips_ok {t : Timeline} {files : Files} {assets : List Asset} {items : List Item}
    {v v' : Picture} {ls ls' : Labels}
    (h : (items.foldlM (drawClip t files assets) v).run ls = .ok (v', ls')) :
    ∃ ns, v'.nodes = v.nodes ++ ns ∧
      Painting assets v.current (items.filter (isShown assets)) ns v'.current ∧
      Issues ls ls' ↑(produced (ns.flatMap Node.flatten)) := by
  induction items generalizing v ls with
  | nil =>
    simp only [List.foldlM_nil, run_pure_ok] at h
    obtain ⟨rfl, rfl⟩ := h
    exact ⟨[], by simp, rfl, by simpa [produced] using Issues.refl ls⟩
  | cons item items ih =>
    simp only [List.foldlM_cons, run_bind_ok] at h
    obtain ⟨v₁, l, hstep, h⟩ := h
    obtain ⟨ns, hnodes, painting, labels⟩ := ih h
    rcases drawClip_ok hstep with
      ⟨hshown, hcur, hn, issued⟩ | ⟨hshown, n, painted, hcur, hn, issued⟩
    · rw [hcur] at painting
      rw [hn] at hnodes
      refine ⟨ns, hnodes, by simpa [hshown] using painting, ?_⟩
      simpa using issued.trans labels
    · rw [hcur] at painting
      refine ⟨n :: ns, by simp [hnodes, hn], ?_, ?_⟩
      · simpa [hshown, Painting] using ⟨painted, painting⟩
      · have := issued.trans labels
        rwa [Multiset.coe_add, ← produced_append] at this

/-- The pictures that some clips take from their inputs. -/
def layers (assets : List Asset) (items : List Item) : List String :=
  items.filterMap (layerOf assets)

/-- Drawing takes the picture it starts from and the pictures of the inputs, and gives one
picture. -/
theorem Painting.flow {assets : List Asset} {items : List Item} {ns : List Node}
    {first last : String} (h : Painting assets first items ns last) :
    StreamFlow ({(first, .video)} + ↑((layers assets items).map (·, Medium.video)))
      (ns.flatMap Node.flatten) {(last, .video)} := by
  induction items generalizing first ns with
  | nil =>
    cases ns with
    | nil => cases h; simp [layers, StreamFlow]
    | cons n ns => cases h
  | cons item items ih =>
    cases ns with
    | nil => cases h
    | cons n ns =>
      obtain ⟨⟨-, painted⟩, h⟩ := h
      have rest := ih h
      rw [List.flatMap_cons]
      cases hl : layerOf assets item with
      | none =>
        rw [hl] at painted
        have step := painted.flow.frame ↑((layers assets items).map (·, Medium.video))
        simp only [List.map_nil, Multiset.coe_nil, add_zero] at step
        simpa [layers, hl] using step.trans rest
      | some source =>
        rw [hl] at painted
        have step := painted.2.flow.frame ↑((layers assets items).map (·, Medium.video))
        have streams : layers assets (item :: items) = source :: layers assets items := by
          simp [layers, hl]
        rw [streams, List.map_cons, ← Multiset.cons_coe, ← Multiset.singleton_add, ← add_assoc,
          add_comm {(first, Medium.video)}]
        simp only [List.map_cons, List.map_nil, Multiset.coe_singleton] at step
        exact step.trans rest

/-! ## The first picture and the last -/

/-- What is known of input 0 and of the picture that drawing starts from: it is that of the
background's file if there is one, and is scaled at most. -/
structure Based (background : Option Asset) (input : Input) (v : Picture) (ls ls' : Labels) :
    Prop where
  path : ∀ p, background.bind (·.path) = some p → input.path = p
  options : "-i" ∉ input.options
  /-- the options tell whether the input is the background's file -/
  shape : match background.bind (·.path) with
    | some _ => input.options = ["-loop", "1"] ∨ input.options = ["-stream_loop", "-1"]
    | none => input.options = ["-f", "lavfi"]
  chained : Chained .video (pictureOf 0) v.nodes v.current
  length_le : v.nodes.length ≤ 1
  labels : Issues ls ls' ↑(produced (v.nodes.flatMap Node.flatten))
  refs : ∀ n ∈ v.nodes, n.filter.ref = background.map (·.ref)

theorem not_mem_backgroundOptions (a : Asset) : "-i" ∉ backgroundOptions a := by
  unfold backgroundOptions
  split <;> decide

theorem colorInput_ok {t : Timeline} {duration : Number} {input : Input}
    (h : colorInput t duration = .ok input) : input.options = ["-f", "lavfi"] := by
  unfold colorInput at h
  obtain ⟨_, -, h⟩ := except_bind_ok.1 h
  cases h
  rfl

theorem base_ok {t : Timeline} {background : Option Asset} {duration : Number} {input : Input}
    {v : Picture} {ls ls' : Labels}
    (h : (base t background duration).run ls = .ok ((input, v), ls')) :
    Based background input v ls ls' := by
  unfold base at h
  split at h
  · rename_i a path hbackground
    simp only [run_bind_ok, run_fresh_ok, run_pure_ok] at h
    obtain ⟨_, _, ⟨rfl, rfl⟩, hv, rfl⟩ := h
    simp only [Prod.mk.injEq] at hv
    obtain ⟨rfl, rfl⟩ := hv
    obtain ⟨b, rfl, hb⟩ := Option.bind_eq_some_iff.1 hbackground
    obtain ⟨q, hq, e⟩ := Option.map_eq_some_iff.1 hb
    simp only [Prod.mk.injEq] at e
    obtain ⟨rfl, rfl⟩ := e
    refine ⟨fun p hp => by simpa [hq] using hp, not_mem_backgroundOptions b, ?_,
      ⟨rfl, rfl, rfl, rfl⟩, Nat.le_refl 1, Issues.next (by decide : Unnumbered "bg") ls,
      by rintro n hn; rw [List.mem_singleton.1 hn]; rfl⟩
    rw [Option.bind_some, hq]
    dsimp only [backgroundOptions]
    split <;> simp
  · rename_i hnone
    simp only [run_bind_ok, run_attempt_ok, run_pure_ok] at h
    obtain ⟨_, _, ⟨hcolor, rfl⟩, hv, rfl⟩ := h
    simp only [Prod.mk.injEq] at hv
    obtain ⟨rfl, rfl⟩ := hv
    have nofile : background.bind (·.path) = none := by
      cases background with
      | none => rfl
      | some a => simpa using hnone
    refine ⟨fun p hp => (by cases nofile.symm.trans hp), by rw [colorInput_ok hcolor]; decide,
      ?_, rfl, Nat.zero_le 1, Issues.refl ls, by simp⟩
    rw [nofile]
    exact colorInput_ok hcolor

/-- The last filter may give its stream another label. -/
theorem flow_relabel {A : Multiset Stream} {fs : List Filter} {f : Filter} {l : String}
    {m : Medium} (h : StreamFlow A (fs ++ [f]) {(l, m)}) (label : String) :
    StreamFlow A (fs ++ [{ f with output := label }]) {(label, m)} := by
  obtain ⟨B, hfs, rest, rfl, hlast⟩ := StreamFlow.append.1 h
  obtain ⟨hgiven, rfl⟩ := (Multiset.singleton_eq_cons_iff _).1 (Eq.symm hlast)
  simp only [given, Prod.mk.injEq] at hgiven
  exact hfs.trans ⟨0, rfl, by simp [StreamFlow, given, hgiven.2]⟩

theorem flatten_relabel (n : Node) (label : String) :
    (n.relabel label).flatten =
      n.prelude.flatMap Node.flatten ++ [{ n.filter with output := label }] := by
  cases n
  rw [Node.flatten_eq]
  rfl

theorem finish_flow {A : Multiset Stream} {v : Picture}
    (h : StreamFlow A (v.nodes.flatMap Node.flatten) {(v.current, .video)}) :
    StreamFlow A ((finish v).flatMap Node.flatten) {(finalLabel, .video)} := by
  unfold finish
  split
  · rename_i last hlast
    rw [← List.dropLast_append_getLast? last hlast, List.flatMap_append, List.flatMap_singleton,
      Node.flatten_eq, ← List.append_assoc] at h
    rw [List.flatMap_append, List.flatMap_singleton, flatten_relabel, ← List.append_assoc]
    exact flow_relabel h finalLabel
  · rename_i hnone
    rw [List.getLast?_eq_none_iff.1 hnone] at h
    have : A = {(v.current, Medium.video)} := h
    subst this
    exact StreamFlow.single ⟨"null", [], [v.current], finalLabel, .video, none⟩

/-- Naming the last stream drops one label and adds another. -/
theorem produced_finish (v : Picture) :
    ∃ xs ≤ (↑(produced (v.nodes.flatMap Node.flatten)) : Multiset String),
      (↑(produced ((finish v).flatMap Node.flatten)) : Multiset String) = xs + {finalLabel} := by
  unfold finish
  split
  · rename_i last hlast
    refine ⟨↑(produced (v.nodes.dropLast.flatMap Node.flatten ++
      last.prelude.flatMap Node.flatten)), ?_, ?_⟩
    · conv_rhs => rw [← List.dropLast_append_getLast? last hlast]
      rw [List.flatMap_append, List.flatMap_singleton, Node.flatten_eq last, ← List.append_assoc,
        produced_append _ [last.filter], ← Multiset.coe_add]
      exact Multiset.le_add_right _ _
    · rw [List.flatMap_append, List.flatMap_singleton, flatten_relabel, ← List.append_assoc,
        produced_append _ [_], ← Multiset.coe_add]
      rfl
  · exact ⟨0, Multiset.zero_le _, rfl⟩

/-! ## Voices -/

/-- The node of a voice, fed by the sound of the voice's input. -/
def Voiced (v : Voice) (n : Node) : Prop :=
  n.filter.ref = some v.asset.ref ∧ n.filter.operation = "adelay" ∧
    Linked .audio (inputText v.asset.inputIndex ++ ":a") [] n

/-- The sounds that some voices take from their inputs. -/
def voiceLabels (voices : List Voice) : List String :=
  voices.map fun v => inputText v.asset.inputIndex ++ ":a"

theorem voiceNodes_ok {voices : List Voice} {ns : List Node} {ls ls' : Labels}
    (h : (voices.mapM voiceNode).run ls = .ok (ns, ls')) :
    List.Forall₂ Voiced voices ns ∧ Issues ls ls' ↑(produced (ns.flatMap Node.flatten)) := by
  induction voices generalizing ns ls with
  | nil =>
    simp only [List.mapM_nil, run_pure_ok] at h
    obtain ⟨rfl, rfl⟩ := h
    exact ⟨.nil, Issues.refl ls⟩
  | cons v voices ih =>
    simp only [List.mapM_cons, run_bind_ok, run_pure_ok] at h
    obtain ⟨n, _, hn, rest, _, hrest, rfl, rfl⟩ := h
    obtain ⟨href, hop, linked, issued⟩ := voiceNode_ok hn
    obtain ⟨voiced, labels⟩ := ih hrest
    refine ⟨.cons ⟨href, hop, linked⟩ voiced, ?_⟩
    have := issued.trans labels
    rwa [Multiset.coe_add, ← produced_append] at this

/-- Each voice turns the sound of its input into a stream of its own. -/
theorem voices_flow {voices : List Voice} {ns : List Node} (h : List.Forall₂ Voiced voices ns) :
    StreamFlow ↑((voiceLabels voices).map (·, Medium.audio)) (ns.flatMap Node.flatten)
      ↑(ns.map fun n => (n.filter.output, Medium.audio)) := by
  induction h with
  | nil => rfl
  | cons hn _ ih =>
    have := hn.2.2.flow.beside ih
    simp only [List.map_nil, Multiset.coe_nil, add_zero] at this
    exact this

/-- What is known of the nodes that mix some voices. -/
structure Mixed (voices : List Voice) (ls ls' : Labels) (ns : List Node) : Prop where
  voiced : ∃ vs rest, ns = vs ++ rest ∧ List.Forall₂ Voiced voices vs ∧
    ∀ n ∈ rest, n.filter.ref = none
  flow : StreamFlow ↑((voiceLabels voices).map (·, Medium.audio)) (ns.flatMap Node.flatten)
    {(soundLabel, .audio)}
  labels : ∃ xs, Issues ls ls' xs ∧
    (↑(produced (ns.flatMap Node.flatten)) : Multiset String) = xs + {soundLabel}

theorem silence_ok {rate : Number} {total : String} {ns : List Node} {ls ls' : Labels}
    (h : (silence rate total).run ls = .ok (ns, ls')) : Mixed [] ls ls' ns := by
  simp only [silence, run_bind_ok, run_fresh_ok, run_pure_ok] at h
  obtain ⟨_, _, ⟨rfl, rfl⟩, rfl, rfl⟩ := h
  refine ⟨⟨[], _, rfl, .nil, by simp [Node.filter]⟩, ⟨0, rfl, 0, ?_, rfl⟩, _,
    Issues.next (by decide : Unnumbered "silence") ls, rfl⟩
  simp [given, taken]

theorem mix_ok {voices : List Voice} {total : String} {ns : List Node} {ls ls' : Labels}
    (h : (mix voices total).run ls = .ok (ns, ls')) : Mixed voices ls ls' ns := by
  simp only [mix, run_bind_ok, run_fresh_ok, run_pure_ok] at h
  obtain ⟨vs, l, hvs, _, _, ⟨rfl, rfl⟩, rfl, rfl⟩ := h
  obtain ⟨voiced, labels⟩ := voiceNodes_ok hvs
  refine ⟨⟨vs, _, rfl, voiced, by simp [Node.single, Node.filter]⟩, ?_, _,
    labels.trans (Issues.next (by decide : Unnumbered "amix") l), ?_⟩
  · rw [List.flatMap_append]
    refine (voices_flow voiced).trans ⟨0, ?_, 0, ?_, rfl⟩
    · simp [taken, Function.comp_def]
    · simp [given, taken]
  · rw [List.flatMap_append, produced_append, ← Multiset.coe_add, add_assoc]
    rfl

theorem soundNodes_ok {t : Timeline} {at? : Nat × Nat → Option Asset} {soundtrack : Option Asset}
    {total : String} {rate : Number} {ns : List Node} {ls ls' : Labels}
    (h : (soundNodes t at? soundtrack total rate).run ls = .ok (ns, ls')) :
    Mixed (videoVoices t at? ++ (trackVoice t soundtrack total).toList) ls ls' ns := by
  unfold soundNodes at h
  split at h
  · rename_i hnone
    rw [hnone]
    exact silence_ok h
  · exact mix_ok h

/-! ## The whole command -/

/-- All voices of a timeline: those of its videos, then that of its soundtrack. -/
def voicesOf (t : Timeline) (assets : List Asset) (total : String) : List Voice :=
  videoVoices t (assetAt assets) ++ (trackVoice t (assets.find? (·.isSoundtrack)) total).toList

/-- The parts of a command that was compiled from a timeline: its inputs, the picture that drawing
starts from, the picture with all clips, and the nodes of the sound. -/
structure Assembly (t : Timeline) (assets : List Asset) (background : Option Asset)
    (cmd : Command) where
  input : Input
  inputs : List Input
  start : Picture
  picture : Picture
  painted : List Node
  total : String
  sounds : List Node
  baseLabels : Labels
  drawnLabels : Labels
  labels : Labels
  inputs_eq : cmd.inputs = input :: inputs
  numbered : inputsFrom 1 (found assets) = .ok inputs
  graph_eq : cmd.graph = finish picture ++ sounds
  nodes_eq : picture.nodes = start.nodes ++ painted
  started : Based background input start [] baseLabels
  painting : Painting assets start.current (t.slots.filter (isShown assets)) painted
    picture.current
  drawn : Issues [] drawnLabels ↑(produced (picture.nodes.flatMap Node.flatten))
  mixed : Mixed (voicesOf t assets total) drawnLabels labels sounds

theorem compile_ok {k : Compiler} {files : Files} {t : Timeline} {assets : List Asset}
    {outputPath : String} {output : OutputOptions} {background : Option Asset} {cmd : Command}
    (h : k.compile files t assets outputPath output background = .ok cmd) :
    Nonempty (Assembly t assets background cmd) := by
  obtain ⟨s⟩ := compile_steps h
  have started := base_ok s.based
  obtain ⟨painted, hnodes, painting, later⟩ := drawClips_ok s.drawn
  have drawn := started.labels.trans later
  rw [Multiset.coe_add, ← produced_append, ← List.flatMap_append, ← hnodes] at drawn
  exact ⟨{
    input := s.input, inputs := s.inputs, start := s.start, picture := s.picture, painted
    total := s.total, sounds := s.sounds, baseLabels := s.baseLabels
    drawnLabels := s.drawnLabels, labels := s.labels
    inputs_eq := s.inputs_eq, numbered := s.numbered, graph_eq := s.graph_eq
    nodes_eq := hnodes
    started, painting, drawn
    mixed := soundNodes_ok s.mixed }⟩

/-- A command writes to the path that it was compiled for. -/
theorem outputPath_compiled {k : Compiler} {files : Files} {t : Timeline} {assets : List Asset}
    {outputPath : String} {output : OutputOptions} {background : Option Asset} {cmd : Command}
    (h : k.compile files t assets outputPath output background = .ok cmd) :
    cmd.outputPath = outputPath := by
  obtain ⟨s⟩ := compile_steps h
  exact s.outputPath_eq

/-! ## Picture and sound of a command -/

theorem Chained.media {m : Medium} {first last : String} {ns : List Node}
    (h : Chained m first ns last) : ∀ n ∈ ns, n.filter.media = m := by
  induction ns generalizing first with
  | nil => simp
  | cons n ns ih =>
    obtain ⟨-, -, hm, rest⟩ := h
    exact List.forall_mem_cons.2 ⟨hm, ih rest⟩

theorem Painting.media {assets : List Asset} {items : List Item} {ns : List Node}
    {first last : String} (h : Painting assets first items ns last) :
    ∀ n ∈ ns, n.filter.media = .video := by
  induction items generalizing first ns with
  | nil =>
    cases ns with
    | nil => simp
    | cons n ns => cases h
  | cons item items ih =>
    cases ns with
    | nil => cases h
    | cons n ns =>
      obtain ⟨⟨-, painted⟩, rest⟩ := h
      refine List.forall_mem_cons.2 ⟨?_, ih rest⟩
      split at painted
      · exact painted.1
      · exact painted.2.1

/-- Finishing a picture makes no node of another medium. -/
theorem media_finish {v : Picture} (h : ∀ n ∈ v.nodes, n.filter.media = .video) :
    ∀ n ∈ finish v, n.filter.media = .video := by
  unfold finish
  split
  · rename_i last hlast
    have kept := h last (List.mem_of_getLast? hlast)
    refine List.forall_mem_append.2 ⟨fun n hn => h n (List.dropLast_subset _ hn),
      List.forall_mem_singleton.2 ?_⟩
    cases last
    exact kept
  · simp [Node.single, Node.filter]

theorem media_voices {voices : List Voice} {ns : List Node} (h : List.Forall₂ Voiced voices ns) :
    ∀ n ∈ ns, n.filter.media = .audio := by
  induction h with
  | nil => simp
  | cons voiced _ ih => exact List.forall_mem_cons.2 ⟨voiced.2.2.1, ih⟩

theorem media_soundNodes {t : Timeline} {at? : Nat × Nat → Option Asset}
    {soundtrack : Option Asset} {total : String} {rate : Number} {ns : List Node} {ls ls' : Labels}
    (h : (soundNodes t at? soundtrack total rate).run ls = .ok (ns, ls')) :
    ∀ n ∈ ns, n.filter.media = .audio := by
  unfold soundNodes at h
  split at h
  · simp only [silence, run_bind_ok, run_fresh_ok, run_pure_ok] at h
    obtain ⟨_, _, -, rfl, -⟩ := h
    simp [Node.filter]
  · simp only [mix, run_bind_ok, run_fresh_ok, run_pure_ok] at h
    obtain ⟨vs, _, hvs, _, _, -, rfl, -⟩ := h
    exact List.forall_mem_append.2 ⟨media_voices (voiceNodes_ok hvs).1,
      by simp [Node.single, Node.filter]⟩

section

variable {k : Compiler} {files : Files} {t : Timeline} {assets : List Asset}
  {outputPath : String} {background : Option Asset} {cmd : Command}
  (s : Steps k files t assets outputPath background cmd)
include s

theorem Steps.media : (∀ n ∈ finish s.picture, n.filter.media = .video) ∧
    ∀ n ∈ s.sounds, n.filter.media = .audio := by
  obtain ⟨painted, hnodes, painting, -⟩ := drawClips_ok s.drawn
  refine ⟨media_finish ?_, media_soundNodes s.mixed⟩
  rw [hnodes]
  exact List.forall_mem_append.2 ⟨Chained.media (base_ok s.based).chained, painting.media⟩

theorem Steps.videoNodes_eq : cmd.videoNodes = finish s.picture := by
  obtain ⟨picture, sounds⟩ := s.media
  rw [Command.videoNodes, s.graph_eq, List.filter_append, List.filter_eq_self.2,
    List.filter_eq_nil_iff.2, List.append_nil]
  · intro n hn
    rw [sounds n hn]
    decide
  · intro n hn
    rw [picture n hn]
    decide

theorem Steps.audioNodes_eq : cmd.audioNodes = s.sounds := by
  obtain ⟨picture, sounds⟩ := s.media
  rw [Command.audioNodes, s.graph_eq, List.filter_append, List.filter_eq_nil_iff.2,
    List.filter_eq_self.2, List.nil_append]
  · intro n hn
    rw [sounds n hn]
    decide
  · intro n hn
    rw [picture n hn]
    decide

end

end Montage.Compiler
