import Montage.Graph.Picture
import Montage.Graph.Sound
import Montage.Proofs.Graph.Flow
import Montage.Proofs.Graph.Labels

/-!
# What a node is built of

All nodes of clips and voices have one form: a chain of filters, each fed by the one before it,
and at its end the node's own filter (`Linked`). A filter that draws straight onto the picture
takes the end of the chain alone; one that lays a picture over another takes the picture drawn
so far, too.

Each builder has one lemma here (`textNode_ok`, `mediaNode_ok`, `shapeNode_ok`, `voiceNode_ok`):
the form of the node that it builds, and that the labels inside it are fresh (`Built`). Later
proofs use these and look at no builder again.
-/
namespace Montage.Graph

variable {α β : Type}

/-- The filters of several nodes give, in their order, the streams that they give. -/
theorem produced_append (fs gs : List Filter) : produced (fs ++ gs) = produced fs ++ produced gs :=
  List.map_append

/-! ## The form of a node -/

/-- Nodes of one filter each that form a chain from the stream `first` to the stream `last`. -/
def Chained (m : Medium) : (first : String) → List Node → (last : String) → Prop
  | first, [], last => first = last
  | first, n :: ns, last =>
    n = .single n.filter ∧ n.filter.inputs = [first] ∧ n.filter.media = m ∧
      Chained m n.filter.output ns last

/-- A node whose filter takes the streams `others` and the end of a chain that starts at
`first`. -/
def Linked (m : Medium) (first : String) (others : List String) (n : Node) : Prop :=
  n.filter.media = m ∧ ∃ layer, Chained m first n.prelude layer ∧
    n.filter.inputs = others ++ [layer]

theorem Chained.flow {m : Medium} {first last : String} {ns : List Node}
    (h : Chained m first ns last) :
    StreamFlow {(first, m)} (ns.flatMap Node.flatten) {(last, m)} := by
  induction ns generalizing first with
  | nil => cases h; rfl
  | cons n ns ih =>
    obtain ⟨hn, hi, hm, h⟩ := h
    have step := StreamFlow.single n.filter
    have hf : n.flatten = [n.filter] := by rw [Node.flatten_eq, hn]; rfl
    rw [List.flatMap_cons, hf]
    simp only [taken, given, hi, hm, List.map_cons, List.map_nil, Multiset.coe_singleton] at step
    exact step.trans (ih h)

/-- A node takes the start of its chain and the other streams, and gives its own. -/
theorem Linked.flow {m : Medium} {first : String} {others : List String} {n : Node}
    (h : Linked m first others n) :
    StreamFlow ({(first, m)} + ↑(others.map (·, m))) n.flatten {(n.filter.output, m)} := by
  obtain ⟨hm, layer, chained, hi⟩ := h
  rw [Node.flatten_eq]
  refine (chained.flow.frame _).trans ?_
  have step := StreamFlow.single n.filter
  simp only [taken, given, hi, hm, List.map_append, List.map_cons, List.map_nil,
    ← Multiset.coe_add, Multiset.coe_singleton] at step
  rwa [add_comm] at step

/-- The form of a node does not depend on the label of its stream. -/
theorem Linked.relabel {m : Medium} {first : String} {others : List String} {n : Node}
    (h : Linked m first others n) (label : String) : Linked m first others (n.relabel label) := by
  cases n; exact h

/-- A node that was built with given labels around it, from the labels `ls` to the labels
`ls'`. -/
structure Built (m : Medium) (first : String) (others : List String) (output : String)
    (ls ls' : Labels) (n : Node) : Prop where
  output : n.filter.output = output
  linked : Linked m first others n
  labels : Issues ls ls' ↑(produced (n.prelude.flatMap Node.flatten))

/-- A node of one filter uses up no label. -/
theorem Built.single {m : Medium} {first output : String} {ls : Labels} {f : Filter}
    (ho : f.output = output) (hm : f.media = m) (hi : f.inputs = [first]) :
    Built m first [] output ls ls (.single f) :=
  ⟨ho, ⟨hm, first, rfl, hi⟩, by simpa [Node.single, Node.prelude, produced] using Issues.refl ls⟩

/-! ## Chains -/

theorem chain_ok {m : Medium} {ref : Option String} {links : List Link} {layer last : String}
    {ns : List Node} {ls ls' : Labels} (stems : ∀ l ∈ links, Unnumbered l.stem)
    (h : (chain m ref layer links).run ls = .ok ((ns, last), ls')) :
    Chained m layer ns last ∧ Issues ls ls' ↑(produced (ns.flatMap Node.flatten)) := by
  induction links generalizing layer ns ls with
  | nil =>
    simp only [chain, run_pure_ok, Prod.mk.injEq] at h
    obtain ⟨⟨rfl, rfl⟩, rfl⟩ := h
    exact ⟨rfl, by simpa [produced] using Issues.refl ls⟩
  | cons l rest ih =>
    simp only [chain, run_bind_ok, run_fresh_ok, run_pure_ok] at h
    obtain ⟨label, _, ⟨rfl, rfl⟩, ⟨nodes, end_⟩, _, hrest, hpure, rfl⟩ := h
    simp only [Prod.mk.injEq] at hpure
    obtain ⟨rfl, rfl⟩ := hpure
    obtain ⟨chained, labels⟩ := ih (fun l hl => stems l (List.mem_cons_of_mem _ hl)) hrest
    refine ⟨⟨rfl, rfl, rfl, chained⟩, ?_⟩
    have := (Issues.next (stems l List.mem_cons_self) ls).trans labels
    simpa [produced, Node.single, Node.flatten, Node.flattenAll] using this

/-! ## Pictures -/

theorem textNode_ok {files : Files} {c : Clip} {ref text : String} {style : TextStyle}
    {width height : Int} {current output : String} {ls ls' : Labels} {n : Node}
    (h : (textNode files c ref text style width height current output).run ls = .ok (n, ls')) :
    n.filter.ref = some ref ∧ Built .video current [] output ls ls' n := by
  simp only [textNode, run_bind_ok, run_attempt_ok, run_pure_ok] at h
  obtain ⟨size, _, ⟨-, rfl⟩, rfl, rfl⟩ := h
  exact ⟨rfl, Built.single rfl rfl rfl⟩

theorem stem_effectLink (e : Effect) : (effectLink e).stem = "filtered" := by
  cases e <;> rfl

theorem stem_scaleLink {m : Media} {factor : Float} {a : Asset} {l : Link}
    (h : scaleLink m factor a = .ok l) : l.stem = "scaled" := by
  simp only [scaleLink] at h
  split at h <;>
  · obtain ⟨_, -, h⟩ := except_bind_ok.1 h
    cases h
    rfl

/-- The chain of an image or a video is that of its parts; only the change of size can fail. -/
theorem mediaLinks_eq {c : Clip} {m : Media} {isVideo : Bool} {a : Asset} {links : List Link}
    (h : mediaLinks c m isVideo a = .ok links) :
    ∃ scale, (if c.scaleValue != 1 then (scaleLink m c.scaleValue a).map ([·]) else .ok []) =
        .ok scale ∧
      links = (if isVideo then timingLinks c else []) ++ (m.filter.join.map effectLink).toList ++
        (m.chromaKey.join.map keyLink).toList ++ scale ++
        (if c.opacityValue < 100 then fadeLinks c.opacityValue else []) := by
  simp only [mediaLinks] at h
  split at h
  all_goals
    next changed =>
    obtain ⟨scale, resized, h⟩ := except_bind_ok.1 h
    cases h
    exact ⟨scale, by simpa [changed] using resized, rfl⟩

theorem mediaLinks_ok {c : Clip} {m : Media} {isVideo : Bool} {a : Asset} {links : List Link}
    (h : mediaLinks c m isVideo a = .ok links) :
    ∃ scale : List Link, (∀ l ∈ scale, l.stem = "scaled") ∧
      links = (if isVideo then timingLinks c else []) ++ (m.filter.join.map effectLink).toList ++
        (m.chromaKey.join.map keyLink).toList ++ scale ++
        (if c.opacityValue < 100 then fadeLinks c.opacityValue else []) := by
  obtain ⟨scale, resized, rfl⟩ := mediaLinks_eq h
  refine ⟨scale, ?_, rfl⟩
  split at resized
  · obtain ⟨l, hl, rfl⟩ := except_map_ok.1 resized
    simpa using stem_scaleLink hl
  · cases resized
    simp

/-- The stems of the chain of an image or a video. -/
def mediaStems : List String := ["trim", "pts", "filtered", "chroma", "scaled", "rgba", "faded"]

theorem unnumbered_mediaStems : ∀ s ∈ mediaStems, Unnumbered s := by decide

theorem stem_mem_mediaStems {c : Clip} {m : Media} {isVideo : Bool} {a : Asset}
    {links : List Link} (h : mediaLinks c m isVideo a = .ok links) :
    ∀ l ∈ links, l.stem ∈ mediaStems := by
  obtain ⟨scale, hscale, rfl⟩ := mediaLinks_ok h
  intro l hl
  simp only [List.mem_append] at hl
  rcases hl with (((hl | hl) | hl) | hl) | hl
  · split at hl
    · simp only [timingLinks, List.mem_cons, List.not_mem_nil, or_false] at hl
      rcases hl with rfl | rfl <;> simp [mediaStems]
    · cases hl
  · simp only [Option.mem_toList, Option.map_eq_some_iff] at hl
    obtain ⟨e, -, rfl⟩ := hl
    simp [stem_effectLink, mediaStems]
  · simp only [Option.mem_toList, Option.map_eq_some_iff] at hl
    obtain ⟨k, -, rfl⟩ := hl
    simp [keyLink, mediaStems]
  · simp [hscale l hl, mediaStems]
  · split at hl
    · simp only [fadeLinks, List.mem_cons, List.not_mem_nil, or_false] at hl
      rcases hl with rfl | rfl <;> simp [mediaStems]
    · cases hl

theorem mediaNode_ok {c : Clip} {ref : String} {m : Media} {isVideo : Bool} {a : Asset}
    {current output : String} {ls ls' : Labels} {n : Node}
    (h : (mediaNode c ref m isVideo a current output).run ls = .ok (n, ls')) :
    n.filter.ref = some ref ∧ n.filter.operation = "overlay" ∧
      Built .video (inputText a.inputIndex ++ ":v") [current] output ls ls' n := by
  unfold mediaNode at h
  split at h
  · exact absurd h run_throw_ok
  · rename_i input hinput
    simp only [run_bind_ok, run_attempt_ok, run_pure_ok] at h
    obtain ⟨links, _, ⟨hlinks, rfl⟩, ⟨nodes, layer⟩, _, hchain, rfl, rfl⟩ := h
    have stems := fun l hl => unnumbered_mediaStems _ (stem_mem_mediaStems hlinks l hl)
    obtain ⟨chained, labels⟩ := chain_ok stems hchain
    rw [hinput]
    exact ⟨rfl, rfl, rfl, ⟨rfl, layer, chained, rfl⟩, labels⟩

theorem shapeNode_ok {c : Clip} {ref : String} {s : Shape} {current output : String}
    {ls ls' : Labels} {n : Node}
    (h : (shapeNode c ref s current output).run ls = .ok (n, ls')) :
    n.filter.ref = some ref ∧ Built .video current [] output ls ls' n := by
  simp only [shapeNode, run_bind_ok, run_attempt_ok] at h
  obtain ⟨boxes, _, ⟨-, rfl⟩, h⟩ := h
  split at h
  · simp only [run_pure_ok] at h
    obtain ⟨rfl, rfl⟩ := h
    exact ⟨rfl, Built.single rfl rfl rfl⟩
  · simp only [run_bind_ok, run_pure_ok] at h
    obtain ⟨⟨nodes, layer⟩, _, hchain, rfl, rfl⟩ := h
    have stems : ∀ l ∈ boxes.dropLast.map fun options => (⟨"drawbox", options, "box"⟩ : Link),
        Unnumbered l.stem := by
      intro l hl
      obtain ⟨_, -, rfl⟩ := List.mem_map.1 hl
      exact (by decide : Unnumbered "box")
    obtain ⟨chained, labels⟩ := chain_ok stems hchain
    exact ⟨rfl, rfl, ⟨rfl, layer, chained, rfl⟩, labels⟩

/-! ## Sound -/

theorem unnumbered_voiceLinks (v : Voice) : ∀ l ∈ voiceLinks v, Unnumbered l.stem := by
  intro l hl
  simp only [voiceLinks, List.mem_append, List.mem_cons, List.not_mem_nil, or_false] at hl
  rcases hl with (rfl | rfl) | hl
  · exact (by decide : Unnumbered "atrim")
  · exact (by decide : Unnumbered "apts")
  · split at hl
    · rw [List.mem_singleton.1 hl]
      exact (by decide : Unnumbered "avol")
    · cases hl

/-- The label of a voice's node is fresh, too: no other node is told of it beforehand. -/
theorem voiceNode_ok {v : Voice} {ls ls' : Labels} {n : Node}
    (h : (voiceNode v).run ls = .ok (n, ls')) :
    n.filter.ref = some v.asset.ref ∧ n.filter.operation = "adelay" ∧
      Linked .audio (inputText v.asset.inputIndex ++ ":a") [] n ∧
      Issues ls ls' ↑(produced n.flatten) := by
  simp only [voiceNode, run_bind_ok, run_attempt_ok, run_fresh_ok, run_pure_ok] at h
  obtain ⟨⟨nodes, layer⟩, l, hchain, delay, _, ⟨-, rfl⟩, _, _, ⟨rfl, rfl⟩, rfl, rfl⟩ := h
  obtain ⟨chained, labels⟩ := chain_ok (unnumbered_voiceLinks v) hchain
  refine ⟨rfl, rfl, ⟨rfl, layer, chained, rfl⟩, ?_⟩
  have := labels.trans (Issues.next (by decide : Unnumbered "a") l)
  rw [Node.flatten_eq, produced_append, ← Multiset.coe_add]
  exact this

end Montage.Graph
