import Montage.Proofs.Compiler.Mixing
import Montage.Proofs.Compiler.Values
import Montage.Proofs.Number.Printed

/-!
# Sizes, lengths and tolerances of filters

Some options of a filter only make sense above zero: the size of letters, of boxes and of pictures,
lengths of time, and how similar a colour must be to be cut out. `Filter.quantities` picks the
numbers of these options out of what is printed; where a size is given as a multiple of the
picture's own, it is the factor.

For each kind of node there is one lemma that says when all its quantities are positive as they are
printed (`textNode_positive`, `shapeNode_positive`, `mediaNode_positive`, `soundNodes_positive`).
Sizes that are rounded up to one always are; for all others it is up to the number that is printed,
which must exceed half a unit of the last place.
-/
namespace Montage

/-- Every text denotes a positive number. -/
def AllPositive (texts : List String) : Prop := ∀ s ∈ texts, IsPositive s

@[simp]
theorem allPositive_nil : AllPositive [] := nofun

@[simp]
theorem allPositive_cons {s : String} {texts : List String} :
    AllPositive (s :: texts) ↔ IsPositive s ∧ AllPositive texts := List.forall_mem_cons

theorem allPositive_singleton {s : String} : AllPositive [s] ↔ IsPositive s := by
  simp

@[simp]
theorem allPositive_append {texts more : List String} :
    AllPositive (texts ++ more) ↔ AllPositive texts ∧ AllPositive more := List.forall_mem_append

theorem isPositive_toString (n : Int) : IsPositive (toString n) ↔ 0 < n := by
  unfold IsPositive
  rw [Decimal.value?_toString]
  simp

namespace Graph

/-- The options of an operation that are sizes, lengths or tolerances. -/
def measures : (operation : String) → List String
  | "drawtext" => ["fontsize"]
  | "scale" => ["w", "h"]
  | "drawbox" => ["w", "h"]
  | "trim" => ["duration"]
  | "atrim" => ["duration"]
  | "apad" => ["whole_dur"]
  | "chromakey" => ["similarity"]
  | _ => []

/-- The factor of a size that is a multiple of the picture's own, any other size as it is. -/
def factor (s : String) : String :=
  match (after? "iw*".toList s.toList).or (after? "ih*".toList s.toList) with
  | some rest => String.ofList rest
  | none => s

/-- The number in a size, a length or a tolerance, as it is printed. -/
def quantity (operation : String) : OptionValue → String
  | .text s => if operation = "scale" then factor s else s
  | v => plainText v

/-- The sizes, lengths and tolerances among the options of an operation. -/
def quantitiesOf (operation : String) (options : Options) : List String :=
  (options.filter fun o => o.1 ∈ measures operation).map fun o => quantity operation o.2

end Graph

open Graph

/-- The sizes, lengths and tolerances of a filter. -/
def Filter.quantities (f : Filter) : List String := quantitiesOf f.operation f.options

/-- The sizes, lengths and tolerances of all filters of a graph. -/
def Graph.quantities (g : Graph) : List String := g.filters.flatMap Filter.quantities

namespace Graph

theorem quantities_append (g g' : Graph) :
    quantities (g ++ g') = quantities g ++ quantities g' := by
  simp [quantities, filters]

theorem quantities_node (n : Node) :
    quantities [n] = quantities n.prelude ++ n.filter.quantities := by
  simp [quantities, filters, Node.flatten_eq]

theorem quantities_single (f : Filter) : quantities [.single f] = f.quantities := by
  rw [quantities_node]
  rfl

theorem quantities_cons (n : Node) (ns : List Node) :
    quantities (n :: ns) = quantities [n] ++ quantities ns := quantities_append [n] ns

theorem quantities_relabel (n : Node) (label : String) :
    quantities [n.relabel label] = quantities [n] := by
  rw [quantities_node, quantities_node]
  cases n
  rfl

/-- A chain has the quantities of its links. -/
theorem quantities_chain {m : Medium} {ref : Option String} {links : List Link}
    {first last : String} {ns : List Node} {ls ls' : Labels}
    (h : (chain m ref first links).run ls = .ok ((ns, last), ls')) :
    quantities ns = links.flatMap fun l => quantitiesOf l.operation l.options := by
  induction links generalizing first ns last ls ls' with
  | nil =>
    simp only [chain, run_pure_ok, Prod.mk.injEq] at h
    obtain ⟨⟨rfl, -⟩, -⟩ := h
    rfl
  | cons l links ih =>
    simp only [chain, run_bind_ok, run_fresh_ok, run_pure_ok, Prod.mk.injEq] at h
    obtain ⟨label, _, -, ⟨rest, _⟩, _, made, ⟨rfl, rfl⟩, -⟩ := h
    rw [quantities_cons, quantities_single, ih made, List.flatMap_cons]
    rfl

section

variable {c : Clip} {ref current output : String} {ls ls' : Labels} {n : Node}

/-! ## Texts and shapes -/

theorem textNode_positive {files : Files} {text : String} {style : TextStyle} {width height : Int}
    (h : (textNode files c ref text style width height current output).run ls = .ok (n, ls')) :
    AllPositive (quantities [n]) ↔
      (Number.float (style.fontSizeValue * c.scaleValue)).Exceeds 0 := by
  simp only [textNode, run_bind_ok, run_attempt_ok, run_pure_ok] at h
  obtain ⟨size, _, ⟨rounded, -⟩, rfl, -⟩ := h
  rw [← (shows_nearestInt rounded).positive_iff, quantities_single]
  -- no other option of a text is a size, whether it has a font or not
  cases Font.installed? files (some style.fontFamilyValue) <;> exact allPositive_singleton

/-- A measure times a factor is at least one. -/
theorem scaled_pos {measure : Json} {factor : Float} {k : Int} (h : scaled measure factor = .ok k) :
    0 < k := by
  have least (m : Int) : 0 < if 1 < m then m else 1 := by split <;> omega
  unfold scaled at h
  dsimp only at h
  split at h
  all_goals
    obtain ⟨x, -, h⟩ := except_bind_ok.1 h
    obtain ⟨m, -, h⟩ := except_bind_ok.1 h
    cases h
    exact least m

theorem boxes_positive {s : Shape} {bs : List Options} (h : boxes c s = .ok bs) :
    ∀ options ∈ bs, AllPositive (quantitiesOf "drawbox" options) := by
  unfold boxes at h
  obtain ⟨w, width, h⟩ := except_bind_ok.1 h
  obtain ⟨k, height, h⟩ := except_bind_ok.1 h
  cases h
  have positive : AllPositive [toString w, toString k] :=
    allPositive_cons.2 ⟨(isPositive_toString w).2 (scaled_pos width),
      allPositive_singleton.2 ((isPositive_toString k).2 (scaled_pos height))⟩
  intro options mem
  rcases List.mem_append.1 mem with inside | border
  · obtain ⟨color, -, rfl⟩ := Option.map_eq_some_iff.1 (Option.mem_toList.1 inside)
    exact positive
  · split at border
    · obtain ⟨color, -, rfl⟩ := Option.map_eq_some_iff.1 (Option.mem_toList.1 border)
      exact positive
    · cases border

/-- The boxes of a shape are never too small. -/
theorem shapeNode_positive {s : Shape}
    (h : (shapeNode c ref s current output).run ls = .ok (n, ls')) :
    AllPositive (quantities [n]) := by
  simp only [shapeNode, run_bind_ok, run_attempt_ok] at h
  obtain ⟨bs, _, ⟨made, rfl⟩, h⟩ := h
  have each := boxes_positive made
  cases last : bs.getLast? with
  | none =>
    rw [last] at h
    simp only [run_pure_ok] at h
    obtain ⟨rfl, -⟩ := h
    rw [quantities_single]
    exact allPositive_nil
  | some options =>
    rw [last] at h
    simp only [run_bind_ok, run_pure_ok] at h
    obtain ⟨⟨prelude, layer⟩, _, chained, rfl, -⟩ := h
    rw [quantities_node, allPositive_append]
    constructor
    · rw [Node.prelude, quantities_chain chained, List.flatMap_map]
      intro text mem
      obtain ⟨o, ho, mem⟩ := List.mem_flatMap.1 mem
      exact each o (List.dropLast_subset _ ho) text mem
    · exact each options (List.mem_of_getLast? last)

/-! ## Images and videos -/

/-- Whether both measures of an image or a video are known. -/
def isMeasured (m : Media) (a : Asset) : Bool :=
  (measure m.sourceWidth.join a.width).isTruthy && (measure m.sourceHeight.join a.height).isTruthy

/-- How similar a colour has to be to be cut out. -/
def similarity (k : ChromaKey) : Float :=
  if leastSimilarity < k.thresholdValue then k.thresholdValue else leastSimilarity

theorem after?_append (front rest : List Char) : after? front (front ++ rest) = some rest := by
  simp [after?]

theorem factor_width (s : String) : factor ("iw*" ++ s) = s := by
  unfold factor
  rw [String.toList_append, after?_append]
  simp

theorem factor_height (s : String) : factor ("ih*" ++ s) = s := by
  have other : after? "iw*".toList ("ih*" ++ s).toList = none := by simp [after?]
  unfold factor
  rw [other, String.toList_append, after?_append]
  simp

/-- Only a factor can be too small: known sizes are at least one. -/
theorem scaleLink_positive {m : Media} {x : Float} {a : Asset} {l : Link}
    (h : scaleLink m x a = .ok l) : AllPositive (quantitiesOf l.operation l.options) ↔
      (isMeasured m a = false → (Number.float x).Exceeds 6) := by
  cases measured : isMeasured m a with
  | true =>
    unfold isMeasured at measured
    unfold scaleLink at h
    simp only [measured, ↓reduceIte] at h
    obtain ⟨_, sizes, h⟩ := except_bind_ok.1 h
    cases h
    obtain ⟨w, width, sizes⟩ := except_bind_ok.1 sizes
    obtain ⟨k, height, sizes⟩ := except_bind_ok.1 sizes
    cases sizes
    have positive : AllPositive [toString w, toString k] :=
      allPositive_cons.2 ⟨(isPositive_toString w).2 (scaled_pos width),
        allPositive_singleton.2 ((isPositive_toString k).2 (scaled_pos height))⟩
    exact iff_of_true positive nofun
  | false =>
    unfold isMeasured at measured
    unfold scaleLink at h
    simp only [measured, Bool.false_eq_true, ↓reduceIte] at h
    obtain ⟨_, sizes, h⟩ := except_bind_ok.1 h
    cases sizes
    cases h
    have texts : quantitiesOf "scale" [("w", .text ("iw*" ++ Number.compactFloat x)),
        ("h", .text ("ih*" ++ Number.compactFloat x))] =
          [factor ("iw*" ++ Number.compactFloat x), factor ("ih*" ++ Number.compactFloat x)] := rfl
    rw [← (shows_compactFloat x).positive_iff]
    show AllPositive (quantitiesOf "scale" _) ↔ _
    rw [texts, factor_width, factor_height, allPositive_cons, allPositive_singleton, and_self]
    exact ⟨fun positive _ => positive, fun positive => positive rfl⟩

/-- The numbers of an image or a video that are printed as they are, are large enough for it: its
length if it is a video, and the factor of its size if that is left to the encoder. -/
structure MediaTangible (c : Clip) (m : Media) (isVideo : Bool) (a : Asset) : Prop where
  length : isVideo = true → (Number.float c.duration).Exceeds 6
  factor : (c.scaleValue != 1) = true → isMeasured m a = false →
    (Number.float c.scaleValue).Exceeds 6

theorem mediaLinks_positive {m : Media} {isVideo : Bool} {a : Asset} {links : List Link}
    (keys : ∀ k, m.chromaKey.join = some k → (Number.float (similarity k)).Exceeds 6)
    (h : mediaLinks c m isVideo a = .ok links) :
    AllPositive (links.flatMap fun l => quantitiesOf l.operation l.options) ↔
      MediaTangible c m isVideo a := by
  obtain ⟨scale, resized, rfl⟩ := mediaLinks_eq h
  have timing : AllPositive ((if isVideo then timingLinks c else []).flatMap fun l =>
      quantitiesOf l.operation l.options) ↔
        (isVideo = true → (Number.float c.duration).Exceeds 6) := by
    rw [← (shows_compactFloat c.duration).positive_iff]
    cases isVideo with
    | false => exact iff_of_true allPositive_nil nofun
    | true =>
      exact allPositive_singleton.trans ⟨fun positive _ => positive, fun positive => positive rfl⟩
  have effect : ((m.filter.join.map effectLink).toList.flatMap fun l =>
      quantitiesOf l.operation l.options) = [] := by
    rcases m.filter.join with - | (- | - | - | -) <;> rfl
  have keyed : AllPositive ((m.chromaKey.join.map keyLink).toList.flatMap fun l =>
      quantitiesOf l.operation l.options) := by
    cases key : m.chromaKey.join with
    | none => exact allPositive_nil
    | some k =>
      have shown := shows_compactFloat (similarity k)
      exact allPositive_singleton.2 (shown.positive_iff.2 (keys k key))
  have factored : AllPositive (scale.flatMap fun l => quantitiesOf l.operation l.options) ↔
      ((c.scaleValue != 1) = true → isMeasured m a = false →
        (Number.float c.scaleValue).Exceeds 6) := by
    split at resized
    · next changed =>
      obtain ⟨link, made, rfl⟩ := except_map_ok.1 resized
      rw [List.flatMap_singleton, scaleLink_positive made]
      exact ⟨fun positive _ => positive, fun positive => positive changed⟩
    · next same =>
      cases resized
      exact iff_of_true allPositive_nil fun changed => absurd changed same
  have faded : ((if c.opacityValue < 100 then fadeLinks c.opacityValue else []).flatMap fun l =>
      quantitiesOf l.operation l.options) = [] := by
    split <;> rfl
  simp only [List.flatMap_append, allPositive_append, timing, effect, keyed, factored, faded,
    allPositive_nil, and_true]
  exact ⟨fun ⟨length, factor⟩ => ⟨length, factor⟩, fun ⟨length, factor⟩ => ⟨length, factor⟩⟩

theorem mediaNode_positive {m : Media} {isVideo : Bool} {a : Asset}
    (keys : ∀ k, m.chromaKey.join = some k → (Number.float (similarity k)).Exceeds 6)
    (h : (mediaNode c ref m isVideo a current output).run ls = .ok (n, ls')) :
    AllPositive (quantities [n]) ↔ MediaTangible c m isVideo a := by
  unfold mediaNode at h
  split at h
  · exact absurd h run_throw_ok
  · simp only [run_bind_ok, run_attempt_ok, run_pure_ok] at h
    obtain ⟨links, _, ⟨made, -⟩, ⟨prelude, layer⟩, _, chained, rfl, -⟩ := h
    rw [quantities_node, Node.prelude, quantities_chain chained, allPositive_append,
      mediaLinks_positive keys made]
    exact and_iff_left allPositive_nil

end

end Graph

namespace Compiler

/-! ## The sound -/

/-- What is printed of a voice is its length. -/
theorem SoundChain.quantities {source ref length : String} {delay : Int} {volume : Float}
    {n : Node} (h : SoundChain source ref delay length volume n) :
    Graph.quantities [n] = [length] := by
  obtain ⟨_, _, _, _, rfl⟩ := h
  split <;> rfl

theorem quantities_sounds {vs : List Voice} {ns : List Node} (h : List.Forall₂ Sounds vs ns) :
    Graph.quantities ns = vs.map (·.length) := by
  induction h with
  | nil => rfl
  | cons first _ ih =>
    obtain ⟨delay, -, chained⟩ := first
    rw [quantities_cons, chained.quantities, ih]
    rfl

/-- What is printed of the sound are the lengths of the voices and its own. -/
theorem soundNodes_positive {t : Timeline} {assets : List Asset} {total : String} {rate : Number}
    {ls ls' : Labels} {ns : List Node}
    (h : (soundNodes t (assetAt assets) (assets.find? (·.isSoundtrack)) total rate).run ls =
      .ok (ns, ls')) :
    AllPositive (Graph.quantities ns) ↔
      AllPositive ((voicesOf t assets total).map (·.length)) ∧ IsPositive total := by
  rcases soundNodes_cases h with ⟨none, label, rfl⟩ | ⟨-, chains, mixed, rfl, plays⟩
  · rw [none]
    exact allPositive_singleton.trans (and_iff_right allPositive_nil).symm
  · have behind : Graph.quantities [.single (mixer (chains.map (·.filter.output)) mixed),
        .single (padding total mixed)] = [total] := rfl
    rw [quantities_append, quantities_sounds plays, behind, allPositive_append,
      allPositive_singleton]

end Compiler
end Montage
