import Montage.Proofs.Compiler.Agreement

/-!
# The order of compositing

The picture of a command is drawn in the order of the clips. `compile_composites` says what its
nodes are: one that scales the background, if it has a file, then one node for each clip that is
to be seen (`isShown`), or a node that passes the picture on if there is nothing else. Each clip is
drawn on the picture that the node before it gave, and only while it is to be seen (`Composed`).

`drawClip_step` is what one clip does to the picture and to the warnings, `drawClips_run` what all
of them do in turn.
-/
namespace Montage.Compiler

open Montage.Graph

/-! ## The nodes of clips -/

/-- The options of a filter that is at work only while a clip is to be seen. -/
def During (c : Clip) (options : Options) : Prop :=
  options.lookup "enable" = some (.text (window c))

/-- The options of a box of the given thickness. -/
structure BoxOptions (c : Clip) (thickness : String) (options : Options) : Prop where
  during : During c options
  thickness : options.lookup "t" = some (.text thickness)

/-- A filter that draws a box of the given thickness on the picture `current`. -/
structure Boxed (c : Clip) (thickness current : String) (f : Filter) : Prop where
  operation : f.operation = "drawbox"
  inputs : f.inputs = [current]
  options : BoxOptions c thickness f.options

/-- Whether a shape has an inside to draw. -/
def hasInside (s : Shape) : Bool := (filled? s.fillValue).isSome

/-- Whether a shape has a border to draw. -/
def hasBorder (s : Shape) : Bool :=
  decide (0 < s.strokeWidthValue) && (filled? s.strokeValue).isSome

/-- The thickness of a shape's border. -/
def borderOf (s : Shape) : String := Number.compactFloat s.strokeWidthValue

/-- The node that draws a shape on the picture `current`: the inside first, the border on what it
gives. -/
def ComposedShape (c : Clip) (s : Shape) (current : String) (n : Node) : Prop :=
  match hasInside s, hasBorder s with
  | true, true => ∃ inside, n.prelude = [.single inside] ∧ Boxed c "fill" current inside ∧
      Boxed c (borderOf s) inside.output n.filter
  | true, false => n.prelude = [] ∧ Boxed c "fill" current n.filter
  | false, true => n.prelude = [] ∧ Boxed c (borderOf s) current n.filter
  | false, false => n.prelude = [] ∧ n.filter.operation = "null" ∧ n.filter.inputs = [current]

/-- The node that draws a clip on the picture `current`. -/
def Composed (item : Item) (current : String) (n : Node) : Prop :=
  n.filter.ref = some (Clip.ref item.1.1 item.1.2 (some item.2)) ∧
  match item.2.content with
  | .background .. => False
  | .text .. => n.prelude = [] ∧ n.filter.operation = "drawtext" ∧ n.filter.inputs = [current] ∧
      During item.2 n.filter.options
  | .image _ | .video .. => n.filter.operation = "overlay" ∧
      (∃ layer, n.filter.inputs = [current, layer]) ∧ During item.2 n.filter.options
  | .shape s => ComposedShape item.2 (s.getD .standard) current n

/-- The nodes that draw some clips in turn, each on the picture that the one before it gave. -/
def Stacked : (first : String) → List Item → List Node → (last : String) → Prop
  | first, [], [], last => first = last
  | first, item :: items, n :: ns, last =>
    Composed item first n ∧ Stacked n.filter.output items ns last
  | _, _, _, _ => False

/-- The node that brings the background to the size of the picture. -/
def backdrop (t : Timeline) (a : Asset) (output : String) : Node :=
  .single ⟨"scale", [("w", .int t.width), ("h", .int t.height)], [baseLabel], output, .video,
    some a.ref⟩

/-- The node of a picture on which nothing is drawn. -/
def plain : Node := .single ⟨"null", [], [baseLabel], finalLabel, .video, none⟩

/-- The nodes of a whole picture: the background's, then those of the clips. -/
def Layered (t : Timeline) (background : Option Asset) (items : List Item) (ns : List Node) :
    Prop :=
  match background.filter (·.isFound), items with
  | some a, items => ∃ label rest, ns = backdrop t a label :: rest ∧
      Stacked label items rest finalLabel
  | none, [] => ns = [plain]
  | none, items => Stacked baseLabel items ns finalLabel

/-! ## One clip -/

section

variable {c : Clip} {ref current output : String} {ls ls' : Labels} {n : Node}

theorem textNode_during {files : Files} {text : String} {style : TextStyle} {width height : Int}
    (h : (textNode files c ref text style width height current output).run ls = .ok (n, ls')) :
    n.prelude = [] ∧ n.filter.operation = "drawtext" ∧ n.filter.inputs = [current] ∧
      During c n.filter.options := by
  simp only [textNode, run_bind_ok, run_attempt_ok, run_pure_ok] at h
  obtain ⟨size, _, -, rfl, -⟩ := h
  refine ⟨rfl, rfl, rfl, ?_⟩
  unfold During
  split <;> rfl

theorem mediaNode_during {m : Media} {isVideo : Bool} {a : Asset}
    (h : (mediaNode c ref m isVideo a current output).run ls = .ok (n, ls')) :
    n.filter.operation = "overlay" ∧ (∃ layer, n.filter.inputs = [current, layer]) ∧
      During c n.filter.options := by
  unfold mediaNode at h
  split at h
  · exact absurd h run_throw_ok
  · simp only [run_bind_ok, run_attempt_ok, run_pure_ok] at h
    obtain ⟨links, _, -, ⟨nodes, layer⟩, _, -, rfl, -⟩ := h
    exact ⟨rfl, ⟨layer, rfl⟩, rfl⟩

/-- The boxes of a shape are those of its inside and of its border. -/
theorem boxes_ok {s : Shape} {bs : List Options} (h : boxes c s = .ok bs) :
    match hasInside s, hasBorder s with
    | true, true => ∃ inside border, bs = [inside, border] ∧ BoxOptions c "fill" inside ∧
        BoxOptions c (borderOf s) border
    | true, false => ∃ inside, bs = [inside] ∧ BoxOptions c "fill" inside
    | false, true => ∃ border, bs = [border] ∧ BoxOptions c (borderOf s) border
    | false, false => bs = [] := by
  unfold boxes at h
  obtain ⟨w, -, h⟩ := except_bind_ok.1 h
  obtain ⟨height, -, h⟩ := except_bind_ok.1 h
  cases h
  unfold hasInside hasBorder
  cases filled? s.fillValue <;> cases filled? s.strokeValue <;>
    by_cases hw : 0 < s.strokeWidthValue <;> simp only [hw] <;> first
      | rfl
      | exact ⟨_, _, rfl, ⟨rfl, rfl⟩, ⟨rfl, rfl⟩⟩
      | exact ⟨_, rfl, ⟨rfl, rfl⟩⟩

theorem shapeNode_composed {s : Shape}
    (h : (shapeNode c ref s current output).run ls = .ok (n, ls')) :
    ComposedShape c s current n := by
  simp only [shapeNode, run_bind_ok, run_attempt_ok] at h
  obtain ⟨bs, _, ⟨hbs, rfl⟩, h⟩ := h
  have parts := boxes_ok hbs
  unfold ComposedShape
  split at parts
  · obtain ⟨inside, border, rfl, hinside, hborder⟩ := parts
    simp only [List.getLast?_cons_cons, List.getLast?_singleton, List.dropLast_cons_cons,
      List.dropLast_singleton, List.map_cons, List.map_nil, chain, run_bind_ok, run_fresh_ok,
      run_pure_ok] at h
    obtain ⟨_, _, ⟨_, _, ⟨rfl, rfl⟩, _, _, ⟨rfl, rfl⟩, rfl, rfl⟩, rfl, -⟩ := h
    exact ⟨_, rfl, ⟨rfl, rfl, hinside⟩, rfl, rfl, hborder⟩
  · obtain ⟨inside, rfl, hinside⟩ := parts
    simp only [List.getLast?_singleton, List.dropLast_singleton, List.map_nil, chain, run_bind_ok,
      run_pure_ok] at h
    obtain ⟨_, _, ⟨rfl, rfl⟩, rfl, -⟩ := h
    exact ⟨rfl, rfl, rfl, hinside⟩
  · obtain ⟨border, rfl, hborder⟩ := parts
    simp only [List.getLast?_singleton, List.dropLast_singleton, List.map_nil, chain, run_bind_ok,
      run_pure_ok] at h
    obtain ⟨_, _, ⟨rfl, rfl⟩, rfl, -⟩ := h
    exact ⟨rfl, rfl, rfl, hborder⟩
  · subst parts
    simp only [List.getLast?_nil, run_pure_ok] at h
    obtain ⟨rfl, -⟩ := h
    exact ⟨rfl, rfl, rfl⟩

end

/-- The warning that a clip leaves if it shows a file that is not there. -/
def clipWarning (assets : List Asset) (item : Item) : Option String :=
  item.2.content.media?.bind fun m =>
    if (assetAt assets item.1).any (·.isFound) then none
    else some (missing m.source (Clip.ref item.1.1 item.1.2 (some item.2)))

/-- What one clip does: it is drawn by one node, or the picture stays as it is; either way the
warnings grow by the clip's own. -/
structure Stepped (assets : List Asset) (item : Item) (v v' : Picture) : Prop where
  warnings : v'.warnings = v.warnings ++ (clipWarning assets item).toList
  nodes : if isShown assets item then ∃ n, Composed item v.current n ∧
      v'.current = n.filter.output ∧ v'.nodes = v.nodes ++ [n]
    else v'.current = v.current ∧ v'.nodes = v.nodes

theorem stepped_of_drawn {assets : List Asset} {item : Item} {v : Picture} {n : Node}
    {output : String} (silent : clipWarning assets item = none)
    (shown : isShown assets item = true) (composed : Composed item v.current n)
    (ho : n.filter.output = output) :
    Stepped assets item v { v with current := output, nodes := v.nodes ++ [n] } where
  warnings := by simp [silent]
  nodes := by
    rw [if_pos shown]
    exact ⟨n, composed, ho.symm, rfl⟩

theorem drawClip_step {t : Timeline} {files : Files} {assets : List Asset} {v v' : Picture}
    {item : Item} {ls ls' : Labels}
    (h : (drawClip t files assets v item).run ls = .ok (v', ls')) :
    Stepped assets item v v' := by
  obtain ⟨slot, c⟩ := item
  cases hc : c.content with
  | background color source =>
    simp only [drawClip, hc, run_pure_ok] at h
    obtain ⟨rfl, -⟩ := h
    exact ⟨by simp [clipWarning, hc, Content.media?], by simp [isShown, hc]⟩
  | text text style =>
    simp only [drawClip, hc, run_bind_ok, run_fresh_ok] at h
    obtain ⟨_, _, ⟨rfl, rfl⟩, h⟩ := h
    obtain ⟨n, hn, rfl⟩ := draw_ok h
    obtain ⟨href, built⟩ := textNode_ok hn
    exact stepped_of_drawn (by simp [clipWarning, hc, Content.media?]) (by simp [isShown, hc])
      ⟨href, by simpa only [hc] using textNode_during hn⟩ built.output
  | shape shape =>
    simp only [drawClip, hc, run_bind_ok, run_fresh_ok] at h
    obtain ⟨_, _, ⟨rfl, rfl⟩, h⟩ := h
    obtain ⟨n, hn, rfl⟩ := draw_ok h
    obtain ⟨href, built⟩ := shapeNode_ok hn
    exact stepped_of_drawn (by simp [clipWarning, hc, Content.media?]) (by simp [isShown, hc])
      ⟨href, by simpa only [hc] using shapeNode_composed hn⟩ built.output
  | image m | video m volume =>
    simp only [drawClip, hc, run_bind_ok, run_fresh_ok] at h
    obtain ⟨_, _, ⟨rfl, rfl⟩, h⟩ := h
    split at h
    · rename_i a ha
      split at h
      · rename_i hfound
        obtain ⟨n, hn, rfl⟩ := draw_ok h
        obtain ⟨href, -, built⟩ := mediaNode_ok hn
        exact stepped_of_drawn (by simp [clipWarning, hc, Content.media?, ha, hfound])
          (by simp [isShown, hc, ha, hfound])
          ⟨href, by simpa only [hc] using mediaNode_during hn⟩ built.output
      · rename_i hfound
        simp only [run_pure_ok] at h
        obtain ⟨rfl, -⟩ := h
        exact ⟨by simp [clipWarning, hc, Content.media?, ha, hfound],
          by simp [isShown, hc, ha, hfound]⟩
    · rename_i ha
      simp only [run_pure_ok] at h
      obtain ⟨rfl, -⟩ := h
      exact ⟨by simp [clipWarning, hc, Content.media?, ha], by simp [isShown, hc, ha]⟩

/-! ## All clips -/

theorem drawClips_run {t : Timeline} {files : Files} {assets : List Asset} {items : List Item}
    {v v' : Picture} {ls ls' : Labels}
    (h : (items.foldlM (drawClip t files assets) v).run ls = .ok (v', ls')) :
    v'.warnings = v.warnings ++ items.filterMap (clipWarning assets) ∧
      ∃ ns, v'.nodes = v.nodes ++ ns ∧
        Stacked v.current (items.filter (isShown assets)) ns v'.current := by
  induction items generalizing v ls with
  | nil =>
    simp only [List.foldlM_nil, run_pure_ok] at h
    obtain ⟨rfl, -⟩ := h
    exact ⟨by simp, [], by simp, rfl⟩
  | cons item items ih =>
    simp only [List.foldlM_cons, run_bind_ok] at h
    obtain ⟨v₁, l, hstep, h⟩ := h
    obtain ⟨warned, ns, hnodes, stacked⟩ := ih h
    obtain ⟨warning, step⟩ := drawClip_step hstep
    refine ⟨?_, ?_⟩
    · rw [warned, warning, List.append_assoc]
      cases hw : clipWarning assets item <;> simp [hw]
    · cases shown : isShown assets item with
      | false =>
        rw [if_neg (by simp [shown])] at step
        obtain ⟨hcur, hn⟩ := step
        rw [hcur] at stacked
        exact ⟨ns, by rw [hnodes, hn], by simpa [shown] using stacked⟩
      | true =>
        rw [if_pos shown] at step
        obtain ⟨n, composed, hcur, hn⟩ := step
        rw [hcur] at stacked
        refine ⟨n :: ns, by rw [hnodes, hn, List.append_assoc, List.singleton_append], ?_⟩
        rw [List.filter_cons_of_pos shown]
        exact ⟨composed, stacked⟩

/-! ## The label of the last picture -/

theorem Boxed.relabel {c : Clip} {thickness current : String} {f : Filter}
    (h : Boxed c thickness current f) (label : String) :
    Boxed c thickness current { f with output := label } :=
  ⟨h.operation, h.inputs, h.options⟩

theorem ComposedShape.relabel {c : Clip} {s : Shape} {current : String} {n : Node}
    (h : ComposedShape c s current n) (label : String) :
    ComposedShape c s current (n.relabel label) := by
  cases n
  unfold ComposedShape at h ⊢
  split at h
  · obtain ⟨inside, hprelude, hinside, hborder⟩ := h
    exact ⟨inside, hprelude, hinside, hborder.relabel label⟩
  · exact ⟨h.1, h.2.relabel label⟩
  · exact ⟨h.1, h.2.relabel label⟩
  · exact h

/-- How a clip is drawn does not depend on the label that the picture gets. -/
theorem Composed.relabel {item : Item} {current : String} {n : Node} (h : Composed item current n)
    (label : String) : Composed item current (n.relabel label) := by
  obtain ⟨href, h⟩ := h
  refine ⟨by rw [ref_relabel, href], ?_⟩
  split at h
  · exact h
  · cases n
    exact h
  · cases n
    exact h
  · cases n
    exact h
  · exact h.relabel label

theorem Stacked.relabel {items : List Item} {ns : List Node} {n : Node} {first last : String}
    (h : Stacked first items (ns ++ [n]) last) (label : String) :
    Stacked first items (ns ++ [n.relabel label]) label := by
  induction ns generalizing first items with
  | nil =>
    cases items with
    | nil => cases h
    | cons item items =>
      cases items with
      | cons => cases h.2
      | nil => exact ⟨h.1.relabel label, by cases n; rfl⟩
  | cons m ns ih =>
    cases items with
    | nil => cases h
    | cons item items => exact ⟨h.1, ih h.2⟩

/-! ## The whole picture -/

/-- The picture that drawing starts from. -/
theorem base_start {t : Timeline} {background : Option Asset} {duration : Number} {input : Input}
    {v : Picture} {ls ls' : Labels}
    (h : (base t background duration).run ls = .ok ((input, v), ls')) :
    match background.filter (·.isFound) with
    | some a => ∃ label, v = ⟨label, [backdrop t a label], []⟩
    | none => v = ⟨baseLabel, [], (background.map fun a => missing a.source a.ref).toList⟩ := by
  unfold base at h
  split at h
  · rename_i a path hbackground
    simp only [run_bind_ok, run_fresh_ok, run_pure_ok, Prod.mk.injEq] at h
    obtain ⟨label, _, -, ⟨-, rfl⟩, -⟩ := h
    obtain ⟨b, rfl, hb⟩ := Option.bind_eq_some_iff.1 hbackground
    obtain ⟨p, hp, e⟩ := Option.map_eq_some_iff.1 hb
    cases e
    rw [Option.filter_some_pos (by simp [Asset.isFound, hp])]
    exact ⟨label, rfl⟩
  · rename_i hnone
    simp only [run_bind_ok, run_attempt_ok, run_pure_ok, Prod.mk.injEq] at h
    obtain ⟨_, _, -, ⟨-, rfl⟩, -⟩ := h
    have absent : background.filter (·.isFound) = none := by
      cases background with
      | none => rfl
      | some a =>
        refine Option.filter_some_neg ?_
        simpa [Asset.isFound] using hnone
    rw [absent]

theorem Stacked.nil {items : List Item} {first last : String} (h : Stacked first items [] last) :
    items = [] ∧ first = last := by
  cases items with
  | nil => exact ⟨rfl, h⟩
  | cons item items => cases h

theorem Stacked.ne_nil {items : List Item} {ns : List Node} {n : Node} {first last : String}
    (h : Stacked first items (ns ++ [n]) last) : items ≠ [] := by
  rintro rfl
  cases ns <;> cases h

/-- **Compositing.** The nodes of a command's picture are those of the background and of the clips
that are to be seen, in the order of the tracks and of the clips in them. -/
theorem compile_composites {k : Compiler} {files : Files} {t : Timeline} {assets : List Asset}
    {outputPath : String} {output : OutputOptions} {background : Option Asset} {cmd : Command}
    (h : k.compile files t assets outputPath output background = .ok cmd) :
    Layered t background (t.slots.filter (isShown assets)) cmd.videoNodes := by
  obtain ⟨s⟩ := compile_steps h
  have start := base_start s.based
  obtain ⟨-, ns, hnodes, stacked⟩ := drawClips_run s.drawn
  rw [s.videoNodes_eq]
  unfold Layered
  rcases List.eq_nil_or_concat ns with rfl | ⟨ns, last, rfl⟩
  · obtain ⟨none_shown, hcur⟩ := stacked.nil
    rw [none_shown]
    cases hb : background.filter (·.isFound) with
    | some a =>
      rw [hb] at start
      obtain ⟨label, hstart⟩ := start
      rw [hstart, List.append_nil, ← List.nil_append [_]] at hnodes
      -- the background's picture is the last one
      exact ⟨finalLabel, [], finish_append hnodes, rfl⟩
    | none =>
      rw [hb] at start
      rw [start] at hnodes hcur
      have empty : s.picture.nodes = [] := hnodes
      simp only [finish, empty, List.getLast?_nil, ← hcur]
      rfl
  · rw [List.concat_eq_append] at hnodes stacked
    have shown := stacked.ne_nil
    have finished : finish s.picture = s.start.nodes ++ (ns ++ [last.relabel finalLabel]) := by
      rw [← List.append_assoc] at hnodes ⊢
      exact finish_append hnodes
    have drawn := stacked.relabel finalLabel
    rw [finished]
    cases hb : background.filter (·.isFound) with
    | some a =>
      rw [hb] at start
      obtain ⟨label, hstart⟩ := start
      rw [hstart] at drawn ⊢
      exact ⟨label, _, rfl, drawn⟩
    | none =>
      rw [hb] at start
      rw [start] at drawn ⊢
      cases hitems : t.slots.filter (isShown assets) with
      | nil => exact absurd hitems shown
      | cons item items =>
        rw [hitems] at drawn
        exact drawn

theorem compile_composites_layered :
    ∃ cmd, layeredCommand = .ok cmd ∧ Layered layeredTimeline (some layeredBackground)
      (layeredTimeline.slots.filter (isShown layeredAssets)) cmd.videoNodes := by
  obtain ⟨cmd, h⟩ := layeredCommand_ok
  exact ⟨cmd, h, compile_composites h⟩

end Montage.Compiler
