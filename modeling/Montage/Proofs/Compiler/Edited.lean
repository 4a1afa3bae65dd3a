import Montage.Cli
import Montage.Proofs.Asset.Edited
import Montage.Proofs.Compiler.Steps

/-!
# Compiling an edited timeline

Compiling goes the same way for a timeline and for its edit, as long as their lengths are the same:
the same inputs and the same graph up to names. `pairs_drawClip` is one clip that stays,
`pairs_omitted` one that is left out. How the labels correspond depends on what the edit leaves out,
so `agree_draft` takes the walk along all clips from those who use it.
-/
namespace Montage

namespace Compiler

/-- Warnings about one source under two names. -/
def Warned (Q : String → String → Prop) (w w' : String) : Prop :=
  ∃ source ref ref', Q ref ref' ∧ w = missing source ref ∧ w' = missing source ref'

end Compiler

/-- Commands that differ in names, and in warnings of which the second does without. -/
structure Command.Alike (ρ : String → String) (Q : String → String → Prop) (P : String → Prop)
    (c c' : Command) : Prop where
  inputs : List.Forall₂ (Input.Alike Q) c.inputs c'.inputs
  graph : List.Forall₂ (Node.Alike ρ Q) c.graph c'.graph
  warnings : Thinned (Compiler.Warned Q) P c.warnings c'.warnings
  others : c' = { c with inputs := c'.inputs, graph := c'.graph, warnings := c'.warnings }

namespace Compiler

open Montage.Graph

/-- Pictures that differ in names, and in warnings of which the second does without. -/
structure Picture.Alike (ρ : String → String) (Q : String → String → Prop) (P : String → Prop)
    (v v' : Picture) : Prop where
  current : v.current = ρ v'.current
  nodes : List.Forall₂ (Node.Alike ρ Q) v.nodes v'.nodes
  warnings : Thinned (Warned Q) P v.warnings v'.warnings

/-- Whether a clip takes a label: all do but the backgrounds. -/
def takesLabel (c : Clip) : Bool :=
  match c.content with
  | .background .. => false
  | _ => true

/-- The labels that a clip takes in two runs correspond, and then those given out are related by
`S'`. -/
structure Advances (ρ : String → String) (S S' : Labels → Labels → Prop) (c : Clip) : Prop where
  labelled : takesLabel c = true →
    Pairs S S' (fun label label' => label = ρ label') (fresh "stream") (fresh "stream")
  passed : takesLabel c = false → ∀ ls ls', S ls ls' → S' ls ls'

/-! ## One clip -/

/-- Draws an image or a video with the given asset under the given name. -/
def drawMedia (c : Clip) (ref : String) (a : Option Asset) (v : Picture) (m : Media)
    (isVideo : Bool) (output : String) : Build Picture :=
  match a with
  | some a =>
    if a.isFound then
      draw v (fun current output => mediaNode c ref m isVideo a current output) output
    else return { v with warnings := v.warnings ++ [missing m.source ref] }
  | none => return { v with warnings := v.warnings ++ [missing m.source ref] }

/-- Draws a clip with the given asset under the given name. -/
def drawAs (files : Files) (width height : Int) (c : Clip) (ref : String) (a : Option Asset)
    (v : Picture) : Build Picture :=
  match c.content with
  | .background .. => return v
  | .text text style => do
    let output ← fresh "stream"
    draw v (fun current output =>
      textNode files c ref text (style.getD .standard) width height current output) output
  | .image m => do drawMedia c ref a v m false (← fresh "stream")
  | .video m _ => do drawMedia c ref a v m true (← fresh "stream")
  | .shape s => do
    let output ← fresh "stream"
    draw v (fun current output => shapeNode c ref (s.getD .standard) current output) output

/-- Apart from the name that it gives, a clip is drawn without a look at its id. -/
theorem drawClip_eq (t : Timeline) (files : Files) (assets : List Asset) (v : Picture) (item : Item)
    (id : Option (Option String)) :
    drawClip t files assets v item =
      drawAs files t.width t.height { item.2 with id := id } (refOf item) (assetAt assets item.1)
        v := by
  obtain ⟨slot, c⟩ := item
  cases hc : c.content <;> simp only [drawClip, drawAs, hc] <;> rfl

section

variable {e : Edit} {ρ : String → String} {P : String → Prop} {S S' : Labels → Labels → Prop}

/-- Drawing onto two pictures. -/
theorem pairs_draw {v v' : Picture} (hv : v.Alike ρ e.names P v') {output : String}
    {node node' : String → String → Build Node}
    (hnode : ∀ current, Pairs S S' (Node.Alike ρ e.names) (node (ρ current) (ρ output))
      (node' current output)) :
    Pairs S S' (Picture.Alike ρ e.names P) (draw v node (ρ output)) (draw v' node' output) := by
  unfold draw
  rw [hv.current]
  exact (hnode _).bind fun n n' hn =>
    .pure ⟨rfl, List.rel_append hv.nodes (.cons hn .nil), hv.warnings⟩

theorem pairs_drawMedia (follows : Follows ρ S) {c : Clip} {ref ref' : String}
    (href : e.names ref ref') {a a' : Option Asset} (found : Option.Rel e.KeptAsset a a')
    (numbered : ∀ b ∈ a, b.isFound = true → b.inputIndex.isSome) {v v' : Picture}
    (hv : v.Alike ρ e.names P v') (m : Media) (isVideo : Bool) (output : String) :
    Pairs S S (Picture.Alike ρ e.names P) (drawMedia c ref a v m isVideo (ρ output))
      (drawMedia c ref' a' v' m isVideo output) := by
  have warned : Thinned (Warned e.names) P (v.warnings ++ [missing m.source ref])
      (v'.warnings ++ [missing m.source ref']) :=
    hv.warnings.append (.keep ⟨m.source, ref, ref', href, rfl, rfl⟩ .nil)
  cases found with
  | none => exact .pure ⟨hv.current, hv.nodes, warned⟩
  | @some a a' related =>
    have same : a'.isFound = a.isFound := by rw [related.alike.same]; rfl
    have node : mediaNode c ref' m isVideo a' = mediaNode c ref' m isVideo a := by
      rw [related.alike.same]
      rfl
    unfold drawMedia
    simp only [same, node]
    split
    · rename_i isFound
      exact pairs_draw hv fun current =>
        pairs_mediaNode follows href (numbered a rfl isFound)
    · exact .pure ⟨hv.current, hv.nodes, warned⟩

theorem pairs_drawAs (follows : Follows ρ S') {files : Files} {width height : Int} {c : Clip}
    {ref ref' : String} (href : e.names ref ref') {a a' : Option Asset}
    (found : Option.Rel e.KeptAsset a a')
    (numbered : ∀ b ∈ a, b.isFound = true → b.inputIndex.isSome) (advances : Advances ρ S S' c)
    {v v' : Picture} (hv : v.Alike ρ e.names P v') :
    Pairs S S' (Picture.Alike ρ e.names P) (drawAs files width height c ref a v)
      (drawAs files width height c ref' a' v') := by
  obtain ⟨labelled, passed⟩ := advances
  unfold takesLabel at labelled passed
  unfold drawAs
  split
  · exact fun ls ls' hs => .ok ⟨hv, passed (by simp [*]) ls ls' hs⟩
  · refine (labelled (by simp [*])).bind ?_
    rintro _ output rfl
    exact pairs_draw hv fun current => pairs_textNode href
  · refine (labelled (by simp [*])).bind ?_
    rintro _ output rfl
    exact pairs_drawMedia follows href found numbered hv _ _ _
  · refine (labelled (by simp [*])).bind ?_
    rintro _ output rfl
    exact pairs_drawMedia follows href found numbered hv _ _ _
  · refine (labelled (by simp [*])).bind ?_
    rintro _ output rfl
    exact pairs_draw hv fun current => pairs_shapeNode follows href

/-- A clip that stays. -/
theorem pairs_drawClip {files : Files} {t t' : Timeline} {assets assets' : List Asset}
    (size : t'.width = t.width ∧ t'.height = t.height)
    (thinned : Thinned e.KeptAsset e.OmittedAsset assets assets')
    (numbered : ∀ a ∈ assets, a.isFound = true → a.inputIndex.isSome)
    {item item' : Item} (kept : e.Kept item item') (follows : Follows ρ S')
    (advances : Advances ρ S S' item.2) {v v' : Picture} (hv : v.Alike ρ e.names P v') :
    Pairs S S' (Picture.Alike ρ e.names P) (drawClip t files assets v item)
      (drawClip t' files assets' v' item') := by
  have same : { item'.2 with id := item.2.id } = item.2 := by rw [kept.clip]
  rw [drawClip_eq t files assets v item item.2.id, drawClip_eq t' files assets' v' item' item.2.id,
    same, size.1, size.2]
  exact pairs_drawAs follows kept.ref (Edit.rel_assetAt thinned kept)
    (fun a ha => numbered a (mem_of_assetAt ha).1) advances hv

/-- A clip that is left out takes a label and draws nothing. -/
theorem pairs_omitted {l : Library} {files : Files} {t : Timeline} {assets assets' : List Asset}
    (thinned : Thinned e.KeptAsset e.OmittedAsset assets assets') {item : Item}
    (omitted : e.Omitted l files item)
    (silenced : ∀ m, item.2.content.media? = some m → P (missing m.source (refOf item)))
    (skips : ∀ ls ls', S ls ls' → S' ("stream" :: ls) ls')
    {v v' : Picture} (hv : v.Alike ρ e.names P v') :
    Pairs S S' (Picture.Alike ρ e.names P) (drawClip t files assets v item) (pure v') := by
  intro ls ls' hs
  have absent := Edit.absent_assetAt thinned omitted
  have undrawn (m : Media) (isVideo : Bool) (output : String) (ls : Labels) :
      (drawMedia item.2 (refOf item) (assetAt assets item.1) v m isVideo output).run ls =
        .ok ({ v with warnings := v.warnings ++ [missing m.source (refOf item)] }, ls) := by
    unfold drawMedia
    split
    · rename_i a ha
      rw [if_neg (by simp [absent a ha])]
      rfl
    · rfl
  have dropped (m : Media) (hm : item.2.content.media? = some m) :
      Thinned (Warned e.names) P (v.warnings ++ [missing m.source (refOf item)]) v'.warnings := by
    simpa using hv.warnings.append (.drop (silenced m hm) .nil)
  obtain ⟨m, media, -⟩ := omitted.absent
  have warned : ∃ v₁, (drawClip t files assets v item).run ls = .ok (v₁, "stream" :: ls) ∧
      v₁.Alike ρ e.names P v' := by
    rw [drawClip_eq t files assets v item item.2.id]
    unfold drawAs
    cases hc : item.2.content with
    | image m => exact ⟨_, undrawn m false _ _, hv.current, hv.nodes, dropped m (by rw [hc]; rfl)⟩
    | video m volume =>
      exact ⟨_, undrawn m true _ _, hv.current, hv.nodes, dropped m (by rw [hc]; rfl)⟩
    | background color source | text text style | shape s =>
      rw [hc] at media
      cases media
  obtain ⟨v₁, run, alike⟩ := warned
  rw [run]
  exact .ok ⟨alike, skips ls ls' hs⟩

/-! ## The other steps -/

theorem pairs_base (follows : Follows ρ S) {t t' : Timeline}
    (size : t'.width = t.width ∧ t'.height = t.height) (rate : t'.frameRateValue = t.frameRateValue)
    (color : baseColor t' = baseColor t) {background background' : Option Asset}
    (behind : Option.Rel (Asset.Alike e.names) background background') (duration : Number) :
    Pairs S S (fun p q => p.1.Alike e.names q.1 ∧ p.2.Alike ρ e.names P q.2)
      (base t background duration) (base t' background' duration) := by
  have start : ρ baseLabel = baseLabel := follows.fixed _ (by decide)
  have colored : colorInput t' duration = colorInput t duration := by
    unfold colorInput
    rw [size.1, size.2, rate, color]
  have plain {warnings warnings' : List String}
      (warned : Thinned (Warned e.names) P warnings warnings') :
      Pairs S S (fun p q => p.1.Alike e.names q.1 ∧ p.2.Alike ρ e.names P q.2)
        (do
          let input ← attempt (colorInput t duration)
          return (input, (⟨baseLabel, [], warnings⟩ : Picture)))
        (do
          let input ← attempt (colorInput t' duration)
          return (input, (⟨baseLabel, [], warnings'⟩ : Picture))) := by
    rw [colored]
    refine (Pairs.attempt _).bind ?_
    rintro input _ ⟨rfl, made⟩
    obtain ⟨_, -, made⟩ := except_bind_ok.1 made
    cases made
    exact .pure ⟨⟨rfl, rfl, .none⟩, start.symm, .nil, warned⟩
  cases behind with
  | none => exact plain .nil
  | @some a a' related =>
    have path : a'.path = a.path := by rw [related.same]
    have options : backgroundOptions a' = backgroundOptions a := by
      rw [related.same]
      rfl
    cases hp : a.path with
    | none =>
      simp only [base, Option.bind_some, path, hp, Option.map_none]
      refine plain (.keep ⟨a.source, a.ref, a'.ref, related.ref, rfl, ?_⟩ .nil)
      rw [related.same]
    | some p =>
      simp only [base, Option.bind_some, path, hp, Option.map_some, size.1, size.2, options]
      refine (follows.fresh (by decide)).bind ?_
      rintro _ label rfl
      have inputs : [baseLabel] = [baseLabel].map ρ := by rw [List.map_singleton, start]
      exact .pure ⟨⟨rfl, rfl, .some related.ref⟩, rfl,
        .cons (.mk ⟨rfl, rfl, inputs, rfl, rfl, .some related.ref⟩ .nil) .nil, .nil⟩

theorem forall₂_finish {v v' : Picture} (hv : v.Alike ρ e.names P v')
    (fixed : ∀ label, Unnumbered label → ρ label = label) :
    List.Forall₂ (Node.Alike ρ e.names) (finish v) (finish v') := by
  have final : ρ finalLabel = finalLabel := fixed _ (by decide)
  have before : List.Forall₂ (Node.Alike ρ e.names) v.nodes.dropLast v'.nodes.dropLast := by
    rw [List.dropLast_eq_take, List.dropLast_eq_take, ← hv.nodes.length_eq]
    exact List.forall₂_take _ hv.nodes
  have last : Option.Rel (Node.Alike ρ e.names) v.nodes.getLast? v'.nodes.getLast? := by
    have reversed := List.rel_reverse hv.nodes
    rw [List.getLast?_eq_head?_reverse, List.getLast?_eq_head?_reverse]
    generalize v.nodes.reverse = ns at reversed ⊢
    generalize v'.nodes.reverse = ns' at reversed ⊢
    cases reversed with
    | nil => exact .none
    | cons first _ => exact .some first
  unfold finish
  generalize v.nodes.getLast? = n at last ⊢
  generalize v'.nodes.getLast? = n' at last ⊢
  cases last with
  | none =>
    refine .cons (.mk ⟨rfl, rfl, ?_, final.symm, rfl, .none⟩ .nil) .nil
    rw [hv.current]
    rfl
  | some related => exact List.rel_append before (.cons (related.relabel final) .nil)

/-! ## Sound -/

theorem rel_videoVoice {assets assets' : List Asset}
    (thinned : Thinned e.KeptAsset e.OmittedAsset assets assets') {item item' : Item}
    (kept : e.Kept item item') :
    Option.Rel (Voice.Alike e.names) (videoVoice (assetAt assets) item)
      (videoVoice (assetAt assets') item') := by
  have start : item'.2.startValue = item.2.startValue := by rw [kept.clip]; rfl
  have duration : item'.2.duration = item.2.duration := by rw [kept.clip]
  have found := Edit.rel_assetAt thinned kept
  unfold videoVoice
  rw [kept.content, start, duration]
  generalize assetAt assets item.1 = a at found ⊢
  generalize assetAt assets' item'.1 = a' at found ⊢
  cases found with
  | none => cases item.2.content <;> exact .none
  | @some a a' related =>
    have heard : (a'.isFound && a'.hasAudio) = (a.isFound && a.hasAudio) := by
      rw [related.alike.same]
      rfl
    cases item.2.content with
    | video m volume =>
      simp only [heard]
      split
      · exact .some ⟨related.alike, rfl, rfl, rfl⟩
      · exact .none
    | background | text | image | shape => exact .none

theorem forall₂_videoVoices {l : Library} {files : Files} {t t' : Timeline}
    (takes : e.Takes l files t t') {assets assets' : List Asset}
    (thinned : Thinned e.KeptAsset e.OmittedAsset assets assets') :
    List.Forall₂ (Voice.Alike e.names) (videoVoices t (assetAt assets))
      (videoVoices t' (assetAt assets')) := by
  rw [videoVoices_eq, videoVoices_eq]
  refine takes.slots.filterMap (fun item item' => rel_videoVoice thinned) fun item omitted => ?_
  rw [Option.eq_none_iff_forall_ne_some]
  intro v hv
  obtain ⟨hasset, found⟩ := asset_of_videoVoice hv
  rw [Edit.absent_assetAt thinned omitted _ hasset] at found
  cases found

theorem rel_trackVoice {t t' : Timeline} (same : t'.soundtrack = t.soundtrack)
    {track track' : Option Asset} (h : Option.Rel e.KeptAsset track track') (total : String) :
    Option.Rel (Voice.Alike e.names) (trackVoice t track total) (trackVoice t' track' total) := by
  unfold trackVoice
  rw [same]
  cases t.soundtrack.join with
  | none => exact .none
  | some s =>
    cases h with
    | none => exact .none
    | @some a a' related =>
      have found : a'.isFound = a.isFound := by rw [related.alike.same]; rfl
      simp only [found]
      split
      · exact .some ⟨related.alike, rfl, rfl, rfl⟩
      · exact .none

theorem forall₂_toList {α β : Type} {R : α → β → Prop} {a : Option α} {b : Option β}
    (h : Option.Rel R a b) : List.Forall₂ R a.toList b.toList := by
  cases h with
  | none => exact .nil
  | some related => exact .cons related .nil

theorem pairs_soundNodes (follows : Follows ρ S) {l : Library} {files : Files} {t t' : Timeline}
    (takes : e.Takes l files t t') {assets assets' : List Asset}
    (thinned : Thinned e.KeptAsset e.OmittedAsset assets assets') (total : String)
    (sampleRate : Number) :
    Pairs S S (List.Forall₂ (Node.Alike ρ e.names))
      (soundNodes t (assetAt assets) (assets.find? (·.isSoundtrack)) total sampleRate)
      (soundNodes t' (assetAt assets') (assets'.find? (·.isSoundtrack)) total sampleRate) := by
  have soundtrack : t'.soundtrack = t.soundtrack := by rw [takes.others]
  have track := rel_trackVoice soundtrack (Edit.rel_soundtrack thinned) total
  have voices := List.rel_append (forall₂_videoVoices takes thinned) (forall₂_toList track)
  unfold soundNodes
  beta_reduce at voices
  generalize videoVoices t (assetAt assets) ++ (trackVoice t _ total).toList = vs at voices ⊢
  generalize videoVoices t' (assetAt assets') ++ (trackVoice t' _ total).toList = vs' at voices ⊢
  cases voices with
  | nil => exact pairs_silence follows sampleRate total
  | cons first rest => exact pairs_mix follows (.cons first rest) total

/-! ## The whole command -/

/-- The colour that a clip brings as a background. -/
def colorOf (c : Clip) : Option String :=
  match c.content with
  | .background color _ => filled? color.join
  | _ => none

/-- The colour is that of the backgrounds, which stay. -/
theorem baseColor_eq {l : Library} {files : Files} {t t' : Timeline}
    (takes : e.Takes l files t t') : baseColor t' = baseColor t := by
  have own : t'.backgroundColor = t.backgroundColor := by rw [takes.others]; rfl
  have colors : List.Forall₂ Eq (t.slots.filterMap (colorOf ·.2))
      (t'.slots.filterMap (colorOf ·.2)) := by
    refine takes.slots.filterMap (fun item item' kept => ?_) fun item omitted => ?_
    · have same : colorOf item'.2 = colorOf item.2 := by rw [kept.clip]; rfl
      rw [same]
      cases colorOf item.2 with
      | none => exact .none
      | some color => exact .some rfl
    · obtain ⟨m, media, -⟩ := omitted.absent
      cases hc : item.2.content with
      | background color source =>
        rw [hc] at media
        cases media
      | text | image | video | shape => simp [colorOf, hc]
  have behind (t : Timeline) : baseColor t = (filled? t.backgroundColor).getD
      ((t.slots.filterMap (colorOf ·.2)).getLast?.getD "black") := by
    have clips : t.clips.filterMap colorOf = t.slots.filterMap (colorOf ·.2) := by
      rw [← t.map_slots, List.filterMap_map]
      rfl
    rw [← clips]
    unfold baseColor
    cases filled? t.backgroundColor <;> rfl
  rw [List.forall₂_eq_eq_eq] at colors
  rw [behind, behind, own, colors]

theorem pairs_build {S₁ : Labels → Labels → Prop} {k : Compiler} {l : Library} {files : Files}
    {t t' : Timeline} (takes : e.Takes l files t t')
    (duration : t'.effectiveDuration k.minDuration = t.effectiveDuration k.minDuration)
    {assets assets' : List Asset} (h : l.assets files t = .ok assets)
    (h' : l.assets files t' = .ok assets')
    (thinned : Thinned e.KeptAsset e.OmittedAsset assets assets')
    {background background' : Option Asset}
    (behind : Option.Rel (Asset.Alike e.names) background background')
    (follows : Follows ρ S) (follows₁ : Follows ρ S₁)
    (walk : ∀ {v v' : Picture}, v.Alike ρ e.names P v' →
      Pairs S S₁ (Picture.Alike ρ e.names P) (t.slots.foldlM (drawClip t files assets) v)
        (t'.slots.foldlM (drawClip t' files assets') v'))
    (outputPath : String) (output : OutputOptions) :
    Pairs S S₁ (Command.Alike ρ e.names P)
      (k.build files t assets outputPath output background)
      (k.build files t' assets' outputPath output background') := by
  have size := takes.size
  have rate : t'.frameRateValue = t.frameRateValue := by rw [takes.others]; rfl
  obtain ⟨inputs, inputs', registered, registered', alike⟩ := Edit.rel_inputs h h' thinned
  unfold build
  rw [duration, registered, registered']
  refine (pairs_base (P := P) follows size rate (baseColor_eq takes) behind _).bind ?_
  rintro ⟨input, start⟩ ⟨input', start'⟩ ⟨hinput, hstart⟩
  refine (Pairs.lift (.ok alike)).bind fun is is' his => ?_
  refine (walk hstart).bind fun picture picture' hpicture => ?_
  refine (Pairs.attempt _).bind ?_
  rintro total _ ⟨rfl, -⟩
  refine (pairs_soundNodes follows₁ takes thinned total k.sampleRate).bind ?_
  intro sound sound' hsound
  refine .pure ⟨.cons hinput his,
    List.rel_append (forall₂_finish hpicture follows₁.fixed) hsound, hpicture.warnings, ?_⟩
  simp only [size.1, size.2, rate]

/-- A timeline as a command: its files are looked for, and then it is compiled. -/
def draft (l : Library) (k : Compiler) (files : Files) (t : Timeline) (outputPath : String)
    (output : OutputOptions) : Except Failure Command := do
  let assets ← (l.assets files t).mapError .fault
  let background ← (l.background files t).mapError .fault
  k.compile files t assets outputPath output background

/-- The preview of a timeline is compiled in this way. -/
theorem preview_eq_draft (w : Cli.Surroundings) (o : Cli.Order) (t : Timeline) :
    Cli.preview w o t = draft (Cli.libraryFor w o) (make w.settings none none) w.files t
      (Path.join ((filled? o.outputDir).getD w.settings.outputDir)
        ("preview." ++ o.output.format.word)) o.output :=
  rfl

/-- A timeline and its edit give the same command up to names, or fail in the same way. The walk
along the clips is that of the edit. -/
theorem agree_draft {S₁ : Labels → Labels → Prop} {k : Compiler} {l : Library} {files : Files}
    {t t' : Timeline} (takes : e.Takes l files t t')
    (duration : t'.effectiveDuration k.minDuration = t.effectiveDuration k.minDuration)
    (follows : Follows ρ S) (follows₁ : Follows ρ S₁) (unused : S [] [])
    (walk : ∀ {assets assets' : List Asset},
      Thinned e.KeptAsset e.OmittedAsset assets assets' →
      (∀ a ∈ assets, a.isFound = true → a.inputIndex.isSome) →
      ∀ {v v' : Picture}, v.Alike ρ e.names P v' →
        Pairs S S₁ (Picture.Alike ρ e.names P) (t.slots.foldlM (drawClip t files assets) v)
          (t'.slots.foldlM (drawClip t' files assets') v'))
    (outputPath : String) (output : OutputOptions) :
    Agree (Command.Alike ρ e.names P) (draft l k files t outputPath output)
      (draft l k files t' outputPath output) := by
  have resolved := Edit.agree_assets takes
  unfold draft
  cases h : l.assets files t with
  | error f =>
    rw [h] at resolved
    cases h' : l.assets files t' with
    | error f' =>
      rw [h'] at resolved
      cases resolved
      exact .error _
    | ok assets' =>
      rw [h'] at resolved
      cases resolved
  | ok assets =>
    obtain ⟨assets', h', thinned⟩ := resolved.of_ok h
    rw [h']
    refine ((Edit.agree_background takes).mapError Failure.fault).bind ?_
    intro background background' behind
    obtain ⟨inputs, registered⟩ := Library.inputsFrom_resolved h
    have built := pairs_build takes duration h h' thinned behind follows follows₁
      (walk thinned fun a => isSome_of_found registered) outputPath output
    exact (built [] [] unused).map fun p q related => related.1

end

end Compiler
end Montage
