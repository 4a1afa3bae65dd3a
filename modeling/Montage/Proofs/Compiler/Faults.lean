import Montage.Proofs.Compiler.Numbering

/-!
# How compiling fails

A building step can fail in two ways: a computation has no result, which is a fault, or the graph
cannot be built. Only two places know the second way: an asset whose number is not its place, and
a clip whose asset has a file but no number. So once the assets are numbered as their inputs are,
all failures are faults (`compile_fault`).

`OnlyFaults` goes through all steps: it holds of the elementary ones and is kept by doing one
after another.
-/
namespace Montage.Graph

variable {α β σ : Type}

/-- A building step that fails by faults only. -/
def OnlyFaults (x : Build α) : Prop :=
  ∀ ls e, x.run ls = .error e → ∃ f, e = .fault f

/-! ## Elementary steps -/

theorem onlyFaults_pure (a : α) : OnlyFaults (pure a) := by
  intro ls e h
  cases h

theorem onlyFaults_fresh (stem : String) : OnlyFaults (fresh stem) := by
  intro ls e h
  cases h

theorem onlyFaults_attempt (x : Except Fault α) : OnlyFaults (attempt x) := by
  intro ls e h
  cases x with
  | ok a => cases h
  | error f =>
    cases h
    exact ⟨f, rfl⟩

theorem onlyFaults_lift {x : Except Failure α} {a : α} (h : x = .ok a) :
    OnlyFaults (liftM x : Build α) := by
  subst h
  intro ls e h
  cases h

theorem OnlyFaults.bind {x : Build α} {f : α → Build β} (hx : OnlyFaults x)
    (hf : ∀ a, OnlyFaults (f a)) : OnlyFaults (x >>= f) := by
  intro ls e h
  rw [StateT.run_bind] at h
  cases hrun : x.run ls with
  | error e' =>
    rw [hrun] at h
    cases h
    exact hx ls e hrun
  | ok p =>
    rw [hrun] at h
    exact hf p.1 p.2 e h

theorem onlyFaults_foldlM {f : σ → α → Build σ} (hf : ∀ v x, OnlyFaults (f v x)) {xs : List α}
    (v : σ) : OnlyFaults (xs.foldlM f v) := by
  induction xs generalizing v with
  | nil => exact onlyFaults_pure v
  | cons x xs ih =>
    rw [List.foldlM_cons]
    exact (hf v x).bind ih

theorem onlyFaults_mapM {f : α → Build β} (hf : ∀ x, OnlyFaults (f x)) (xs : List α) :
    OnlyFaults (xs.mapM f) := by
  induction xs with
  | nil => exact onlyFaults_pure []
  | cons x xs ih =>
    rw [List.mapM_cons]
    exact (hf x).bind fun y => ih.bind fun ys => onlyFaults_pure (y :: ys)

/-! ## Nodes -/

theorem onlyFaults_chain {m : Medium} {ref : Option String} (layer : String) (links : List Link) :
    OnlyFaults (chain m ref layer links) := by
  induction links generalizing layer with
  | nil => exact onlyFaults_pure _
  | cons l rest ih =>
    exact (onlyFaults_fresh l.stem).bind fun label => (ih label).bind fun _ => onlyFaults_pure _

theorem onlyFaults_textNode (files : Files) (c : Clip) (ref text : String) (style : TextStyle)
    (width height : Int) (current output : String) :
    OnlyFaults (textNode files c ref text style width height current output) :=
  (onlyFaults_attempt _).bind fun _ => onlyFaults_pure _

theorem onlyFaults_shapeNode (c : Clip) (ref : String) (s : Shape) (current output : String) :
    OnlyFaults (shapeNode c ref s current output) := by
  refine (onlyFaults_attempt _).bind fun boxes => ?_
  cases boxes.getLast? with
  | none => exact onlyFaults_pure _
  | some last => exact (onlyFaults_chain _ _).bind fun _ => onlyFaults_pure _

/-- An image or a video with a number fails by its measures at most. -/
theorem onlyFaults_mediaNode (c : Clip) (ref : String) (m : Media) (isVideo : Bool) {a : Asset}
    (ha : a.inputIndex.isSome) (current output : String) :
    OnlyFaults (mediaNode c ref m isVideo a current output) := by
  obtain ⟨k, hk⟩ := Option.isSome_iff_exists.1 ha
  unfold mediaNode
  rw [hk]
  exact (onlyFaults_attempt _).bind fun _ => (onlyFaults_chain _ _).bind fun _ => onlyFaults_pure _

theorem onlyFaults_voiceNode (v : Voice) : OnlyFaults (voiceNode v) :=
  (onlyFaults_chain _ _).bind fun _ => (onlyFaults_attempt _).bind fun _ =>
    (onlyFaults_fresh _).bind fun _ => onlyFaults_pure _

theorem onlyFaults_soundNodes (t : Timeline) (at? : Nat × Nat → Option Asset)
    (soundtrack : Option Asset) (total : String) (rate : Number) :
    OnlyFaults (soundNodes t at? soundtrack total rate) := by
  unfold soundNodes
  split
  · exact (onlyFaults_fresh _).bind fun _ => onlyFaults_pure _
  · exact (onlyFaults_mapM onlyFaults_voiceNode _).bind fun _ =>
      (onlyFaults_fresh _).bind fun _ => onlyFaults_pure _

end Montage.Graph

namespace Montage.Compiler

open Montage.Graph

/-! ## The steps of compiling -/

theorem onlyFaults_draw (v : Picture) {node : String → String → Build Node} (output : String)
    (h : OnlyFaults (node v.current output)) : OnlyFaults (draw v node output) :=
  h.bind fun _ => onlyFaults_pure _

theorem onlyFaults_drawClip (t : Timeline) (files : Files) {assets : List Asset}
    (numbered : ∀ a ∈ assets, a.isFound → a.inputIndex.isSome) (v : Picture) (item : Item) :
    OnlyFaults (drawClip t files assets v item) := by
  obtain ⟨slot, c⟩ := item
  cases hc : c.content with
  | background color source =>
    simp only [drawClip, hc]
    exact onlyFaults_pure v
  | text text style =>
    simp only [drawClip, hc]
    exact (onlyFaults_fresh _).bind fun output =>
      onlyFaults_draw v output (onlyFaults_textNode _ _ _ _ _ _ _ _ _)
  | shape s =>
    simp only [drawClip, hc]
    exact (onlyFaults_fresh _).bind fun output =>
      onlyFaults_draw v output (onlyFaults_shapeNode _ _ _ _ _)
  | image m | video m volume =>
    simp only [drawClip, hc]
    refine (onlyFaults_fresh _).bind fun output => ?_
    cases ha : assetAt assets slot with
    | none => exact onlyFaults_pure _
    | some a =>
      obtain ⟨hmem, -⟩ := mem_of_assetAt ha
      by_cases hfound : a.isFound = true
      · simp only [hfound, ↓reduceIte]
        exact onlyFaults_draw v output (onlyFaults_mediaNode _ _ _ _ (numbered a hmem hfound) _ _)
      · simp only [hfound, Bool.false_eq_true, ↓reduceIte]
        exact onlyFaults_pure _

theorem onlyFaults_base (t : Timeline) (background : Option Asset) (duration : Number) :
    OnlyFaults (base t background duration) := by
  unfold base
  split
  · exact (onlyFaults_fresh _).bind fun _ => onlyFaults_pure _
  · exact (onlyFaults_attempt _).bind fun _ => onlyFaults_pure _

/-- Once each asset stands at the place of its number, only faults are left. -/
theorem compile_fault {k : Compiler} {files : Files} {t : Timeline} {assets : List Asset}
    {outputPath : String} {output : OutputOptions} {background : Option Asset}
    {inputs : List Input} (h : inputsFrom 1 (found assets) = .ok inputs) {e : Failure}
    (he : k.compile files t assets outputPath output background = .error e) :
    ∃ f, e = .fault f := by
  have numbered := fun a ha => isSome_of_found h (a := a) ha
  have steps : OnlyFaults (k.build files t assets outputPath output background) := by
    refine (onlyFaults_base _ _ _).bind fun _ => (onlyFaults_lift h).bind fun _ => ?_
    refine (onlyFaults_foldlM (onlyFaults_drawClip t files numbered) _).bind fun _ => ?_
    refine (onlyFaults_attempt _).bind fun _ => ?_
    exact (onlyFaults_soundNodes _ _ _ _ _).bind fun _ => onlyFaults_pure _
  unfold compile at he
  cases hrun : (k.build files t assets outputPath output background).run [] with
  | ok p => simp [hrun, Except.map] at he
  | error e' =>
    simp only [hrun, Except.map, Except.error.injEq] at he
    exact steps [] e (he ▸ hrun)

end Montage.Compiler
