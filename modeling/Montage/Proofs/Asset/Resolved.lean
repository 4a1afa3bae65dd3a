import Montage.Proofs.Compiler.Numbering

/-!
# What resolving finds

The assets of a timeline are those of its clips, in order, and then that of its soundtrack; apart
from what a prober tells and from the numbers, each is given by its source alone (`assets_ok`).
From this follows what compiling is going to look up: the asset of a slot is that of the clip in
it (`assetAt_resolved`), and the soundtrack is that of the timeline (`soundtrack_resolved`), no
matter what names the clips have.

The numbers that resolving gives to found assets are the places that compiling gives to their
inputs, so registering them cannot fail (`inputsFrom_resolved`).
-/
namespace Montage

/-- An asset without its number and without what a prober tells. -/
def Asset.outline (a : Asset) : Asset :=
  { a with inputIndex := none, hasAudio := false, width := .null, height := .null }

namespace Library

variable {l : Library} {files : Files} {t : Timeline} {assets : List Asset}

/-! ## One asset -/

/-- What is known of an asset before its file is looked into. -/
def located (l : Library) (files : Files) (ref source : String) (kind : AssetKind)
    (slot : Option (Nat × Nat)) : Asset :=
  { ref, source, path := l.find? files source, kind, slot }

theorem probe_ok {path : String} {a b : Asset} (h : l.probe files path a = .ok b) :
    b.outline = a.outline := by
  unfold probe at h
  split at h
  · split at h <;> cases h <;> rfl
  · split at h <;> cases h <;> rfl

theorem asset_ok {ref source : String} {kind : AssetKind} {slot : Option (Nat × Nat)} {a : Asset}
    (h : l.asset files ref source kind slot = .ok a) :
    a.outline = l.located files ref source kind slot := by
  unfold asset at h
  simp only at h
  split at h
  · rename_i hnone
    cases h
    rfl
  · split at h
    · exact probe_ok h
    · cases h
      rfl

/-! ## All assets -/

/-- The asset of a clip, if the clip shows a file. -/
def clipAsset? (l : Library) (files : Files) (item : Compiler.Item) : Option Asset :=
  (wanted? item.2.content).map fun w =>
    l.located files (Clip.ref item.1.1 item.1.2 (some item.2)) w.2 w.1 (some item.1)

/-- The asset of the soundtrack, if there is one. -/
def trackAsset? (l : Library) (files : Files) (t : Timeline) : Option Asset :=
  t.soundtrack.join.map fun s => l.located files soundtrackRef s.source .audio none

/-- What is kept of a list, if each element is kept or dropped as it should be. -/
theorem filterMapM_ok {α β γ ε : Type} {f : α → Except ε (Option β)} {g : β → γ}
    {keep : α → Option γ} {xs : List α} {ys : List β}
    (hf : ∀ x o, f x = .ok o → o.map g = keep x) (h : xs.filterMapM f = .ok ys) :
    ys.map g = xs.filterMap keep := by
  induction xs generalizing ys with
  | nil =>
    simp only [List.filterMapM_nil] at h
    cases h
    rfl
  | cons x xs ih =>
    rw [List.filterMapM_cons] at h
    obtain ⟨o, hx, h⟩ := Graph.except_bind_ok.1 h
    have hkeep := hf x o hx
    cases o with
    | none => rw [List.filterMap_cons_none hkeep.symm, ih h]
    | some y =>
      obtain ⟨zs, hzs, h⟩ := Graph.except_bind_ok.1 h
      cases h
      rw [List.filterMap_cons_some hkeep.symm, List.map_cons, ih hzs]

theorem map_outline_number (n : Int) (as : List Asset) :
    (number n as).map Asset.outline = as.map Asset.outline := by
  induction as generalizing n with
  | nil => rfl
  | cons a as ih =>
    unfold number
    split
    · simp only [List.map_cons, ih]
      rfl
    · simp only [List.map_cons, ih]

/-- The assets are numbered from 1 on and given by the clips and the soundtrack. -/
theorem assets_ok (h : l.assets files t = .ok assets) :
    (∃ as, assets = number 1 as) ∧
      assets.map Asset.outline =
        t.slots.filterMap (l.clipAsset? files) ++ (l.trackAsset? files t).toList := by
  unfold Library.assets at h
  obtain ⟨clips, hclips, h⟩ := Graph.except_bind_ok.1 h
  have hmap : clips.map Asset.outline = t.slots.filterMap (l.clipAsset? files) := by
    refine filterMapM_ok ?_ hclips
    rintro ⟨slot, c⟩ o ho
    unfold clipAsset?
    simp only at ho
    split at ho
    · rename_i hw
      obtain ⟨a, ha, rfl⟩ := Graph.except_map_ok.1 ho
      simp [hw, asset_ok ha]
    · rename_i hw
      cases ho
      simp [hw]
  unfold trackAsset?
  simp only at h
  split at h
  · rename_i hs
    obtain ⟨sound, hsound, h⟩ := Graph.except_bind_ok.1 h
    obtain ⟨a, ha, rfl⟩ := Graph.except_map_ok.1 hsound
    cases h
    exact ⟨⟨_, rfl⟩, by simp [map_outline_number, hmap, asset_ok ha, hs]⟩
  · rename_i hs
    cases h
    exact ⟨⟨_, rfl⟩, by simp [map_outline_number, hmap, hs]⟩

/-! ## Looking assets up -/

theorem find?_outline {p : Asset → Bool} (hp : ∀ a, p a.outline = p a) (as : List Asset) :
    (as.find? p).map Asset.outline = (as.map Asset.outline).find? p := by
  rw [List.find?_map]
  congr 2
  funext a
  exact (hp a).symm

theorem slot_clipAsset? {item : Compiler.Item} {a : Asset}
    (h : l.clipAsset? files item = some a) : a.slot = some item.1 := by
  unfold clipAsset? at h
  obtain ⟨w, -, rfl⟩ := Option.map_eq_some_iff.1 h
  rfl

theorem slot_trackAsset? {a : Asset} (h : l.trackAsset? files t = some a) :
    a.slot = none ∧ a.kind = .audio := by
  unfold trackAsset? at h
  obtain ⟨s, -, rfl⟩ := Option.map_eq_some_iff.1 h
  exact ⟨rfl, rfl⟩

/-- The asset in the slot of a clip is that of the clip. -/
theorem assetAt_resolved (h : l.assets files t = .ok assets) {item : Compiler.Item}
    (hitem : item ∈ t.slots) :
    (Compiler.assetAt assets item.1).map Asset.outline = l.clipAsset? files item := by
  have hall := (assets_ok h).2
  unfold Compiler.assetAt
  rw [find?_outline (fun a => rfl), List.map_reverse, hall]
  cases hfind : List.find? _ _ with
  | none =>
    cases hc : l.clipAsset? files item with
    | none => rfl
    | some a =>
      have := List.find?_eq_none.1 hfind a (by
        rw [List.mem_reverse, List.mem_append, List.mem_filterMap]
        exact Or.inl ⟨item, hitem, hc⟩)
      exact absurd (slot_clipAsset? hc) (by simpa using this)
  | some a =>
    have hslot : a.slot = some item.1 := by simpa using List.find?_some hfind
    have hmem := List.mem_of_find?_eq_some hfind
    rw [List.mem_reverse, List.mem_append] at hmem
    rcases hmem with hmem | hmem
    · obtain ⟨other, hother, ha⟩ := List.mem_filterMap.1 hmem
      -- two clips of one slot are one clip
      have : other.1 = item.1 := by simpa [slot_clipAsset? ha] using hslot
      rw [← List.inj_on_of_nodup_map (Compiler.slots_nodup t) hother hitem this, ha]
    · rw [(slot_trackAsset? (Option.mem_toList.1 hmem)).1] at hslot
      cases hslot

/-- The soundtrack is that of the timeline. -/
theorem soundtrack_resolved (h : l.assets files t = .ok assets) :
    (assets.find? (·.isSoundtrack)).map Asset.outline = l.trackAsset? files t := by
  rw [find?_outline (fun a => rfl), (assets_ok h).2, List.find?_append]
  have clips : (t.slots.filterMap (l.clipAsset? files)).find? (·.isSoundtrack) = none := by
    refine List.find?_eq_none.2 fun a ha => ?_
    obtain ⟨item, -, ha⟩ := List.mem_filterMap.1 ha
    simp [Asset.isSoundtrack, slot_clipAsset? ha]
  rw [clips, Option.none_or]
  cases htrack : l.trackAsset? files t with
  | none => rfl
  | some a =>
    obtain ⟨hslot, hkind⟩ := slot_trackAsset? htrack
    simp [Asset.isSoundtrack, hslot, hkind]

/-- The file of the background. -/
theorem background_resolved {background : Option Asset}
    (h : l.background files t = .ok background) :
    background.bind (·.path) = t.backgroundSource.bind (l.find? files) := by
  unfold Library.background at h
  split at h
  · rename_i hs
    cases h
    rw [hs]
    rfl
  · rename_i source hs
    rw [hs, Option.bind_some]
    split at h
    · rename_i hempty
      cases h
      simp [find?, hempty]
    · obtain ⟨a, ha, h⟩ := Graph.except_bind_ok.1 h
      have hpath : a.path = l.find? files source := congrArg Asset.path (asset_ok ha)
      cases h
      rw [Option.bind_some, ← hpath]
      split <;> rfl

/-! ## Numbers -/

/-- The assets with a file, and their files. -/
def withFiles (as : List Asset) : List (Asset × String) :=
  as.filterMap fun a => a.path.map fun p => (a, p)

/-- The first asset with a file gets the next number, and the others go on from there. -/
theorem withFiles_number_cons (n : Int) (a : Asset) (as : List Asset) :
    withFiles (number n (a :: as)) =
      match a.path with
      | some p => ({ a with inputIndex := some n }, p) :: withFiles (number (n + 1) as)
      | none => withFiles (number n as) := by
  unfold withFiles
  rw [number]
  cases hp : a.path <;> simp [Asset.isFound, hp]

theorem le_of_mem_withFiles {n : Int} {as : List Asset} {x : Asset × String}
    (h : x ∈ withFiles (number n as)) : n ≤ x.1.inputIndex.getD 0 := by
  induction as generalizing n with
  | nil => cases h
  | cons a as ih =>
    rw [withFiles_number_cons] at h
    split at h
    · rcases List.mem_cons.1 h with rfl | h
      · exact Int.le_refl n
      · have := ih h
        omega
    · exact ih h

/-- Sorting by number changes nothing. -/
theorem found_number (n : Int) (as : List Asset) :
    Compiler.found (number n as) = withFiles (number n as) := by
  refine List.mergeSort_of_pairwise ?_
  induction as generalizing n with
  | nil => exact .nil
  | cons a as ih =>
    have hcons := withFiles_number_cons n a as
    unfold withFiles at hcons ih
    rw [hcons]
    split
    · refine List.pairwise_cons.2 ⟨fun x hx => ?_, ih (n + 1)⟩
      have := le_of_mem_withFiles hx
      simp only [Option.getD_some, decide_eq_true_eq]
      omega
    · exact ih n

/-- Each number is the place of its input. -/
theorem inputsFrom_number (n : Nat) (as : List Asset) :
    ∃ inputs, Compiler.inputsFrom n (withFiles (number n as)) = .ok inputs := by
  induction as generalizing n with
  | nil => exact ⟨[], rfl⟩
  | cons a as ih =>
    rw [withFiles_number_cons]
    split
    · obtain ⟨inputs, h⟩ := ih (n + 1)
      push_cast at h
      exact ⟨_, by simp only [Compiler.inputsFrom, ↓reduceIte, h]; rfl⟩
    · exact ih n

/-- **Registering.** Compiling takes the numbers that resolving gave. -/
theorem inputsFrom_resolved (h : l.assets files t = .ok assets) :
    ∃ inputs, Compiler.inputsFrom 1 (Compiler.found assets) = .ok inputs := by
  obtain ⟨as, rfl⟩ := (assets_ok h).1
  rw [found_number]
  exact inputsFrom_number 1 as

end Library
end Montage
