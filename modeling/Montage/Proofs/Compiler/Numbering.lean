import Mathlib.Data.List.Nodup
import Montage.Proofs.Compiler.Drawing

/-!
# Which input an asset is

A command has input 0 and then one input for each asset with a file. Compiling goes on only if
each such asset carries the number of its place (`inputsFrom`), so from there on the number in a
label and the place in the list of inputs are the same thing (`numbered_of_mem`), and no two
assets share a number (`eq_of_inputIndex_eq`).

Clips look their asset up by slot, and no two clips have the same slot (`slots_nodup`). So the
pictures and the voices of different clips belong to different assets (`layerOf_eq_some`,
`voicesOf_slots_nodup`), and with that to different inputs.
-/
namespace Montage.Compiler

open Montage.Graph

/-! ## Numbers and places -/

theorem inputsFrom_getElem? {n i : Nat} {found : List (Asset × String)} {inputs : List Input}
    {a : Asset} {p : String} (h : inputsFrom n found = .ok inputs) (hi : found[i]? = some (a, p)) :
    a.inputIndex = some ((n + i : Nat) : Int) ∧
      inputs[i]? = some ⟨p, inputOptions a, some a.ref⟩ := by
  induction found generalizing n i inputs with
  | nil => cases hi
  | cons first rest ih =>
    simp only [inputsFrom] at h
    split at h
    · rename_i hn
      obtain ⟨is, hrest, h⟩ := except_bind_ok.1 h
      cases h
      cases i with
      | zero =>
        cases hi
        exact ⟨hn, rfl⟩
      | succ i =>
        obtain ⟨hindex, hinput⟩ := ih hrest hi
        exact ⟨by rw [hindex]; congr 2; omega, hinput⟩
    · cases h

theorem mem_found {assets : List Asset} {a : Asset} {p : String} :
    (a, p) ∈ found assets ↔ a ∈ assets ∧ a.path = some p := by
  simp only [found, List.mem_mergeSort, List.mem_filterMap, Option.map_eq_some_iff,
    Prod.mk.injEq]
  constructor
  · rintro ⟨b, hb, q, hq, rfl, rfl⟩
    exact ⟨hb, hq⟩
  · rintro ⟨ha, hp⟩
    exact ⟨a, ha, p, hp, rfl, rfl⟩

section

variable {assets : List Asset} {inputs : List Input} (h : inputsFrom 1 (found assets) = .ok inputs)
include h

/-- The input of an asset stands at its number, counted from input 0. -/
theorem numbered_of_mem {a : Asset} {p : String} (ha : a ∈ assets) (hp : a.path = some p) :
    ∃ k, a.inputIndex = some ((k + 1 : Nat) : Int) ∧
      inputs[k]? = some ⟨p, inputOptions a, some a.ref⟩ := by
  obtain ⟨k, hk⟩ := List.mem_iff_getElem?.1 (mem_found.2 ⟨ha, hp⟩)
  obtain ⟨hindex, hinput⟩ := inputsFrom_getElem? h hk
  exact ⟨k, by rw [hindex, Nat.add_comm], hinput⟩

/-- An asset with a file has a number. -/
theorem isSome_of_found {a : Asset} (ha : a ∈ assets) (found : a.isFound = true) :
    a.inputIndex.isSome := by
  obtain ⟨p, hp⟩ := Option.isSome_iff_exists.1 found
  obtain ⟨k, hk, -⟩ := numbered_of_mem h ha hp
  rw [hk]
  rfl

/-- No two assets with a file share a number. -/
theorem eq_of_inputIndex_eq {a b : Asset} (ha : a ∈ assets) (hb : b ∈ assets)
    (fa : a.isFound = true) (fb : b.isFound = true) (e : a.inputIndex = b.inputIndex) : a = b := by
  obtain ⟨p, hp⟩ := Option.isSome_iff_exists.1 fa
  obtain ⟨q, hq⟩ := Option.isSome_iff_exists.1 fb
  obtain ⟨i, hi⟩ := List.mem_iff_getElem?.1 (mem_found.2 ⟨ha, hp⟩)
  obtain ⟨j, hj⟩ := List.mem_iff_getElem?.1 (mem_found.2 ⟨hb, hq⟩)
  have hai := (inputsFrom_getElem? h hi).1
  have hbj := (inputsFrom_getElem? h hj).1
  rw [hai, hbj, Option.some.injEq, Int.natCast_inj] at e
  obtain rfl : i = j := by omega
  rw [hi, Option.some.injEq, Prod.mk.injEq] at hj
  exact hj.1

end

/-! ## Slots -/

theorem zipIdx_nodup {α : Type} (l : List α) : (l.zipIdx.map (·.2)).Nodup := by
  rw [List.zipIdx_map_snd]
  exact List.nodup_range'

/-- No two clips of a timeline are in the same slot. -/
theorem slots_nodup (t : Timeline) : (t.slots.map (·.1)).Nodup := by
  unfold Timeline.slots
  rw [List.map_flatMap, List.nodup_flatMap]
  refine ⟨?_, (List.pairwise_map.1 (zipIdx_nodup t.trackList)).imp ?_⟩
  · rintro ⟨track, i⟩ -
    rw [List.map_map, show (Prod.fst ∘ fun x : Clip × Nat => ((i, x.2), x.1)) =
      (fun j => (i, j)) ∘ Prod.snd from rfl, ← List.map_map]
    exact (zipIdx_nodup track.clipList).map fun _ _ e => (Prod.mk.inj e).2
  · rintro ⟨track, i⟩ ⟨track', i'⟩ hne slot h h'
    simp only [List.map_map, List.mem_map, Function.comp_apply] at h h'
    obtain ⟨_, -, rfl⟩ := h
    obtain ⟨_, -, e⟩ := h'
    exact hne (Prod.mk.inj e).1.symm

theorem mem_of_assetAt {assets : List Asset} {slot : Nat × Nat} {a : Asset}
    (h : assetAt assets slot = some a) : a ∈ assets ∧ a.slot = some slot := by
  unfold assetAt at h
  exact ⟨List.mem_reverse.1 (List.mem_of_find?_eq_some h), by simpa using List.find?_some h⟩

/-- A layer is the picture of the clip's own asset. -/
theorem layerOf_eq_some {assets : List Asset} {item : Item} {l : String}
    (h : layerOf assets item = some l) :
    ∃ a ∈ assets, a.slot = some item.1 ∧ a.isFound = true ∧
      l = inputText a.inputIndex ++ ":v" := by
  unfold layerOf at h
  split at h
  · rename_i a _ ha
    obtain ⟨hmem, hslot⟩ := mem_of_assetAt ha
    split at h
    · rename_i hfound
      exact ⟨a, hmem, hslot, hfound, by simpa using h.symm⟩
    · cases h
  · cases h

/-- The voice of a clip, if it has one. -/
def videoVoice (at? : Nat × Nat → Option Asset) (item : Item) : Option Voice :=
  match item.2.content, at? item.1 with
  | .video _ volume, some a =>
    if a.isFound && a.hasAudio then
      some ⟨a, item.2.startValue, Number.compactFloat item.2.duration, volume.getD 1⟩
    else none
  | _, _ => none

theorem videoVoices_eq (t : Timeline) (at? : Nat × Nat → Option Asset) :
    videoVoices t at? = t.slots.filterMap (videoVoice at?) := rfl

/-- The voice of a clip is that of the asset in the clip's slot. -/
theorem asset_of_videoVoice {at? : Nat × Nat → Option Asset} {item : Item} {v : Voice}
    (h : videoVoice at? item = some v) : at? item.1 = some v.asset ∧ v.asset.isFound = true := by
  unfold videoVoice at h
  split at h
  · rename_i a _ ha
    split at h
    · rename_i hfound
      cases h
      exact ⟨ha, (Bool.and_eq_true_iff.1 hfound).1⟩
    · cases h
  · cases h

theorem videoVoice_eq_some {assets : List Asset} {item : Item} {v : Voice}
    (h : videoVoice (assetAt assets) item = some v) :
    v.asset ∈ assets ∧ v.asset.slot = some item.1 ∧ v.asset.isFound = true := by
  obtain ⟨ha, hfound⟩ := asset_of_videoVoice h
  obtain ⟨hmem, hslot⟩ := mem_of_assetAt ha
  exact ⟨hmem, hslot, hfound⟩

theorem asset_of_trackVoice {t : Timeline} {soundtrack : Option Asset} {total : String} {v : Voice}
    (h : trackVoice t soundtrack total = some v) :
    soundtrack = some v.asset ∧ v.asset.isFound = true := by
  unfold trackVoice at h
  split at h
  · split at h
    · rename_i hfound
      cases h
      exact ⟨rfl, hfound⟩
    · cases h
  · cases h

/-- The voice of the soundtrack is that of an asset without a slot. -/
theorem trackVoice_eq_some {t : Timeline} {assets : List Asset} {total : String} {v : Voice}
    (h : trackVoice t (assets.find? (·.isSoundtrack)) total = some v) :
    v.asset ∈ assets ∧ v.asset.slot = none ∧ v.asset.isFound = true := by
  obtain ⟨ha, hfound⟩ := asset_of_trackVoice h
  have hsound := List.find?_some ha
  simp only [Asset.isSoundtrack, Bool.and_eq_true, Option.isNone_iff_eq_none] at hsound
  exact ⟨List.mem_of_find?_eq_some ha, hsound.1, hfound⟩

theorem mem_voicesOf {t : Timeline} {assets : List Asset} {total : String} {v : Voice}
    (h : v ∈ voicesOf t assets total) : v.asset ∈ assets ∧ v.asset.isFound = true := by
  rcases List.mem_append.1 h with h | h
  · rw [videoVoices_eq] at h
    obtain ⟨item, -, hv⟩ := List.mem_filterMap.1 h
    obtain ⟨hmem, -, hfound⟩ := videoVoice_eq_some hv
    exact ⟨hmem, hfound⟩
  · obtain ⟨hmem, -, hfound⟩ := trackVoice_eq_some (Option.mem_toList.1 h)
    exact ⟨hmem, hfound⟩

/-- No two voices are of one slot. -/
theorem voicesOf_slots_nodup (t : Timeline) (assets : List Asset) (total : String) :
    ((voicesOf t assets total).map (·.asset.slot)).Nodup := by
  unfold voicesOf
  rw [List.map_append, List.nodup_append']
  have slots := List.pairwise_map.1 (slots_nodup t)
  refine ⟨?_, ?_, ?_⟩
  · rw [videoVoices_eq]
    refine List.pairwise_map.2 (slots.filterMap _ ?_)
    intro item item' hne v hv v' hv'
    rw [(videoVoice_eq_some hv).2.1, (videoVoice_eq_some hv').2.1, ne_eq, Option.some.injEq]
    exact hne
  · cases trackVoice t (assets.find? (·.isSoundtrack)) total <;> simp
  · intro slot h h'
    rw [videoVoices_eq] at h
    obtain ⟨v, hv, rfl⟩ := List.mem_map.1 h
    obtain ⟨v', hv', e⟩ := List.mem_map.1 h'
    obtain ⟨item, -, hv⟩ := List.mem_filterMap.1 hv
    rw [(videoVoice_eq_some hv).2.1, (trackVoice_eq_some (Option.mem_toList.1 hv')).2.1] at e
    cases e

end Montage.Compiler
