import Mathlib.Logic.Function.Basic
import Montage.Proofs.Compiler.Agreement
import Montage.Proofs.Compiler.Edited

/-!
# A clip without its file

An image or a video whose file is not there is left out, with a warning, and nothing else changes:
`draft_without` compares the timeline with the one that does not have the clip. Without the clip
those behind it in its track move up (`Timeline.slots_without`), so they may get other names; and
the label that the clip used up goes to the next one, so all `stream` labels from there on are lower
by one (`skipped`). The walk along the clips has three parts: before the clip both runs have given
out the same labels, at the clip one of them gives out a label, and from then on it is one ahead.
-/
namespace Montage

/-! ## Taking a clip out -/

/-- The timeline without the clip of a slot. -/
def Timeline.without (slot : Nat × Nat) (t : Timeline) : Timeline :=
  { t with tracks := t.tracks.map fun tracks => tracks.modify slot.1 fun track =>
      { track with clips := track.clips.map (·.eraseIdx slot.2) } }

namespace Compiler

/-- Where a slot goes when the clip of another one is taken out. -/
def closeUp (slot s : Nat × Nat) : Nat × Nat :=
  if s.1 = slot.1 ∧ slot.2 < s.2 then (s.1, s.2 - 1) else s

theorem closeUp_inj {slot s s' : Nat × Nat} (hs : s ≠ slot) (hs' : s' ≠ slot)
    (h : closeUp slot s = closeUp slot s') : s = s' := by
  obtain ⟨i, j⟩ := slot
  obtain ⟨a, b⟩ := s
  obtain ⟨a', b'⟩ := s'
  simp only [closeUp, ne_eq, Prod.mk.injEq] at *
  split at h <;> split at h <;> simp only [Prod.mk.injEq] at h ⊢ <;> omega

/-- A clip in the slot that it has when the clip of another slot is taken out. -/
def moveUp (slot : Nat × Nat) (item : Item) : Item := (closeUp slot item.1, item.2)

end Compiler

namespace Timeline

/-- The elements that are left keep their places, but for those behind. -/
theorem zipIdx_eraseIdx {α : Type} (xs : List α) (j k : Nat) :
    (xs.eraseIdx j).zipIdx k = ((xs.zipIdx k).filter (·.2 != k + j)).map
      fun x => (x.1, if k + j < x.2 then x.2 - 1 else x.2) := by
  induction xs generalizing j k with
  | nil => rfl
  | cons x xs ih =>
    cases j with
    | zero =>
      have behind : ∀ y ∈ xs.zipIdx (k + 1), k < y.2 := fun y hy => List.le_snd_of_mem_zipIdx hy
      have kept : (xs.zipIdx (k + 1)).filter (·.2 != k + 0) = xs.zipIdx (k + 1) :=
        List.filter_eq_self.2 fun y hy => by simpa using (behind y hy).ne'
      have closed : ((xs.zipIdx (k + 1)).map fun x => (x.1, if k + 0 < x.2 then x.2 - 1 else x.2)) =
          (xs.zipIdx (k + 1)).map fun x => (x.1, x.2 - 1) :=
        List.map_congr_left fun y hy => by simp [behind y hy]
      rw [List.eraseIdx_cons_zero, List.zipIdx_cons, List.filter_cons_of_neg (by simp), kept,
        closed, List.zipIdx_succ, List.map_map]
      exact (List.map_id _).symm
    | succ j =>
      rw [List.eraseIdx_cons_succ, List.zipIdx_cons, List.zipIdx_cons, ih,
        List.filter_cons_of_pos (by simp), List.map_cons, if_neg (by simp),
        show k + (j + 1) = k + 1 + j by omega]

theorem zipIdx_modify {α : Type} (f : α → α) (xs : List α) (i : Nat) :
    (xs.modify i f).zipIdx = xs.zipIdx.map fun x => (if i = x.2 then f x.1 else x.1, x.2) := by
  refine List.ext_getElem? fun n => ?_
  simp only [List.getElem?_zipIdx, List.getElem?_modify, List.getElem?_map, Option.map_eq_map,
    Option.map_map, Function.comp_def, Nat.zero_add]

theorem slots_without (slot : Nat × Nat) (t : Timeline) :
    (t.without slot).slots = (t.slots.filter (·.1 != slot)).map (Compiler.moveUp slot) := by
  obtain ⟨i, j⟩ := slot
  have tracks : (t.without (i, j)).trackList = t.trackList.modify i fun track =>
      { track with clips := track.clips.map (·.eraseIdx j) } := by
    cases ht : t.tracks <;> simp [trackList, without, ht]
  have clips (track : Track) :
      Track.clipList { track with clips := track.clips.map (·.eraseIdx j) } =
        track.clipList.eraseIdx j := by
    cases hc : track.clips <;> simp [Track.clipList, hc]
  unfold slots
  rw [tracks, zipIdx_modify, List.flatMap_map, List.filter_flatMap, List.map_flatMap]
  refine List.flatMap_congr fun x _ => ?_
  obtain ⟨track, i'⟩ := x
  simp only [List.filter_map, List.map_map]
  by_cases same : i = i'
  · subst same
    rw [if_pos rfl, clips, zipIdx_eraseIdx, List.map_map]
    have places : ((·.1 != (i, j)) ∘ fun x : Clip × Nat => ((i, x.2), x.1)) = (·.2 != 0 + j) := by
      funext x
      rw [Bool.eq_iff_iff]
      simp
    rw [places]
    refine List.map_congr_left fun x _ => ?_
    simp [Compiler.moveUp, Compiler.closeUp, apply_ite]
  · rw [if_neg same]
    have others : (track.clipList.zipIdx.filter
        ((·.1 != (i, j)) ∘ fun x : Clip × Nat => ((i', x.2), x.1))) = track.clipList.zipIdx :=
      List.filter_eq_self.2 fun x _ => by simp [Ne.symm same]
    rw [others]
    refine List.map_congr_left fun x _ => ?_
    simp [Compiler.moveUp, Compiler.closeUp, Ne.symm same]

/-- The clips before and behind one of them, and all but that one. -/
theorem slots_eq_append {t : Timeline} {item : Compiler.Item} (h : item ∈ t.slots) :
    ∃ before behind, t.slots = before ++ item :: behind ∧
      (t.without item.1).slots = (before ++ behind).map (Compiler.moveUp item.1) ∧
      ∀ other ∈ before ++ behind, other.1 ≠ item.1 := by
  obtain ⟨before, behind, split⟩ := List.append_of_mem h
  have nodup := Compiler.slots_nodup t
  rw [split, List.map_append, List.map_cons, List.nodup_middle, List.nodup_cons,
    ← List.map_append] at nodup
  have others : ∀ other ∈ before ++ behind, other.1 ≠ item.1 := fun other mem same =>
    nodup.1 (List.mem_map.2 ⟨other, mem, same⟩)
  refine ⟨before, behind, split, ?_, others⟩
  have rest : t.slots.filter (·.1 != item.1) = before ++ behind := by
    rw [split, List.filter_append, List.filter_cons_of_neg (by simp), ← List.filter_append]
    exact List.filter_eq_self.2 fun other mem => by simpa using others other mem
  rw [slots_without, rest]

end Timeline

namespace Compiler

open Montage.Graph

/-! ## Labels that are one ahead -/

/-- The labels of a run that has given out a `stream` more after the first `m`, by those of the run
that has not. -/
noncomputable def skipped (m : Nat) : String → String :=
  Function.extend (fun n : Nat => "stream" ++ toString n)
    (fun n => "stream" ++ toString (if n ≤ m then n else n + 1)) id

theorem stream_inj : Function.Injective fun n : Nat => "stream" ++ toString n :=
  fun _ _ h => (numbered_inj (by decide) (by decide) h).2

theorem skipped_stream (m n : Nat) :
    skipped m ("stream" ++ toString n) = "stream" ++ toString (if n ≤ m then n else n + 1) :=
  stream_inj.extend_apply _ _ n

theorem skipped_of_ne (m : Nat) {label : String} (h : ∀ n : Nat, label ≠ "stream" ++ toString n) :
    skipped m label = label :=
  Function.extend_apply' _ _ _ fun ⟨n, hn⟩ => h n hn.symm

theorem skipped_injective (m : Nat) : Function.Injective (skipped m) := by
  intro a b h
  by_cases ha : ∃ n : Nat, a = "stream" ++ toString n <;>
    by_cases hb : ∃ n : Nat, b = "stream" ++ toString n
  · obtain ⟨n, rfl⟩ := ha
    obtain ⟨n', rfl⟩ := hb
    rw [skipped_stream, skipped_stream] at h
    have : (if n ≤ m then n else n + 1) = if n' ≤ m then n' else n' + 1 := stream_inj h
    congr 2
    split at this <;> split at this <;> omega
  · obtain ⟨n, rfl⟩ := ha
    rw [skipped_stream, skipped_of_ne m (not_exists.1 hb)] at h
    exact absurd ⟨_, h.symm⟩ hb
  · obtain ⟨n, rfl⟩ := hb
    rw [skipped_stream, skipped_of_ne m (not_exists.1 ha)] at h
    exact absurd ⟨_, h⟩ ha
  · rwa [skipped_of_ne m (not_exists.1 ha), skipped_of_ne m (not_exists.1 hb)] at h

theorem inner_ne_stream : ∀ stem ∈ innerStems, Unnumbered stem ∧ stem ≠ "stream" := by decide

/-- Only streams of clips are called otherwise. -/
theorem skipped_numbered (m : Nat) {stem : String} (h : stem ∈ innerStems) (n : Nat) :
    skipped m (stem ++ toString n) = stem ++ toString n := by
  obtain ⟨unnumbered, ne⟩ := inner_ne_stream stem h
  exact skipped_of_ne m fun n' e => ne (numbered_inj unnumbered (by decide) e).1

theorem skipped_unnumbered (m : Nat) {label : String} (h : Unnumbered label) :
    skipped m label = label :=
  skipped_of_ne m fun n e => not_unnumbered_numbered "stream" n (e ▸ h)

/-- Both runs have given out the same labels, so many of them `stream` that the clips ahead bring
their number to `m`. -/
structure Level (m : Nat) (ahead : List Item) (ls ls' : Labels) : Prop where
  same : ls = ls'
  count : ls.count "stream" + ahead.countP (takesLabel ·.2) = m

/-- The first run has given out one `stream` more, after `m` of them. -/
structure OneAhead (m : Nat) (ls ls' : Labels) : Prop where
  stream : ls.count "stream" = ls'.count "stream" + 1
  reached : m ≤ ls'.count "stream"
  others : ∀ stem, stem ≠ "stream" → ls.count stem = ls'.count stem

theorem follows_level (m : Nat) (ahead : List Item) : Follows (skipped m) (Level m ahead) where
  fixed _ := skipped_unnumbered m
  next := by
    rintro stem inner ls _ ⟨rfl, count⟩
    have ne := (inner_ne_stream stem inner).2
    exact ⟨(skipped_numbered m inner _).symm, rfl, by rw [List.count_cons_of_ne ne, count]⟩

theorem follows_oneAhead (m : Nat) : Follows (skipped m) (OneAhead m) where
  fixed _ := skipped_unnumbered m
  next := by
    intro stem inner ls ls' h
    have ne := (inner_ne_stream stem inner).2
    refine ⟨?_, ?_, ?_, fun other hother => ?_⟩
    · rw [nextLabel, nextLabel, skipped_numbered m inner, h.others stem ne]
    · rw [List.count_cons_of_ne ne, List.count_cons_of_ne ne, h.stream]
    · rw [List.count_cons_of_ne ne]
      exact h.reached
    · rw [List.count_cons, List.count_cons, h.others other hother]

theorem advances_level (m : Nat) (item : Item) (ahead : List Item) :
    Advances (skipped m) (Level m (item :: ahead)) (Level m ahead) item.2 where
  labelled takes := by
    rintro ls _ ⟨rfl, count⟩
    rw [List.countP_cons_of_pos (by exact takes)] at count
    refine .ok ⟨?_, rfl, ?_⟩
    · change nextLabel "stream" ls = skipped m (nextLabel "stream" ls)
      rw [nextLabel, skipped_stream, if_pos (by omega)]
    · rw [List.count_cons_self]
      omega
  passed untaken ls ls' h := by
    have count := h.count
    rw [List.countP_cons_of_neg (by simpa using untaken)] at count
    exact ⟨h.same, count⟩

theorem advances_oneAhead (m : Nat) (c : Clip) :
    Advances (skipped m) (OneAhead m) (OneAhead m) c where
  labelled _ := by
    intro ls ls' h
    refine .ok ⟨?_, ?_, ?_, fun other hother => ?_⟩
    · have reached := h.reached
      change nextLabel "stream" ls = skipped m (nextLabel "stream" ls')
      rw [nextLabel, nextLabel, skipped_stream, if_neg (by omega), h.stream]
    · rw [List.count_cons_self, List.count_cons_self, h.stream]
    · rw [List.count_cons_self]
      exact Nat.le_succ_of_le h.reached
    · rw [List.count_cons_of_ne hother.symm, List.count_cons_of_ne hother.symm,
        h.others other hother]
  passed _ _ _ := id

/-! ## The clip that is left out -/

/-- The walk along all clips, of which one is left out. -/
theorem pairs_walk {e : Edit} {P : String → Prop} {l : Library} {files : Files} {t t' : Timeline}
    (size : t'.width = t.width ∧ t'.height = t.height) {assets assets' : List Asset}
    (thinned : Thinned e.KeptAsset e.OmittedAsset assets assets')
    (numbered : ∀ a ∈ assets, a.isFound = true → a.inputIndex.isSome)
    {before before' behind behind' : List Item} {item : Item}
    (ahead : List.Forall₂ e.Kept before before') (omitted : e.Omitted l files item)
    (silenced : ∀ m, item.2.content.media? = some m → P (missing m.source (refOf item)))
    (after : List.Forall₂ e.Kept behind behind') {n : Nat} {v v' : Picture}
    (hv : v.Alike (skipped n) e.names P v') :
    Pairs (Level n before) (OneAhead n) (Picture.Alike (skipped n) e.names P)
      ((before ++ item :: behind).foldlM (drawClip t files assets) v)
      ((before' ++ behind').foldlM (drawClip t' files assets') v') := by
  rw [List.foldlM_append, List.foldlM_append]
  refine (Pairs.foldlM (S := Level n) (fun item item' rest kept v v' hv => ?_) ahead hv).bind
    fun v v' hv => ?_
  · exact pairs_drawClip size thinned numbered kept (follows_level n rest)
      (advances_level n item rest) hv
  · have skips : ∀ ls ls', Level n [] ls ls' → OneAhead n ("stream" :: ls) ls' := by
      rintro ls _ ⟨rfl, count⟩
      have count : ls.count "stream" = n := count
      exact ⟨List.count_cons_self, count.ge, fun stem ne => List.count_cons_of_ne ne.symm⟩
    rw [List.foldlM_cons, ← pure_bind v' fun v' => behind'.foldlM (drawClip t' files assets') v']
    refine (pairs_omitted thinned omitted silenced skips hv).bind fun v v' hv => ?_
    refine Pairs.foldlM (S := fun _ => OneAhead n) (fun item item' _ kept v v' hv => ?_) after hv
    exact pairs_drawClip size thinned numbered kept (follows_oneAhead n)
      (advances_oneAhead n item.2) hv

/-- Taking out the clip of a slot, as an edit. -/
def taking (slot : Nat × Nat) (t : Timeline) : Edit where
  keeps s := s ≠ slot
  move := closeUp slot
  names := namesUnder (moveUp slot) t.slots
  move_inj _ _ := closeUp_inj
  soundtrack := .inl ⟨rfl, by simp⟩
  background := .inl ⟨rfl, by simp⟩

theorem kept_without {slot : Nat × Nat} {t : Timeline} {items : List Item}
    (h : ∀ item ∈ items, item ∈ t.slots ∧ item.1 ≠ slot) :
    List.Forall₂ (taking slot t).Kept items (items.map (moveUp slot)) := by
  rw [List.forall₂_map_right_iff, List.forall₂_same]
  intro item mem
  obtain ⟨inside, ne⟩ := h item mem
  exact ⟨ne, rfl, rfl, .inr ⟨item, inside, rfl, rfl⟩⟩

/-- **A clip without its file.** In a timeline that gives its length, an image or a video whose file
is not there is left out: the command is that of the timeline without the clip, but for the labels
of later clips, the names of clips that move up and the warning of the clip itself. A length of zero
counts as none, as in `Timeline.effectiveDuration`. -/
theorem draft_without (l : Library) (k : Compiler) (files : Files) (t : Timeline) {d : Float}
    (length : t.duration.join = some d) (nonzero : (d == 0) = false) {slot : Nat × Nat} {c : Clip}
    (clip : (slot, c) ∈ t.slots) {m : Media} (media : c.content.media? = some m)
    (absent : l.find? files m.source = none) (outputPath : String) (output : OutputOptions) :
    ∃ ρ : String → String, Function.Injective ρ ∧
      (∀ label, (∀ n : Nat, label ≠ "stream" ++ toString n) → ρ label = label) ∧
      Agree (Command.Alike ρ (namesUnder (moveUp slot) t.slots)
          (· = missing m.source (refOf (slot, c))))
        (draft l k files t outputPath output)
        (draft l k files (t.without slot) outputPath output) := by
  obtain ⟨before, behind, split, without, others⟩ := Timeline.slots_eq_append clip
  have kept : ∀ item ∈ before ++ behind, item ∈ t.slots ∧ item.1 ≠ slot := by
    intro item mem
    refine ⟨?_, others item mem⟩
    rw [split]
    exact List.mem_append.2 ((List.mem_append.1 mem).imp_right (List.mem_cons_of_mem _))
  have ahead := kept_without fun item mem => kept item (List.mem_append_left behind mem)
  have after := kept_without fun item mem => kept item (List.mem_append_right before mem)
  have omitted : (taking slot t).Omitted l files (slot, c) := ⟨not_not_intro rfl, m, media, absent⟩
  have takes : (taking slot t).Takes l files t (t.without slot) := by
    refine ⟨?_, rfl⟩
    rw [split, without, List.map_append]
    exact (Thinned.of_forall₂ ahead).append (.drop omitted (.of_forall₂ after))
  have duration : (t.without slot).effectiveDuration k.minDuration =
      t.effectiveDuration k.minDuration := by
    have length' : (t.without slot).duration.join = some d := length
    simp only [Timeline.effectiveDuration, length, length', nonzero, Bool.false_eq_true, if_false]
  let n := before.countP (takesLabel ·.2)
  refine ⟨skipped n, skipped_injective n, fun label => skipped_of_ne n, ?_⟩
  refine agree_draft takes duration (follows_level n before) (follows_oneAhead n)
    ⟨rfl, by simp [n]⟩ ?_ outputPath output
  intro assets assets' thinned numbered v v' hv
  rw [split, without, List.map_append]
  refine pairs_walk takes.size thinned numbered ahead omitted (fun m' media' => ?_) after hv
  rw [media] at media'
  cases media'
  rfl

/-- A title, an image whose file is missing and a video with sound. -/
def gappedTimeline : Timeline where
  duration := some (some 6)
  frameRate := none
  resolution := none
  background := none
  tracks := some [⟨none, some [
    faded (.text "Hello" none) 0 2,
    faded (.image ⟨"/gone.png", none, none, none, none⟩) 2 2,
    faded (.video ⟨"/walk.mp4", none, none, none, none⟩ none) 4 2], []⟩]
  soundtrack := none
  extra := []
  canvas := ⟨1920, 1080, 30⟩

def gappedAssets : List Asset := [
  { ref := "tracks[0].clips[1]", source := "/gone.png", path := none, kind := .image,
    slot := some (0, 1) },
  { ref := "tracks[0].clips[2]", source := "/walk.mp4", path := some "/walk.mp4", kind := .video,
    inputIndex := some 1, hasAudio := true, slot := some (0, 2) }]

def gappedDraft (t : Timeline) : Except Failure Command :=
  draft layeredLibrary (make .standard none none) layeredFiles t "/out.mp4" ⟨.mp4, .high⟩

theorem gappedDraft_ok : ∃ cmd, gappedDraft gappedTimeline = .ok cmd := by
  have compiled : ((make .standard none none).compile layeredFiles gappedTimeline gappedAssets
      "/out.mp4" ⟨.mp4, .high⟩ none).isOk = true := by
    unfold compile build
    rw [show found gappedAssets = [(gappedAssets[1], "/walk.mp4")] from List.mergeSort_singleton _]
    decide +kernel
  change ∃ cmd, (make .standard none none).compile layeredFiles gappedTimeline gappedAssets
    "/out.mp4" ⟨.mp4, .high⟩ none = .ok cmd
  cases h : (make .standard none none).compile layeredFiles gappedTimeline gappedAssets
      "/out.mp4" ⟨.mp4, .high⟩ none with
  | error e => simp [h, Except.isOk, Except.toBool] at compiled
  | ok cmd => exact ⟨cmd, rfl⟩

theorem draft_without_gapped :
    gappedTimeline.duration.join = some 6 ∧ ((6 : Float) == 0) = false ∧
      ((0, 1), faded (.image ⟨"/gone.png", none, none, none, none⟩) 2 2) ∈ gappedTimeline.slots ∧
      layeredLibrary.find? layeredFiles "/gone.png" = none ∧
      ∃ cmd cmd', gappedDraft gappedTimeline = .ok cmd ∧
        gappedDraft (gappedTimeline.without (0, 1)) = .ok cmd' ∧
        ∃ ρ : String → String, Function.Injective ρ ∧
          (∀ label, (∀ n : Nat, label ≠ "stream" ++ toString n) → ρ label = label) ∧
          cmd.Alike ρ (namesUnder (moveUp (0, 1)) gappedTimeline.slots)
            (· = "Asset not found: /gone.png (clip tracks[0].clips[1])") cmd' := by
  have nonzero : ((6 : Float) == 0) = false := by decide +kernel
  have clip : ((0, 1), faded (.image ⟨"/gone.png", none, none, none, none⟩) 2 2) ∈
      gappedTimeline.slots := .tail _ (.head _)
  have absent : layeredLibrary.find? layeredFiles "/gone.png" = none := by decide +kernel
  obtain ⟨cmd, h⟩ := gappedDraft_ok
  obtain ⟨ρ, injective, fixed, agree⟩ := draft_without layeredLibrary (make .standard none none)
    layeredFiles gappedTimeline rfl nonzero clip rfl absent "/out.mp4" ⟨.mp4, .high⟩
  obtain ⟨cmd', h', alike⟩ := agree.of_ok h
  exact ⟨rfl, nonzero, clip, absent, cmd, cmd', h, h', ρ, injective, fixed, alike⟩

end Compiler
end Montage
