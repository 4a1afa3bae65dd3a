import Mathlib.Data.List.Forall2
import Montage.Proofs.Asset.Resolved
import Montage.Proofs.Command.Paths
import Montage.Proofs.Compiler.Faults
import Montage.Proofs.Compiler.Linear

/-!
# Resolving, compiling and the encoder agree on inputs

Three parts count inputs: resolving numbers the assets that it finds, compiling puts one input
into the command for each, and the argument vector names the files in a row. `compile_agrees`
says that they mean the same: compiling what resolving gave never fails to build the graph, and
in the command each clip reads the file found for that very clip, picture and sound alike
(`Wired`), whatever clips share a source, lack a file or have a name of another asset.

Nodes and clips are matched by their order and not by name, as names may repeat: the nodes that
draw the picture stand in the order of the clips that are to be seen (`isDrawn`), those of the
sound in the order of the clips that can be heard (`isHeard`).
-/
namespace Montage.Compiler

open Montage.Graph

/-! ## What a command should read -/

/-- The file that a clip shows, if it shows one and it is there. -/
def fileOf (l : Library) (files : Files) (c : Clip) : Option String :=
  (Library.wanted? c.content).bind fun w => l.find? files w.2

/-- The file of the soundtrack, if there is one and it is there. -/
def trackFile (l : Library) (files : Files) (t : Timeline) : Option String :=
  t.soundtrack.join.bind fun s => l.find? files s.source

/-- Whether a clip is to be seen: background clips are not, and images and videos only if their
file is there. -/
def isDrawn (l : Library) (files : Files) (item : Item) : Bool :=
  match item.2.content with
  | .background .. => false
  | .text .. | .shape .. => true
  | .image _ | .video .. => (fileOf l files item.2).isSome

/-- Whether a clip can be heard: videos with a file that has sound. -/
def isHeard (assets : List Asset) (item : Item) : Bool :=
  match item.2.content with
  | .video .. => (assetAt assets item.1).any fun a => a.isFound && a.hasAudio
  | _ => false

/-- An input of a command is the file of a path. -/
def Reads (cmd : Command) (k : Nat) (path : String) : Prop :=
  cmd.inputs[k]?.map (·.path) = some path

/-- A node draws a clip. If the clip shows a file, the node lays the picture of an input over the
one drawn so far, and the input is that file. -/
def Draws (l : Library) (files : Files) (cmd : Command) (input : Nat × Nat → Nat) (item : Item)
    (n : Node) : Prop :=
  n.filter.ref = some (Clip.ref item.1.1 item.1.2 (some item.2)) ∧
    ∀ p, fileOf l files item.2 = some p → Reads cmd (input item.1) p ∧
      n.filter.operation = "overlay" ∧
        ∃ current, Linked .video (pictureOf (input item.1)) [current] n

/-- A node plays the sound of a clip, that of the input which is the clip's file. -/
def Plays (l : Library) (files : Files) (cmd : Command) (input : Nat × Nat → Nat) (item : Item)
    (n : Node) : Prop :=
  n.filter.ref = some (Clip.ref item.1.1 item.1.2 (some item.2)) ∧
    n.filter.operation = "adelay" ∧ Linked .audio (soundOf (input item.1)) [] n ∧
      ∃ p, fileOf l files item.2 = some p ∧ Reads cmd (input item.1) p

/-- A node plays the soundtrack from an input that is its file. -/
def PlaysTrack (cmd : Command) (path : String) (n : Node) : Prop :=
  n.filter.operation = "adelay" ∧ ∃ k, Linked .audio (soundOf k) [] n ∧ Reads cmd k path

/-- Each part of a command reads the file that resolving found for it. -/
structure Wired (l : Library) (files : Files) (t : Timeline) (assets : List Asset)
    (cmd : Command) : Prop where
  /-- input 0, and one for each file found -/
  length : cmd.inputs.length = 1 + assets.countP (·.isFound)
  background : ∀ p, t.backgroundSource.bind (l.find? files) = some p → Reads cmd 0 p
  /-- which input a clip has is the same for its picture and its sound -/
  nodes : ∃ (input : Nat × Nat → Nat) (base pictures voices track mixers : List Node),
    cmd.graph = base ++ pictures ++ (voices ++ track ++ mixers) ∧ base.length ≤ 1 ∧
    List.Forall₂ (Draws l files cmd input) (t.slots.filter (isDrawn l files)) pictures ∧
    List.Forall₂ (Plays l files cmd input) (t.slots.filter (isHeard assets)) voices ∧
    List.Forall₂ (PlaysTrack cmd) (trackFile l files t).toList track ∧
    ∀ n ∈ mixers, n.filter.ref = none
  /-- the encoder is told of the inputs in their order, before anything else -/
  arguments : ∀ encoder argv, cmd.arguments encoder = .ok argv →
    cmd.inputs.map (·.path) <+: Command.pathsOf argv.tail

/-! ## Lists side by side -/

section

variable {α β γ : Type} {R : β → γ → Prop}

theorem forall₂_filterMap {f : α → Option β} {xs : List α} {ys : List γ}
    (h : List.Forall₂ R (xs.filterMap f) ys) :
    List.Forall₂ (fun x y => ∃ v, f x = some v ∧ R v y) (xs.filter fun x => (f x).isSome) ys := by
  induction xs generalizing ys with
  | nil =>
    cases h
    exact .nil
  | cons x xs ih =>
    cases hx : f x with
    | none =>
      rw [List.filterMap_cons_none hx] at h
      rw [List.filter_cons_of_neg (by simp [hx])]
      exact ih h
    | some v =>
      rw [List.filterMap_cons_some hx] at h
      rw [List.filter_cons_of_pos (by simp [hx])]
      cases h with
      | cons hv h => exact .cons ⟨v, hx, hv⟩ (ih h)

theorem forall₂_append_left {xs xs' : List β} {ys : List γ} (h : List.Forall₂ R (xs ++ xs') ys) :
    ∃ zs zs', ys = zs ++ zs' ∧ List.Forall₂ R xs zs ∧ List.Forall₂ R xs' zs' := by
  induction xs generalizing ys with
  | nil => exact ⟨[], ys, rfl, .nil, h⟩
  | cons x xs ih =>
    cases h with
    | cons hx h =>
      obtain ⟨zs, zs', rfl, h, h'⟩ := ih h
      exact ⟨_ :: zs, zs', rfl, .cons hx h, h'⟩

/-- A relation that holds of the last elements after a change holds side by side after it. -/
theorem forall₂_last {f : γ → γ} (hf : ∀ x y, R x y → R x (f y)) {xs : List β} {ys : List γ}
    {y : γ} (h : List.Forall₂ R xs (ys ++ [y])) : List.Forall₂ R xs (ys ++ [f y]) := by
  induction ys generalizing xs with
  | nil =>
    cases h with
    | cons hx h => exact .cons (hf _ _ hx) h
  | cons z ys ih =>
    cases h with
    | cons hx h => exact .cons hx (ih h)

theorem forall₂_of_mem {S : β → γ → Prop} {xs : List β} {ys : List γ}
    (h : List.Forall₂ R xs ys) (hS : ∀ x ∈ xs, ∀ y, R x y → S x y) : List.Forall₂ S xs ys := by
  have := (List.forall₂_and_left xs ys).2 ⟨fun x hx => hx, h⟩
  exact this.imp fun x y ⟨hx, hxy⟩ => hS x hx y hxy

end

/-! ## Assets of clips -/

section

variable {l : Library} {files : Files} {t : Timeline} {assets : List Asset}
  (h : l.assets files t = .ok assets)
include h

theorem path_assetAt {item : Item} (hitem : item ∈ t.slots) :
    (assetAt assets item.1).bind (·.path) = fileOf l files item.2 := by
  have resolved := Library.assetAt_resolved h hitem
  have : (assetAt assets item.1).bind (·.path) =
      ((assetAt assets item.1).map Asset.outline).bind (·.path) := by
    cases assetAt assets item.1 <;> rfl
  rw [this, resolved]
  unfold Library.clipAsset? fileOf
  cases Library.wanted? item.2.content <;> rfl

theorem ref_assetAt {item : Item} (hitem : item ∈ t.slots) {a : Asset}
    (ha : assetAt assets item.1 = some a) :
    a.ref = Clip.ref item.1.1 item.1.2 (some item.2) := by
  have resolved := Library.assetAt_resolved h hitem
  rw [ha] at resolved
  obtain ⟨w, -, hw⟩ := Option.map_eq_some_iff.1 resolved.symm
  exact (congrArg Asset.ref hw).symm

theorem path_soundtrack :
    (assets.find? (·.isSoundtrack)).bind (·.path) = trackFile l files t := by
  have resolved := Library.soundtrack_resolved h
  have : (assets.find? (·.isSoundtrack)).bind (·.path) =
      ((assets.find? (·.isSoundtrack)).map Asset.outline).bind (·.path) := by
    cases assets.find? (·.isSoundtrack) <;> rfl
  rw [this, resolved]
  unfold Library.trackAsset? trackFile
  cases t.soundtrack.join <;> rfl

theorem ref_soundtrack {a : Asset} (ha : assets.find? (·.isSoundtrack) = some a) :
    a.ref = Library.soundtrackRef := by
  have resolved := Library.soundtrack_resolved h
  rw [ha] at resolved
  obtain ⟨s, -, hs⟩ := Option.map_eq_some_iff.1 resolved.symm
  exact (congrArg Asset.ref hs).symm

/-- A soundtrack with a file has a voice. -/
theorem trackVoice_eq_none {total : String}
    (hv : trackVoice t (assets.find? (·.isSoundtrack)) total = none) :
    trackFile l files t = none := by
  rw [← path_soundtrack h]
  unfold trackVoice at hv
  split at hv
  · rename_i s a _ ha
    split at hv
    · cases hv
    · rename_i hfound
      rw [ha]
      simpa [Asset.isFound] using hfound
  · rename_i hnone
    cases hs : t.soundtrack.join with
    | none =>
      rw [path_soundtrack h]
      unfold trackFile
      rw [hs]
      rfl
    | some s =>
      cases ha : assets.find? (·.isSoundtrack) with
      | none => rfl
      | some a => exact absurd ha (hnone s a hs)

theorem any_isFound {item : Item} (hitem : item ∈ t.slots) :
    (assetAt assets item.1).any (·.isFound) = (fileOf l files item.2).isSome := by
  rw [← path_assetAt h hitem]
  cases assetAt assets item.1 <;> rfl

theorem filter_isShown : t.slots.filter (isShown assets) = t.slots.filter (isDrawn l files) := by
  refine List.filter_congr fun item hitem => ?_
  have found := any_isFound h hitem
  unfold isShown isDrawn
  cases item.2.content with
  | background color source => rfl
  | text text style => rfl
  | shape s => rfl
  | image m | video m volume => exact found

end

/-! ## Pictures -/

namespace Assembly

variable {t : Timeline} {assets : List Asset} {background : Option Asset} {cmd : Command}
  (p : Assembly t assets background cmd)
include p

/-- An asset with a file has a number, and the input of that number is the file. -/
theorem reads_of_mem {a : Asset} {path : String} (ha : a ∈ assets) (hp : a.path = some path) :
    ∃ k : Nat, a.inputIndex = some (k : Int) ∧ Reads cmd k path := by
  obtain ⟨k, hindex, hinput⟩ := numbered_of_mem p.numbered ha hp
  refine ⟨k + 1, hindex, ?_⟩
  unfold Reads
  rw [p.inputs_eq, List.getElem?_cons_succ, hinput]
  rfl

end Assembly

/-- The input of the asset in a slot. -/
def inputAt (assets : List Asset) (slot : Nat × Nat) : Nat :=
  (((assetAt assets slot).bind (·.inputIndex)).getD 0).toNat

theorem inputAt_eq {assets : List Asset} {slot : Nat × Nat} {a : Asset} {k : Nat}
    (ha : assetAt assets slot = some a) (hk : a.inputIndex = some (k : Int)) :
    inputAt assets slot = k := by
  simp [inputAt, ha, hk]

theorem media?_of_wanted? {c : Content} {w : AssetKind × String}
    (h : Library.wanted? c = some w) : ∃ m, c.media? = some m := by
  cases c <;> simp [Library.wanted?, Content.media?] at h ⊢

section

variable {l : Library} {files : Files} {t : Timeline} {assets : List Asset}
  {background : Option Asset} {cmd : Command} (h : l.assets files t = .ok assets)
  (p : Assembly t assets background cmd)
include h p

/-- The asset of a clip with a file, its number and the input of this number. -/
theorem asset_of_fileOf {item : Item} (hitem : item ∈ t.slots) {path : String}
    (hpath : fileOf l files item.2 = some path) :
    ∃ a, assetAt assets item.1 = some a ∧ a.isFound = true ∧
      a.inputIndex = some (inputAt assets item.1 : Int) ∧
        Reads cmd (inputAt assets item.1) path := by
  rw [← path_assetAt h hitem] at hpath
  obtain ⟨a, ha, hfound⟩ := Option.bind_eq_some_iff.1 hpath
  obtain ⟨k, hk, reads⟩ := p.reads_of_mem (mem_of_assetAt ha).1 hfound
  rw [inputAt_eq ha hk]
  exact ⟨a, ha, by simp [Asset.isFound, hfound], hk, reads⟩

theorem draws_of_painted {item : Item} (hitem : item ∈ t.slots) {current : String} {n : Node}
    (painted : Painted assets item current n) :
    Draws l files cmd (inputAt assets) item n := by
  refine ⟨painted.1, fun path hpath => ?_⟩
  obtain ⟨a, ha, hfound, hk, reads⟩ := asset_of_fileOf h p hitem hpath
  obtain ⟨w, hw, -⟩ := Option.bind_eq_some_iff.1 hpath
  obtain ⟨m, hm⟩ := media?_of_wanted? hw
  have layer : layerOf assets item = some (pictureOf (inputAt assets item.1)) := by
    unfold layerOf
    simp only [hm, ha, hfound, ↓reduceIte, hk]
    rfl
  obtain ⟨-, drawn⟩ := painted
  rw [layer] at drawn
  exact ⟨reads, drawn.1, current, drawn.2⟩

theorem plays_of_voiced {item : Item} (hitem : item ∈ t.slots) {v : Voice} {n : Node}
    (hv : videoVoice (assetAt assets) item = some v) (voiced : Voiced v n) :
    Plays l files cmd (inputAt assets) item n := by
  obtain ⟨href, hop, linked⟩ := voiced
  obtain ⟨hasset, hfound⟩ := asset_of_videoVoice hv
  obtain ⟨path, hpath⟩ := Option.isSome_iff_exists.1 hfound
  have hfile : fileOf l files item.2 = some path := by
    rw [← path_assetAt h hitem, hasset, Option.bind_some, hpath]
  obtain ⟨a, ha, -, hk, reads⟩ := asset_of_fileOf h p hitem hfile
  rw [hasset, Option.some.injEq] at ha
  rw [ha, hk] at linked
  rw [ref_assetAt h hitem hasset] at href
  exact ⟨href, hop, linked, path, hfile, reads⟩

theorem playsTrack_of_voiced {total : String} {v : Voice} {n : Node}
    (hv : trackVoice t (assets.find? (·.isSoundtrack)) total = some v) (voiced : Voiced v n) :
    ∃ path, trackFile l files t = some path ∧ PlaysTrack cmd path n := by
  obtain ⟨-, hop, linked⟩ := voiced
  obtain ⟨hasset, hfound⟩ := asset_of_trackVoice hv
  obtain ⟨path, hpath⟩ := Option.isSome_iff_exists.1 hfound
  obtain ⟨k, hk, reads⟩ := p.reads_of_mem (List.mem_of_find?_eq_some hasset) hpath
  rw [hk] at linked
  refine ⟨path, ?_, hop, k, linked, reads⟩
  rw [← path_soundtrack h, hasset, Option.bind_some, hpath]

end

/-! ## The nodes of a command -/

theorem isSome_videoVoice (assets : List Asset) (item : Item) :
    (videoVoice (assetAt assets) item).isSome = isHeard assets item := by
  unfold videoVoice isHeard
  cases item.2.content with
  | video m volume =>
    cases assetAt assets item.1 with
    | none => rfl
    | some a =>
      rw [Option.any_some]
      cases hsound : a.isFound && a.hasAudio <;> simp [hsound]
  | _ => rfl

theorem Painted.relabel {assets : List Asset} {item : Item} {current : String} {n : Node}
    (h : Painted assets item current n) (label : String) :
    Painted assets item current (n.relabel label) := by
  obtain ⟨href, h⟩ := h
  refine ⟨by cases n; exact href, ?_⟩
  cases hl : layerOf assets item with
  | none =>
    rw [hl] at h
    exact h.relabel label
  | some source =>
    rw [hl] at h
    exact ⟨by cases n; exact h.1, h.2.relabel label⟩

/-- The clips and the nodes that draw them, side by side. -/
theorem Painting.forall₂ {assets : List Asset} {items : List Item} {ns : List Node}
    {first last : String} (h : Painting assets first items ns last) :
    List.Forall₂ (fun item n => ∃ current, Painted assets item current n) items ns := by
  induction items generalizing first ns with
  | nil =>
    cases ns with
    | nil => exact .nil
    | cons n ns => cases h
  | cons item items ih =>
    cases ns with
    | nil => cases h
    | cons n ns => exact .cons ⟨first, h.1⟩ (ih h.2)

theorem length_finish_le {v : Picture} (h : v.nodes.length ≤ 1) : (finish v).length ≤ 1 := by
  unfold finish
  split
  · rename_i last hlast
    have := congrArg List.length (List.dropLast_append_getLast? last hlast)
    simp only [List.length_append, List.length_singleton] at this ⊢
    omega
  · exact Nat.le_refl 1

theorem ref_relabel (n : Node) (label : String) : (n.relabel label).filter.ref = n.filter.ref := by
  cases n
  rfl

/-- Every node of the finished picture was there before, by its ref, or has none. -/
theorem ref_of_mem_finish {v : Picture} {n : Node} (h : n ∈ finish v) :
    n.filter.ref = none ∨ ∃ m ∈ v.nodes, n.filter.ref = m.filter.ref := by
  unfold finish at h
  split at h
  · next last hlast =>
    rcases List.mem_append.1 h with h | h
    · exact .inr ⟨n, List.dropLast_subset _ h, rfl⟩
    · rw [List.mem_singleton.1 h, ref_relabel]
      exact .inr ⟨last, List.mem_of_getLast? hlast, rfl⟩
  · rw [List.mem_singleton.1 h]
    exact .inl rfl

theorem finish_append {v : Picture} {ns : List Node} {last : Node}
    (h : v.nodes = ns ++ [last]) : finish v = ns ++ [last.relabel finalLabel] := by
  unfold finish
  rw [h, List.getLast?_concat, List.dropLast_concat]

section

variable {l : Library} {files : Files} {t : Timeline} {assets : List Asset}
  {background : Option Asset} {cmd : Command} (h : l.assets files t = .ok assets)
  (p : Assembly t assets background cmd)
include h p

theorem pictures_wired : ∃ base pictures, finish p.picture = base ++ pictures ∧ base.length ≤ 1 ∧
    (∀ n ∈ base, n.filter.ref = none ∨ n.filter.ref = background.map (·.ref)) ∧
    List.Forall₂ (Draws l files cmd (inputAt assets)) (t.slots.filter (isDrawn l files))
      pictures := by
  have side := p.painting.forall₂
  have drawn (ns : List Node)
      (hns : List.Forall₂ (fun item n => ∃ current, Painted assets item current n)
        (t.slots.filter (isShown assets)) ns) :
      List.Forall₂ (Draws l files cmd (inputAt assets)) (t.slots.filter (isDrawn l files)) ns := by
    rw [← filter_isShown h]
    refine forall₂_of_mem hns fun item hitem n ⟨current, painted⟩ => ?_
    exact draws_of_painted h p (List.mem_of_mem_filter hitem) painted
  rcases List.eq_nil_or_concat p.painted with hnil | ⟨ns, last, hlast⟩
  · rw [hnil] at side
    have hnodes : p.picture.nodes = p.start.nodes := by rw [p.nodes_eq, hnil, List.append_nil]
    refine ⟨finish p.picture, [], (List.append_nil _).symm, length_finish_le ?_, fun n hn => ?_,
      drawn [] side⟩
    · rw [hnodes]
      exact p.started.length_le
    · refine (ref_of_mem_finish hn).imp_right fun ⟨m, hm, href⟩ => href.trans ?_
      exact p.started.refs m (hnodes ▸ hm)
  · rw [List.concat_eq_append] at hlast
    have hnodes : p.picture.nodes = (p.start.nodes ++ ns) ++ [last] := by
      rw [p.nodes_eq, hlast, List.append_assoc]
    rw [hlast] at side
    refine ⟨p.start.nodes, ns ++ [last.relabel finalLabel], ?_, p.started.length_le,
      fun n hn => .inr (p.started.refs n hn), drawn _ ?_⟩
    · rw [finish_append hnodes, List.append_assoc]
    · -- the last node has another label, and draws its clip all the same
      exact forall₂_last (fun item n ⟨current, painted⟩ => ⟨current, painted.relabel finalLabel⟩)
        side

theorem sounds_wired : ∃ voices track mixers, p.sounds = voices ++ track ++ mixers ∧
    List.Forall₂ (Plays l files cmd (inputAt assets)) (t.slots.filter (isHeard assets)) voices ∧
    List.Forall₂ (PlaysTrack cmd) (trackFile l files t).toList track ∧
    (∀ n ∈ track, n.filter.ref = some Library.soundtrackRef) ∧
    ∀ n ∈ mixers, n.filter.ref = none := by
  obtain ⟨vs, mixers, hsounds, voiced, hmixers⟩ := p.mixed.voiced
  obtain ⟨voices, track, rfl, hvoices, htrack⟩ := forall₂_append_left voiced
  refine ⟨voices, track, mixers, hsounds, ?_, ?_, ?_, hmixers⟩
  · rw [videoVoices_eq] at hvoices
    have side := forall₂_filterMap hvoices
    simp only [isSome_videoVoice] at side
    refine forall₂_of_mem side fun item hitem n ⟨v, hv, voiced⟩ => ?_
    exact plays_of_voiced h p (List.mem_of_mem_filter hitem) hv voiced
  · cases hv : trackVoice t (assets.find? (·.isSoundtrack)) p.total with
    | none =>
      rw [hv] at htrack
      cases htrack
      rw [trackVoice_eq_none h hv]
      exact .nil
    | some v =>
      rw [hv] at htrack
      cases htrack with
      | cons hn hrest =>
        cases hrest
        obtain ⟨path, hpath, plays⟩ := playsTrack_of_voiced h p hv hn
        rw [hpath]
        exact .cons plays .nil
  · intro n hn
    cases hv : trackVoice t (assets.find? (·.isSoundtrack)) p.total with
    | none =>
      rw [hv] at htrack
      cases htrack
      cases hn
    | some v =>
      rw [hv] at htrack
      cases htrack with
      | cons played hrest =>
        cases hrest
        rw [List.mem_singleton.1 hn, played.1, ref_soundtrack h (asset_of_trackVoice hv).1]

end

/-! ## What the encoder is told -/

theorem not_mem_inputOptions (a : Asset) : "-i" ∉ inputOptions a := by
  unfold inputOptions
  split <;> decide

theorem options_of_inputsFrom {n : Nat} {found : List (Asset × String)} {inputs : List Input}
    (h : inputsFrom n found = .ok inputs) : ∀ i ∈ inputs, "-i" ∉ i.options := by
  intro i hi
  obtain ⟨k, hk⟩ := List.mem_iff_getElem?.1 hi
  have hlt : k < found.length := by
    rw [← length_inputsFrom h]
    exact (List.getElem?_eq_some_iff.1 hk).1
  obtain ⟨-, hinput⟩ := inputsFrom_getElem? h (List.getElem?_eq_getElem hlt)
  rw [hk, Option.some.injEq] at hinput
  rw [hinput]
  exact not_mem_inputOptions _

/-! ## Agreement -/

theorem length_found (assets : List Asset) :
    (found assets).length = assets.countP (·.isFound) := by
  unfold found
  rw [List.length_mergeSort, List.length_filterMap_eq_countP]
  congr 1
  funext a
  unfold Asset.isFound
  cases a.path <;> rfl

theorem wired_of_assembly {l : Library} {files : Files} {t : Timeline} {assets : List Asset}
    {background : Option Asset} {cmd : Command} (h : l.assets files t = .ok assets)
    (hbackground : l.background files t = .ok background) (p : Assembly t assets background cmd) :
    Wired l files t assets cmd where
  length := by
    rw [p.inputs_eq, List.length_cons, length_inputsFrom p.numbered, length_found, Nat.add_comm]
  background := by
    intro path hpath
    rw [← Library.background_resolved hbackground] at hpath
    unfold Reads
    rw [p.inputs_eq, List.getElem?_cons_zero, Option.map_some, p.started.path path hpath]
  nodes := by
    obtain ⟨base, pictures, hfinish, hbase, -, drawn⟩ := pictures_wired h p
    obtain ⟨voices, track, mixers, hsounds, plays, playsTrack, -, hmixers⟩ := sounds_wired h p
    refine ⟨inputAt assets, base, pictures, voices, track, mixers, ?_, hbase, drawn, plays,
      playsTrack, hmixers⟩
    rw [p.graph_eq, hfinish, hsounds]
  arguments := by
    intro encoder argv hargv
    refine Command.paths_prefix ?_ hargv
    rw [p.inputs_eq]
    intro i hi
    rcases List.mem_cons.1 hi with rfl | hi
    · exact p.started.options
    · exact options_of_inputsFrom p.numbered i hi

/-- **Agreement on inputs.** What resolving gives can be compiled as far as the graph goes: what
is left to fail are faults. Every command that comes out reads, in each of its parts, the file
that was found for this part. -/
theorem compile_agrees {l : Library} {files : Files} {t : Timeline} {assets : List Asset}
    {background : Option Asset} (hassets : l.assets files t = .ok assets)
    (hbackground : l.background files t = .ok background) (k : Compiler) (outputPath : String)
    (output : OutputOptions) :
    (∀ notice, k.compile files t assets outputPath output background ≠ .error (.compile notice)) ∧
    ∀ cmd, k.compile files t assets outputPath output background = .ok cmd →
      Wired l files t assets cmd := by
  constructor
  · intro notice h
    obtain ⟨inputs, hinputs⟩ := Library.inputsFrom_resolved hassets
    obtain ⟨f, hf⟩ := compile_fault hinputs h
    cases hf
  · intro cmd h
    obtain ⟨p⟩ := compile_ok h
    exact wired_of_assembly hassets hbackground p

/-- A library without a prober. -/
def layeredLibrary : Library := ⟨"/assets", "ffprobe", false⟩

theorem layeredLibrary_background :
    layeredLibrary.background layeredFiles layeredTimeline = .ok (some layeredBackground) := by
  have source : layeredTimeline.backgroundSource = some "/sky.png" := rfl
  have image : Library.looksLikeImage "/sky.png" = true := by decide +kernel
  unfold Library.background
  simp only [source, image]
  rfl

theorem compile_agrees_layered :
    layeredLibrary.assets layeredFiles layeredTimeline = .ok layeredAssets ∧
      layeredLibrary.background layeredFiles layeredTimeline = .ok (some layeredBackground) ∧
      ∃ cmd, layeredCommand = .ok cmd ∧
        Wired layeredLibrary layeredFiles layeredTimeline layeredAssets cmd := by
  have hassets : layeredLibrary.assets layeredFiles layeredTimeline = .ok layeredAssets := rfl
  have hbackground := layeredLibrary_background
  refine ⟨hassets, hbackground, ?_⟩
  cases h : layeredCommand with
  | error e => exact absurd layeredCommand_isOk (by simp [h, Except.isOk, Except.toBool])
  | ok cmd =>
    exact ⟨cmd, rfl, (compile_agrees hassets hbackground (make .standard none none) "/out.mp4"
      ⟨.mp4, .high⟩).2 cmd h⟩

end Montage.Compiler
