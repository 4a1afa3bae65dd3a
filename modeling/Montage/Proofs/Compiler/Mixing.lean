import Mathlib.Data.List.Flatten
import Montage.Proofs.Compiler.Agreement

/-!
# What is mixed

The sound of a command is the mix of all that can be heard (`audibles`): the videos with sound, in
the order of the clips, and then the soundtrack. `compile_mixes` says what its nodes are. Each
part has one chain that begins at the sound of its own input, cuts it to its length, makes it
louder or softer if that is asked for, and delays it to its start (`SoundChain`); the chains are
mixed in their order, each once. Without any part there is one silent source.
-/
namespace Montage.Compiler

open Montage.Graph

/-! ## The nodes of the sound -/

/-- Something that can be heard: the sound of a clip, or the soundtrack. -/
inductive Audible where
  | clip (item : Item)
  | track (s : Soundtrack)

/-- The soundtrack, if its file is there. -/
def heardTrack (t : Timeline) (assets : List Asset) : Option Soundtrack :=
  t.soundtrack.join.filter fun _ => (assets.find? (·.isSoundtrack)).any (·.isFound)

/-- All that can be heard, in order. -/
def audibles (t : Timeline) (assets : List Asset) : List Audible :=
  (t.slots.filter (isHeard assets)).map .clip ++ ((heardTrack t assets).map .track).toList

/-- A filter of sound on one stream. -/
def soundFilter (ref : Option String) (operation : String) (options : Options)
    (input output : String) : Filter :=
  ⟨operation, options, [input], output, .audio, ref⟩

/-- The chain that plays the stream `source`: cut to a length, with a volume unless that is one,
and delayed by some milliseconds. -/
def SoundChain (source ref : String) (delay : Int) (length : String) (volume : Float) (n : Node) :
    Prop :=
  ∃ cut reset loud output,
    let trim := soundFilter (some ref) "atrim" [("start", .int 0), ("duration", .text length)]
      source cut
    let restart := soundFilter (some ref) "asetpts" [("expr", .text "PTS-STARTPTS")] cut reset
    let gain := soundFilter (some ref) "volume"
      [("volume", .text (Number.compactFloat volume))] reset loud
    let delayed (input : String) := soundFilter (some ref) "adelay"
      [("delays", .text (toString delay)), ("all", .int 1)] input output
    n = if volume != 1 then
        .mk (delayed loud) [.single trim, .single restart, .single gain]
      else .mk (delayed reset) [.single trim, .single restart]

/-- An asset with a file is the input of the number `k`, and this input is the file. -/
def IsInput (cmd : Command) (a : Asset) (k : Nat) : Prop :=
  a.inputIndex = some (k : Int) ∧ ∃ path, a.path = some path ∧ Reads cmd k path

/-- The node that plays something from the input of its own asset. The soundtrack is as long as
the whole command, which is written `total`. -/
def PlayedBy (assets : List Asset) (cmd : Command) (total : String) : Audible → Node → Prop
  | .clip item, n => ∃ m volume a k delay, item.2.content = .video m volume ∧
      assetAt assets item.1 = some a ∧ IsInput cmd a k ∧
      Number.nearestInt (item.2.startValue * 1000) = .ok delay ∧
      SoundChain (soundOf k) a.ref delay (Number.compactFloat item.2.duration) (volume.getD 1) n
  | .track s, n => ∃ a k, assets.find? (·.isSoundtrack) = some a ∧ IsInput cmd a k ∧
      SoundChain (soundOf k) a.ref 0 total (s.volume.getD 1) n

/-- The node of silence: a source without sound, cut to a length. -/
def silentNode (rate : Number) (total label : String) : Node :=
  .mk ⟨"atrim", [("duration", .text total)], [label], soundLabel, .audio, none⟩
    [.single ⟨"anullsrc", [("channel_layout", .text "stereo"), ("sample_rate", .number rate)], [],
      label, .audio, none⟩]

/-- The filter that mixes some streams. -/
def mixer (inputs : List String) (output : String) : Filter :=
  ⟨"amix", [("inputs", .int inputs.length), ("duration", .text "longest"),
    ("dropout_transition", .int 0)], inputs, output, .audio, none⟩

/-- The filter that makes the mixed sound as long as the command. -/
def padding (total input : String) : Filter :=
  soundFilter none "apad" [("whole_dur", .text total)] input soundLabel

/-- The nodes of a sound whose parts are given. -/
def SoundOf (assets : List Asset) (cmd : Command) (rate : Number) (total : String) :
    List Audible → List Node → Prop
  | [], ns => ∃ label, ns = [silentNode rate total label]
  | parts, ns => ∃ chains mixed,
      ns = chains ++ [.single (mixer (chains.map (·.filter.output)) mixed),
        .single (padding total mixed)] ∧
      List.Forall₂ (PlayedBy assets cmd total) parts chains ∧
      (chains.map (·.filter.output)).Nodup

/-! ## One voice -/

theorem voiceNode_chain {v : Voice} {ls ls' : Labels} {n : Node}
    (h : (voiceNode v).run ls = .ok (n, ls')) :
    ∃ delay, Number.nearestInt (v.start * 1000) = .ok delay ∧
      SoundChain (inputText v.asset.inputIndex ++ ":a") v.asset.ref delay v.length v.volume n := by
  simp only [voiceNode, run_bind_ok, run_attempt_ok, run_fresh_ok, run_pure_ok] at h
  obtain ⟨⟨nodes, layer⟩, l, hchain, delay, _, ⟨hdelay, rfl⟩, _, _, ⟨rfl, rfl⟩, rfl, -⟩ := h
  refine ⟨delay, hdelay, ?_⟩
  unfold voiceLinks at hchain
  unfold SoundChain
  cases loud : v.volume != 1 with
  | true =>
    simp only [loud, ↓reduceIte, List.cons_append, List.nil_append, chain, run_bind_ok,
      run_fresh_ok, run_pure_ok, Prod.mk.injEq] at hchain
    obtain ⟨cut, _, -, _, _, ⟨reset, _, -, _, _, ⟨gain, _, -, _, _, ⟨⟨rfl, rfl⟩, -⟩, ⟨rfl, rfl⟩,
      -⟩, ⟨rfl, rfl⟩, -⟩, ⟨rfl, rfl⟩, -⟩ := hchain
    exact ⟨cut, reset, gain, _, rfl⟩
  | false =>
    simp only [loud, Bool.false_eq_true, ↓reduceIte, List.append_nil, chain, run_bind_ok,
      run_fresh_ok, run_pure_ok, Prod.mk.injEq] at hchain
    obtain ⟨cut, _, -, _, _, ⟨reset, _, -, _, _, ⟨⟨rfl, rfl⟩, -⟩, ⟨rfl, rfl⟩, -⟩, ⟨rfl, rfl⟩,
      -⟩ := hchain
    exact ⟨cut, reset, "", _, rfl⟩

/-! ## All voices -/

/-- A node plays a voice from the input of its asset. -/
def Sounds (v : Voice) (n : Node) : Prop :=
  ∃ delay, Number.nearestInt (v.start * 1000) = .ok delay ∧
    SoundChain (inputText v.asset.inputIndex ++ ":a") v.asset.ref delay v.length v.volume n

/-- The nodes of the sound are those of the voices with the mixer and the padding behind them, or
without voices the one of silence. -/
theorem soundNodes_cases {t : Timeline} {assets : List Asset} {total : String} {rate : Number}
    {ls ls' : Labels} {ns : List Node}
    (h : (soundNodes t (assetAt assets) (assets.find? (·.isSoundtrack)) total rate).run ls =
      .ok (ns, ls')) :
    (voicesOf t assets total = [] ∧ ∃ label, ns = [silentNode rate total label]) ∨
    (voicesOf t assets total ≠ [] ∧ ∃ chains mixed,
      ns = chains ++ [.single (mixer (chains.map (·.filter.output)) mixed),
        .single (padding total mixed)] ∧
      List.Forall₂ Sounds (voicesOf t assets total) chains) := by
  unfold soundNodes at h
  split at h
  · next none =>
    simp only [silence, run_bind_ok, run_fresh_ok, run_pure_ok] at h
    obtain ⟨label, _, -, same, -⟩ := h
    exact .inl ⟨none, label, same.symm⟩
  · next some =>
    simp only [mix, run_bind_ok, run_fresh_ok, run_pure_ok] at h
    obtain ⟨chains, _, made, label, _, -, same, -⟩ := h
    refine .inr ⟨some, chains, label, same.symm, (run_mapM_ok made).imp fun v n link => ?_⟩
    obtain ⟨_, _, node⟩ := link
    exact voiceNode_chain node

/-- A voice is that of something that can be heard. -/
def VoiceOf (assets : List Asset) (total : String) : Audible → Voice → Prop
  | .clip item, v => ∃ m volume, item.2.content = .video m volume ∧
      assetAt assets item.1 = some v.asset ∧ v.asset.isFound = true ∧
      v.start = item.2.startValue ∧ v.length = Number.compactFloat item.2.duration ∧
      v.volume = volume.getD 1
  | .track s, v => assets.find? (·.isSoundtrack) = some v.asset ∧ v.asset.isFound = true ∧
      v.start = 0 ∧ v.length = total ∧ v.volume = s.volume.getD 1

theorem voiceOf_videoVoice {assets : List Asset} {total : String} {item : Item} {v : Voice}
    (h : videoVoice (assetAt assets) item = some v) : VoiceOf assets total (.clip item) v := by
  unfold videoVoice at h
  split at h
  · rename_i m volume a hcontent ha
    split at h
    · rename_i hfound
      cases h
      exact ⟨m, volume, hcontent, ha, (Bool.and_eq_true_iff.1 hfound).1, rfl, rfl, rfl⟩
    · cases h
  · cases h

theorem voiceOf_clips (t : Timeline) (assets : List Asset) (total : String) :
    List.Forall₂ (VoiceOf assets total) ((t.slots.filter (isHeard assets)).map .clip)
      (videoVoices t (assetAt assets)) := by
  rw [videoVoices_eq, List.forall₂_map_left_iff]
  have same : List.Forall₂ Eq (t.slots.filterMap (videoVoice (assetAt assets)))
      (t.slots.filterMap (videoVoice (assetAt assets))) := List.forall₂_same.2 fun _ _ => rfl
  have side := forall₂_filterMap same
  simp only [isSome_videoVoice] at side
  refine side.imp fun item v ⟨w, hw, e⟩ => ?_
  exact voiceOf_videoVoice (e ▸ hw)

theorem voiceOf_track (t : Timeline) (assets : List Asset) (total : String) :
    List.Forall₂ (VoiceOf assets total) ((heardTrack t assets).map .track).toList
      (trackVoice t (assets.find? (·.isSoundtrack)) total).toList := by
  unfold heardTrack trackVoice
  cases t.soundtrack.join with
  | none => exact .nil
  | some s =>
    cases ha : assets.find? (·.isSoundtrack) with
    | none => exact .nil
    | some a =>
      cases hfound : a.isFound with
      | false => simp [hfound]
      | true =>
        simp only [Option.filter, Option.any_some, hfound, ↓reduceIte]
        exact .cons ⟨ha, hfound, rfl, rfl, rfl⟩ .nil

/-- The voices are those of all that can be heard, in the same order. -/
theorem voiceOf_voicesOf (t : Timeline) (assets : List Asset) (total : String) :
    List.Forall₂ (VoiceOf assets total) (audibles t assets) (voicesOf t assets total) :=
  List.rel_append (voiceOf_clips t assets total) (voiceOf_track t assets total)

/-- Two relations side by side. -/
theorem forall₂_comp {α β γ : Type} {R : α → β → Prop} {S : β → γ → Prop} {xs : List α}
    {ys : List β} {zs : List γ} (h : List.Forall₂ R xs ys) (h' : List.Forall₂ S ys zs) :
    List.Forall₂ (fun x z => ∃ y, R x y ∧ S y z) xs zs := by
  induction h generalizing zs with
  | nil =>
    cases h'
    exact .nil
  | cons hxy _ ih =>
    cases h' with
    | cons hyz h' => exact .cons ⟨_, hxy, hyz⟩ (ih h')

/-! ## The whole sound -/

section

variable {k : Compiler} {files : Files} {t : Timeline} {assets : List Asset}
  {outputPath : String} {background : Option Asset} {cmd : Command}
  (s : Steps k files t assets outputPath background cmd)
include s

theorem isInput_of_mem {a : Asset} (ha : a ∈ assets) (hfound : a.isFound = true) :
    ∃ n : Nat, IsInput cmd a n ∧ inputText a.inputIndex ++ ":a" = soundOf n := by
  obtain ⟨path, hpath⟩ := Option.isSome_iff_exists.1 hfound
  obtain ⟨n, hindex, hinput⟩ := numbered_of_mem s.numbered ha hpath
  refine ⟨n + 1, ⟨hindex, path, hpath, ?_⟩, by rw [hindex]; rfl⟩
  unfold Reads
  rw [s.inputs_eq, List.getElem?_cons_succ, hinput]
  rfl

theorem playedBy_of_voice {part : Audible} {v : Voice} {n : Node}
    (hv : VoiceOf assets s.total part v) (sounds : Sounds v n) :
    PlayedBy assets cmd s.total part n := by
  obtain ⟨delay, hdelay, chained⟩ := sounds
  cases part with
  | clip item =>
    obtain ⟨m, volume, hcontent, ha, hfound, hstart, hlength, hvolume⟩ := hv
    obtain ⟨i, input, hi⟩ := isInput_of_mem s (mem_of_assetAt ha).1 hfound
    rw [hi, hlength, hvolume] at chained
    exact ⟨m, volume, v.asset, i, delay, hcontent, ha, input, hstart ▸ hdelay, chained⟩
  | track soundtrack =>
    obtain ⟨ha, hfound, hstart, hlength, hvolume⟩ := hv
    obtain ⟨i, input, hi⟩ := isInput_of_mem s (List.mem_of_find?_eq_some ha) hfound
    have atOnce : Number.nearestInt (0 * 1000) = .ok 0 := by decide +kernel
    rw [hstart, atOnce] at hdelay
    cases hdelay
    rw [hi, hlength, hvolume] at chained
    exact ⟨v.asset, i, ha, input, chained⟩

end

theorem sublist_produced (ns : List Node) :
    (ns.map (·.filter.output)).Sublist (produced (ns.flatMap Node.flatten)) := by
  induction ns with
  | nil => exact .slnil
  | cons n ns ih =>
    rw [List.flatMap_cons, Node.flatten_eq, produced_append, produced_append, List.append_assoc]
    exact (ih.cons_cons n.filter.output).trans (List.sublist_append_right _ _)

/-- **Mixing.** The sound of a command is the mix of all that can be heard, as long as the
command. -/
theorem compile_mixes {k : Compiler} {files : Files} {t : Timeline} {assets : List Asset}
    {outputPath : String} {output : OutputOptions} {background : Option Asset} {cmd : Command}
    (h : k.compile files t assets outputPath output background = .ok cmd) :
    ∃ total, cmd.duration.compact = .ok total ∧
      SoundOf assets cmd k.sampleRate total (audibles t assets) cmd.audioNodes := by
  obtain ⟨p⟩ := compile_ok h
  obtain ⟨s⟩ := compile_steps h
  refine ⟨s.total, s.total_eq, ?_⟩
  have voices := voiceOf_voicesOf t assets s.total
  rw [s.audioNodes_eq]
  rcases soundNodes_cases s.mixed with ⟨hnone, label, hsounds⟩ | ⟨hsome, chains, label, hsounds, plays⟩
  · rw [hnone] at voices
    rw [List.forall₂_nil_right_iff.1 voices]
    exact ⟨label, hsounds⟩
  · have played := (forall₂_comp voices plays).imp fun part n ⟨v, hv, sounds⟩ =>
      playedBy_of_voice s hv sounds
    have distinct : (chains.map (·.filter.output)).Nodup := by
      refine p.produced_nodup.sublist ((sublist_produced chains).trans ?_)
      rw [s.graph_eq, hsounds, Graph.filters]
      refine List.Sublist.map _ (List.Sublist.flatMap ?_ _)
      exact (List.sublist_append_left _ _).trans (List.sublist_append_right _ _)
    cases hparts : audibles t assets with
    | nil =>
      rw [hparts] at voices
      exact absurd (List.forall₂_nil_left_iff.1 voices) hsome
    | cons part parts =>
      rw [hparts] at played
      exact ⟨chains, label, hsounds, played, distinct⟩

theorem compile_mixes_layered :
    ∃ cmd total, layeredCommand = .ok cmd ∧ cmd.duration.compact = .ok total ∧
      SoundOf layeredAssets cmd (make .standard none none).sampleRate total
        (audibles layeredTimeline layeredAssets) cmd.audioNodes := by
  obtain ⟨cmd, h⟩ := layeredCommand_ok
  obtain ⟨total, htotal, mixed⟩ := compile_mixes h
  exact ⟨cmd, total, h, htotal, mixed⟩

end Montage.Compiler
