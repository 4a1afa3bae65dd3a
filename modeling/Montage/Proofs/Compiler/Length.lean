import Montage.Proofs.Compiler.Mixing
import Montage.Proofs.Compiler.Overflow
import Montage.Proofs.Compiler.Values
import Montage.Proofs.Number.Printed

/-!
# The length of the result, wherever it is told

A command tells the encoder how long its result is in up to four places: in the description of the
generated picture behind everything, in the filter that gives the sound (silence cut to its length,
or padding up to it), in the cut of the soundtrack, and as an option of the result (`IsLimit`). The
first three are printed to six places, the last one to three.

`compile_length_agrees_iff`: all of them are within half a thousandth of the length, and they denote
one number if and only if the length is, to six places, a whole number of thousandths.
-/
namespace Montage

open Graph Decimal

/-- The length that a filter cuts its stream to, or fills it up to. -/
def Filter.length? (f : Filter) : Option String :=
  (f.options.lookup "duration" <|> f.options.lookup "whole_dur").map plainText

namespace Compiler

open Command

/-- A text that tells the encoder how long the result is. -/
inductive IsLimit (assets : List Asset) (cmd : Command) (argv : List String) (s : String) : Prop
  /-- in the generated source behind everything -/
  | source {i : Input} (first : cmd.inputs[0]? = some i) (generated : i.options = sourceOptions)
      (length : told? "d" i.path = some s)
  /-- in the filter that gives the sound of the result -/
  | sound {f : Filter} (mem : f ∈ Graph.filters cmd.audioNodes) (last : f.output = soundLabel)
      (length : f.length? = some s)
  /-- in the filter that cuts the soundtrack -/
  | track {a : Asset} {f : Filter} (asset : assets.find? (·.isSoundtrack) = some a)
      (found : a.isFound = true) (mem : f ∈ Graph.filters cmd.audioNodes)
      (cut : f.operation = "atrim") (input : f.inputs = [inputText a.inputIndex ++ ":a"])
      (length : f.length? = some s)
  /-- in the option of the result -/
  | argument (length : argument? "-t" argv = some s)

/-! ## The filters of the sound -/

/-- Only the first filter of a voice's chain cuts it. -/
theorem SoundChain.cut {source ref length : String} {delay : Int} {volume : Float} {n : Node}
    (h : SoundChain source ref delay length volume n) {f : Filter} (mem : f ∈ n.flatten)
    (cut : f.operation = "atrim") : f.inputs = [source] ∧ f.length? = some length := by
  obtain ⟨_, _, _, _, rfl⟩ := h
  rw [Node.flatten_eq] at mem
  split at mem <;>
    simp only [Node.prelude, Node.filter, List.flatMap_cons, List.flatMap_nil, Node.single,
      Node.flatten, Node.flattenAll, List.nil_append, List.append_nil, List.cons_append,
      List.mem_cons, List.not_mem_nil, or_false] at mem
  · rcases mem with rfl | rfl | rfl | rfl
    · exact ⟨rfl, rfl⟩
    all_goals exact absurd cut (by simp [soundFilter])
  · rcases mem with rfl | rfl | rfl
    · exact ⟨rfl, rfl⟩
    all_goals exact absurd cut (by simp [soundFilter])

/-- A voice of an asset without a slot is the soundtrack, which is as long as the result. -/
theorem length_of_unslotted {t : Timeline} {assets : List Asset} {total : String} {v : Voice}
    (h : v ∈ voicesOf t assets total) (unslotted : v.asset.slot = none) : v.length = total := by
  obtain ⟨part, -, -, voice⟩ := forall₂_right (voiceOf_voicesOf t assets total) h
  cases part with
  | clip item =>
    obtain ⟨m, volume, -, asset, -⟩ := voice
    rw [(mem_of_assetAt asset).2] at unslotted
    cases unslotted
  | track s =>
    obtain ⟨-, -, -, length, -⟩ := voice
    exact length

section

variable {k : Compiler} {files : Files} {t : Timeline} {assets : List Asset}
  {outputPath : String} {background : Option Asset} {cmd : Command}
  (s : Steps k files t assets outputPath background cmd)
include s

/-- The filter that gives the sound of the result is as long as the result. -/
theorem sound_total : ∃ f ∈ Graph.filters s.sounds, f.output = soundLabel ∧
    f.length? = some s.total := by
  rcases soundNodes_cases s.mixed with ⟨-, label, silent⟩ | ⟨-, chains, mixed, padded, -⟩
  · refine ⟨(silentNode k.sampleRate s.total label).filter, ?_, rfl, rfl⟩
    rw [silent, Graph.filters, List.flatMap_singleton, Node.flatten_eq]
    exact List.mem_append_right _ (List.mem_singleton.2 rfl)
  · refine ⟨padding s.total mixed, ?_, rfl, rfl⟩
    rw [padded, Graph.filters, List.flatMap_append]
    refine List.mem_append_right _ ?_
    simp [Node.flatten_eq, Node.single, Node.filter, Node.prelude]

/-- The soundtrack is the only voice of an asset without a slot, and is as long as the result. -/
theorem track_total {a : Asset} (asset : assets.find? (·.isSoundtrack) = some a)
    (found : a.isFound = true) {f : Filter} (mem : f ∈ Graph.filters s.sounds)
    (cut : f.operation = "atrim") (input : f.inputs = [inputText a.inputIndex ++ ":a"]) :
    f.length? = some s.total := by
  rcases soundNodes_cases s.mixed with ⟨-, label, silent⟩ | ⟨-, chains, mixed, padded, plays⟩
  · rw [silent, Graph.filters, List.flatMap_singleton] at mem
    rw [Node.flatten_eq] at mem
    rcases List.mem_append.1 mem with source | last
    · have source : f.operation = "anullsrc" := by
        simp only [silentNode, Node.prelude, List.flatMap_singleton, Node.single, Node.flatten,
          Node.flattenAll, List.nil_append, List.mem_singleton] at source
        rw [source]
      exact absurd cut (by rw [source]; decide)
    · rw [List.mem_singleton.1 last]
      rfl
  · rw [padded, Graph.filters, List.flatMap_append, List.mem_append] at mem
    rcases mem with chain | rest
    · obtain ⟨n, node, mem⟩ := List.mem_flatMap.1 chain
      obtain ⟨v, voice, -, delay, -, sounds⟩ := forall₂_right plays node
      obtain ⟨source, length⟩ := sounds.cut mem cut
      rw [length, length_of_unslotted voice ?_]
      obtain ⟨own, there⟩ := mem_voicesOf voice
      have same : inputText v.asset.inputIndex = inputText a.inputIndex := by
        simpa using source.symm.trans input
      rw [eq_of_inputText_eq s.numbered own (List.mem_of_find?_eq_some asset) there found same]
      have track := List.find?_some asset
      simpa [Asset.isSoundtrack] using (Bool.and_eq_true_iff.1 track).1
    · have other : f.operation = "amix" ∨ f.operation = "apad" := by
        simp only [List.flatMap_cons, List.flatMap_nil, Node.single, Node.flatten,
          Node.flattenAll, List.nil_append, List.append_nil, List.cons_append, List.mem_cons,
          List.not_mem_nil, or_false] at rest
        rcases rest with rfl | rfl
        · exact .inl rfl
        · exact .inr rfl
      rcases other with other | other <;> exact absurd cut (by rw [other]; decide)

/-- The generated source is told the same length. -/
theorem source_total {i : Input} (first : cmd.inputs[0]? = some i)
    (generated : i.options = sourceOptions) : told? "d" i.path = some s.total := by
  rw [s.inputs_eq, List.getElem?_cons_zero, Option.some.injEq] at first
  subst first
  exact (s.told generated).1

/-- No two filters of the sound have one label. -/
theorem sound_unique (p : Assembly t assets background cmd) {f g : Filter}
    (hf : f ∈ Graph.filters s.sounds) (hg : g ∈ Graph.filters s.sounds)
    (same : f.output = g.output) : f = g := by
  have within : ∀ h ∈ Graph.filters s.sounds, h ∈ cmd.graph.filters := by
    intro h mem
    rw [s.graph_eq, Graph.filters, List.flatMap_append]
    exact List.mem_append_right _ mem
  exact List.inj_on_of_nodup_map p.produced_nodup (within f hf) (within g hg) same

/-- Three of the places have the length as filters read it, the last one has it as the encoder's own
options are written. -/
theorem isLimit_iff (p : Assembly t assets background cmd) {argv : List String} {text : String} :
    IsLimit assets cmd argv text ↔ text = s.total ∨ argument? "-t" argv = some text := by
  obtain ⟨f, mem, last, length⟩ := sound_total s
  constructor
  · rintro (⟨first, generated, told⟩ | ⟨mem', last', length'⟩ |
      ⟨asset, found, mem', cut, input, length'⟩ |
      argument)
    · rw [source_total s first generated, Option.some.injEq] at told
      exact .inl told.symm
    · rw [s.audioNodes_eq] at mem'
      rw [sound_unique s p mem' mem (last'.trans last.symm), length, Option.some.injEq] at length'
      exact .inl length'.symm
    · rw [s.audioNodes_eq] at mem'
      rw [track_total s asset found mem' cut input, Option.some.injEq] at length'
      exact .inl length'.symm
    · exact .inr argument
  · rintro (rfl | argument)
    · exact .sound (s.audioNodes_eq ▸ mem) last length
    · exact .argument argument

end

/-- **One length.** For a finite length, all that tells the encoder how long the result is denotes a
number, off by half a thousandth at most. It is one number everywhere if and only if the length is a
whole number of thousandths, to within half a millionth. -/
theorem compile_length_agrees_iff {k : Compiler} {files : Files} {t : Timeline}
    {assets : List Asset} {outputPath : String} {output : OutputOptions}
    {background : Option Asset} {cmd : Command}
    (h : k.compile files t assets outputPath output background = .ok cmd) {encoder : String}
    {argv : List String} (hargv : cmd.arguments encoder = .ok argv) {q : ℚ}
    (finite : cmd.duration.fraction? = some q) :
    (∀ s, IsLimit assets cmd argv s → ∃ v, value? s = some v ∧ |q - v| ≤ 1 / 2000) ∧
    ((∃ v, ∀ s, IsLimit assets cmd argv s → value? s = some v) ↔
      ∃ m : ℤ, |q - m / 1000| ≤ 1 / 2000000) := by
  obtain ⟨p⟩ := compile_ok h
  obtain ⟨steps⟩ := compile_steps h
  obtain ⟨-, seconds, -, written, -, argument⟩ := argument?_arguments p.options_mem hargv
  have limits (s : String) : IsLimit assets cmd argv s ↔ s = steps.total ∨ s = seconds := by
    rw [isLimit_iff steps p, argument, Option.some.injEq, eq_comm (a := seconds)]
  have six : Shows 6 cmd.duration steps.total := shows_compact steps.total_eq
  have three : Shows 3 cmd.duration seconds := shows_seconds written
  obtain ⟨v, sixth, nearSixth⟩ := six.close finite
  obtain ⟨w, third, nearThird⟩ := three.close finite
  constructor
  · intro s limit
    rcases (limits s).1 limit with rfl | rfl
    · exact ⟨v, sixth, nearSixth.trans (by norm_num)⟩
    · exact ⟨w, third, nearThird.trans (by norm_num)⟩
  · rw [← six.agree_iff three finite]
    constructor
    · rintro ⟨u, one⟩
      rw [one _ ((limits _).2 (.inl rfl)), one _ ((limits _).2 (.inr rfl))]
    · intro same
      refine ⟨v, fun s limit => ?_⟩
      rcases (limits s).1 limit with rfl | rfl
      · exact sixth
      · rw [← same, sixth]

/-- The command of a title that is to be seen for some seconds. -/
def titleCommand (seconds : Float) : Except Failure Command :=
  (make .standard none none).compile ⟨[], []⟩ (titleTimeline fullCanvas seconds) [] "/out.mp4"
    ⟨.mp4, .high⟩ none

theorem titleCommand_lengths :
    ((titleCommand 12.5).map (·.duration)).toOption = some (.float 12.5) ∧
      ((titleCommand 12.3456).map (·.duration)).toOption = some (.float 12.3456) := by
  unfold titleCommand compile build
  rw [show found [] = [] from List.mergeSort_nil]
  decide +kernel

theorem titleCommand_ok {seconds : Float} {duration : Number}
    (h : ((titleCommand seconds).map (·.duration)).toOption = some duration) :
    ∃ cmd argv, titleCommand seconds = .ok cmd ∧ cmd.duration = duration ∧
      cmd.arguments "ffmpeg" = .ok argv := by
  cases made : titleCommand seconds with
  | error e => rw [made] at h; cases h
  | ok cmd =>
    rw [made] at h
    cases h
    obtain ⟨argv, written⟩ := arguments_of_compile rfl made "ffmpeg"
    exact ⟨cmd, argv, rfl, rfl, written⟩

theorem compile_length_agrees_title : ∃ cmd argv, titleCommand 12.5 = .ok cmd ∧
    cmd.arguments "ffmpeg" = .ok argv ∧ cmd.duration.fraction? = some (25 / 2) ∧
      ∃ v, ∀ s, IsLimit [] cmd argv s → value? s = some v := by
  obtain ⟨cmd, argv, made, duration, written⟩ := titleCommand_ok titleCommand_lengths.1
  have finite : cmd.duration.fraction? = some (25 / 2) := by
    rw [duration]
    decide +kernel
  refine ⟨cmd, argv, made, written, finite, ?_⟩
  exact (compile_length_agrees_iff made written finite).2.2 ⟨12500, by norm_num⟩

/-- The generated picture and the silence last 12.3456 seconds, the result 12.346. -/
theorem compile_length_differs : ∃ cmd argv q, titleCommand 12.3456 = .ok cmd ∧
    cmd.arguments "ffmpeg" = .ok argv ∧ cmd.duration.fraction? = some q ∧
      IsLimit [] cmd argv "12.3456" ∧ IsLimit [] cmd argv "12.346" ∧
        ¬∃ v, ∀ s, IsLimit [] cmd argv s → value? s = some v := by
  obtain ⟨cmd, argv, made, duration, written⟩ := titleCommand_ok titleCommand_lengths.2
  obtain ⟨q, finite⟩ : ∃ q, cmd.duration.fraction? = some q := by
    refine Option.isSome_iff_exists.1 ?_
    rw [duration]
    decide +kernel
  obtain ⟨p⟩ := compile_ok made
  obtain ⟨steps⟩ := compile_steps made
  obtain ⟨-, seconds, -, third, -, argument⟩ := argument?_arguments p.options_mem written
  have sixth := steps.total_eq
  rw [duration] at third sixth
  have six : steps.total = "12.3456" := Except.ok.inj (sixth.symm.trans (by decide +kernel))
  have three : seconds = "12.346" := Except.ok.inj (third.symm.trans (by decide +kernel))
  have long : IsLimit [] cmd argv "12.3456" := (isLimit_iff steps p).2 (.inl six.symm)
  have short : IsLimit [] cmd argv "12.346" := .argument (three ▸ argument)
  refine ⟨cmd, argv, q, made, written, finite, long, short, ?_⟩
  rintro ⟨v, one⟩
  exact absurd ((one _ long).trans (one _ short).symm) (by decide +kernel)

end Compiler
end Montage
