import Montage.Proofs.Compiler.Compositing
import Montage.Proofs.Compiler.Linear
import Montage.Proofs.Compiler.Overflow
import Montage.Proofs.Compiler.Quantities
import Montage.Proofs.Timeline.Ranges

/-!
# What stays positive on the command line

A size, a rate, a length and a tolerance above zero should not reach the encoder as zero. Sizes of
pictures and boxes are rounded up to one, and a tolerance is kept above a least one, but the size of
letters, rates, lengths and factors are only rounded. `compile_positive_iff` says how small they may
be: all that is printed of an accepted timeline is positive if and only if each of these numbers is
more than half a unit of the place that it is printed to.

Clips are drawn one by one, so the condition is one on each clip (`Tangible`); `drawClip_positive`
is the step and `drawClips_positive` the walk.
-/
namespace Montage

open Graph

/-! ## Colour keys -/

/-- A colour key within its bounds is printed with a positive tolerance: none is below the least one
that the filter takes. -/
theorem similarity_exceeds {k : ChromaKey} (within : 0 ≤ k.thresholdValue ∧ k.thresholdValue ≤ 1) :
    (Number.float (similarity k)).Exceeds 6 := by
  have value : Decimal.value? (Number.compactFloat leastSimilarity) = some (1 / 100000) := by
    decide +kernel
  have least : (Number.float leastSimilarity).Exceeds 6 :=
    (shows_compactFloat leastSimilarity).positive_iff.1 ⟨_, value, by norm_num⟩
  unfold similarity
  split
  · next above =>
    have finite : k.thresholdValue.isFinite := by
      have two : (1 : Float) < 2 := by decide
      exact Double.isFinite_of_lt_of_lt above (Double.lt_of_le_of_lt within.2 two)
    exact least.of_lt above (by decide) finite
  · exact least

namespace Compiler

open Command

/-! ## Clips -/

/-- The numbers of a clip that are printed as they are, are large enough for it. -/
def Tangible (assets : List Asset) (item : Item) : Prop :=
  match item.2.content with
  | .background .. | .shape _ => True
  | .text _ style =>
    (Number.float ((style.getD .standard).fontSizeValue * item.2.scaleValue)).Exceeds 0
  | .image m =>
    ∀ a, assetAt assets item.1 = some a → a.isFound = true → MediaTangible item.2 m false a
  | .video m _ =>
    ∀ a, assetAt assets item.1 = some a → a.isFound = true → MediaTangible item.2 m true a

/-- The tolerances of a clip's colour key are printed as positive. -/
def Keyed (c : Clip) : Prop := ∀ m k, c.content.media? = some m → m.chromaKey.join = some k →
  (Number.float (similarity k)).Exceeds 6

variable {k : Compiler} {files : Files} {t : Timeline} {assets : List Asset}

/-- A node that is drawn adds what is printed of it. -/
theorem draw_positive {v v' : Picture} {node : String → String → Build Node} {output : String}
    {ls ls' : Labels} (h : (draw v node output).run ls = .ok (v', ls')) {P : Prop}
    (drawn : ∀ n, (node v.current output).run ls = .ok (n, ls') →
      (AllPositive (quantities [n]) ↔ P)) :
    AllPositive (quantities v'.nodes) ↔ AllPositive (quantities v.nodes) ∧ P := by
  obtain ⟨n, made, rfl⟩ := draw_ok h
  rw [quantities_append, allPositive_append, drawn n made]

theorem drawClip_positive {item : Item} (keyed : Keyed item.2) {v v' : Picture} {ls ls' : Labels}
    (h : (drawClip t files assets v item).run ls = .ok (v', ls')) :
    AllPositive (quantities v'.nodes) ↔
      AllPositive (quantities v.nodes) ∧ Tangible assets item := by
  obtain ⟨slot, c⟩ := item
  unfold Tangible
  cases hc : c.content with
  | background color source =>
    simp only [drawClip, hc, run_pure_ok] at h
    obtain ⟨rfl, -⟩ := h
    exact (and_iff_left trivial).symm
  | text text style =>
    simp only [drawClip, hc, run_bind_ok, run_fresh_ok] at h
    obtain ⟨_, _, -, h⟩ := h
    exact draw_positive h fun n made => textNode_positive made
  | shape shape =>
    simp only [drawClip, hc, run_bind_ok, run_fresh_ok] at h
    obtain ⟨_, _, -, h⟩ := h
    exact draw_positive h fun n made => iff_of_true (shapeNode_positive made) trivial
  | image m | video m volume =>
    simp only [drawClip, hc, run_bind_ok, run_fresh_ok] at h
    obtain ⟨_, _, -, h⟩ := h
    have keys (key : ChromaKey) := keyed m key (by rw [hc]; rfl)
    dsimp only
    -- without a file nothing is drawn, and nothing is asked of the clip either
    cases ha : assetAt assets slot with
    | none =>
      simp only [ha, run_pure_ok] at h
      obtain ⟨rfl, -⟩ := h
      simp
    | some a =>
      simp only [ha] at h
      split at h
      · next found =>
        refine (draw_positive h fun n made => mediaNode_positive keys made).trans ?_
        simp [found]
      · next unfound =>
        simp only [run_pure_ok] at h
        obtain ⟨rfl, -⟩ := h
        simp [unfound]

theorem drawClips_positive {items : List Item} (keyed : ∀ item ∈ items, Keyed item.2)
    {v v' : Picture} {ls ls' : Labels}
    (h : (items.foldlM (drawClip t files assets) v).run ls = .ok (v', ls')) :
    AllPositive (quantities v'.nodes) ↔
      AllPositive (quantities v.nodes) ∧ ∀ item ∈ items, Tangible assets item := by
  induction items generalizing v ls with
  | nil =>
    simp only [List.foldlM_nil, run_pure_ok] at h
    obtain ⟨rfl, -⟩ := h
    simp
  | cons item items ih =>
    simp only [List.foldlM_cons, run_bind_ok] at h
    obtain ⟨v₁, l, step, rest⟩ := h
    obtain ⟨first, others⟩ := List.forall_mem_cons.1 keyed
    rw [ih others rest, drawClip_positive first step, List.forall_mem_cons, and_assoc]

/-- Naming the finished picture changes nothing that is printed of it. -/
theorem quantities_finish (v : Picture) : quantities (finish v) = quantities v.nodes := by
  rcases List.eq_nil_or_concat v.nodes with empty | ⟨ns, last, nodes⟩
  · unfold finish
    rw [empty]
    rfl
  · rw [List.concat_eq_append] at nodes
    rw [finish_append nodes, nodes, quantities_append, quantities_append, quantities_relabel]

/-! ## Input 0 -/

/-- The rate and the length of a generated source are positive as they are printed. -/
structure PositiveSource (i : Input) : Prop where
  rate : ∃ s, told? "r" i.path = some s ∧ IsPositive s
  length : ∃ s, told? "d" i.path = some s ∧ IsPositive s

end Compiler

/-- All that a command prints of sizes, rates, lengths and tolerances is positive: in its filters,
in the description of a generated source, and in the options of the result. -/
structure Command.IsPositive (cmd : Command) (argv : List String) : Prop where
  filters : AllPositive (quantities cmd.graph)
  sources : ∀ i ∈ cmd.inputs, i.options = sourceOptions → Compiler.PositiveSource i
  rate : ∃ s, argument? "-r" argv = some s ∧ Montage.IsPositive s
  length : ∃ s, argument? "-t" argv = some s ∧ Montage.IsPositive s

namespace Compiler

open Command

variable {k : Compiler} {files : Files} {t : Timeline} {assets : List Asset}
  {outputPath : String} {background : Option Asset} {cmd : Command}

/-- The background is brought to the size of the picture, which is positive. -/
theorem base_positive {duration : Number} {input : Input} {v : Picture} {ls ls' : Labels}
    (size : 1 ≤ t.width ∧ 1 ≤ t.height)
    (h : (base t background duration).run ls = .ok ((input, v), ls')) :
    AllPositive (quantities v.nodes) := by
  have start := base_start h
  split at start
  · next a _ =>
    obtain ⟨label, rfl⟩ := start
    have measures : quantities [backdrop t a label] = [toString t.width, toString t.height] := rfl
    rw [measures, allPositive_cons, allPositive_singleton, isPositive_toString, isPositive_toString]
    exact ⟨by omega, by omega⟩
  · rw [start]
    exact allPositive_nil

theorem voices_positive {total : String} (tangible : ∀ item ∈ t.slots, Tangible assets item)
    (positive : IsPositive total) : AllPositive ((voicesOf t assets total).map (·.length)) := by
  intro length mem
  obtain ⟨v, voice, rfl⟩ := List.mem_map.1 mem
  obtain ⟨part, heard, -, own⟩ := forall₂_right (voiceOf_voicesOf t assets total) voice
  cases part with
  | track s =>
    obtain ⟨-, -, -, long, -⟩ := own
    exact long ▸ positive
  | clip item =>
    obtain ⟨m, volume, video, asset, found, -, long, -⟩ := own
    -- only clips of the timeline are heard, and the length of a heard one is printed twice
    have there : item ∈ t.slots := by
      rcases List.mem_append.1 heard with clip | track
      · obtain ⟨_, shown, same⟩ := List.mem_map.1 clip
        cases same
        exact List.mem_of_mem_filter shown
      · obtain ⟨s, -, other⟩ := Option.map_eq_some_iff.1 (Option.mem_toList.1 track)
        cases other
    have fits := tangible item there
    unfold Tangible at fits
    rw [video] at fits
    rw [long]
    exact (shows_compactFloat item.2.duration).positive_iff.2 ((fits _ asset found).length rfl)

theorem frameRate_compiled {output : OutputOptions}
    (h : k.compile files t assets outputPath output background = .ok cmd) :
    cmd.frameRate = .float t.frameRateValue := by
  unfold compile at h
  obtain ⟨⟨cmd, labels⟩, run, rfl⟩ := except_map_ok.1 h
  simp only [build, run_bind_ok, run_pure_ok] at run
  obtain ⟨_, _, -, _, _, -, _, _, -, _, _, -, _, _, -, rfl, -⟩ := run
  rfl

/-! ## Whole commands -/

section

variable (s : Steps k files t assets outputPath background cmd)
include s

/-- What is printed of the filters: of the clips, and of the length. -/
theorem filters_positive (size : 1 ≤ t.width ∧ 1 ≤ t.height)
    (keyed : ∀ item ∈ t.slots, Keyed item.2) : AllPositive (quantities cmd.graph) ↔
      (∀ item ∈ t.slots, Tangible assets item) ∧ cmd.duration.Exceeds 6 := by
  rw [s.graph_eq, quantities_append, allPositive_append, quantities_finish,
    drawClips_positive keyed s.drawn, and_iff_right (base_positive size s.based),
    soundNodes_positive s.mixed, (shows_compact s.total_eq).positive_iff]
  constructor
  · rintro ⟨tangible, -, long⟩
    exact ⟨tangible, long⟩
  · rintro ⟨tangible, long⟩
    have total : IsPositive s.total := (shows_compact s.total_eq).positive_iff.2 long
    exact ⟨tangible, voices_positive tangible total, long⟩

/-- Only input 0 can be generated. -/
theorem sources_positive (rate : (Number.float t.frameRateValue).Exceeds 6)
    (long : cmd.duration.Exceeds 6) :
    ∀ i ∈ cmd.inputs, i.options = sourceOptions → PositiveSource i := by
  rw [s.inputs_eq]
  intro i mem generated
  rcases List.mem_cons.1 mem with rfl | file
  · obtain ⟨length, fast⟩ := s.told generated
    exact ⟨⟨_, fast, (shows_compactFloat t.frameRateValue).positive_iff.2 rate⟩,
      ⟨_, length, (shows_compact s.total_eq).positive_iff.2 long⟩⟩
  · have options := (inputsFrom_files s.numbered).2 i file
    rw [generated] at options
    exact absurd options (by decide)

end

/-- **Positive quantities.** All that is printed of an accepted timeline is positive if and only if
its clips are tangible, its rate is more than half a millionth and its length is more than half a
thousandth. -/
theorem compile_positive_iff {canvas : Except (List Mismatch) Canvas} {v : Json}
    (accepted : Timeline.accept canvas v = .ok t)
    (standard : ∀ c, canvas = .ok c → 1 ≤ c.width ∧ 1 ≤ c.height) {output : OutputOptions}
    (h : k.compile files t assets outputPath output background = .ok cmd) {encoder : String}
    {argv : List String} (hargv : cmd.arguments encoder = .ok argv) :
    cmd.IsPositive argv ↔ (∀ item ∈ t.slots, Tangible assets item) ∧
      (Number.float t.frameRateValue).Exceeds 6 ∧
      (t.effectiveDuration k.minDuration).Exceeds 3 := by
  obtain ⟨members, docs, rfl, a, inForce⟩ := accept_ok accepted
  have size : 1 ≤ t.width ∧ 1 ≤ t.height :=
    a.size fun needed => standard _ (inForce.resolve_right (by simp [needed]))
  have keyed : ∀ item ∈ t.slots, Keyed item.2 := by
    intro item mem m key hm present
    have clip : item.2 ∈ t.clips := t.map_slots ▸ List.mem_map_of_mem mem
    obtain ⟨doc, accepted⟩ := a.acceptedClip clip
    exact similarity_exceeds (accepted.chromaKey hm present).1
  obtain ⟨p⟩ := compile_ok h
  obtain ⟨s⟩ := compile_steps h
  obtain ⟨rate, seconds, rateWritten, written, toldRate, toldSeconds⟩ :=
    argument?_arguments p.options_mem hargv
  rw [frameRate_compiled h] at rateWritten
  rw [← s.duration_eq]
  have shownRate := (shows_compact rateWritten).positive_iff
  have shownSeconds := (shows_seconds written).positive_iff
  have filters := filters_positive s size keyed
  constructor
  · rintro ⟨positive, -, ⟨_, told, fast⟩, ⟨_, told', long⟩⟩
    cases toldRate.symm.trans told
    cases toldSeconds.symm.trans told'
    exact ⟨(filters.1 positive).1, shownRate.1 fast, shownSeconds.1 long⟩
  · rintro ⟨tangible, fast, long⟩
    -- what is left of the length in three places is left of it in six
    have total : cmd.duration.Exceeds 6 := long.more (by decide)
    exact ⟨filters.2 ⟨tangible, total⟩, sources_positive s fast total,
      ⟨rate, toldRate, shownRate.2 fast⟩, ⟨seconds, toldSeconds, shownSeconds.2 long⟩⟩

/-- The document of a clip of half the size and half transparent. -/
def fadedDocument (kind : String) (own : List (String × Json)) (start duration : Float) : Json :=
  .object ([("type", .string kind), ("start", .float start), ("duration", .float duration),
    ("opacity", .float 50), ("scale", .float 0.5)] ++ own)

/-- The document that `layeredTimeline` is read from. -/
def layeredDocument : Json := .object [
  ("background", .object [("src", .string "/sky.png")]),
  ("tracks", .array [
    .object [("clips", .array [
      fadedDocument "video" [("source", .string "/walk.mp4"), ("filter", .string "blur"),
        ("volume", .float 0.5)] 1 2,
      fadedDocument "image" [("source", .string "/gone.png")] 0 4])],
    .object [("clips", .array [
      fadedDocument "shape" [("shape", .object [("strokeColor", .string "white")])] 0 3,
      fadedDocument "text" [("text", .string "it's late")] 0.25 5])]]),
  ("soundtrack", .object [("src", .string "/song.mp3")])]

theorem compile_positive_layered : ∃ cmd argv,
    Timeline.accept (.ok fullCanvas) layeredDocument = .ok layeredTimeline ∧
      layeredCommand = .ok cmd ∧ cmd.arguments "ffmpeg" = .ok argv ∧ cmd.IsPositive argv := by
  have accepted : Timeline.accept (.ok fullCanvas) layeredDocument = .ok layeredTimeline := rfl
  have standard : ∀ c, (.ok fullCanvas : Except (List Mismatch) Canvas) = .ok c →
      1 ≤ c.width ∧ 1 ≤ c.height := by
    rintro _ ⟨⟩
    decide
  obtain ⟨cmd, made⟩ := layeredCommand_ok
  obtain ⟨argv, written⟩ := arguments_of_compile rfl made "ffmpeg"
  refine ⟨cmd, argv, accepted, made, written, ?_⟩
  refine (compile_positive_iff accepted standard made written).2 ⟨?_, ?_, ?_⟩
  · have half : (Number.float 0.5).Exceeds 6 := ⟨1 / 2, by decide +kernel, by norm_num⟩
    intro item mem
    have slots : item ∈ [_, _, _, _] := mem
    simp only [List.mem_cons, List.not_mem_nil, or_false] at slots
    rcases slots with rfl | rfl | rfl | rfl
    · exact fun _ _ _ => ⟨fun _ => ⟨2, by decide +kernel, by norm_num⟩, fun _ _ => half⟩
    · exact fun _ _ _ => ⟨nofun, fun _ _ => half⟩
    · trivial
    · exact ⟨24, by decide +kernel, by norm_num⟩
  · exact ⟨30, by decide +kernel, by norm_num⟩
  · exact ⟨10, by decide +kernel, by norm_num⟩

/-- A title of a hundredth of the usual size. -/
def tinyTitleDocument : Json :=
  .object [("tracks", .array [.object [("clips", .array [.object [
    ("type", .string "text"), ("text", .string "Hello"), ("duration", .float 12.5),
    ("scale", .float 0.01)]])]])]

/-- The timeline that is read from `tinyTitleDocument`. -/
def tinyTitle : Timeline :=
  let clip : Clip := ⟨none, none, 12.5, none, none, some 0.01, .text "Hello" none, []⟩
  { titleTimeline fullCanvas 12.5 with tracks := some [⟨none, some [clip], []⟩] }

def tinyTitleCommand : Except Failure Command :=
  (make .standard none none).compile ⟨[], []⟩ tinyTitle [] "/out.mp4" ⟨.mp4, .high⟩ none

theorem tinyTitle_quantities :
    (tinyTitleCommand.map fun cmd => quantities cmd.graph).toOption = some ["0", "12.5"] := by
  unfold tinyTitleCommand compile build
  rw [show found [] = [] from List.mergeSort_nil]
  decide +kernel

/-- Its letters have no size at all. -/
theorem compile_not_positive_title : ∃ cmd argv,
    Timeline.accept (.ok fullCanvas) tinyTitleDocument = .ok tinyTitle ∧
      tinyTitle.IsFinite ∧ tinyTitleCommand = .ok cmd ∧
        cmd.arguments "ffmpeg" = .ok argv ∧ "0" ∈ quantities cmd.graph ∧ ¬cmd.IsPositive argv := by
  have printed := tinyTitle_quantities
  cases made : tinyTitleCommand with
  | error e =>
    rw [made] at printed
    cases printed
  | ok cmd =>
    rw [made] at printed
    obtain ⟨argv, written⟩ := arguments_of_compile rfl made "ffmpeg"
    have printed : quantities cmd.graph = ["0", "12.5"] := Option.some.inj printed
    have zero : "0" ∈ quantities cmd.graph := by
      rw [printed]
      exact List.mem_cons_self
    refine ⟨cmd, argv, rfl, ⟨?_, by decide, ?_⟩, rfl, written, zero, fun positive => ?_⟩
    · intro c mem
      obtain rfl := List.mem_singleton.1 mem
      exact ⟨by decide, by decide, by decide⟩
    · rintro _ ⟨⟩
    · exact absurd ((isPositive_toString 0).1 (positive.filters "0" zero)) (by decide)

end Compiler
end Montage
