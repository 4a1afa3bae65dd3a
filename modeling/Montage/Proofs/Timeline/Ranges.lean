import Montage.Proofs.Float.Whole
import Montage.Proofs.Timeline.Accepted

/-!
# The ranges of an accepted timeline

What is documented of a timeline's numbers and texts is `Timeline.InRange`. `accept_inRange_iff`
says how much of it the check makes sure of: everything but that numbers are finite. The check
refuses a start below zero, and lengths, scales and rates that are zero or below; an infinity and
what is not a number are none of that and pass, and nothing behind the check looks again.
Wherever a number is asked to lie between two bounds, as opacity is, nothing of the kind gets
through.
-/
namespace Montage

open Schema

/-- What is documented of a clip. -/
structure Clip.InRange (c : Clip) : Prop where
  start : c.startValue.isFinite ∧ 0 ≤ c.startValue
  duration : c.duration.isFinite ∧ 0 < c.duration
  opacity : 0 ≤ c.opacityValue ∧ c.opacityValue ≤ 100
  scale : c.scaleValue.isFinite ∧ 0 < c.scaleValue
  text : ∀ text style, c.content = .text text style → text ≠ ""
  source : ∀ m, c.content.media? = some m → m.source ≠ ""
  chromaKey : ∀ m k, c.content.media? = some m → m.chromaKey.join = some k →
    (0 ≤ k.thresholdValue ∧ k.thresholdValue ≤ 1) ∧ 0 ≤ k.haloValue ∧ k.haloValue ≤ 1

/-- What is documented of a timeline. -/
structure Timeline.InRange (t : Timeline) : Prop where
  tracks : t.trackList ≠ []
  filled : ∀ track ∈ t.trackList, track.clipList ≠ []
  clips : ∀ c ∈ t.clips, c.InRange
  frameRate : t.frameRateValue.isFinite ∧ 0 < t.frameRateValue
  size : 1 ≤ t.width ∧ 1 ≤ t.height
  duration : ∀ d, t.duration.join = some d → d.isFinite ∧ 0 < d
  soundtrack : ∀ s, t.soundtrack.join = some s → s.source ≠ ""

/-- Whether the numbers without an upper bound are finite. -/
structure Timeline.IsFinite (t : Timeline) : Prop where
  clips : ∀ c ∈ t.clips, c.startValue.isFinite ∧ c.duration.isFinite ∧ c.scaleValue.isFinite
  frameRate : t.frameRateValue.isFinite
  duration : ∀ d, t.duration.join = some d → d.isFinite

/-! ## Numbers -/

variable {members : List (String × Json)} {name : String} {p : Number → Bool}

theorem nonneg_of_isFinite {x : Float} (finite : x.isFinite) (h : ¬x < 0) : 0 ≤ x :=
  Double.le_of_not_lt rfl (Double.isNaN_of_isFinite finite) h

theorem pos_of_isFinite {x : Float} (finite : x.isFinite) (h : ¬x ≤ 0) : 0 < x :=
  Double.lt_of_not_le rfl (Double.isNaN_of_isFinite finite) h

/-- A number that may be left out is left out, or passed and was read. -/
theorem optional_number {standard : Int} {o : Option Float}
    (passes : Check.isNumber p ((Json.lookup name members).getD (.int standard)) = true)
    (read : optional [name] float members = .ok o) :
    o = none ∨ ∃ n x, p n = true ∧ n.toFloat = .ok x ∧ o = some x := by
  have h := optional_ok read
  rw [find_one] at h
  cases found : Json.lookup name members with
  | none =>
    rw [found] at h
    exact .inl h
  | some v =>
    rw [found] at h passes
    obtain ⟨n, rfl, hn⟩ := Check.isNumber_iff.1 passes
    obtain ⟨x, hx, rfl⟩ := h
    exact .inr ⟨n, x, hn, float_number hx, rfl⟩

theorem required_number {standard : Json} {x : Float}
    (passes : Check.isNumber p ((Json.lookup name members).getD standard) = true)
    (read : required [name] float members = .ok x) : ∃ n, p n = true ∧ n.toFloat = .ok x := by
  obtain ⟨v, found, hv⟩ := required_ok read
  rw [find_one] at found
  rw [found] at passes
  obtain ⟨n, rfl, hn⟩ := Check.isNumber_iff.1 passes
  exact ⟨n, hn, float_number hv⟩

/-- A number that is zero only if it is left out. -/
theorem least_of_passes {standard : Int} {o : Option Float}
    (passes : Check.isNotNegative ((Json.lookup name members).getD (.int standard)) = true)
    (read : optional [name] float members = .ok o) (finite : (o.getD 0).isFinite) :
    0 ≤ o.getD 0 := by
  rcases optional_number passes read with rfl | ⟨n, x, hn, hx, rfl⟩
  · decide
  · exact nonneg_of_isFinite finite (Double.not_lt_zero_of_toFloat hx (by simpa using hn))

/-- A number above zero, left out or not. -/
theorem above_of_passes {standard : Int} {usual : Float} {o : Option Float}
    (passes : Check.isNotBelowOrZero ((Json.lookup name members).getD (.int standard)) = true)
    (read : optional [name] float members = .ok o) (above : o = none → 0 < usual)
    (finite : (o.getD usual).isFinite) : 0 < o.getD usual := by
  rcases optional_number passes read with rfl | ⟨n, x, hn, hx, rfl⟩
  · exact above rfl
  · exact pos_of_isFinite finite (Double.not_le_zero_of_toFloat hx (by simpa using hn))

/-- A number within bounds, left out or not. -/
theorem within_of_passes {standard : Int} {k : Nat} {usual y : Float} {o : Option Float}
    (passes : Check.isWithin 0 k ((Json.lookup name members).getD (.int standard)) = true)
    (read : optional [name] float members = .ok o) (reaches : Double.Reaches y k)
    (within : 0 ≤ usual ∧ usual ≤ y) : 0 ≤ o.getD usual ∧ o.getD usual ≤ y := by
  rcases optional_number passes read with rfl | ⟨n, x, hn, hx, rfl⟩
  · exact within
  · obtain ⟨lower, upper⟩ := Bool.and_eq_true_iff.1 hn
    exact Double.within_of_toFloat reaches hx lower upper

/-- A measure of a colour key, left out or not. -/
theorem keyMeasure_within {usual : Float} {o : Option Float}
    (passes : Check.keyMeasure name members = []) (read : optional [name] float members = .ok o)
    (within : 0 ≤ usual ∧ usual ≤ 1) : 0 ≤ o.getD usual ∧ o.getD usual ≤ 1 := by
  unfold Check.keyMeasure at passes
  have h := optional_ok read
  rw [find_one] at h
  split at passes
  · next found =>
    rw [found] at h
    subst h
    exact within
  · next found =>
    rw [found] at h
    obtain ⟨x, hx, -⟩ := h
    cases hx
  · next v _ found =>
    rw [Check.demand_eq_nil] at passes
    have number : Check.isWithin 0 (1 : Nat) ((Json.lookup name members).getD (.int 0)) = true := by
      rw [found]
      exact passes
    exact within_of_passes number read Double.reaches_one within

/-! ## Clips -/

/-- What the check demands of images and videos. -/
theorem content_media {kind : String} {k : Content} {m : Media} (hk : kind = k.kind)
    (media : k.media? = some m) (h : Check.content (.string kind) members = []) :
    Check.isFilled (((Json.lookup "source" members).orElse fun _ =>
        Json.lookup "src" members).getD .null) = true ∧
      Check.chromaKey (((Json.lookup "chromaKey" members).orElse fun _ =>
        Json.lookup "chroma_key" members).getD .null) = [] := by
  subst hk
  cases k with
  | image => simpa [Check.content, Content.kind] using h
  | video => simpa [Check.content, Content.kind] using h
  | _ => cases media

theorem content_text {text : String} {style : Option TextStyle} {k : Content} {kind : String}
    (hk : kind = k.kind) (isText : k = .text text style)
    (h : Check.content (.string kind) members = []) :
    Check.isFilled ((Json.lookup "text" members).getD .null) = true := by
  subst hk isText
  simpa [Check.content, Content.kind] using h

theorem chromaKey_within {m : Media} {key : ChromaKey} (read : Media.Fields members m)
    (passes : Check.chromaKey (((Json.lookup "chromaKey" members).orElse fun _ =>
      Json.lookup "chroma_key" members).getD .null) = []) (present : m.chromaKey.join = some key) :
    (0 ≤ key.thresholdValue ∧ key.thresholdValue ≤ 1) ∧ 0 ≤ key.haloValue ∧ key.haloValue ≤ 1 := by
  have h := optional_ok read.chromaKey
  rw [find_two] at h
  generalize ((Json.lookup "chromaKey" members).orElse fun _ =>
    Json.lookup "chroma_key" members) = found at h passes
  have standard : (0 : Float) ≤ 0.1 ∧ (0.1 : Float) ≤ 1 := by decide +kernel
  cases found with
  | none =>
    rw [show m.chromaKey = none from h] at present
    cases present
  | some v =>
    obtain ⟨o, ho, hkey⟩ := h
    rw [hkey] at present
    obtain ⟨-, rfl⟩ | ⟨_, object, rfl⟩ := nullable_ok ho
    · cases present
    · cases present
      obtain ⟨fields, rfl, hfields⟩ := object_ok object
      obtain ⟨-, threshold, halo, -⟩ := ChromaKey.ofMembers_ok hfields
      simp only [Option.getD_some, Check.chromaKey, List.map_eq_nil_iff,
        List.append_eq_nil_iff] at passes
      exact ⟨keyMeasure_within passes.1 threshold standard,
        keyMeasure_within passes.2 halo standard⟩

/-- The measures of an accepted colour key are within their bounds, whatever else is not finite. -/
theorem AcceptedClip.chromaKey {v : Json} {c : Clip} (h : AcceptedClip v c) {m : Media}
    {key : ChromaKey} (hm : c.content.media? = some m) (present : m.chromaKey.join = some key) :
    (0 ≤ key.thresholdValue ∧ key.thresholdValue ≤ 1) ∧ 0 ≤ key.haloValue ∧ key.haloValue ≤ 1 := by
  obtain ⟨members, kind, own, content, rfl, type, reader, fields⟩ := Clip.ofJson_ok h.read
  obtain ⟨_, e, passes⟩ := Check.clip_eq_nil h.passes
  cases e
  obtain ⟨hkind, own⟩ := Content.reader_fields reader fields.content
  have demands := passes.content
  rw [type, Option.getD_some] at demands
  exact chromaKey_within (own.media_eq hm) (content_media hkind hm demands).2 present

theorem AcceptedClip.inRange {v : Json} {c : Clip} (h : AcceptedClip v c)
    (finite : c.startValue.isFinite ∧ c.duration.isFinite ∧ c.scaleValue.isFinite) :
    c.InRange := by
  obtain ⟨members, kind, own, content, rfl, type, reader, fields⟩ := Clip.ofJson_ok h.read
  obtain ⟨_, e, passes⟩ := Check.clip_eq_nil h.passes
  cases e
  obtain ⟨hkind, own⟩ := Content.reader_fields reader fields.content
  obtain ⟨start, duration, scale⟩ := finite
  have demands := passes.content
  rw [type, Option.getD_some] at demands
  refine ⟨⟨start, ?_⟩, ⟨duration, ?_⟩, ?_, ⟨scale, ?_⟩, ?_, ?_, ?_⟩
  · exact least_of_passes passes.start fields.start start
  · obtain ⟨n, hn, hx⟩ := required_number passes.duration fields.duration
    exact pos_of_isFinite duration (Double.not_le_zero_of_toFloat hx (by simpa using hn))
  · exact within_of_passes passes.opacity fields.opacity Double.reaches_hundred (by decide)
  · exact above_of_passes passes.scale fields.scale (fun _ => by decide) scale
  · intro words style isText
    obtain ⟨s, filled, ne⟩ := Check.isFilled_iff.1 (content_text hkind isText demands)
    obtain ⟨v, found, read⟩ := required_ok (own.text_eq isText)
    rw [find_one] at found
    rw [found, Option.getD_some, string_ok read] at filled
    cases filled
    exact ne
  · intro m hm
    obtain ⟨s, filled, ne⟩ := Check.isFilled_iff.1 (content_media hkind hm demands).1
    obtain ⟨v, found, read⟩ := required_ok (own.media_eq hm).source
    rw [find_two] at found
    rw [found, Option.getD_some, string_ok read] at filled
    cases filled
    exact ne
  · intro m key hm present
    exact h.chromaKey hm present

/-! ## Timelines -/

/-- The whole part of a whole number above zero. -/
theorem one_le_truncate {d : Dyadic} (whole : d.isWhole = true)
    (above : 0 < d.signed d.numerator) : 1 ≤ d.truncate := by
  unfold Dyadic.truncate
  unfold Dyadic.signed at above ⊢
  split at above
  · omega
  · next positive =>
    have divides : d.denominator ∣ d.numerator :=
      Nat.dvd_of_mod_eq_zero (by simpa [Dyadic.isWhole] using whole)
    have least : 1 ≤ d.numerator / d.denominator :=
      Nat.div_pos (Nat.le_of_dvd (by omega) divides) d.denominator_pos
    rw [if_neg positive]
    exact_mod_cast least

/-- A whole number above zero, however it was written. -/
theorem one_le_of_passes {n : Number} {k : Int} (h : int (.number n) = .ok k)
    (above : n.le (.int 0) = false) : 1 ≤ k := by
  cases n with
  | int m =>
    cases h
    by_contra less
    rw [(Double.int_le_int k 0).2 (by omega)] at above
    cases above
  | float x =>
    simp only [int, intOfFloat] at h
    split at h
    · cases h
    · next d hd =>
      have value : (Number.float x).value = .finite (d.signed d.numerator) d.denominator := by
        simp only [Number.value, Number.valueOfFloat, hd]
      have above : 0 < d.signed d.numerator := by
        by_contra least
        rw [Number.le, value] at above
        simp only [Number.value, Number.Value.compare?, Nat.cast_one, Int.mul_one, Int.zero_mul,
          Bool.or_eq_false_iff, beq_eq_false_iff_ne, ne_eq, Option.some_inj, Int.compare_eq_lt,
          Int.compare_eq_eq] at above
        omega
      split at h
      · cases h
      · next whole =>
        split at h
        · cases h
          exact one_le_truncate (by simpa using whole) above
        · cases h

theorem measure_ok {r : List (String × Json)} {o : Option Int} (passes : Check.measure name r = [])
    (read : optional [name] int r = .ok o) : (Json.lookup name r = none ∧ o = none) ∨
      ∃ k, 1 ≤ k ∧ o = some k := by
  unfold Check.measure at passes
  have h := optional_ok read
  rw [find_one] at h
  split at passes
  · next found =>
    rw [found] at h
    exact .inl ⟨found, h⟩
  · next found =>
    rw [found] at h
    obtain ⟨k, hk, -⟩ := h
    cases hk
  · next v _ found =>
    rw [found] at h
    obtain ⟨k, hk, rfl⟩ := h
    obtain ⟨n, rfl, hn⟩ := Check.isNumber_iff.1 (Check.demand_eq_nil.1 passes)
    exact .inr ⟨k, one_le_of_passes hk (by simpa using hn), rfl⟩

/-- What the check demands of a timeline's own fields. -/
structure GlobalsPass (members : List (String × Json)) : Prop where
  frameRate : Check.isNotBelowOrZero ((Json.lookup "fps" members).getD (.int 30)) = true
  resolution : ∀ r, Json.lookup "resolution" members = some (.object r) →
    Check.measure "width" r = [] ∧ Check.measure "height" r = []
  soundtrack : ∀ s, Json.lookup "soundtrack" members = some (.object s) →
    ((Json.lookup "src" s).map Json.isTruthy).getD false = true

theorem globals_eq_nil (h : Check.globals members = []) : GlobalsPass members := by
  simp only [Check.globals, List.append_eq_nil_iff, Check.demand_eq_nil] at h
  obtain ⟨⟨frameRate, resolution⟩, soundtrack⟩ := h
  refine ⟨frameRate, fun r found => ?_, fun s found => ?_⟩
  · simpa [found] using resolution
  · simpa [found, Json.get?] using soundtrack

variable {docs : List Json} {t : Timeline}

theorem Accepted.size (a : Accepted members docs t)
    (standard : Timeline.needsCanvas members = true → 1 ≤ t.canvas.width ∧ 1 ≤ t.canvas.height) :
    1 ≤ t.width ∧ 1 ≤ t.height := by
  have h := optional_ok a.resolution
  rw [find_one] at h
  unfold Timeline.width Timeline.height
  cases found : Json.lookup "resolution" members with
  | none =>
    rw [found] at h
    rw [show t.resolution = none from h]
    exact standard (by simp [Timeline.needsCanvas, find, found])
  | some v =>
    rw [found] at h
    obtain ⟨r, object, hr⟩ := h
    obtain ⟨fields, rfl, hfields⟩ := object_ok object
    obtain ⟨width, height, -⟩ := Resolution.ofMembers_ok hfields
    obtain ⟨passesWidth, passesHeight⟩ := (globals_eq_nil a.globals).resolution fields found
    rw [hr, Option.bind_some, Option.bind_some]
    constructor
    · rcases measure_ok passesWidth width with ⟨missing, left⟩ | ⟨k, hk, there⟩
      · rw [left]
        exact (standard (by simp [Timeline.needsCanvas, find, found, missing])).1
      · rw [there]
        exact hk
    · rcases measure_ok passesHeight height with ⟨missing, left⟩ | ⟨k, hk, there⟩
      · rw [left]
        exact (standard (by simp [Timeline.needsCanvas, find, found, missing])).2
      · rw [there]
        exact hk

theorem Accepted.rate (a : Accepted members docs t)
    (standard : Timeline.needsCanvas members = true → 0 < t.canvas.frameRate)
    (finite : t.frameRateValue.isFinite) : 0 < t.frameRateValue := by
  refine above_of_passes (globals_eq_nil a.globals).frameRate a.toFields.frameRate
    (fun left => ?_) finite
  have h := optional_ok a.toFields.frameRate
  rw [find_one] at h
  cases found : Json.lookup "fps" members with
  | none => exact standard (by simp [Timeline.needsCanvas, find, found])
  | some v =>
    rw [found] at h
    obtain ⟨x, -, there⟩ := h
    cases left.symm.trans there

theorem Accepted.span_bound (a : Accepted members docs t) {d : Float}
    (given : t.duration.join = some d) : ¬d ≤ 0 := by
  have h := optional_ok a.toFields.duration
  have length := a.length
  rw [find_one] at h
  cases found : Json.lookup "duration" members with
  | none =>
    rw [found] at h
    rw [show t.duration = none from h] at given
    cases given
  | some v =>
    rw [found] at h length
    obtain ⟨o, ho, hd⟩ := h
    rw [hd] at given
    obtain ⟨-, rfl⟩ | ⟨x, hx, rfl⟩ := nullable_ok ho
    · cases given
    · cases given
      have passes : Check.isNotBelowOrZero v = true := by
        cases v with
        | null => cases hx
        | _ => exact Check.demand_eq_nil.1 length
      obtain ⟨n, rfl, hn⟩ := Check.isNumber_iff.1 passes
      exact Double.not_le_zero_of_toFloat (float_number hx) (by simpa using hn)

theorem Accepted.span (a : Accepted members docs t) {d : Float} (given : t.duration.join = some d)
    (finite : d.isFinite) : 0 < d :=
  pos_of_isFinite finite (a.span_bound given)

theorem Accepted.sound (a : Accepted members docs t) {s : Soundtrack}
    (given : t.soundtrack.join = some s) : s.source ≠ "" := by
  have h := optional_ok a.soundtrack
  rw [find_one] at h
  cases found : Json.lookup "soundtrack" members with
  | none =>
    rw [found] at h
    rw [show t.soundtrack = none from h] at given
    cases given
  | some v =>
    rw [found] at h
    obtain ⟨o, ho, hs⟩ := h
    rw [hs] at given
    obtain ⟨-, rfl⟩ | ⟨x, hx, rfl⟩ := nullable_ok ho
    · cases given
    · cases given
      obtain ⟨fields, rfl, hfields⟩ := object_ok hx
      have passes := (globals_eq_nil a.globals).soundtrack fields found
      obtain ⟨v, src, read⟩ := required_ok (Soundtrack.ofMembers_ok hfields).source
      rw [find_one] at src
      rw [src, string_ok read] at passes
      simpa [Json.isTruthy] using passes

theorem mem_clips {c : Clip} (h : c ∈ t.clips) : ∃ track ∈ t.trackList, c ∈ track.clipList := by
  simpa [Timeline.clips] using h

theorem Accepted.acceptedClip (a : Accepted members docs t) {c : Clip} (h : c ∈ t.clips) :
    ∃ doc, AcceptedClip doc c := by
  obtain ⟨track, htrack, hclip⟩ := mem_clips h
  obtain ⟨doc, -, -, accepted⟩ := forall₂_right a.each htrack
  obtain ⟨clips, -, -, pairs⟩ := accepted.clips
  obtain ⟨doc, -, -, accepted⟩ := forall₂_right pairs hclip
  exact ⟨doc, accepted⟩

/-- What the check makes sure of: a timeline that is accepted is in range unless one of its numbers
without an upper bound is infinite or not a number. -/
theorem accept_inRange_iff {canvas : Except (List Mismatch) Canvas} {v : Json} {t : Timeline}
    (h : Timeline.accept canvas v = .ok t)
    (standard : ∀ c, canvas = .ok c → 0 < c.frameRate ∧ 1 ≤ c.width ∧ 1 ≤ c.height) :
    t.InRange ↔ t.IsFinite := by
  obtain ⟨members, docs, rfl, a, inForce⟩ := accept_ok h
  have standard (needed : Timeline.needsCanvas members = true) :
      0 < t.canvas.frameRate ∧ 1 ≤ t.canvas.width ∧ 1 ≤ t.canvas.height :=
    standard _ (inForce.resolve_right (by simp [needed]))
  constructor
  · intro r
    exact ⟨fun c hc => ⟨(r.clips c hc).start.1, (r.clips c hc).duration.1, (r.clips c hc).scale.1⟩,
      r.frameRate.1, fun d hd => (r.duration d hd).1⟩
  · intro finite
    refine ⟨?_, ?_, ?_, ?_, ?_, ?_, ?_⟩
    · rintro none
      have each := a.each
      rw [none, List.forall₂_nil_right_iff] at each
      exact a.filled each
    · intro track htrack
      obtain ⟨doc, -, -, accepted⟩ := forall₂_right a.each htrack
      obtain ⟨clips, -, filled, pairs⟩ := accepted.clips
      rintro none
      rw [none, List.forall₂_nil_right_iff] at pairs
      exact filled pairs
    · intro c hc
      obtain ⟨doc, accepted⟩ := a.acceptedClip hc
      exact accepted.inRange (finite.clips c hc)
    · exact ⟨finite.frameRate, a.rate (fun needed => (standard needed).1) finite.frameRate⟩
    · exact a.size fun needed => (standard needed).2
    · exact fun d hd => ⟨finite.duration d hd, a.span hd (finite.duration d hd)⟩
    · exact fun s hs => a.sound hs

/-- A timeline of one title that lasts some seconds. -/
def titleDocument (seconds : Float) : Json :=
  .object [("tracks", .array [.object [("clips", .array [.object [
    ("type", .string "text"), ("text", .string "Hello"), ("duration", .float seconds)]])]])]

/-- The timeline that is read from `titleDocument`. -/
def titleTimeline (canvas : Canvas) (seconds : Float) : Timeline where
  duration := none
  frameRate := none
  resolution := none
  background := none
  tracks := some [{
    id := none
    clips := some [{
      id := none
      start := none
      duration := seconds
      position := none
      opacity := none
      scale := none
      content := .text "Hello" none
      extra := [] }]
    extra := [] }]
  soundtrack := none
  extra := []
  canvas := canvas

/-- Measures of the settings. -/
def fullCanvas : Canvas := ⟨1920, 1080, 30⟩

theorem accept_title_inRange :
    Timeline.accept (.ok fullCanvas) (titleDocument 5) = .ok (titleTimeline fullCanvas 5) ∧
      (titleTimeline fullCanvas 5).InRange := by
  have accepted : Timeline.accept (.ok fullCanvas) (titleDocument 5) =
    .ok (titleTimeline fullCanvas 5) := rfl
  have standard : ∀ c, (.ok fullCanvas : Except (List Mismatch) Canvas) = .ok c →
      0 < c.frameRate ∧ 1 ≤ c.width ∧ 1 ≤ c.height := by
    rintro _ ⟨⟩
    decide
  refine ⟨accepted, (accept_inRange_iff accepted standard).2 ⟨?_, by decide, ?_⟩⟩
  · intro c hc
    obtain rfl := List.mem_singleton.1 hc
    exact ⟨by decide, by decide, by decide⟩
  · rintro _ ⟨⟩

/-- A length that is not a number is not above zero, but it is accepted. -/
theorem accept_title_undefined :
    Timeline.accept (.ok fullCanvas) (titleDocument (0 / 0)) =
        .ok (titleTimeline fullCanvas (0 / 0)) ∧
      ¬(titleTimeline fullCanvas (0 / 0)).InRange := by
  refine ⟨rfl, fun r => ?_⟩
  have above := (r.clips _ (List.mem_singleton.2 rfl)).duration.2
  exact absurd above (by decide)

end Montage
