import Montage.Proofs.Timeline.Breaking
import Montage.Proofs.Timeline.Names
import Montage.Proofs.Timeline.Ranges
import Montage.Proofs.Timeline.Rereading

/-!
# Checking what was written

A timeline that was read can be written and checked again. `check_toJson` says when the check finds
nothing: the numbers must be within their bounds (`Timeline.InBounds`), and texts, sources and ids
must be in order (`Timeline.IsFilled`). Whatever is accepted has its numbers within their bounds
(`Timeline.inBounds_of_accept`). Its ids need not be in order: the check passes over a zero, which is
read as the id `0`.
-/
namespace Montage

open Schema

/-- What the check asks of a colour key. -/
structure ChromaKey.InBounds (k : ChromaKey) : Prop where
  threshold : ∀ x, k.threshold = some x → 0 ≤ x ∧ x ≤ 1
  halo : ∀ x, k.halo = some x → 0 ≤ x ∧ x ≤ 1

/-- What the check asks of a clip's numbers. What is not a number passes where there is only a lower
bound. -/
structure Clip.InBounds (c : Clip) : Prop where
  start : ∀ x, c.start = some x → ¬x < 0
  duration : ¬c.duration ≤ 0
  opacity : ∀ x, c.opacity = some x → 0 ≤ x ∧ x ≤ 100
  scale : ∀ x, c.scale = some x → ¬x ≤ 0
  chromaKey : ∀ m, c.content.media? = some m → ∀ k, m.chromaKey.join = some k → k.InBounds

/-- What the check asks of a clip's texts. -/
structure Clip.IsFilled (c : Clip) : Prop where
  text : ∀ words style, c.content = .text words style → words ≠ ""
  source : ∀ m, c.content.media? = some m → m.source ≠ ""

structure Timeline.InBounds (t : Timeline) : Prop where
  tracks : t.trackList ≠ []
  clips : ∀ track ∈ t.trackList, track.clipList ≠ [] ∧ ∀ c ∈ track.clipList, c.InBounds
  frameRate : ∀ x, t.frameRate = some x → ¬x ≤ 0
  size : ∀ r, t.resolution = some r →
    (∀ n, r.width = some n → 0 < n) ∧ ∀ n, r.height = some n → 0 < n
  duration : ∀ x, t.duration.join = some x → ¬x ≤ 0

/-- No text and no source is empty, and no two clips have the same id. -/
structure Timeline.IsFilled (t : Timeline) : Prop where
  clips : ∀ track ∈ t.trackList, ∀ c ∈ track.clipList, c.IsFilled
  soundtrack : ∀ s, t.soundtrack.join = some s → s.source ≠ ""
  ids : (t.clips.filterMap Clip.name?).Nodup

theorem Track.Tidy.clipList {t : Track} (h : t.Tidy) : ∀ c ∈ t.clipList, c.Tidy := by
  unfold Track.clipList
  cases hc : t.clips with
  | none => simp
  | some cs => exact h.clips cs hc

theorem Timeline.Tidy.trackList {t : Timeline} (h : t.Tidy) : ∀ track ∈ t.trackList, track.Tidy := by
  unfold Timeline.trackList
  cases ht : t.tracks with
  | none => simp
  | some ts => exact h.tracks ts ht

namespace Check

/-! ## Numbers -/

theorem isNotNegative_float (x : Float) : isNotNegative (.float x) = true ↔ ¬x < 0 := by
  rw [← Double.float_lt_int Double.stands_zero]
  simp [isNotNegative, isNumber, Json.number?, Json.float]

theorem isNotBelowOrZero_float (x : Float) : isNotBelowOrZero (.float x) = true ↔ ¬x ≤ 0 := by
  rw [← Double.float_le_int Double.stands_zero]
  simp [isNotBelowOrZero, isNumber, Json.number?, Json.float]

theorem isNotBelowOrZero_int (n : Int) : isNotBelowOrZero (.int n) = true ↔ 0 < n := by
  rw [← Int.not_le, ← Double.int_le_int]
  simp [isNotBelowOrZero, isNumber, Json.number?, Json.int]

theorem isWithin_float {y : Float} {high : Int} (h : Double.Stands y high) (x : Float) :
    isWithin 0 high (.float x) = true ↔ 0 ≤ x ∧ x ≤ y := by
  rw [← Double.int_le_float Double.stands_zero, ← Double.float_le_int h]
  simp [isWithin, isNumber, Json.number?, Json.float]

/-- A field that is left out passes; otherwise its value must. -/
theorem getD_map_iff {α : Type} {p : Json → Bool} {Q : α → Prop} {write : α → Json}
    {standard : Json} (usual : p standard = true) (h : ∀ a, p (write a) = true ↔ Q a)
    (o : Option α) : p ((o.map write).getD standard) = true ↔ ∀ a, o = some a → Q a := by
  cases o with
  | none => simpa using usual
  | some a => simpa using h a

variable {members : List (String × Json)} {name : String}

theorem keyMeasure_written {o : Option Float} (found : Json.lookup name members = o.map .float) :
    keyMeasure name members = [] ↔ ∀ x, o = some x → 0 ≤ x ∧ x ≤ 1 := by
  unfold keyMeasure
  rw [found]
  cases o with
  | none => simp
  | some x =>
    show demand (isWithin 0 1 (.float x)) _ _ = [] ↔ _
    rw [demand_eq_nil, isWithin_float Double.stands_one]
    simp

theorem measure_written {o : Option Int} (found : Json.lookup name members = o.map .int) :
    measure name members = [] ↔ ∀ n, o = some n → 0 < n := by
  unfold measure
  rw [found]
  cases o with
  | none => simp
  | some n =>
    show demand (isNotBelowOrZero (.int n)) _ _ = [] ↔ _
    rw [demand_eq_nil, isNotBelowOrZero_int]
    simp

/-! ## Clips -/

theorem chromaKey_written {o : Option (Option ChromaKey)}
    (tidy : ∀ k, o.join = some k → k.record.Tidy) :
    chromaKey ((o.map (Json.ofOption (ChromaKey.toJson .brief))).getD .null) = [] ↔
      ∀ k, o.join = some k → k.InBounds := by
  rcases o with _ | _ | k
  · simp [chromaKey]
  · simp [chromaKey, Json.ofOption]
  · have tidy := tidy k rfl
    have threshold : Json.lookup "threshold" k.record.members = k.threshold.map .float :=
      tidy.lookup (by simp [ChromaKey.record])
    have halo : Json.lookup "halo" k.record.members = k.halo.map .float :=
      tidy.lookup (by simp [ChromaKey.record])
    show chromaKey (k.toJson .brief) = [] ↔ _
    rw [ChromaKey.toJson_brief, chromaKey, List.map_eq_nil_iff, List.append_eq_nil_iff,
      keyMeasure_written threshold, keyMeasure_written halo]
    simp only [Option.join_some, Option.some.injEq, forall_eq']
    exact ⟨fun h => ⟨h.1, h.2⟩, fun h => ⟨h.1, h.2⟩⟩

theorem media_written {r : Record} {m : Media} (h : r.Tidy)
    (own : ∀ e ∈ m.fieldValues, e ∈ r.fields) (tidy : m.Tidy) :
    isFilled (((Json.lookup "source" r.members).orElse fun _ =>
        Json.lookup "src" r.members).getD .null) = true ∧
      chromaKey (((Json.lookup "chromaKey" r.members).orElse fun _ =>
        Json.lookup "chroma_key" r.members).getD .null) = [] ↔
      m.source ≠ "" ∧ ∀ k, m.chromaKey.join = some k → k.InBounds := by
  have source : (["source", "src"], some (Json.string m.source)) ∈ r.fields :=
    own _ (by simp [Media.fieldValues])
  have key : (["chromaKey", "chroma_key"],
      m.chromaKey.map (Json.ofOption (ChromaKey.toJson .brief))) ∈ r.fields :=
    own _ (by simp [Media.fieldValues])
  rw [← find_two, ← find_two, h.find source, h.find key, Option.map_map, Option.map_map,
    ← chromaKey_written tidy]
  simp [isFilled, Function.comp_def]

/-- The demands of a type on the clip's own fields. -/
theorem content_written {r : Record} {c : Content} (h : r.Tidy)
    (own : ∀ e ∈ c.fieldValues, e ∈ r.fields) (tidy : c.Tidy) :
    content (.string c.kind) r.members = [] ↔
      (∀ words style, c = .text words style → words ≠ "") ∧
        ∀ m, c.media? = some m → m.source ≠ "" ∧ ∀ k, m.chromaKey.join = some k → k.InBounds := by
  cases c with
  | background => simp [content, Content.kind, Content.media?]
  | text words style =>
    have text : Json.lookup "text" r.members = some (.string words) :=
      h.lookup (own _ (by simp [Content.fieldValues]))
    simp [content, Content.kind, Content.media?, text, isFilled]
  | image m => simpa [content, Content.kind, Content.media?] using media_written h own tidy
  | video m volume =>
    have own : ∀ e ∈ m.fieldValues, e ∈ r.fields := fun e he => own e (List.mem_append_left _ he)
    simpa [content, Content.kind, Content.media?] using media_written h own tidy
  | shape => simp [content, Content.kind, Content.media?]

theorem isKind_written (c : Content) : isKind (.string c.kind) = true := by
  cases c <;> simp [isKind, Content.kind, Content.kinds]

theorem clip_written {c : Clip} (h : c.Tidy) :
    clip (c.toJson .brief) = [] ↔ c.InBounds ∧ c.IsFilled := by
  have r := h.record
  have type : Json.lookup "type" c.record.members = some (.string c.content.kind) :=
    r.lookup (by simp [Clip.record])
  have start : Json.lookup "start" c.record.members = c.start.map .float :=
    r.lookup (by simp [Clip.record])
  have duration : Json.lookup "duration" c.record.members = some (.float c.duration) :=
    r.lookup (by simp [Clip.record])
  have opacity : Json.lookup "opacity" c.record.members = c.opacity.map .float :=
    r.lookup (by simp [Clip.record])
  have scale : Json.lookup "scale" c.record.members = c.scale.map .float :=
    r.lookup (by simp [Clip.record])
  have known := isKind_written c.content
  have own : ∀ e ∈ c.content.fieldValues, e ∈ c.record.fields :=
    fun e he => List.mem_append_right _ he
  simp only [Clip.toJson_brief, clip, List.append_eq_nil_iff, demand_eq_nil]
  rw [type, start, duration, opacity, scale, Option.getD_some, Option.getD_some,
    content_written r own h.content, getD_map_iff (by decide) isNotNegative_float,
    isNotBelowOrZero_float, getD_map_iff (by decide) (isWithin_float Double.stands_hundred),
    getD_map_iff (by decide) isNotBelowOrZero_float]
  constructor
  · rintro ⟨⟨⟨⟨⟨-, start⟩, duration⟩, text, media⟩, opacity⟩, scale⟩
    exact ⟨⟨start, duration, opacity, scale, fun m hm => (media m hm).2⟩,
      text, fun m hm => (media m hm).1⟩
  · rintro ⟨⟨start, duration, opacity, scale, key⟩, text, source⟩
    exact ⟨⟨⟨⟨⟨known, start⟩, duration⟩, text, fun m hm => ⟨source m hm, key m hm⟩⟩, opacity⟩, scale⟩

/-! ## Tracks and ids -/

theorem clips_written {t : Track} (h : t.record.Tidy) : Json.lookup "clips" t.record.members =
    t.clips.map fun cs => .array (cs.map (Clip.toJson .brief)) :=
  h.lookup (by simp [Track.record])

theorem track_written {t : Track} (h : t.Tidy) (i : Nat) : track i (t.toJson .brief) = [] ↔
    t.clipList ≠ [] ∧ ∀ c ∈ t.clipList, c.InBounds ∧ c.IsFilled := by
  rw [Track.toJson_brief, track, clips_written h.record, Track.clipList]
  cases hc : t.clips with
  | none => simp
  | some cs =>
    cases cs with
    | nil => simp
    | cons c rest =>
      have tidy : ∀ x ∈ c :: rest, x.Tidy := h.clips _ hc
      simp only [Option.map_some, List.map_cons, Option.getD_some, ne_eq, reduceCtorEq,
        not_false_eq_true, true_and]
      rw [← List.map_cons (f := Clip.toJson .brief), flatMap_zipIdx_eq_nil]
      simp only [List.map_eq_nil_iff, List.getElem?_map, Option.map_eq_some_iff]
      constructor
      · intro each x hx
        obtain ⟨j, hj⟩ := List.getElem?_of_mem hx
        exact (clip_written (tidy x hx)).1 (each j _ ⟨x, hj, rfl⟩)
      · rintro each j _ ⟨x, hx, rfl⟩
        have hx := List.mem_of_getElem? hx
        exact (clip_written (tidy x hx)).2 (each x hx)

/-- The check sees every clip of a written track. -/
theorem trackClips_written {t : Track} (h : t.record.Tidy) (i : Nat) :
    (trackClips i (t.toJson .brief)).map (·.2) = t.clipList.map fun c => c.record.members := by
  rw [trackClips, Track.toJson_brief, Json.get?, clips_written h, Track.clipList]
  cases t.clips with
  | none => rfl
  | some cs =>
    simp only [Option.map_some, Option.getD_some, List.zipIdx_map, List.filterMap_map,
      List.map_filterMap]
    calc
      _ = cs.zipIdx.filterMap (some ∘ fun p => p.1.record.members) :=
        List.filterMap_congr fun p _ => by simp [Clip.toJson_brief]
      _ = (cs.zipIdx.map Prod.fst).map fun c => c.record.members := by
        rw [List.filterMap_eq_map, List.map_map]
        rfl
      _ = cs.map fun c => c.record.members := by rw [List.zipIdx_map_fst]

theorem objectClips_written {ts : List Track} (h : ∀ t ∈ ts, t.record.Tidy) :
    (objectClips (ts.map (Track.toJson .brief))).map (·.2) =
      (ts.flatMap Track.clipList).map fun c => c.record.members := by
  have each (n : Nat) : (((ts.map (Track.toJson .brief)).zipIdx n).flatMap fun p =>
      trackClips p.2 p.1).map (·.2) = (ts.flatMap Track.clipList).map fun c => c.record.members := by
    induction ts generalizing n with
    | nil => rfl
    | cons t ts ih =>
      rw [List.forall_mem_cons] at h
      simp only [List.map_cons, List.zipIdx_cons, List.flatMap_cons, List.map_append,
        trackClips_written h.1, ih h.2]
  exact each 0

theorem checkedId_written {c : Clip} (h : c.record.Tidy) :
    checkedId c.record.members = c.name? := by
  have id : Json.lookup "id" c.record.members = c.id.map nullableText :=
    h.lookup (by simp [Clip.record])
  rw [checkedId, id, Clip.name?]
  rcases c.id with _ | _ | s
  · rfl
  · rfl
  · show (if !s.isEmpty then some s else none) = if !s.isEmpty then some s else none
    rfl

/-- The ids that the check compares are the names that clips bring. -/
theorem ids_written {ts : List Track} (h : ∀ t ∈ ts, t.Tidy) :
    (ids (ts.map (Track.toJson .brief))).map (·.1) =
      (ts.flatMap Track.clipList).filterMap Clip.name? := by
  rw [ids_eq]
  have seen := objectClips_written fun t ht => (h t ht).record
  have through : (objectClips (ts.map (Track.toJson .brief))).filterMap (fun d => checkedId d.2) =
      ((objectClips (ts.map (Track.toJson .brief))).map (·.2)).filterMap checkedId := by
    rw [List.filterMap_map]
    rfl
  rw [through, seen, List.filterMap_map]
  refine List.filterMap_congr fun c hc => ?_
  obtain ⟨t, ht, hc⟩ := List.mem_flatMap.1 hc
  exact checkedId_written ((h t ht).clipList c hc).record

/-! ## Timelines -/

variable {t : Timeline}

theorem soundtrack_written {o : Option (Option Soundtrack)}
    (tidy : ∀ s, o.join = some s → s.record.Tidy) :
    (match o.map (Json.ofOption (Soundtrack.toJson .brief)) with
      | none | some .null => []
      | some s => demand (((s.get? "src").map Json.isTruthy).getD false) "soundtrack.src"
        "soundtrack must define src") = [] ↔ ∀ s, o.join = some s → s.source ≠ "" := by
  rcases o with _ | _ | s
  · simp
  · simp [Json.ofOption]
  · have source : Json.lookup "src" s.record.members = some (.string s.source) :=
      (tidy s rfl).lookup (by simp [Soundtrack.record])
    simp [Json.ofOption, Soundtrack.toJson_brief, Json.get?, source, Json.isTruthy]

theorem resolution_written {o : Option Resolution} (canvas : Canvas)
    (tidy : ∀ r, o = some r → r.record.Tidy) :
    (match o.map (Resolution.toJson .brief canvas) with
      | none | some .null => []
      | some (.object r) => measure "width" r ++ measure "height" r
      | some _ => [⟨"resolution", "resolution must be an object"⟩]) = [] ↔
        ∀ r, o = some r →
          (∀ n, r.width = some n → 0 < n) ∧ ∀ n, r.height = some n → 0 < n := by
  cases o with
  | none => simp
  | some r =>
    have tidy := tidy r rfl
    have width : Json.lookup "width" r.record.members = r.width.map .int :=
      tidy.lookup (by simp [Resolution.record])
    have height : Json.lookup "height" r.record.members = r.height.map .int :=
      tidy.lookup (by simp [Resolution.record])
    simp [Resolution.toJson_brief, measure_written width, measure_written height]

theorem globals_written (h : t.Tidy) : globals t.record.members = [] ↔
    (∀ x, t.frameRate = some x → ¬x ≤ 0) ∧
      (∀ r, t.resolution = some r →
        (∀ n, r.width = some n → 0 < n) ∧ ∀ n, r.height = some n → 0 < n) ∧
      ∀ s, t.soundtrack.join = some s → s.source ≠ "" := by
  have fps : Json.lookup "fps" t.record.members = t.frameRate.map .float :=
    h.record.lookup (by simp [Timeline.record])
  have resolution : Json.lookup "resolution" t.record.members =
      t.resolution.map (Resolution.toJson .brief t.canvas) :=
    h.record.lookup (by simp [Timeline.record])
  have soundtrack : Json.lookup "soundtrack" t.record.members =
      t.soundtrack.map (Json.ofOption (Soundtrack.toJson .brief)) :=
    h.record.lookup (by simp [Timeline.record])
  rw [globals, fps, resolution, soundtrack, List.append_eq_nil_iff, List.append_eq_nil_iff,
    demand_eq_nil, getD_map_iff (by decide) isNotBelowOrZero_float, and_assoc]
  exact and_congr_right fun _ =>
    and_congr (resolution_written t.canvas h.resolution) (soundtrack_written h.soundtrack)

theorem duration_written (o : Option (Option Float)) :
    duration ((o.map nullableFloat).getD .null) = [] ↔ ∀ x, o.join = some x → ¬x ≤ 0 := by
  rcases o with _ | _ | x
  · simp [duration]
  · simp [duration, nullableFloat, Json.ofOption]
  · show demand (isNotBelowOrZero (.float x)) _ _ = [] ↔ _
    rw [demand_eq_nil, isNotBelowOrZero_float]
    simp

theorem add_float {n : Number} {x : Float} (h : n.toFloat = .ok x) (y : Float) :
    n.add (.float y) = .ok (.float (x + y)) := by
  cases n with
  | int n =>
    simp only [Number.add, h]
    rfl
  | float z =>
    cases h
    rfl

/-- The sum of a written start and a written length is a double. -/
theorem overrun_written {c : Clip} (h : c.record.Tidy) (limit : Float) (i j : Nat) :
    ∃ warning, overrun (.float limit) i j c.record.members = .ok warning := by
  have start : Json.lookup "start" c.record.members = c.start.map .float :=
    h.lookup (by simp [Clip.record])
  have duration : Json.lookup "duration" c.record.members = some (.float c.duration) :=
    h.lookup (by simp [Clip.record])
  obtain ⟨n, x, number, double⟩ : ∃ n x,
      ((c.start.map Json.float).getD (.int 0)).number? = some n ∧ n.toFloat = .ok x := by
    cases c.start with
    | none => exact ⟨.int 0, 0, rfl, rfl⟩
    | some x => exact ⟨.float x, x, rfl, rfl⟩
  have length : ((some (Json.float c.duration)).getD .null).number? =
    some (.float c.duration) := rfl
  unfold overrun
  rw [start, duration, number, length]
  simp only [add_float double, bind, Except.bind, pure, Except.pure]
  split
  · exact ⟨_, rfl⟩
  · exact ⟨_, rfl⟩

/-- A clip that the check finds in a written list of tracks is a clip of them. -/
theorem mem_objectClips_written {ts : List Track} (h : ∀ t ∈ ts, t.Tidy)
    {d : (Nat × Nat) × List (String × Json)}
    (hd : d ∈ objectClips (ts.map (Track.toJson .brief))) :
    ∃ c : Clip, c.record.Tidy ∧ c.record.members = d.2 := by
  have seen := List.mem_map_of_mem (f := (·.2)) hd
  rw [objectClips_written fun t ht => (h t ht).record] at seen
  obtain ⟨c, hc, e⟩ := List.mem_map.1 seen
  obtain ⟨t, ht, hc⟩ := List.mem_flatMap.1 hc
  exact ⟨c, ((h t ht).clipList c hc).record, e⟩

theorem overruns_written {ts : List Track} (h : ∀ t ∈ ts, t.Tidy) (limit : Float) :
    ∃ warnings, overruns (.float limit) (ts.map (Track.toJson .brief)) = .ok warnings := by
  have each : ∀ d ∈ objectClips (ts.map (Track.toJson .brief)),
      ∃ w, overrun (.float limit) d.1.1 d.1.2 d.2 = .ok w := by
    intro d hd
    obtain ⟨c, tidy, e⟩ := mem_objectClips_written h hd
    rw [← e]
    exact overrun_written tidy limit d.1.1 d.1.2
  obtain ⟨found, hfound⟩ := mapM_ok each
  exact ⟨found.filterMap id, by unfold overruns; rw [hfound]; rfl⟩

/-- The type of a written clip is one of those that clips have, and its id is a text. -/
theorem legible_written {ts : List Track} (h : ∀ t ∈ ts, t.Tidy) :
    legible (ts.map (Track.toJson .brief)) = .ok () := by
  refine if_pos (List.all_eq_true.2 fun d hd => ?_)
  obtain ⟨c, tidy, e⟩ := mem_objectClips_written h hd
  have type : Json.lookup "type" d.2 = some (.string c.content.kind) :=
    e ▸ tidy.lookup (by simp [Clip.record])
  have id : Json.lookup "id" d.2 = c.id.map nullableText :=
    e ▸ tidy.lookup (by simp [Clip.record])
  have text : ((c.id.map nullableText).getD .null).isWritable = true := by
    rcases c.id with _ | _ | s <;> rfl
  rw [isLegible, type, id, Option.getD_some, isKind_written, text]
  simp

/-- The tracks of a written timeline, and whether the list is in order. -/
theorem trackList_written (h : t.Tidy) :
    (trackList (Json.lookup "tracks" t.record.members)).1 =
        t.trackList.map (Track.toJson .brief) ∧
      ((trackList (Json.lookup "tracks" t.record.members)).2 = [] ↔ t.trackList ≠ []) := by
  have tracks : Json.lookup "tracks" t.record.members =
      t.tracks.map fun ts => .array (ts.map (Track.toJson .brief)) :=
    h.record.lookup (by simp [Timeline.record])
  rw [tracks, Timeline.trackList]
  rcases t.tracks with _ | _ | ⟨track, rest⟩ <;> simp [trackList]

theorem tracks_written {ts : List Track} (h : ∀ t ∈ ts, t.Tidy) :
    ((ts.map (Track.toJson .brief)).zipIdx.flatMap fun (t, i) => track i t) = [] ↔
      ∀ t ∈ ts, t.clipList ≠ [] ∧ ∀ c ∈ t.clipList, c.InBounds ∧ c.IsFilled := by
  rw [flatMap_zipIdx_eq_nil]
  simp only [List.getElem?_map, Option.map_eq_some_iff]
  constructor
  · intro each t ht
    obtain ⟨i, hi⟩ := List.getElem?_of_mem ht
    exact (track_written (h t ht) i).1 (each i _ ⟨t, hi, rfl⟩)
  · rintro each i _ ⟨t, hi, rfl⟩
    have ht := List.mem_of_getElem? hi
    exact (track_written (h t ht) i).2 (each t ht)

theorem ids_written_nodup (h : t.Tidy) :
    duplicates [] (ids (t.trackList.map (Track.toJson .brief))) = [] ↔
      (t.clips.filterMap Clip.name?).Nodup := by
  rw [duplicates_eq_nil, ids_written h.trackList, Timeline.clips]
  simp

theorem warnings_written (h : t.Tidy) : ∃ ws, warnings t.record.members = .ok ws := by
  have duration : Json.lookup "duration" t.record.members = t.duration.map nullableFloat :=
    h.record.lookup (by simp [Timeline.record])
  unfold warnings
  rw [duration, (trackList_written h).1]
  rcases t.duration with _ | _ | limit
  · exact ⟨_, rfl⟩
  · exact ⟨_, rfl⟩
  · dsimp only [Option.map_some, Option.getD_some, nullableFloat, Json.ofOption, Json.float,
      Json.number?]
    split
    · exact overruns_written h.trackList limit
    · exact ⟨_, rfl⟩

/-- The check of a written timeline never breaks off. -/
theorem check_written (h : t.Tidy) : ∃ report, check (t.toJson .brief) = .ok report := by
  obtain ⟨ws, warned⟩ := warnings_written h
  rw [Timeline.toJson_brief, check, (trackList_written h).1, legible_written h.trackList, warned]
  exact ⟨_, rfl⟩

end Check

/-- **When a written timeline passes the check.** -/
theorem check_toJson {t : Timeline} (h : t.Tidy) : ∃ report, check (t.toJson .brief) = .ok report ∧
    (report.errors = [] ↔ t.InBounds ∧ t.IsFilled) := by
  obtain ⟨report, checked⟩ := Check.check_written h
  refine ⟨report, checked, ?_⟩
  have duration : Json.lookup "duration" t.record.members = t.duration.map nullableFloat :=
    h.record.lookup (by simp [Timeline.record])
  obtain ⟨tracks, filled⟩ := Check.trackList_written h
  rw [Timeline.toJson_brief] at checked
  rw [check_object checked, List.map_eq_nil_iff, Check.defects, List.append_eq_nil_iff,
    List.append_eq_nil_iff, List.append_eq_nil_iff, List.append_eq_nil_iff, filled, tracks,
    Check.tracks_written h.trackList, Check.ids_written_nodup h, Check.globals_written h, duration,
    Check.duration_written]
  constructor
  · rintro ⟨⟨⟨⟨some, each⟩, ids⟩, rate, size, sound⟩, length⟩
    exact ⟨⟨some, fun track ht => ⟨(each track ht).1, fun c hc => ((each track ht).2 c hc).1⟩, rate,
      size, length⟩, fun track ht c hc => ((each track ht).2 c hc).2, sound, ids⟩
  · rintro ⟨⟨some, each, rate, size, length⟩, texts, sound, ids⟩
    exact ⟨⟨⟨⟨some, fun track ht => ⟨(each track ht).1, fun c hc =>
      ⟨(each track ht).2 c hc, texts track ht c hc⟩⟩⟩, ids⟩, rate, size, sound⟩, length⟩

/-! ## What is accepted is within bounds -/

theorem bound_of_passes {p : Number → Bool} {Q : Float → Prop} {members : List (String × Json)}
    {name : String} {standard : Int} {o : Option Float}
    (passes : Check.isNumber p ((Json.lookup name members).getD (.int standard)) = true)
    (read : optional [name] float members = .ok o)
    (bound : ∀ n x, p n = true → n.toFloat = .ok x → Q x) : ∀ x, o = some x → Q x := by
  rintro x set
  obtain rfl | ⟨n, y, hn, hy, rfl⟩ := optional_number passes read
  · cases set
  · cases set
    exact bound n x hn hy

theorem AcceptedClip.inBounds {v : Json} {c : Clip} (h : AcceptedClip v c) : c.InBounds := by
  obtain ⟨members, kind, own, content, rfl, type, reader, fields⟩ := Clip.ofJson_ok h.read
  obtain ⟨_, e, passes⟩ := Check.clip_eq_nil h.passes
  cases e
  obtain ⟨hkind, own⟩ := Content.reader_fields reader fields.content
  have demands := passes.content
  rw [type, Option.getD_some] at demands
  constructor
  · exact bound_of_passes passes.start fields.start fun n x hn hx =>
      Double.not_lt_zero_of_toFloat hx (by simpa using hn)
  · obtain ⟨n, hn, hx⟩ := required_number passes.duration fields.duration
    exact Double.not_le_zero_of_toFloat hx (by simpa using hn)
  · refine bound_of_passes passes.opacity fields.opacity fun n x hn hx => ?_
    obtain ⟨lower, upper⟩ := Bool.and_eq_true_iff.1 hn
    exact Double.within_of_toFloat Double.reaches_hundred hx lower upper
  · exact bound_of_passes passes.scale fields.scale fun n x hn hx =>
      Double.not_le_zero_of_toFloat hx (by simpa using hn)
  · intro m hm k present
    obtain ⟨threshold, halo⟩ :=
      chromaKey_within (own.media_eq hm) (content_media hkind hm demands).2 present
    exact ⟨fun x set => by simpa [ChromaKey.thresholdValue, set] using threshold,
      fun x set => by simpa [ChromaKey.haloValue, set] using halo⟩

theorem Accepted.inBounds {members : List (String × Json)} {docs : List Json} {t : Timeline}
    (a : Accepted members docs t) : t.InBounds := by
  have globals := globals_eq_nil a.globals
  constructor
  · intro none
    have each := a.each
    rw [none, List.forall₂_nil_right_iff] at each
    exact a.filled each
  · intro track htrack
    obtain ⟨doc, -, -, accepted⟩ := forall₂_right a.each htrack
    obtain ⟨clips, -, filled, pairs⟩ := accepted.clips
    refine ⟨fun none => ?_, fun c hc => ?_⟩
    · rw [none, List.forall₂_nil_right_iff] at pairs
      exact filled pairs
    · obtain ⟨doc, -, -, accepted⟩ := forall₂_right pairs hc
      exact accepted.inBounds
  · exact bound_of_passes globals.frameRate a.toFields.frameRate fun n x hn hx =>
      Double.not_le_zero_of_toFloat hx (by simpa using hn)
  · intro r hr
    have read := optional_ok a.resolution
    rw [find_one] at read
    cases found : Json.lookup "resolution" members with
    | none =>
      rw [found] at read
      cases read.symm.trans hr
    | some v =>
      rw [found] at read
      obtain ⟨r', object, set⟩ := read
      obtain ⟨fields, rfl, hfields⟩ := object_ok object
      cases hr.symm.trans set
      obtain ⟨width, height, -⟩ := Resolution.ofMembers_ok hfields
      obtain ⟨passesWidth, passesHeight⟩ := globals.resolution fields found
      have above {name : String} {o : Option Int} (passes : Check.measure name fields = [])
          (read : optional [name] int fields = .ok o) (n : Int) (set : o = some n) : 0 < n := by
        obtain ⟨-, rfl⟩ | ⟨k, hk, rfl⟩ := measure_ok passes read
        · cases set
        · cases set
          omega
      exact ⟨above passesWidth width, above passesHeight height⟩
  · exact fun x set => a.span_bound set

theorem Timeline.inBounds_of_accept {canvas : Except (List Mismatch) Canvas} {v : Json}
    {t : Timeline} (h : Timeline.accept canvas v = .ok t) : t.InBounds := by
  obtain ⟨members, docs, -, a, -⟩ := accept_ok h
  exact a.inBounds

end Montage
