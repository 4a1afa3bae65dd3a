import Montage.Proofs.Timeline.Accepted
import Montage.Proofs.Timeline.Writing

/-!
# Reading back what was written

Each reader gives back what its writer was given, from the values in the fields to the timeline
(`Timeline.ofJson_toJson`). Two things are needed: nothing beside the fields is taken for a field
(`Timeline.Tidy`), and the measures of the settings are the same as before, or are not needed
(`Timeline.InForce`). Both hold of every timeline that was read (`Timeline.tidy_of_read`).
-/
namespace Montage

open Schema

/-! ## Values -/

section

variable {α : Type} {read : Json → Parsed α} {write : α → Json}

theorem nullable_back {o : Option α} (never : ∀ a, write a ≠ .null)
    (back : ∀ a, o = some a → read (write a) = .ok a) :
    nullable read (Json.ofOption write o) = .ok o := by
  cases o with
  | none => rfl
  | some a =>
    show nullable read (write a) = _
    unfold nullable
    split
    · next absent => exact absurd absent (never a)
    · rw [back a rfl]
      rfl

theorem items_back {as : List α} (back : ∀ a ∈ as, read (write a) = .ok a) (i : Nat) :
    items read i (as.map write) = .ok as := by
  induction as generalizing i with
  | nil => rfl
  | cons a as ih =>
    rw [List.forall_mem_cons] at back
    rw [List.map_cons, items, back.1, ih back.2]
    rfl

theorem list_back {as : List α} (back : ∀ a ∈ as, read (write a) = .ok a) :
    list read (.array (as.map write)) = .ok as :=
  items_back back 0

end

theorem float_back (x : Float) : float (.float x) = .ok x := rfl

theorem string_back (s : String) : string (.string s) = .ok s := rfl

theorem int_back (n : Int) : int (.int n) = .ok n := rfl

theorem nullableFloat_back (o : Option Float) : nullable float (nullableFloat o) = .ok o :=
  nullable_back (fun _ h => by cases h) fun x _ => float_back x

theorem nullableText_back (o : Option String) : nullable string (nullableText o) = .ok o :=
  nullable_back (fun _ h => by cases h) fun s _ => string_back s

theorem readId_back (o : Option String) : readId (nullableText o) = .ok o := by
  cases o <;> rfl

theorem anchor_back (a : Anchor) : choice Anchor.words (.string a.word) = .ok a := by
  cases a <;> rfl

theorem effect_back (e : Effect) : choice Effect.words (.string e.word) = .ok e := by
  cases e <;> rfl

/-! ## Clips -/

theorem Point.ofMembers_record {p : Point} (h : p.record.Tidy) :
    Point.ofMembers p.record.members = .ok p := by
  have x : optional ["x"] float p.record.members = .ok p.x :=
    h.optional (by simp [Point.record]) fun x _ => float_back x
  have y : optional ["y"] float p.record.members = .ok p.y :=
    h.optional (by simp [Point.record]) fun y _ => float_back y
  have extra : rest [["x"], ["y"]] p.record.members = p.extra := h.rest
  unfold Point.ofMembers
  rw [x, y, extra]
  rfl

theorem Position.ofJson_toJson {p : Position} (h : p.Tidy) :
    Position.ofJson (p.toJson .brief) = .ok p := by
  cases p with
  | point p =>
    have back : object "Position" Point.ofMembers (p.toJson .brief) = .ok p := by
      rw [Point.toJson_brief]
      exact Point.ofMembers_record h
    rw [Position.toJson, Position.ofJson, back]
    rfl
  | anchor a =>
    have word : object "Position" Point.ofMembers (.string a.word) =
      .fail "Input should be a valid dictionary or instance of Position" := rfl
    rw [Position.toJson, Position.ofJson, word, anchor_back]
    rfl

theorem TextStyle.ofMembers_record {s : TextStyle} (h : s.record.Tidy) :
    TextStyle.ofMembers s.record.members = .ok s := by
  have size : optional ["fontSize", "font_size"] float s.record.members = .ok s.fontSize :=
    h.optional (by simp [TextStyle.record]) fun x _ => float_back x
  have family : optional ["fontFamily", "font_family"] string s.record.members =
      .ok s.fontFamily :=
    h.optional (by simp [TextStyle.record]) fun x _ => string_back x
  have color : optional ["color"] string s.record.members = .ok s.color :=
    h.optional (by simp [TextStyle.record]) fun x _ => string_back x
  have extra : rest TextStyle.fields s.record.members = s.extra := h.rest
  unfold TextStyle.ofMembers
  rw [size, family, color, extra]
  rfl

theorem Shape.ofMembers_record {s : Shape} (h : s.record.Tidy) :
    Shape.ofMembers s.record.members = .ok s := by
  have form : optional ["type"] string s.record.members = .ok s.form :=
    h.optional (by simp [Shape.record]) fun x _ => string_back x
  have width : optional ["width"] float s.record.members = .ok s.width :=
    h.optional (by simp [Shape.record]) fun x _ => float_back x
  have height : optional ["height"] float s.record.members = .ok s.height :=
    h.optional (by simp [Shape.record]) fun x _ => float_back x
  have fill : optional ["fillColor", "fill_color"] (nullable string) s.record.members =
      .ok s.fillColor :=
    h.optional (by simp [Shape.record]) fun x _ => nullableText_back x
  have stroke : optional ["strokeColor", "stroke_color"] (nullable string) s.record.members =
      .ok s.strokeColor :=
    h.optional (by simp [Shape.record]) fun x _ => nullableText_back x
  have strokeWidth : optional ["strokeWidth", "stroke_width"] float s.record.members =
      .ok s.strokeWidth :=
    h.optional (by simp [Shape.record]) fun x _ => float_back x
  have extra : rest Shape.fields s.record.members = s.extra := h.rest
  unfold Shape.ofMembers
  rw [form, width, height, fill, stroke, strokeWidth, extra]
  rfl

theorem ChromaKey.ofMembers_record {k : ChromaKey} (h : k.record.Tidy) :
    ChromaKey.ofMembers k.record.members = .ok k := by
  have color : optional ["color"] string k.record.members = .ok k.color :=
    h.optional (by simp [ChromaKey.record]) fun x _ => string_back x
  have threshold : optional ["threshold"] float k.record.members = .ok k.threshold :=
    h.optional (by simp [ChromaKey.record]) fun x _ => float_back x
  have halo : optional ["halo"] float k.record.members = .ok k.halo :=
    h.optional (by simp [ChromaKey.record]) fun x _ => float_back x
  have extra : rest [["color"], ["threshold"], ["halo"]] k.record.members = k.extra := h.rest
  unfold ChromaKey.ofMembers
  rw [color, threshold, halo, extra]
  rfl

/-- Images and videos are read back from any object that has their fields among its own. -/
theorem Media.ofMembers_record {r : Record} {m : Media} (h : r.Tidy)
    (own : ∀ e ∈ m.fieldValues, e ∈ r.fields) (tidy : m.Tidy) :
    Media.ofMembers r.members = .ok m := by
  have source : required ["source", "src"] string r.members = .ok m.source :=
    h.required (own _ (by simp [Media.fieldValues])) (string_back m.source)
  have width : optional ["originalWidth", "original_width"] (nullable float) r.members =
      .ok m.sourceWidth :=
    h.optional (own _ (by simp [Media.fieldValues])) fun x _ => nullableFloat_back x
  have height : optional ["originalHeight", "original_height"] (nullable float) r.members =
      .ok m.sourceHeight :=
    h.optional (own _ (by simp [Media.fieldValues])) fun x _ => nullableFloat_back x
  have filter : optional ["filter"] (nullable (choice Effect.words)) r.members = .ok m.filter :=
    have own : (["filter"], m.filter.map (Json.ofOption fun e => .string e.word)) ∈ r.fields :=
      own _ (by simp [Media.fieldValues])
    h.optional own fun x _ => nullable_back (fun _ h => by cases h) fun e _ => effect_back e
  have key : optional ["chromaKey", "chroma_key"]
      (nullable (object "ChromaKey" ChromaKey.ofMembers)) r.members = .ok m.chromaKey := by
    have own : (["chromaKey", "chroma_key"],
        m.chromaKey.map (Json.ofOption (ChromaKey.toJson .brief))) ∈ r.fields :=
      own _ (by simp [Media.fieldValues])
    refine h.optional own fun x set => nullable_back (fun _ h => by cases h) fun k there => ?_
    rw [ChromaKey.toJson_brief]
    exact ChromaKey.ofMembers_record (tidy k (by rw [set, Option.join_some, there]))
  unfold Media.ofMembers
  rw [source, width, height, filter, key]
  rfl

/-- A type's own content is read back by the reader of the type. -/
theorem Content.read_record {r : Record} {c : Content} (h : r.Tidy)
    (own : ∀ e ∈ c.fieldValues, e ∈ r.fields) (tidy : c.Tidy) :
    ∃ content, Content.reader? c.kind = some (c.fieldValues.map (·.1), content) ∧
      content r.members = .ok c := by
  cases c with
  | background color source =>
    have color : optional ["color"] (nullable string) r.members = .ok color :=
      h.optional (own _ (by simp [Content.fieldValues])) fun x _ => nullableText_back x
    have source : optional ["src"] (nullable string) r.members = .ok source :=
      h.optional (own _ (by simp [Content.fieldValues])) fun x _ => nullableText_back x
    refine ⟨_, rfl, ?_⟩
    rw [color, source]
    rfl
  | text text style =>
    have words : required ["text"] string r.members = .ok text :=
      h.required (own _ (by simp [Content.fieldValues])) (string_back text)
    have style : optional ["style"] (object "TextStyle" TextStyle.ofMembers) r.members =
        .ok style := by
      have own : (["style"], style.map (TextStyle.toJson .brief)) ∈ r.fields :=
        own _ (by simp [Content.fieldValues])
      refine h.optional own fun s set => ?_
      rw [TextStyle.toJson_brief]
      exact TextStyle.ofMembers_record (tidy s set)
    refine ⟨_, rfl, ?_⟩
    rw [words, style]
    rfl
  | image m =>
    refine ⟨_, rfl, ?_⟩
    rw [Media.ofMembers_record h own tidy]
    rfl
  | video m volume =>
    have media : Media.ofMembers r.members = .ok m :=
      Media.ofMembers_record h (fun e he => own e (List.mem_append_left _ he)) tidy
    have volume : optional ["volume"] float r.members = .ok volume :=
      h.optional (own _ (by simp [Content.fieldValues])) fun x _ => float_back x
    refine ⟨_, rfl, ?_⟩
    rw [media, volume]
    rfl
  | shape drawn =>
    have drawn : optional ["shape"] (object "ShapeSpec" Shape.ofMembers) r.members = .ok drawn := by
      have own : (["shape"], drawn.map (Shape.toJson .brief)) ∈ r.fields :=
        own _ (by simp [Content.fieldValues])
      refine h.optional own fun s set => ?_
      rw [Shape.toJson_brief]
      exact Shape.ofMembers_record (tidy s set)
    refine ⟨_, rfl, ?_⟩
    rw [drawn]
    rfl

theorem Clip.ofJson_toJson {c : Clip} (h : c.Tidy) : Clip.ofJson (c.toJson .brief) = .ok c := by
  have r := h.record
  have id : optional ["id"] readId c.record.members = .ok c.id :=
    r.optional (by simp [Clip.record]) fun o _ => readId_back o
  have start : optional ["start"] float c.record.members = .ok c.start :=
    r.optional (by simp [Clip.record]) fun x _ => float_back x
  have duration : required ["duration"] float c.record.members = .ok c.duration :=
    r.required (by simp [Clip.record]) (float_back c.duration)
  have position : optional ["position"] (nullable Position.ofJson) c.record.members =
      .ok c.position := by
    have own : (["position"], c.position.map (Json.ofOption (Position.toJson .brief))) ∈
        c.record.fields := by simp [Clip.record]
    refine r.optional own fun o set => nullable_back (fun p => ?_) fun p there => ?_
    · intro null
      cases p <;> cases null
    · exact Position.ofJson_toJson (h.position p (by rw [set, Option.join_some, there]))
  have opacity : optional ["opacity"] float c.record.members = .ok c.opacity :=
    r.optional (by simp [Clip.record]) fun x _ => float_back x
  have scale : optional ["scale"] float c.record.members = .ok c.scale :=
    r.optional (by simp [Clip.record]) fun x _ => float_back x
  have type : Json.lookup "type" c.record.members = some (.string c.content.kind) :=
    r.lookup (by simp [Clip.record])
  obtain ⟨content, reader, own⟩ := Content.read_record r
    (fun e he => List.mem_append_right _ he) h.content
  have extra : rest (Clip.fields ++ c.content.fieldValues.map (·.1)) c.record.members = c.extra :=
    r.rest
  rw [Clip.toJson_brief, Clip.ofJson, type]
  dsimp only
  rw [reader]
  dsimp only
  unfold Clip.ofMembers
  rw [id, start, duration, position, opacity, scale, own, extra]
  rfl

/-! ## Timelines -/

theorem Track.ofMembers_record {t : Track} (h : t.Tidy) :
    Track.ofMembers t.record.members = .ok t := by
  have id : optional ["id"] readId t.record.members = .ok t.id :=
    h.record.optional (by simp [Track.record]) fun o _ => readId_back o
  have clips : optional ["clips"] (list Clip.ofJson) t.record.members = .ok t.clips :=
    h.record.optional (by simp [Track.record]) fun cs set =>
      list_back fun c hc => Clip.ofJson_toJson (h.clips cs set c hc)
  have extra : rest [["id"], ["clips"]] t.record.members = t.extra := h.record.rest
  unfold Track.ofMembers
  rw [id, clips, extra]
  rfl

theorem Resolution.ofMembers_record {r : Resolution} (h : r.record.Tidy) :
    Resolution.ofMembers r.record.members = .ok r := by
  have width : optional ["width"] int r.record.members = .ok r.width :=
    h.optional (by simp [Resolution.record]) fun n _ => int_back n
  have height : optional ["height"] int r.record.members = .ok r.height :=
    h.optional (by simp [Resolution.record]) fun n _ => int_back n
  have extra : rest [["width"], ["height"]] r.record.members = r.extra := h.rest
  unfold Resolution.ofMembers
  rw [width, height, extra]
  rfl

theorem Background.ofMembers_record {b : Background} (h : b.record.Tidy) :
    Background.ofMembers b.record.members = .ok b := by
  have color : optional ["color"] (nullable string) b.record.members = .ok b.color :=
    h.optional (by simp [Background.record]) fun x _ => nullableText_back x
  have source : optional ["src"] (nullable string) b.record.members = .ok b.source :=
    h.optional (by simp [Background.record]) fun x _ => nullableText_back x
  have extra : rest [["color"], ["src"]] b.record.members = b.extra := h.rest
  unfold Background.ofMembers
  rw [color, source, extra]
  rfl

theorem Soundtrack.ofMembers_record {s : Soundtrack} (h : s.record.Tidy) :
    Soundtrack.ofMembers s.record.members = .ok s := by
  have source : required ["src"] string s.record.members = .ok s.source :=
    h.required (by simp [Soundtrack.record]) (string_back s.source)
  have volume : optional ["volume"] float s.record.members = .ok s.volume :=
    h.optional (by simp [Soundtrack.record]) fun x _ => float_back x
  have extra : rest [["src"], ["volume"]] s.record.members = s.extra := h.rest
  unfold Soundtrack.ofMembers
  rw [source, volume, extra]
  rfl

namespace Timeline

theorem ofMembers_record {t : Timeline} (h : t.Tidy) :
    ofMembers t.canvas t.record.members = .ok t := by
  have r := h.record
  have duration : optional ["duration"] (nullable float) t.record.members = .ok t.duration :=
    r.optional (by simp [record]) fun x _ => nullableFloat_back x
  have frameRate : optional ["fps"] float t.record.members = .ok t.frameRate :=
    r.optional (by simp [record]) fun x _ => float_back x
  have resolution : optional ["resolution"] (object "Resolution" Resolution.ofMembers)
      t.record.members = .ok t.resolution := by
    have own : (["resolution"], t.resolution.map (Resolution.toJson .brief t.canvas)) ∈
        t.record.fields := by simp [record]
    refine r.optional own fun x set => ?_
    rw [Resolution.toJson_brief]
    exact Resolution.ofMembers_record (h.resolution x set)
  have background : optional ["background"] (object "Background" Background.ofMembers)
      t.record.members = .ok t.background := by
    have own : (["background"], t.background.map (Background.toJson .brief)) ∈
        t.record.fields := by simp [record]
    refine r.optional own fun x set => ?_
    rw [Background.toJson_brief]
    exact Background.ofMembers_record (h.background x set)
  have tracks : optional ["tracks"] (list (object "Track" Track.ofMembers)) t.record.members =
      .ok t.tracks := by
    have own : (["tracks"], t.tracks.map fun ts => .array (ts.map (Track.toJson .brief))) ∈
        t.record.fields := by simp [record]
    refine r.optional own fun ts set => list_back fun track htrack => ?_
    rw [Track.toJson_brief]
    exact Track.ofMembers_record (h.tracks ts set track htrack)
  have soundtrack : optional ["soundtrack"] (nullable (object "Soundtrack" Soundtrack.ofMembers))
      t.record.members = .ok t.soundtrack := by
    have own : (["soundtrack"], t.soundtrack.map (Json.ofOption (Soundtrack.toJson .brief))) ∈
        t.record.fields := by simp [record]
    refine r.optional own fun o set => nullable_back (fun _ h => by cases h) fun s there => ?_
    rw [Soundtrack.toJson_brief]
    exact Soundtrack.ofMembers_record (h.soundtrack s (by rw [set, Option.join_some, there]))
  have extra : rest fields t.record.members = t.extra := r.rest
  unfold ofMembers
  rw [duration, frameRate, resolution, background, tracks, soundtrack, extra]
  rfl

/-- The settings' measures are those that the timeline was read with; mismatched settings give
none, and then the timeline has all measures itself. -/
inductive InForce (t : Timeline) : Except (List Mismatch) Canvas → Prop
  | settings : t.InForce (.ok t.canvas)
  | own {ms : List Mismatch} (none : t.canvas = ⟨0, 0, 0⟩) (frameRate : t.frameRate.isSome)
    (size : ∃ r, t.resolution = some r ∧ r.width.isSome ∧ r.height.isSome) :
    t.InForce (.error ms)

/-- **Writing loses nothing.** A tidy timeline that is written briefly is read back as it was. -/
theorem ofJson_toJson {t : Timeline} {canvas : Except (List Mismatch) Canvas} (h : t.Tidy)
    (inForce : t.InForce canvas) : Timeline.ofJson canvas (t.toJson .brief) = .ok t := by
  rw [toJson_brief]
  cases inForce with
  | settings =>
    show (ofMembers t.canvas t.record.members).toExcept = _
    rw [ofMembers_record h]
    rfl
  | own none frameRate size =>
    obtain ⟨r, hr, width, height⟩ := size
    have enough : needsCanvas t.record.members = false := by
      obtain ⟨rate, hrate⟩ := Option.isSome_iff_exists.1 frameRate
      obtain ⟨w, hw⟩ := Option.isSome_iff_exists.1 width
      obtain ⟨k, hk⟩ := Option.isSome_iff_exists.1 height
      have fps : find ["fps"] t.record.members = some ("fps", .float rate) :=
        h.record.find_set (by simp [record, hrate])
      have res : find ["resolution"] t.record.members =
          some ("resolution", r.toJson .brief t.canvas) :=
        h.record.find_set (by simp [record, hr])
      have inner := h.resolution r hr
      have resWidth : find ["width"] r.record.members = some ("width", .int w) :=
        inner.find_set (by simp [Resolution.record, hw])
      have resHeight : find ["height"] r.record.members = some ("height", .int k) :=
        inner.find_set (by simp [Resolution.record, hk])
      rw [needsCanvas, fps, res, Resolution.toJson_brief]
      simp [resWidth, resHeight]
    simp only [ofJson, enough]
    rw [← none, ofMembers_record h]
    rfl

/-- A timeline that needs nothing of the settings has all measures itself. -/
theorem Fields.measures {ms : List (String × Json)} {t : Timeline} (f : Fields ms t)
    (enough : needsCanvas ms = false) : t.frameRate.isSome ∧
      ∃ r, t.resolution = some r ∧ r.width.isSome ∧ r.height.isSome := by
  rw [needsCanvas, Bool.or_eq_false_iff] at enough
  obtain ⟨rate, size⟩ := enough
  have read := optional_ok f.resolution
  refine ⟨by rw [← optional_isSome f.frameRate]; simpa using rate, ?_⟩
  cases found : find ["resolution"] ms with
  | none => rw [found] at size; cases size
  | some member =>
    rw [found] at size read
    obtain ⟨res, read, set⟩ := read
    obtain ⟨r, hr, read⟩ := object_ok read
    obtain ⟨name, v⟩ := member
    cases hr
    obtain ⟨width, height⟩ := Bool.or_eq_false_iff.1 size
    have own := Resolution.ofMembers_ok read
    refine ⟨res, set, ?_, ?_⟩
    · rw [← optional_isSome own.width]
      simpa using width
    · rw [← optional_isSome own.height]
      simpa using height

/-- A timeline that was read can be written and read again with the same settings. -/
theorem tidy_of_read {t : Timeline} {canvas : Except (List Mismatch) Canvas} {v : Json}
    (h : Timeline.ofJson canvas v = .ok t) : t.Tidy ∧ t.InForce canvas := by
  cases v with
  | object ms =>
    cases canvas with
    | ok c =>
      obtain ⟨f, rfl⟩ := ofMembers_ok (Parsed.toExcept_ok h)
      exact ⟨f.tidy, .settings⟩
    | error e =>
      unfold ofJson at h
      simp only at h
      split at h
      · cases h
      · next enough =>
        obtain ⟨f, none⟩ := ofMembers_ok (Parsed.toExcept_ok h)
        obtain ⟨rate, size⟩ := f.measures (by simpa using enough)
        exact ⟨f.tidy, .own none rate size⟩
  | _ => cases canvas <;> cases h

theorem tidy_of_accept {t : Timeline} {canvas : Except (List Mismatch) Canvas} {v : Json}
    (h : Timeline.accept canvas v = .ok t) : t.Tidy ∧ t.InForce canvas := by
  unfold accept at h
  split at h
  · cases h
  · split at h
    · split at h
      · next read =>
        cases h
        exact tidy_of_read read
      · cases h
    · cases h

end Timeline

end Montage
