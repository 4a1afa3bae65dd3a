import Mathlib.Data.List.Forall2
import Montage.Timeline.Check

/-!
# What a document must be to be read

Inversions of the readers, from the small ones to the timeline's own: if a reader gives a value,
what the document had at the places that it looked at. A reader of several fields is inverted
once, into one equation for each field and one for the members beside them (`Clip.Fields`,
`Timeline.Fields`, …); nothing later opens a reader of fields again.
-/
namespace Montage

theorem forall₂_right {α β : Type} {R : α → β → Prop} {as : List α} {bs : List β}
    (h : List.Forall₂ R as bs) {b : β} (hb : b ∈ bs) : ∃ a ∈ as, (a, b) ∈ as.zip bs ∧ R a b := by
  induction h with
  | nil => cases hb
  | @cons a _ as _ first _ ih =>
    rcases List.mem_cons.1 hb with rfl | hb
    · exact ⟨a, List.mem_cons_self .., List.mem_cons_self .., first⟩
    · obtain ⟨a, ha, pair, found⟩ := ih hb
      exact ⟨a, List.mem_cons_of_mem _ ha, List.mem_cons_of_mem _ pair, found⟩

/-! ## Readings side by side -/

namespace Parsed

variable {α β : Type}

theorem map_ok {f : α → β} {x : Parsed α} {b : β} (h : f <$> x = .ok b) :
    ∃ a, x = .ok a ∧ f a = b := by
  cases x with
  | ok a => exact ⟨a, rfl, Parsed.ok.inj h⟩
  | bad => cases h

theorem seq_ok {f : Parsed (α → β)} {x : Parsed α} {b : β} (h : f <*> x = .ok b) :
    ∃ g a, f = .ok g ∧ x = .ok a ∧ g a = b := by
  cases f with
  | ok g =>
    obtain ⟨a, hx, hb⟩ := map_ok (f := g) (x := x) h
    exact ⟨g, a, rfl, hx, hb⟩
  | bad ms => cases x <;> cases h

theorem under_ok {s : Step} {x : Parsed α} {a : α} (h : x.under s = .ok a) : x = .ok a := by
  cases x with
  | ok => exact h
  | bad => cases h

theorem toExcept_ok {x : Parsed α} {a : α} (h : x.toExcept = .ok a) : x = .ok a := by
  cases x with
  | ok => exact congrArg Parsed.ok (Except.ok.inj h)
  | bad => cases h

end Parsed

namespace Schema

variable {α : Type} {read : Json → Parsed α} {members : List (String × Json)}

theorem find_one (name : String) (members : List (String × Json)) :
    (find [name] members).map (·.2) = Json.lookup name members := by
  simp [find, Function.comp_def]

theorem find_two (name other : String) (members : List (String × Json)) :
    (find [name, other] members).map (·.2) =
      (Json.lookup name members).orElse fun _ => Json.lookup other members := by
  cases h : Json.lookup name members <;> cases h' : Json.lookup other members <;>
    simp [find, h, h']

/-- A field that may be left out is left out or read. -/
theorem optional_ok {names : Names} {o : Option α} (h : optional names read members = .ok o) :
    match (find names members).map (·.2) with
    | none => o = none
    | some v => ∃ a, read v = .ok a ∧ o = some a := by
  unfold optional at h
  cases hf : find names members with
  | none =>
    rw [hf] at h
    exact (Parsed.ok.inj h).symm
  | some found =>
    rw [hf] at h
    obtain ⟨a, ha, rfl⟩ := Parsed.map_ok (f := some) h
    exact ⟨a, Parsed.under_ok ha, rfl⟩

theorem required_ok {names : Names} {a : α} (h : required names read members = .ok a) :
    ∃ v, (find names members).map (·.2) = some v ∧ read v = .ok a := by
  unfold required at h
  cases hf : find names members with
  | none => rw [hf] at h; cases h
  | some found =>
    rw [hf] at h
    exact ⟨found.2, rfl, Parsed.under_ok h⟩

theorem nullable_ok {v : Json} {o : Option α} (h : nullable read v = .ok o) :
    v = .null ∧ o = none ∨ ∃ a, read v = .ok a ∧ o = some a := by
  unfold nullable at h
  split at h
  · exact .inl ⟨rfl, (Parsed.ok.inj h).symm⟩
  · obtain ⟨a, ha, rfl⟩ := Parsed.map_ok (f := some) h
    exact .inr ⟨a, ha, rfl⟩

theorem object_ok {name : String} {read : List (String × Json) → Parsed α} {v : Json} {a : α}
    (h : object name read v = .ok a) : ∃ members, v = .object members ∧ read members = .ok a := by
  cases v with
  | object members => exact ⟨members, rfl, h⟩
  | _ => cases h

theorem items_ok {i : Nat} {vs : List Json} {as : List α} (h : items read i vs = .ok as) :
    List.Forall₂ (fun v a => read v = .ok a) vs as := by
  induction vs generalizing i as with
  | nil =>
    cases h
    exact .nil
  | cons v vs ih =>
    obtain ⟨g, rest, hg, hrest, rfl⟩ :=
      Parsed.seq_ok (f := ((read v).under (.index i)).map List.cons) (x := items read (i + 1) vs) h
    obtain ⟨a, ha, rfl⟩ := Parsed.map_ok (f := List.cons) hg
    exact .cons (Parsed.under_ok ha) (ih hrest)

theorem list_ok {v : Json} {as : List α} (h : list read v = .ok as) :
    ∃ vs, v = .array vs ∧ List.Forall₂ (fun v a => read v = .ok a) vs as := by
  cases v with
  | array vs => exact ⟨vs, rfl, items_ok h⟩
  | _ => cases h

theorem string_ok {v : Json} {s : String} (h : string v = .ok s) : v = .string s := by
  cases v with
  | string => exact congrArg Json.string (Parsed.ok.inj h)
  | _ => cases h

/-- A number is read as the double that it has. -/
theorem float_number {n : Number} {x : Float} (h : float (.number n) = .ok x) :
    n.toFloat = .ok x := by
  unfold float at h
  cases hn : n.toFloat with
  | ok y => simp only [hn] at h; exact congrArg Except.ok (Parsed.ok.inj h)
  | error => simp only [hn] at h; cases h

end Schema

open Schema

/-! ## What lies in a clip -/

/-- The fields of a point, each read from the point's document, and the members beside them. -/
structure Point.Fields (members : List (String × Json)) (p : Point) : Prop where
  x : optional ["x"] float members = .ok p.x
  y : optional ["y"] float members = .ok p.y
  extra : p.extra = rest [["x"], ["y"]] members

theorem Point.ofMembers_ok {members : List (String × Json)} {p : Point}
    (h : Point.ofMembers members = .ok p) : Point.Fields members p := by
  unfold Point.ofMembers at h
  obtain ⟨_, _, h₁, y, rfl⟩ := Parsed.seq_ok h
  obtain ⟨_, x, rfl⟩ := Parsed.map_ok h₁
  exact ⟨x, y, rfl⟩

structure TextStyle.Fields (members : List (String × Json)) (s : TextStyle) : Prop where
  fontSize : optional ["fontSize", "font_size"] float members = .ok s.fontSize
  fontFamily : optional ["fontFamily", "font_family"] string members = .ok s.fontFamily
  color : optional ["color"] string members = .ok s.color
  extra : s.extra = rest TextStyle.fields members

theorem TextStyle.ofMembers_ok {members : List (String × Json)} {s : TextStyle}
    (h : TextStyle.ofMembers members = .ok s) : TextStyle.Fields members s := by
  unfold TextStyle.ofMembers at h
  obtain ⟨_, _, h₁, color, rfl⟩ := Parsed.seq_ok h
  obtain ⟨_, _, h₂, family, rfl⟩ := Parsed.seq_ok h₁
  obtain ⟨_, size, rfl⟩ := Parsed.map_ok h₂
  exact ⟨size, family, color, rfl⟩

structure Shape.Fields (members : List (String × Json)) (s : Shape) : Prop where
  form : optional ["type"] string members = .ok s.form
  width : optional ["width"] float members = .ok s.width
  height : optional ["height"] float members = .ok s.height
  fillColor : optional ["fillColor", "fill_color"] (nullable string) members = .ok s.fillColor
  strokeColor : optional ["strokeColor", "stroke_color"] (nullable string) members =
    .ok s.strokeColor
  strokeWidth : optional ["strokeWidth", "stroke_width"] float members = .ok s.strokeWidth
  extra : s.extra = rest Shape.fields members

theorem Shape.ofMembers_ok {members : List (String × Json)} {s : Shape}
    (h : Shape.ofMembers members = .ok s) : Shape.Fields members s := by
  unfold Shape.ofMembers at h
  obtain ⟨_, _, h₁, strokeWidth, rfl⟩ := Parsed.seq_ok h
  obtain ⟨_, _, h₂, stroke, rfl⟩ := Parsed.seq_ok h₁
  obtain ⟨_, _, h₃, fill, rfl⟩ := Parsed.seq_ok h₂
  obtain ⟨_, _, h₄, height, rfl⟩ := Parsed.seq_ok h₃
  obtain ⟨_, _, h₅, width, rfl⟩ := Parsed.seq_ok h₄
  obtain ⟨_, form, rfl⟩ := Parsed.map_ok h₅
  exact ⟨form, width, height, fill, stroke, strokeWidth, rfl⟩

structure ChromaKey.Fields (members : List (String × Json)) (k : ChromaKey) : Prop where
  color : optional ["color"] string members = .ok k.color
  threshold : optional ["threshold"] float members = .ok k.threshold
  halo : optional ["halo"] float members = .ok k.halo
  extra : k.extra = rest [["color"], ["threshold"], ["halo"]] members

theorem ChromaKey.ofMembers_ok {members : List (String × Json)} {k : ChromaKey}
    (h : ChromaKey.ofMembers members = .ok k) : ChromaKey.Fields members k := by
  unfold ChromaKey.ofMembers at h
  obtain ⟨_, _, h₁, halo, rfl⟩ := Parsed.seq_ok h
  obtain ⟨_, _, h₂, threshold, rfl⟩ := Parsed.seq_ok h₁
  obtain ⟨_, color, rfl⟩ := Parsed.map_ok h₂
  exact ⟨color, threshold, halo, rfl⟩

structure Media.Fields (members : List (String × Json)) (m : Media) : Prop where
  source : required ["source", "src"] string members = .ok m.source
  sourceWidth : optional ["originalWidth", "original_width"] (nullable float) members =
    .ok m.sourceWidth
  sourceHeight : optional ["originalHeight", "original_height"] (nullable float) members =
    .ok m.sourceHeight
  filter : optional ["filter"] (nullable (choice Effect.words)) members = .ok m.filter
  chromaKey : optional ["chromaKey", "chroma_key"]
    (nullable (object "ChromaKey" ChromaKey.ofMembers)) members = .ok m.chromaKey

theorem Media.ofMembers_ok {members : List (String × Json)} {m : Media}
    (h : Media.ofMembers members = .ok m) : Media.Fields members m := by
  unfold Media.ofMembers at h
  obtain ⟨_, _, h₁, key, rfl⟩ := Parsed.seq_ok h
  obtain ⟨_, _, h₂, filter, rfl⟩ := Parsed.seq_ok h₁
  obtain ⟨_, _, h₃, height, rfl⟩ := Parsed.seq_ok h₂
  obtain ⟨_, _, h₄, width, rfl⟩ := Parsed.seq_ok h₃
  obtain ⟨_, source, rfl⟩ := Parsed.map_ok h₄
  exact ⟨source, width, height, filter, key⟩

/-- The own fields of a type of clips, each read from the clip's document. -/
inductive Content.Fields (members : List (String × Json)) : List Names → Content → Prop
  | background {color source : Option (Option String)}
    (color_read : optional ["color"] (nullable string) members = .ok color)
    (source_read : optional ["src"] (nullable string) members = .ok source) :
    Content.Fields members [["color"], ["src"]] (.background color source)
  | text {text : String} {style : Option TextStyle}
    (text_read : required ["text"] string members = .ok text)
    (style_read : optional ["style"] (object "TextStyle" TextStyle.ofMembers) members =
      .ok style) :
    Content.Fields members [["text"], ["style"]] (.text text style)
  | image {m : Media} (media : Media.Fields members m) :
    Content.Fields members Media.fields (.image m)
  | video {m : Media} {volume : Option Float} (media : Media.Fields members m)
    (volume_read : optional ["volume"] float members = .ok volume) :
    Content.Fields members (Media.fields ++ [["volume"]]) (.video m volume)
  | shape {shape : Option Shape}
    (shape_read : optional ["shape"] (object "ShapeSpec" Shape.ofMembers) members = .ok shape) :
    Content.Fields members [["shape"]] (.shape shape)

/-- What a clip shows is what its type says, read by the reader of the type. -/
theorem Content.reader_fields {kind : String} {own : List Names}
    {content : List (String × Json) → Parsed Content} {members : List (String × Json)} {k : Content}
    (reader : Content.reader? kind = some (own, content)) (h : content members = .ok k) :
    kind = k.kind ∧ Content.Fields members own k := by
  unfold Content.reader? at reader
  split at reader <;> cases reader
  · obtain ⟨_, _, h₁, source, rfl⟩ := Parsed.seq_ok h
    obtain ⟨_, color, rfl⟩ := Parsed.map_ok h₁
    exact ⟨rfl, .background color source⟩
  · obtain ⟨_, _, h₁, style, rfl⟩ := Parsed.seq_ok h
    obtain ⟨_, text, rfl⟩ := Parsed.map_ok h₁
    exact ⟨rfl, .text text style⟩
  · obtain ⟨_, media, rfl⟩ := Parsed.map_ok h
    exact ⟨rfl, .image (Media.ofMembers_ok media)⟩
  · obtain ⟨_, _, h₁, volume, rfl⟩ := Parsed.seq_ok h
    obtain ⟨_, media, rfl⟩ := Parsed.map_ok h₁
    exact ⟨rfl, .video (Media.ofMembers_ok media) volume⟩
  · obtain ⟨_, shape, rfl⟩ := Parsed.map_ok h
    exact ⟨rfl, .shape shape⟩

theorem Content.Fields.text_eq {members : List (String × Json)} {own : List Names} {k : Content}
    (h : Content.Fields members own k) {text : String} {style : Option TextStyle}
    (isText : k = .text text style) : required ["text"] string members = .ok text := by
  cases h with
  | text read => cases isText; exact read
  | _ => cases isText

theorem Content.Fields.media_eq {members : List (String × Json)} {own : List Names} {k : Content}
    (h : Content.Fields members own k) {m : Media} (there : k.media? = some m) :
    Media.Fields members m := by
  cases h with
  | image media => cases there; exact media
  | video media => cases there; exact media
  | _ => cases there

/-! ## Clips -/

/-- The fields of a clip, each read from the clip's document. -/
structure Clip.Fields (members : List (String × Json)) (own : List Names)
    (content : List (String × Json) → Parsed Content) (c : Clip) : Prop where
  id : optional ["id"] readId members = .ok c.id
  start : optional ["start"] float members = .ok c.start
  duration : required ["duration"] float members = .ok c.duration
  position : optional ["position"] (nullable Position.ofJson) members = .ok c.position
  opacity : optional ["opacity"] float members = .ok c.opacity
  scale : optional ["scale"] float members = .ok c.scale
  content : content members = .ok c.content
  extra : c.extra = rest (Clip.fields ++ own) members

theorem Clip.ofMembers_ok {own : List Names} {content : List (String × Json) → Parsed Content}
    {members : List (String × Json)} {c : Clip} (h : Clip.ofMembers own content members = .ok c) :
    Clip.Fields members own content c := by
  unfold Clip.ofMembers at h
  obtain ⟨_, _, h₁, content, rfl⟩ := Parsed.seq_ok h
  obtain ⟨_, _, h₂, scale, rfl⟩ := Parsed.seq_ok h₁
  obtain ⟨_, _, h₃, opacity, rfl⟩ := Parsed.seq_ok h₂
  obtain ⟨_, _, h₄, position, rfl⟩ := Parsed.seq_ok h₃
  obtain ⟨_, _, h₅, duration, rfl⟩ := Parsed.seq_ok h₄
  obtain ⟨_, _, h₆, start, rfl⟩ := Parsed.seq_ok h₅
  obtain ⟨_, id, rfl⟩ := Parsed.map_ok h₆
  exact ⟨id, start, duration, position, opacity, scale, content, rfl⟩

theorem Clip.ofJson_ok {v : Json} {c : Clip} (h : Clip.ofJson v = .ok c) :
    ∃ members kind own content, v = .object members ∧
      Json.lookup "type" members = some (.string kind) ∧
      Content.reader? kind = some (own, content) ∧ Clip.Fields members own content c := by
  unfold Clip.ofJson at h
  split at h
  · next members =>
    split at h
    · cases h
    · next kind tag =>
      split at h
      · split at h
        · next reader =>
          exact ⟨members, _, _, _, rfl, tag, reader, Clip.ofMembers_ok (Parsed.under_ok h)⟩
        · cases h
      · cases h
  · cases h

/-! ## Timelines -/

structure Track.Fields (members : List (String × Json)) (t : Track) : Prop where
  id : optional ["id"] readId members = .ok t.id
  clips : optional ["clips"] (list Clip.ofJson) members = .ok t.clips
  extra : t.extra = rest [["id"], ["clips"]] members

theorem Track.ofMembers_ok {members : List (String × Json)} {t : Track}
    (h : Track.ofMembers members = .ok t) : Track.Fields members t := by
  unfold Track.ofMembers at h
  obtain ⟨_, _, h₁, clips, rfl⟩ := Parsed.seq_ok h
  obtain ⟨_, id, rfl⟩ := Parsed.map_ok h₁
  exact ⟨id, clips, rfl⟩

structure Resolution.Fields (members : List (String × Json)) (r : Resolution) : Prop where
  width : optional ["width"] int members = .ok r.width
  height : optional ["height"] int members = .ok r.height
  extra : r.extra = rest [["width"], ["height"]] members

theorem Resolution.ofMembers_ok {members : List (String × Json)} {r : Resolution}
    (h : Resolution.ofMembers members = .ok r) : Resolution.Fields members r := by
  unfold Resolution.ofMembers at h
  obtain ⟨_, _, h₁, height, rfl⟩ := Parsed.seq_ok h
  obtain ⟨_, width, rfl⟩ := Parsed.map_ok h₁
  exact ⟨width, height, rfl⟩

structure Background.Fields (members : List (String × Json)) (b : Background) : Prop where
  color : optional ["color"] (nullable string) members = .ok b.color
  source : optional ["src"] (nullable string) members = .ok b.source
  extra : b.extra = rest [["color"], ["src"]] members

theorem Background.ofMembers_ok {members : List (String × Json)} {b : Background}
    (h : Background.ofMembers members = .ok b) : Background.Fields members b := by
  unfold Background.ofMembers at h
  obtain ⟨_, _, h₁, source, rfl⟩ := Parsed.seq_ok h
  obtain ⟨_, color, rfl⟩ := Parsed.map_ok h₁
  exact ⟨color, source, rfl⟩

structure Soundtrack.Fields (members : List (String × Json)) (s : Soundtrack) : Prop where
  source : required ["src"] string members = .ok s.source
  volume : optional ["volume"] float members = .ok s.volume
  extra : s.extra = rest [["src"], ["volume"]] members

theorem Soundtrack.ofMembers_ok {members : List (String × Json)} {s : Soundtrack}
    (h : Soundtrack.ofMembers members = .ok s) : Soundtrack.Fields members s := by
  unfold Soundtrack.ofMembers at h
  obtain ⟨_, _, h₁, volume, rfl⟩ := Parsed.seq_ok h
  obtain ⟨_, source, rfl⟩ := Parsed.map_ok h₁
  exact ⟨source, volume, rfl⟩

/-- The fields of a timeline, each read from the timeline's document. -/
structure Timeline.Fields (members : List (String × Json)) (t : Timeline) : Prop where
  duration : optional ["duration"] (nullable float) members = .ok t.duration
  frameRate : optional ["fps"] float members = .ok t.frameRate
  resolution : optional ["resolution"] (object "Resolution" Resolution.ofMembers) members =
    .ok t.resolution
  background : optional ["background"] (object "Background" Background.ofMembers) members =
    .ok t.background
  tracks : optional ["tracks"] (list (object "Track" Track.ofMembers)) members = .ok t.tracks
  soundtrack : optional ["soundtrack"] (nullable (object "Soundtrack" Soundtrack.ofMembers))
    members = .ok t.soundtrack
  extra : t.extra = rest Timeline.fields members

theorem Timeline.ofMembers_ok {canvas : Canvas} {members : List (String × Json)} {t : Timeline}
    (h : Timeline.ofMembers canvas members = .ok t) :
    Timeline.Fields members t ∧ t.canvas = canvas := by
  unfold Timeline.ofMembers at h
  obtain ⟨_, _, h₁, soundtrack, rfl⟩ := Parsed.seq_ok h
  obtain ⟨_, _, h₂, tracks, rfl⟩ := Parsed.seq_ok h₁
  obtain ⟨_, _, h₃, background, rfl⟩ := Parsed.seq_ok h₂
  obtain ⟨_, _, h₄, resolution, rfl⟩ := Parsed.seq_ok h₃
  obtain ⟨_, _, h₅, frameRate, rfl⟩ := Parsed.seq_ok h₄
  obtain ⟨_, duration, rfl⟩ := Parsed.map_ok h₅
  exact ⟨⟨duration, frameRate, resolution, background, tracks, soundtrack, rfl⟩, rfl⟩

/-- The measures of the settings are in force, or none of them is needed. -/
theorem Timeline.ofJson_ok {canvas : Except (List Mismatch) Canvas}
    {members : List (String × Json)} {t : Timeline}
    (h : Timeline.ofJson canvas (.object members) = .ok t) :
    Timeline.Fields members t ∧
      (canvas = .ok t.canvas ∨ Timeline.needsCanvas members = false) := by
  cases canvas with
  | ok c =>
    obtain ⟨fields, rfl⟩ := Timeline.ofMembers_ok (Parsed.toExcept_ok h)
    exact ⟨fields, .inl rfl⟩
  | error ms =>
    unfold Timeline.ofJson at h
    simp only at h
    split at h
    · cases h
    · next needed =>
      exact ⟨(Timeline.ofMembers_ok (Parsed.toExcept_ok h)).1, .inr (by simpa using needed)⟩

end Montage
