import Montage.Proofs.Timeline.Reading
import Montage.Timeline.Writer

/-!
# Timelines as records of fields

An object of a timeline is a `Record`: the fields that are set, under their preferred spellings,
and the members beside them. It is `Tidy` if no member beside the fields would be taken for one of
them; then each field is found with its value, and the other members are what is left over. Whatever
was read is tidy, on all levels (`Timeline.Fields.tidy`).
-/
namespace Montage

open Schema

/-! ## Objects -/

/-- Fields have a spelling each, and none in common. -/
def Distinct (names : List Names) : Prop := (∀ n ∈ names, n ≠ []) ∧ names.flatten.Nodup

instance (names : List Names) : Decidable (Distinct names) :=
  inferInstanceAs (Decidable (_ ∧ _))

/-- The spelling that is written. -/
def preferred (names : Names) : String := names.headD ""

@[simp]
theorem preferred_cons (n : String) (others : List String) : preferred (n :: others) = n := rfl

/-- An object as it is written: its fields by their spellings, each with its value if it is set, and
the members beside them. -/
structure Record where
  fields : List (Names × Option Json)
  extra : Extra

namespace Record

/-- The members of the fields that are set. -/
def written (fields : List (Names × Option Json)) : List (String × Json) :=
  fields.flatMap fun e => (e.2.map (preferred e.1, ·)).toList

def members (r : Record) : List (String × Json) := written r.fields ++ r.extra

/-- No member beside the fields has the preferred spelling of a field, or any spelling of a field
that is not set. -/
structure Tidy (r : Record) : Prop where
  distinct : Distinct (r.fields.map (·.1))
  unshadowed : ∀ e ∈ r.fields, Json.lookup (preferred e.1) r.extra = none
  absent : ∀ e ∈ r.fields, e.2 = none → ∀ n ∈ e.1, Json.lookup n r.extra = none

variable {r : Record} {names : Names} {o : Option Json} {fields : List (Names × Option Json)}
  {n : String} {ms : List (String × Json)}

theorem preferred_mem (h : names ≠ []) : preferred names ∈ names := by
  cases names with
  | nil => exact absurd rfl h
  | cons => exact List.mem_cons_self

theorem lookup_append (n : String) (ms ns : List (String × Json)) :
    Json.lookup n (ms ++ ns) = (Json.lookup n ms).or (Json.lookup n ns) := by
  simp [Json.lookup, Option.map_or]

theorem lookup_eq_none : Json.lookup n ms = none ↔ ∀ m ∈ ms, m.1 ≠ n := by
  simp [Json.lookup]

theorem find_eq_none : Schema.find names ms = none ↔ ∀ n ∈ names, Json.lookup n ms = none := by
  simp [Schema.find]

/-- A name that no field has is not written. -/
theorem lookup_written_none (named : ∀ e ∈ fields, e.1 ≠ []) (h : ∀ e ∈ fields, n ∉ e.1) :
    Json.lookup n (written fields) = none := by
  refine lookup_eq_none.2 fun m hm => ?_
  obtain ⟨e, he, written⟩ := List.mem_flatMap.1 hm
  obtain ⟨v, -, rfl⟩ := Option.map_eq_some_iff.1 (Option.mem_toList.1 written)
  exact fun same => h e he (same ▸ preferred_mem (named e he))

/-- A field is written under its preferred spelling only. -/
theorem lookup_written (distinct : Distinct (fields.map (·.1))) (he : (names, o) ∈ fields)
    (hn : n ∈ names) :
    Json.lookup n (written fields) = if preferred names = n then o else none := by
  induction fields with
  | nil => cases he
  | cons e rest ih =>
    obtain ⟨named, nodup⟩ := distinct
    rw [List.map_cons, List.forall_mem_cons] at named
    rw [List.map_cons, List.flatten_cons, List.nodup_append] at nodup
    obtain ⟨-, nodup, apart⟩ := nodup
    have inRest {e' : Names × Option Json} {n : String} (he' : e' ∈ rest) (hn : n ∈ e'.1) :
        n ∈ (rest.map (·.1)).flatten := List.mem_flatten_of_mem (List.mem_map_of_mem he') hn
    have first : written (e :: rest) = (e.2.map (preferred e.1, ·)).toList ++ written rest := rfl
    rw [first, lookup_append]
    rcases List.mem_cons.1 he with rfl | he
    · have later : Json.lookup n (written rest) = none :=
        lookup_written_none (fun e he => named.2 e.1 (List.mem_map_of_mem he))
          fun e he hn' => apart n hn n (inRest he hn') rfl
      rw [later, Option.or_none]
      cases o <;> by_cases same : preferred names = n <;> simp [Json.lookup, same]
    · have earlier : Json.lookup n (e.2.map (preferred e.1, ·)).toList = none := by
        have ne := apart _ (preferred_mem named.1) n (inRest he hn)
        cases e.2 <;> simp [Json.lookup, ne]
      rw [earlier, Option.none_or]
      exact ih ⟨named.2, nodup⟩ he

/-- A field that is set is found under its preferred spelling, and one that is not is not found. -/
theorem Tidy.find (h : r.Tidy) (he : (names, o) ∈ r.fields) :
    Schema.find names r.members = o.map (preferred names, ·) := by
  have lookup {n : String} (hn : n ∈ names) : Json.lookup n r.members =
      (if preferred names = n then o else none).or (Json.lookup n r.extra) := by
    rw [members, lookup_append, lookup_written h.distinct he hn]
  have named : names ≠ [] := h.distinct.1 names (List.mem_map_of_mem he)
  cases o with
  | none =>
    refine find_eq_none.2 fun n hn => ?_
    rw [lookup hn, ite_self, Option.none_or]
    exact h.absent _ he rfl n hn
  | some v =>
    obtain ⟨head, others, rfl⟩ := List.exists_cons_of_ne_nil named
    have found : Json.lookup head r.members = some v := by
      rw [lookup List.mem_cons_self]
      simp
    simp [Schema.find, found]

theorem Tidy.find_set {name : String} {others : List String} {v : Json} (h : r.Tidy)
    (he : (name :: others, some v) ∈ r.fields) :
    Schema.find (name :: others) r.members = some (name, v) := h.find he

theorem Tidy.lookup {name : String} (h : r.Tidy) (he : ([name], o) ∈ r.fields) :
    Json.lookup name r.members = o := by
  rw [← Schema.find_one, h.find he, Option.map_map]
  cases o <;> rfl

/-- What is left beside the fields is what was there. -/
theorem Tidy.rest (h : r.Tidy) : Schema.rest (r.fields.map (·.1)) r.members = r.extra := by
  unfold Schema.rest members
  have used (m : String × Json) : ((r.fields.map (·.1)).filterMap fun names =>
      (Schema.find names r.members).map (·.1)).contains m.1 = true ↔
        ∃ e ∈ r.fields, e.2.isSome ∧ preferred e.1 = m.1 := by
    rw [List.contains_iff_mem, List.mem_filterMap]
    constructor
    · rintro ⟨names, hnames, found⟩
      obtain ⟨⟨names, o⟩, he, rfl⟩ := List.mem_map.1 hnames
      rw [h.find he, Option.map_map] at found
      obtain ⟨v, rfl, same⟩ := Option.map_eq_some_iff.1 found
      exact ⟨_, he, rfl, same⟩
    · rintro ⟨⟨names, o⟩, he, set, same⟩
      obtain ⟨v, rfl⟩ := Option.isSome_iff_exists.1 set
      refine ⟨names, List.mem_map_of_mem he, ?_⟩
      rw [h.find he]
      exact congrArg some same
  rw [List.filter_append, List.filter_eq_nil_iff.2, List.filter_eq_self.2, List.nil_append]
  · intro m hm
    rw [Bool.not_eq_true', Bool.eq_false_iff, ne_eq]
    rw [show written r.fields ++ r.extra = r.members from rfl, used m]
    rintro ⟨e, he, -, same⟩
    exact lookup_eq_none.1 (h.unshadowed e he) m hm same.symm
  · intro m hm
    obtain ⟨e, he, written⟩ := List.mem_flatMap.1 hm
    obtain ⟨v, set, rfl⟩ := Option.map_eq_some_iff.1 (Option.mem_toList.1 written)
    rw [Bool.not_eq_true', Bool.not_eq_false]
    exact (used _).2 ⟨e, he, by rw [set]; rfl, rfl⟩

/-- The members that no field was read from lie beside the fields. -/
theorem tidy_rest (distinct : Distinct (fields.map (·.1)))
    (set : ∀ e ∈ fields, (Schema.find e.1 ms).isSome = e.2.isSome) :
    Tidy ⟨fields, Schema.rest (fields.map (·.1)) ms⟩ := by
  have kept {n : String} (h : Json.lookup n ms = none) :
      Json.lookup n (Schema.rest (fields.map (·.1)) ms) = none :=
    lookup_eq_none.2 fun m hm => lookup_eq_none.1 h m (List.mem_filter.1 hm).1
  refine ⟨distinct, fun e he => ?_, fun e he left n hn => ?_⟩
  · obtain ⟨head, others, names⟩ :=
      List.exists_cons_of_ne_nil (distinct.1 e.1 (List.mem_map_of_mem he))
    rw [names, preferred_cons]
    cases found : Json.lookup head ms with
    | none => exact kept found
    | some v =>
      refine lookup_eq_none.2 fun m hm same => ?_
      have unused := (List.mem_filter.1 hm).2
      rw [Bool.not_eq_true', Bool.eq_false_iff, ne_eq, List.contains_iff_mem,
        List.mem_filterMap] at unused
      refine unused ⟨e.1, List.mem_map_of_mem he, ?_⟩
      simp [names, Schema.find, found, same]
  · have missing : Schema.find e.1 ms = none := by simpa [left] using set e he
    exact kept (find_eq_none.1 missing n hn)

/-! ### Reading the fields of a record -/

variable {α : Type} {read : Json → Parsed α} {write : α → Json}

theorem Tidy.optional {o : Option α} (h : r.Tidy) (he : (names, o.map write) ∈ r.fields)
    (back : ∀ a, o = some a → read (write a) = .ok a) :
    Schema.optional names read r.members = .ok o := by
  unfold Schema.optional
  rw [h.find he]
  cases o with
  | none => rfl
  | some a =>
    simp only [Option.map_some]
    rw [back a rfl]
    rfl

theorem Tidy.required {a : α} (h : r.Tidy) (he : (names, some (write a)) ∈ r.fields)
    (back : read (write a) = .ok a) : Schema.required names read r.members = .ok a := by
  unfold Schema.required
  rw [h.find he]
  simp only [Option.map_some]
  rw [back]
  rfl

end Record

/-! ## The objects of a timeline -/

@[simp]
theorem Detail.member_brief {α : Type} (name : String) (f : α → Json) (o : Option α)
    (standard : Json) : Detail.brief.member name f o standard =
      ((o.map f).map (name, ·)).toList := by
  cases o <;> rfl

def Point.record (p : Point) : Record :=
  ⟨[(["x"], p.x.map .float), (["y"], p.y.map .float)], p.extra⟩

theorem Point.toJson_brief (p : Point) : p.toJson .brief = .object p.record.members := by
  simp [Point.toJson, Point.record, Record.members, Record.written]

def TextStyle.record (s : TextStyle) : Record :=
  ⟨[(["fontSize", "font_size"], s.fontSize.map .float),
    (["fontFamily", "font_family"], s.fontFamily.map .string),
    (["color"], s.color.map .string)], s.extra⟩

theorem TextStyle.toJson_brief (s : TextStyle) : s.toJson .brief = .object s.record.members := by
  simp [TextStyle.toJson, TextStyle.record, Record.members, Record.written]

def Shape.record (s : Shape) : Record :=
  ⟨[(["type"], s.form.map .string), (["width"], s.width.map .float),
    (["height"], s.height.map .float),
    (["fillColor", "fill_color"], s.fillColor.map nullableText),
    (["strokeColor", "stroke_color"], s.strokeColor.map nullableText),
    (["strokeWidth", "stroke_width"], s.strokeWidth.map .float)], s.extra⟩

theorem Shape.toJson_brief (s : Shape) : s.toJson .brief = .object s.record.members := by
  simp [Shape.toJson, Shape.record, Record.members, Record.written]

def ChromaKey.record (k : ChromaKey) : Record :=
  ⟨[(["color"], k.color.map .string), (["threshold"], k.threshold.map .float),
    (["halo"], k.halo.map .float)], k.extra⟩

theorem ChromaKey.toJson_brief (k : ChromaKey) : k.toJson .brief = .object k.record.members := by
  simp [ChromaKey.toJson, ChromaKey.record, Record.members, Record.written]

def Media.fieldValues (m : Media) : List (Names × Option Json) :=
  [(["source", "src"], some (.string m.source)),
    (["originalWidth", "original_width"], m.sourceWidth.map nullableFloat),
    (["originalHeight", "original_height"], m.sourceHeight.map nullableFloat),
    (["filter"], m.filter.map (Json.ofOption fun e => .string e.word)),
    (["chromaKey", "chroma_key"], m.chromaKey.map (Json.ofOption (ChromaKey.toJson .brief)))]

/-- The fields of a type's own content. -/
def Content.fieldValues : Content → List (Names × Option Json)
  | background color source =>
    [(["color"], color.map nullableText), (["src"], source.map nullableText)]
  | text s style => [(["text"], some (.string s)), (["style"], style.map (TextStyle.toJson .brief))]
  | image m => m.fieldValues
  | video m volume => m.fieldValues ++ [(["volume"], volume.map .float)]
  | shape s => [(["shape"], s.map (Shape.toJson .brief))]

def Clip.record (c : Clip) : Record :=
  ⟨[(["id"], c.id.map nullableText), (["start"], c.start.map .float),
    (["duration"], some (.float c.duration)),
    (["position"], c.position.map (Json.ofOption (Position.toJson .brief))),
    (["opacity"], c.opacity.map .float), (["scale"], c.scale.map .float),
    (["type"], some (.string c.content.kind))] ++ c.content.fieldValues, c.extra⟩

theorem Content.members_brief (c : Content) : c.members .brief = Record.written c.fieldValues := by
  cases c <;> simp [Content.members, Content.fieldValues, Media.members, Media.fieldValues,
    Record.written]

theorem Clip.toJson_brief (c : Clip) : c.toJson .brief = .object c.record.members := by
  simp [Clip.toJson, Clip.record, Record.members, Record.written, Content.members_brief]

def Track.record (t : Track) : Record :=
  ⟨[(["id"], t.id.map nullableText),
    (["clips"], t.clips.map fun cs => .array (cs.map (Clip.toJson .brief)))], t.extra⟩

theorem Track.toJson_brief (t : Track) : t.toJson .brief = .object t.record.members := by
  simp [Track.toJson, Track.record, Record.members, Record.written]

def Resolution.record (r : Resolution) : Record :=
  ⟨[(["width"], r.width.map .int), (["height"], r.height.map .int)], r.extra⟩

theorem Resolution.toJson_brief (canvas : Canvas) (r : Resolution) :
    r.toJson .brief canvas = .object r.record.members := by
  simp [Resolution.toJson, Resolution.record, Record.members, Record.written]

def Background.record (b : Background) : Record :=
  ⟨[(["color"], b.color.map nullableText), (["src"], b.source.map nullableText)], b.extra⟩

theorem Background.toJson_brief (b : Background) : b.toJson .brief = .object b.record.members := by
  simp [Background.toJson, Background.record, Record.members, Record.written]

def Soundtrack.record (s : Soundtrack) : Record :=
  ⟨[(["src"], some (.string s.source)), (["volume"], s.volume.map .float)], s.extra⟩

theorem Soundtrack.toJson_brief (s : Soundtrack) : s.toJson .brief = .object s.record.members := by
  simp [Soundtrack.toJson, Soundtrack.record, Record.members, Record.written]

def Timeline.record (t : Timeline) : Record :=
  ⟨[(["duration"], t.duration.map nullableFloat), (["fps"], t.frameRate.map .float),
    (["resolution"], t.resolution.map (Resolution.toJson .brief t.canvas)),
    (["background"], t.background.map (Background.toJson .brief)),
    (["tracks"], t.tracks.map fun ts => .array (ts.map (Track.toJson .brief))),
    (["soundtrack"], t.soundtrack.map (Json.ofOption (Soundtrack.toJson .brief)))], t.extra⟩

theorem Timeline.toJson_brief (t : Timeline) : t.toJson .brief = .object t.record.members := by
  simp [Timeline.toJson, Timeline.record, Record.members, Record.written]

/-! ## Nothing beside the fields is taken for a field -/

def Position.Tidy : Position → Prop
  | .point p => p.record.Tidy
  | .anchor _ => True

def Media.Tidy (m : Media) : Prop := ∀ k, m.chromaKey.join = some k → k.record.Tidy

def Content.Tidy : Content → Prop
  | .background .. => True
  | .text _ style => ∀ s, style = some s → s.record.Tidy
  | .image m => m.Tidy
  | .video m _ => m.Tidy
  | .shape drawn => ∀ s, drawn = some s → s.record.Tidy

structure Clip.Tidy (c : Clip) : Prop where
  record : c.record.Tidy
  position : ∀ p, c.position.join = some p → p.Tidy
  content : c.content.Tidy

structure Track.Tidy (t : Track) : Prop where
  record : t.record.Tidy
  clips : ∀ cs, t.clips = some cs → ∀ c ∈ cs, c.Tidy

structure Timeline.Tidy (t : Timeline) : Prop where
  record : t.record.Tidy
  resolution : ∀ r, t.resolution = some r → r.record.Tidy
  background : ∀ b, t.background = some b → b.record.Tidy
  tracks : ∀ ts, t.tracks = some ts → ∀ track ∈ ts, track.Tidy
  soundtrack : ∀ s, t.soundtrack.join = some s → s.record.Tidy

/-! ### Whatever is read is tidy -/

section

variable {α : Type} {read : Json → Parsed α} {names : Names} {ms : List (String × Json)}

theorem optional_isSome {o : Option α} (h : optional names read ms = .ok o) :
    (find names ms).isSome = o.isSome := by
  have h := optional_ok h
  cases hf : find names ms with
  | none => rw [hf] at h; rw [show o = none from h]; rfl
  | some found =>
    rw [hf] at h
    obtain ⟨a, -, rfl⟩ := h
    rfl

theorem required_isSome {a : α} (h : required names read ms = .ok a) :
    (find names ms).isSome = true := by
  obtain ⟨v, hv, -⟩ := required_ok h
  obtain ⟨_, found, -⟩ := Option.map_eq_some_iff.1 hv
  rw [found]
  rfl

theorem optional_read {o : Option α} {a : α} (h : optional names read ms = .ok o)
    (set : o = some a) : ∃ v, read v = .ok a := by
  have h := optional_ok h
  split at h
  · cases h.symm.trans set
  · obtain ⟨b, hb, rfl⟩ := h
    cases set
    exact ⟨_, hb⟩

theorem optional_nullable_read {o : Option (Option α)} {a : α}
    (h : optional names (nullable read) ms = .ok o) (set : o.join = some a) :
    ∃ v, read v = .ok a := by
  obtain ⟨v, hv⟩ := optional_read h (Option.join_eq_some_iff.1 set)
  obtain ⟨-, e⟩ | ⟨b, hb, e⟩ := nullable_ok hv
  · cases e
  · cases e
    exact ⟨v, hb⟩

end

theorem Point.tidy_of_read {ms : List (String × Json)} {p : Point}
    (h : Point.ofMembers ms = .ok p) : p.record.Tidy := by
  have f := Point.ofMembers_ok h
  unfold Point.record
  rw [f.extra]
  refine Record.tidy_rest (by decide : Distinct [["x"], ["y"]]) ?_
  simp [optional_isSome f.x, optional_isSome f.y]

theorem Position.tidy_of_read {v : Json} {p : Position} (h : Position.ofJson v = .ok p) :
    p.Tidy := by
  unfold Position.ofJson at h
  split at h
  · next found =>
    cases h
    obtain ⟨ms, -, read⟩ := object_ok (Parsed.under_ok found)
    exact Point.tidy_of_read read
  · split at h
    · cases h
      trivial
    · cases h

theorem TextStyle.tidy_of_read {ms : List (String × Json)} {s : TextStyle}
    (h : TextStyle.ofMembers ms = .ok s) : s.record.Tidy := by
  have f := TextStyle.ofMembers_ok h
  unfold TextStyle.record
  rw [f.extra]
  refine Record.tidy_rest (by decide : Distinct TextStyle.fields) ?_
  simp [optional_isSome f.fontSize, optional_isSome f.fontFamily, optional_isSome f.color]

theorem Shape.tidy_of_read {ms : List (String × Json)} {s : Shape}
    (h : Shape.ofMembers ms = .ok s) : s.record.Tidy := by
  have f := Shape.ofMembers_ok h
  unfold Shape.record
  rw [f.extra]
  refine Record.tidy_rest (by decide : Distinct Shape.fields) ?_
  simp [optional_isSome f.form, optional_isSome f.width, optional_isSome f.height,
    optional_isSome f.fillColor, optional_isSome f.strokeColor, optional_isSome f.strokeWidth]

theorem ChromaKey.tidy_of_read {ms : List (String × Json)} {k : ChromaKey}
    (h : ChromaKey.ofMembers ms = .ok k) : k.record.Tidy := by
  have f := ChromaKey.ofMembers_ok h
  unfold ChromaKey.record
  rw [f.extra]
  refine Record.tidy_rest (by decide : Distinct [["color"], ["threshold"], ["halo"]]) ?_
  simp [optional_isSome f.color, optional_isSome f.threshold, optional_isSome f.halo]

theorem Media.Fields.tidy {ms : List (String × Json)} {m : Media} (f : Media.Fields ms m) :
    (∀ e ∈ m.fieldValues, (find e.1 ms).isSome = e.2.isSome) ∧ m.Tidy := by
  constructor
  · simp [Media.fieldValues, required_isSome f.source, optional_isSome f.sourceWidth,
      optional_isSome f.sourceHeight, optional_isSome f.filter, optional_isSome f.chromaKey]
  · intro k there
    obtain ⟨_, read⟩ := optional_nullable_read f.chromaKey there
    obtain ⟨ms, -, read⟩ := object_ok read
    exact ChromaKey.tidy_of_read read

/-- The own fields of a type are those that are written, and what was read of them is tidy. -/
theorem Content.Fields.tidy {ms : List (String × Json)} {own : List Names} {c : Content}
    (h : Content.Fields ms own c) : own = c.fieldValues.map (·.1) ∧
      (∀ e ∈ c.fieldValues, (find e.1 ms).isSome = e.2.isSome) ∧ c.Tidy := by
  cases h with
  | background color source =>
    refine ⟨rfl, ?_, trivial⟩
    simp [Content.fieldValues, optional_isSome color, optional_isSome source]
  | text text style =>
    refine ⟨rfl, ?_, fun s set => ?_⟩
    · simp [Content.fieldValues, required_isSome text, optional_isSome style]
    · obtain ⟨_, read⟩ := optional_read style set
      obtain ⟨ms, -, read⟩ := object_ok read
      exact TextStyle.tidy_of_read read
  | image media => exact ⟨rfl, media.tidy⟩
  | video media volume =>
    obtain ⟨set, tidy⟩ := media.tidy
    refine ⟨rfl, ?_, tidy⟩
    simpa [Content.fieldValues, or_imp, forall_and, optional_isSome volume] using set
  | shape shape =>
    refine ⟨rfl, ?_, fun s set => ?_⟩
    · simp [Content.fieldValues, optional_isSome shape]
    · obtain ⟨_, read⟩ := optional_read shape set
      obtain ⟨ms, -, read⟩ := object_ok read
      exact Shape.tidy_of_read read

theorem Clip.distinct_fields (c : Content) :
    Distinct (Clip.fields ++ c.fieldValues.map (·.1)) := by
  cases c with
  | background => exact (by decide : Distinct (Clip.fields ++ [["color"], ["src"]]))
  | text => exact (by decide : Distinct (Clip.fields ++ [["text"], ["style"]]))
  | image => exact (by decide : Distinct (Clip.fields ++ Media.fields))
  | video => exact (by decide : Distinct (Clip.fields ++ (Media.fields ++ [["volume"]])))
  | shape => exact (by decide : Distinct (Clip.fields ++ [["shape"]]))

theorem Clip.tidy_of_read {v : Json} {c : Clip} (h : Clip.ofJson v = .ok c) : c.Tidy := by
  obtain ⟨ms, kind, own, content, rfl, tag, reader, f⟩ := Clip.ofJson_ok h
  obtain ⟨rfl, set, tidy⟩ := (Content.reader_fields reader f.content).2.tidy
  have type : (find ["type"] ms).isSome = true := by simp [find, tag]
  refine ⟨?_, fun p there => ?_, tidy⟩
  · unfold Clip.record
    rw [f.extra]
    refine Record.tidy_rest (Clip.distinct_fields _) ?_
    simpa [or_imp, forall_and, optional_isSome f.id, optional_isSome f.start,
      required_isSome f.duration, optional_isSome f.position, optional_isSome f.opacity,
      optional_isSome f.scale, type] using set
  · obtain ⟨_, read⟩ := optional_nullable_read f.position there
    exact Position.tidy_of_read read

theorem Track.tidy_of_read {ms : List (String × Json)} {t : Track}
    (h : Track.ofMembers ms = .ok t) : t.Tidy := by
  have f := Track.ofMembers_ok h
  constructor
  · unfold Track.record
    rw [f.extra]
    refine Record.tidy_rest (by decide : Distinct [["id"], ["clips"]]) ?_
    simp [optional_isSome f.id, optional_isSome f.clips]
  · intro cs set c hc
    obtain ⟨_, read⟩ := optional_read f.clips set
    obtain ⟨vs, -, each⟩ := list_ok read
    obtain ⟨v, -, -, read⟩ := forall₂_right each hc
    exact Clip.tidy_of_read read

theorem Timeline.Fields.tidy {ms : List (String × Json)} {t : Timeline}
    (f : Timeline.Fields ms t) : t.Tidy := by
  constructor
  · unfold Timeline.record
    rw [f.extra]
    refine Record.tidy_rest (by decide : Distinct Timeline.fields) ?_
    simp [optional_isSome f.duration, optional_isSome f.frameRate, optional_isSome f.resolution,
      optional_isSome f.background, optional_isSome f.tracks, optional_isSome f.soundtrack]
  · intro r set
    obtain ⟨_, read⟩ := optional_read f.resolution set
    obtain ⟨ms, -, read⟩ := object_ok read
    have f := Resolution.ofMembers_ok read
    unfold Resolution.record
    rw [f.extra]
    refine Record.tidy_rest (by decide : Distinct [["width"], ["height"]]) ?_
    simp [optional_isSome f.width, optional_isSome f.height]
  · intro b set
    obtain ⟨_, read⟩ := optional_read f.background set
    obtain ⟨ms, -, read⟩ := object_ok read
    have f := Background.ofMembers_ok read
    unfold Background.record
    rw [f.extra]
    refine Record.tidy_rest (by decide : Distinct [["color"], ["src"]]) ?_
    simp [optional_isSome f.color, optional_isSome f.source]
  · intro ts set track htrack
    obtain ⟨_, read⟩ := optional_read f.tracks set
    obtain ⟨vs, -, each⟩ := list_ok read
    obtain ⟨v, -, -, read⟩ := forall₂_right each htrack
    obtain ⟨ms, -, read⟩ := object_ok read
    exact Track.tidy_of_read read
  · intro s set
    obtain ⟨_, read⟩ := optional_nullable_read f.soundtrack set
    obtain ⟨ms, -, read⟩ := object_ok read
    have f := Soundtrack.ofMembers_ok read
    unfold Soundtrack.record
    rw [f.extra]
    refine Record.tidy_rest (by decide : Distinct [["src"], ["volume"]]) ?_
    simp [required_isSome f.source, optional_isSome f.volume]

end Montage
