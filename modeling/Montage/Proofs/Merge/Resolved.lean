import Montage.Proofs.Merge.Scanner
import Montage.Proofs.Timeline.Ranges
import Montage.Proofs.Timeline.Rereading

/-!
# Merging touches texts only

A timeline with a function applied to each of its texts is `Timeline.mapTexts`: its tracks, clips,
fields and other members stay in their places, and so do numbers, truth values, types, anchors and
filters. Replacing placeholders goes another way: the timeline is written, every text in the
document is replaced, and the document is read again. `resolve_accepted` says that this comes to the
same for every accepted timeline, since writing and reading lose nothing and the words for types,
anchors and filters hold no placeholder.
-/
namespace Montage

/-! ## Texts of a timeline -/

section

variable (f : String → String)

def Point.mapTexts (p : Point) : Point := { p with extra := Merge.mapMembers f p.extra }

def Position.mapTexts : Position → Position
  | point p => point (p.mapTexts f)
  | anchor a => anchor a

def TextStyle.mapTexts (s : TextStyle) : TextStyle :=
  { s with
    fontFamily := s.fontFamily.map f
    color := s.color.map f
    extra := Merge.mapMembers f s.extra }

def Shape.mapTexts (s : Shape) : Shape :=
  { s with
    form := s.form.map f
    fillColor := s.fillColor.map (Option.map f)
    strokeColor := s.strokeColor.map (Option.map f)
    extra := Merge.mapMembers f s.extra }

def ChromaKey.mapTexts (k : ChromaKey) : ChromaKey :=
  { k with color := k.color.map f, extra := Merge.mapMembers f k.extra }

def Media.mapTexts (m : Media) : Media :=
  { m with
    source := f m.source
    chromaKey := m.chromaKey.map (Option.map (ChromaKey.mapTexts f)) }

def Content.mapTexts : Content → Content
  | background color source => background (color.map (Option.map f)) (source.map (Option.map f))
  | text words style => text (f words) (style.map (TextStyle.mapTexts f))
  | image m => image (m.mapTexts f)
  | video m volume => video (m.mapTexts f) volume
  | shape drawn => shape (drawn.map (Shape.mapTexts f))

def Clip.mapTexts (c : Clip) : Clip :=
  { c with
    id := c.id.map (Option.map f)
    position := c.position.map (Option.map (Position.mapTexts f))
    content := c.content.mapTexts f
    extra := Merge.mapMembers f c.extra }

def Track.mapTexts (t : Track) : Track where
  id := t.id.map (Option.map f)
  clips := t.clips.map (List.map (Clip.mapTexts f))
  extra := Merge.mapMembers f t.extra

def Resolution.mapTexts (r : Resolution) : Resolution :=
  { r with extra := Merge.mapMembers f r.extra }

def Background.mapTexts (b : Background) : Background where
  color := b.color.map (Option.map f)
  source := b.source.map (Option.map f)
  extra := Merge.mapMembers f b.extra

def Soundtrack.mapTexts (s : Soundtrack) : Soundtrack :=
  { s with source := f s.source, extra := Merge.mapMembers f s.extra }

/-- A timeline with `f` applied to each text in it: ids, texts, sources, colours, font families,
and the texts anywhere in members that belong to no field. -/
def Timeline.mapTexts (t : Timeline) : Timeline :=
  { t with
    resolution := t.resolution.map (Resolution.mapTexts f)
    background := t.background.map (Background.mapTexts f)
    tracks := t.tracks.map (List.map (Track.mapTexts f))
    soundtrack := t.soundtrack.map (Option.map (Soundtrack.mapTexts f))
    extra := Merge.mapMembers f t.extra }

end

/-! ## Texts of a document -/

namespace Merge

theorem mapMembers_eq (f : String → String) (ms : List (String × Json)) :
    mapMembers f ms = ms.map fun m => (m.1, mapTexts f m.2) := by
  induction ms with
  | nil => rfl
  | cons m ms ih => rw [mapMembers, ih, List.map_cons]

theorem mapItems_eq (f : String → String) (vs : List Json) :
    mapItems f vs = vs.map (mapTexts f) := by
  induction vs with
  | nil => rfl
  | cons v vs ih => rw [mapItems, ih, List.map_cons]

theorem lookup_mapMembers (f : String → String) (n : String) (ms : List (String × Json)) :
    Json.lookup n (mapMembers f ms) = (Json.lookup n ms).map (mapTexts f) := by
  rw [mapMembers_eq, Json.lookup, List.find?_map, Option.map_map, Json.lookup, Option.map_map]
  rfl

theorem mapTexts_ofOption {α : Type} {f : String → String} {write write' : α → Json} {g : α → α}
    (h : ∀ a, mapTexts f (write a) = write' (g a)) (o : Option α) :
    mapTexts f (Json.ofOption write o) = Json.ofOption write' (o.map g) := by
  cases o with
  | none => rfl
  | some a => exact h a

end Merge

/-- The same fields with other texts. -/
def Record.mapTexts (f : String → String) (r : Record) : Record :=
  ⟨r.fields.map fun e => (e.1, e.2.map (Merge.mapTexts f)), Merge.mapMembers f r.extra⟩

namespace Record

theorem members_mapTexts (f : String → String) (r : Record) :
    (r.mapTexts f).members = Merge.mapMembers f r.members := by
  unfold members mapTexts written
  rw [Merge.mapMembers_eq, Merge.mapMembers_eq, List.map_append, List.map_flatMap,
    List.flatMap_map]
  congr 2
  funext ⟨names, o⟩
  cases o <;> rfl

theorem Tidy.mapTexts {r : Record} (h : r.Tidy) (f : String → String) : (r.mapTexts f).Tidy := by
  have same : (r.mapTexts f).fields.map (·.1) = r.fields.map (·.1) := by
    simp [Record.mapTexts]
  have gone {n : String} (h : Json.lookup n r.extra = none) :
      Json.lookup n (r.mapTexts f).extra = none := by
    rw [Record.mapTexts, Merge.lookup_mapMembers, h]
    rfl
  refine ⟨same ▸ h.distinct, fun e he => ?_, fun e he left n hn => ?_⟩
  · obtain ⟨own, hown, rfl⟩ := List.mem_map.1 he
    exact gone (h.unshadowed own hown)
  · obtain ⟨own, hown, rfl⟩ := List.mem_map.1 he
    exact gone (h.absent own hown (Option.map_eq_none_iff.1 left) n hn)

end Record

/-- The words for anchors, filters and types of clips stay as they are. -/
structure KeepsWords (f : String → String) : Prop where
  anchor : ∀ a : Anchor, f a.word = a.word
  effect : ∀ e : Effect, f e.word = e.word
  kind : ∀ c : Content, f c.kind = c.kind

/-! ## Writing with other texts -/

section

variable {f : String → String}

theorem mapTexts_nullableText (o : Option String) :
    Merge.mapTexts f (nullableText o) = nullableText (o.map f) := by
  cases o <;> rfl

theorem mapTexts_nullableFloat (o : Option Float) :
    Merge.mapTexts f (nullableFloat o) = nullableFloat o := by
  cases o <;> rfl

theorem mapTexts_float (x : Float) : Merge.mapTexts f (.float x) = .float x := rfl

theorem mapTexts_int (n : Int) : Merge.mapTexts f (.int n) = .int n := rfl

theorem mapTexts_string (s : String) : Merge.mapTexts f (.string s) = .string (f s) := rfl

/-- A record is written with other texts if its object is. -/
theorem mapTexts_object {r r' : Record} (h : r' = r.mapTexts f) :
    Merge.mapTexts f (.object r.members) = .object r'.members := by
  rw [h, Record.members_mapTexts, Merge.mapTexts]

theorem Point.record_mapTexts (p : Point) : (p.mapTexts f).record = p.record.mapTexts f := by
  simp [Point.record, Point.mapTexts, Record.mapTexts, Function.comp_def, mapTexts_float]

theorem TextStyle.record_mapTexts (s : TextStyle) :
    (s.mapTexts f).record = s.record.mapTexts f := by
  simp [TextStyle.record, TextStyle.mapTexts, Record.mapTexts, Function.comp_def, mapTexts_float,
    mapTexts_string]

theorem Shape.record_mapTexts (s : Shape) : (s.mapTexts f).record = s.record.mapTexts f := by
  simp [Shape.record, Shape.mapTexts, Record.mapTexts, Function.comp_def, mapTexts_float,
    mapTexts_string, mapTexts_nullableText]

theorem ChromaKey.record_mapTexts (k : ChromaKey) :
    (k.mapTexts f).record = k.record.mapTexts f := by
  simp [ChromaKey.record, ChromaKey.mapTexts, Record.mapTexts, Function.comp_def, mapTexts_float,
    mapTexts_string]

theorem Point.mapTexts_toJson (p : Point) :
    Merge.mapTexts f (p.toJson .brief) = (p.mapTexts f).toJson .brief := by
  rw [Point.toJson_brief, Point.toJson_brief]
  exact mapTexts_object (Point.record_mapTexts p)

theorem Position.mapTexts_toJson (words : KeepsWords f) (p : Position) :
    Merge.mapTexts f (p.toJson .brief) = (p.mapTexts f).toJson .brief := by
  cases p with
  | point p => exact Point.mapTexts_toJson p
  | anchor a => exact congrArg Json.string (words.anchor a)

theorem TextStyle.mapTexts_toJson (s : TextStyle) :
    Merge.mapTexts f (s.toJson .brief) = (s.mapTexts f).toJson .brief := by
  rw [TextStyle.toJson_brief, TextStyle.toJson_brief]
  exact mapTexts_object (TextStyle.record_mapTexts s)

theorem Shape.mapTexts_toJson (s : Shape) :
    Merge.mapTexts f (s.toJson .brief) = (s.mapTexts f).toJson .brief := by
  rw [Shape.toJson_brief, Shape.toJson_brief]
  exact mapTexts_object (Shape.record_mapTexts s)

theorem ChromaKey.mapTexts_toJson (k : ChromaKey) :
    Merge.mapTexts f (k.toJson .brief) = (k.mapTexts f).toJson .brief := by
  rw [ChromaKey.toJson_brief, ChromaKey.toJson_brief]
  exact mapTexts_object (ChromaKey.record_mapTexts k)

theorem mapTexts_ofEffect (words : KeepsWords f) (o : Option Effect) :
    Merge.mapTexts f (Json.ofOption (fun e => .string e.word) o) =
      Json.ofOption (fun e => .string e.word) o := by
  cases o with
  | none => rfl
  | some e => exact congrArg Json.string (words.effect e)

theorem Media.fieldValues_mapTexts (words : KeepsWords f) (m : Media) :
    (m.mapTexts f).fieldValues =
      m.fieldValues.map fun e => (e.1, e.2.map (Merge.mapTexts f)) := by
  simp [Media.fieldValues, Media.mapTexts, Function.comp_def, mapTexts_string,
    mapTexts_nullableFloat, mapTexts_ofEffect words,
    Merge.mapTexts_ofOption ChromaKey.mapTexts_toJson]

theorem Content.fieldValues_mapTexts (words : KeepsWords f) (c : Content) :
    (c.mapTexts f).fieldValues =
      c.fieldValues.map fun e => (e.1, e.2.map (Merge.mapTexts f)) := by
  cases c <;> simp [Content.fieldValues, Content.mapTexts, Function.comp_def, mapTexts_string,
    mapTexts_nullableText, mapTexts_float, Media.fieldValues_mapTexts words,
    TextStyle.mapTexts_toJson, Shape.mapTexts_toJson]

theorem Content.kind_mapTexts (c : Content) : (c.mapTexts f).kind = c.kind := by
  cases c <;> rfl

theorem Clip.record_mapTexts (words : KeepsWords f) (c : Clip) :
    (c.mapTexts f).record = c.record.mapTexts f := by
  simp [Clip.record, Clip.mapTexts, Record.mapTexts, Function.comp_def, mapTexts_string,
    mapTexts_nullableText, mapTexts_float, Content.fieldValues_mapTexts words,
    Content.kind_mapTexts, words.kind, Merge.mapTexts_ofOption (Position.mapTexts_toJson words)]

theorem Clip.mapTexts_toJson (words : KeepsWords f) (c : Clip) :
    Merge.mapTexts f (c.toJson .brief) = (c.mapTexts f).toJson .brief := by
  rw [Clip.toJson_brief, Clip.toJson_brief]
  exact mapTexts_object (Clip.record_mapTexts words c)

theorem mapTexts_array {α : Type} {write : α → Json} {g : α → α}
    (h : ∀ a, Merge.mapTexts f (write a) = write (g a)) (as : List α) :
    Merge.mapTexts f (.array (as.map write)) = .array ((as.map g).map write) := by
  simp [Merge.mapTexts, Merge.mapItems_eq, h]

theorem Track.record_mapTexts (words : KeepsWords f) (t : Track) :
    (t.mapTexts f).record = t.record.mapTexts f := by
  simp only [Track.record, Track.mapTexts, Record.mapTexts, List.map_cons, List.map_nil,
    Option.map_map, Function.comp_def, mapTexts_nullableText,
    mapTexts_array (Clip.mapTexts_toJson words)]

theorem Track.mapTexts_toJson (words : KeepsWords f) (t : Track) :
    Merge.mapTexts f (t.toJson .brief) = (t.mapTexts f).toJson .brief := by
  rw [Track.toJson_brief, Track.toJson_brief]
  exact mapTexts_object (Track.record_mapTexts words t)

theorem Resolution.record_mapTexts (r : Resolution) :
    (r.mapTexts f).record = r.record.mapTexts f := by
  simp [Resolution.record, Resolution.mapTexts, Record.mapTexts, Function.comp_def, mapTexts_int]

theorem Resolution.mapTexts_toJson (canvas : Canvas) (r : Resolution) :
    Merge.mapTexts f (r.toJson .brief canvas) = (r.mapTexts f).toJson .brief canvas := by
  rw [Resolution.toJson_brief, Resolution.toJson_brief]
  exact mapTexts_object (Resolution.record_mapTexts r)

theorem Background.record_mapTexts (b : Background) :
    (b.mapTexts f).record = b.record.mapTexts f := by
  simp [Background.record, Background.mapTexts, Record.mapTexts, Function.comp_def,
    mapTexts_nullableText]

theorem Background.mapTexts_toJson (b : Background) :
    Merge.mapTexts f (b.toJson .brief) = (b.mapTexts f).toJson .brief := by
  rw [Background.toJson_brief, Background.toJson_brief]
  exact mapTexts_object (Background.record_mapTexts b)

theorem Soundtrack.record_mapTexts (s : Soundtrack) :
    (s.mapTexts f).record = s.record.mapTexts f := by
  simp [Soundtrack.record, Soundtrack.mapTexts, Record.mapTexts, Function.comp_def, mapTexts_float,
    mapTexts_string]

theorem Soundtrack.mapTexts_toJson (s : Soundtrack) :
    Merge.mapTexts f (s.toJson .brief) = (s.mapTexts f).toJson .brief := by
  rw [Soundtrack.toJson_brief, Soundtrack.toJson_brief]
  exact mapTexts_object (Soundtrack.record_mapTexts s)

theorem Timeline.record_mapTexts (words : KeepsWords f) (t : Timeline) :
    (t.mapTexts f).record = t.record.mapTexts f := by
  simp only [Timeline.record, Timeline.mapTexts, Record.mapTexts, List.map_cons, List.map_nil,
    Option.map_map, Function.comp_def, mapTexts_nullableFloat, mapTexts_float,
    Resolution.mapTexts_toJson, Background.mapTexts_toJson,
    mapTexts_array (Track.mapTexts_toJson words),
    Merge.mapTexts_ofOption Soundtrack.mapTexts_toJson]

/-- Other texts may be put in before a timeline is written or afterwards. -/
theorem Timeline.mapTexts_toJson (words : KeepsWords f) (t : Timeline) :
    Merge.mapTexts f (t.toJson .brief) = (t.mapTexts f).toJson .brief := by
  rw [Timeline.toJson_brief, Timeline.toJson_brief]
  exact mapTexts_object (Timeline.record_mapTexts words t)

/-! ## A timeline stays tidy -/

theorem Position.Tidy.mapTexts {p : Position} (h : p.Tidy) : (p.mapTexts f).Tidy := by
  cases p with
  | point p =>
    rw [Position.mapTexts, Position.Tidy, Point.record_mapTexts]
    exact Record.Tidy.mapTexts h f
  | anchor => trivial

/-- What is set once texts are mapped was set before. -/
theorem of_join_map {α : Type} {g : α → α} {o : Option (Option α)} {b : α}
    (h : (o.map (Option.map g)).join = some b) : ∃ a, o.join = some a ∧ g a = b := by
  rw [Option.join_map_eq_map_join] at h
  exact Option.map_eq_some_iff.1 h

theorem Media.Tidy.mapTexts {m : Media} (h : m.Tidy) : (m.mapTexts f).Tidy := by
  intro k there
  obtain ⟨k, set, rfl⟩ := of_join_map there
  rw [ChromaKey.record_mapTexts]
  exact (h k set).mapTexts f

theorem Content.Tidy.mapTexts {c : Content} (h : c.Tidy) : (c.mapTexts f).Tidy := by
  cases c with
  | background => trivial
  | text words style =>
    intro s there
    obtain ⟨s, set, rfl⟩ := Option.map_eq_some_iff.1 there
    rw [TextStyle.record_mapTexts]
    exact (h s set).mapTexts f
  | image m => exact Media.Tidy.mapTexts h
  | video m => exact Media.Tidy.mapTexts h
  | shape drawn =>
    intro s there
    obtain ⟨s, set, rfl⟩ := Option.map_eq_some_iff.1 there
    rw [Shape.record_mapTexts]
    exact (h s set).mapTexts f

theorem Clip.Tidy.mapTexts (words : KeepsWords f) {c : Clip} (h : c.Tidy) :
    (c.mapTexts f).Tidy where
  record := by
    rw [Clip.record_mapTexts words]
    exact h.record.mapTexts f
  position p there := by
    obtain ⟨p, set, rfl⟩ := of_join_map there
    exact (h.position p set).mapTexts
  content := h.content.mapTexts

theorem Track.Tidy.mapTexts (words : KeepsWords f) {t : Track} (h : t.Tidy) :
    (t.mapTexts f).Tidy where
  record := by
    rw [Track.record_mapTexts words]
    exact h.record.mapTexts f
  clips cs there c hc := by
    obtain ⟨cs, set, rfl⟩ := Option.map_eq_some_iff.1 there
    obtain ⟨c, mem, rfl⟩ := List.mem_map.1 hc
    exact (h.clips cs set c mem).mapTexts words

theorem Timeline.Tidy.mapTexts (words : KeepsWords f) {t : Timeline} (h : t.Tidy) :
    (t.mapTexts f).Tidy where
  record := by
    rw [Timeline.record_mapTexts words]
    exact h.record.mapTexts f
  resolution r there := by
    obtain ⟨r, set, rfl⟩ := Option.map_eq_some_iff.1 there
    rw [Resolution.record_mapTexts]
    exact (h.resolution r set).mapTexts f
  background b there := by
    obtain ⟨b, set, rfl⟩ := Option.map_eq_some_iff.1 there
    rw [Background.record_mapTexts]
    exact (h.background b set).mapTexts f
  tracks ts there track htrack := by
    obtain ⟨ts, set, rfl⟩ := Option.map_eq_some_iff.1 there
    obtain ⟨track, mem, rfl⟩ := List.mem_map.1 htrack
    exact (h.tracks ts set track mem).mapTexts words
  soundtrack s there := by
    obtain ⟨s, set, rfl⟩ := of_join_map there
    rw [Soundtrack.record_mapTexts]
    exact (h.soundtrack s set).mapTexts f

theorem Timeline.InForce.mapTexts {t : Timeline} {canvas : Except (List Mismatch) Canvas}
    (h : t.InForce canvas) : (t.mapTexts f).InForce canvas := by
  cases h with
  | settings => exact .settings
  | own none frameRate size =>
    obtain ⟨r, hr, width, height⟩ := size
    exact .own none frameRate ⟨r.mapTexts f, by rw [Timeline.mapTexts, hr]; rfl, width, height⟩

end

/-! ## Placeholders -/

namespace Merge

/-- A text in which no placeholder occurs stays as it is. -/
theorem substitute_eq_self {ds : Delimiters} {fields : Fields} {s : String}
    (h : ∀ p ∈ placeholders ds fields, ¬p.toList <:+: s.toList) : substitute ds fields s = s := by
  unfold substitute substituteBy
  have copied (cs : List Char) (hcs : cs <:+: s.toList) : scan (table ds fields) cs = cs := by
    induction cs with
    | nil => rw [scan]
    | cons c rest ih =>
      have none : (table ds fields).find? (fun entry => entry.1.isPrefixOf (c :: rest)) = none := by
        refine List.find?_eq_none.2 fun entry hentry found => ?_
        obtain ⟨p, hp, rfl⟩ := List.mem_map.1 hentry
        exact h p hp ((List.isPrefixOf_iff_prefix.1 found).isInfix.trans hcs)
      rw [scan, none]
      exact congrArg (c :: ·) (ih ((List.suffix_cons c rest).isInfix.trans hcs))
  rw [copied s.toList List.infix_rfl, String.ofList_toList]

/-- A placeholder begins with a character that is in no word. -/
theorem substitute_standard_word {fields : Fields} {s : String}
    (h : s.toList.all fun c => !isDelimiting .standard c) : substitute .standard fields s = s := by
  refine substitute_eq_self fun p hp found => ?_
  obtain ⟨pair, hpair, hp⟩ := List.mem_flatMap.1 hp
  obtain ⟨name, -, rfl⟩ := List.mem_map.1 hp
  have opening : pair.1.toList ≠ [] :=
    (by decide : ∀ pair ∈ Delimiters.standard.pairs, pair.1.toList ≠ []) pair hpair
  obtain ⟨c, rest, hc⟩ := List.exists_cons_of_ne_nil opening
  have first : c ∈ (placeholder pair name).toList := by
    rw [toList_placeholder, hc]
    simp
  have plain := List.all_eq_true.1 h c (found.subset first)
  rw [Bool.not_eq_true', isDelimiting, List.any_eq_false] at plain
  exact plain pair hpair (by simp [hc])

theorem keepsWords_standard (fields : Fields) : KeepsWords (substitute .standard fields) where
  anchor a := substitute_standard_word (by cases a <;> decide)
  effect e := substitute_standard_word (by cases e <;> decide)
  kind c := by
    have known : c.kind ∈ Content.kinds := by cases c <;> simp [Content.kind, Content.kinds]
    exact substitute_standard_word ((by decide : ∀ k ∈ Content.kinds,
      k.toList.all fun c => !isDelimiting .standard c) c.kind known)

mutual

/-- All texts of a document that are not names, in order. -/
def texts : Json → List String
  | .string s => [s]
  | .array items => itemTexts items
  | .object members => memberTexts members
  | _ => []

def itemTexts : List Json → List String
  | [] => []
  | v :: vs => texts v ++ itemTexts vs

def memberTexts : List (String × Json) → List String
  | [] => []
  | (_, v) :: ms => texts v ++ memberTexts ms

end

mutual

/-- A document whose texts stay as they are stays as it is. -/
theorem mapTexts_eq_self {f : String → String} : ∀ v : Json, (∀ s ∈ texts v, f s = s) →
    mapTexts f v = v
  | .string s, h => by rw [mapTexts, h s (by simp [texts])]
  | .array items, h => by rw [mapTexts, mapItems_eq_self items h]
  | .object members, h => by rw [mapTexts, mapMembers_eq_self members h]
  | .null, _ => rfl
  | .bool _, _ => rfl
  | .number _, _ => rfl

theorem mapItems_eq_self {f : String → String} : ∀ vs : List Json, (∀ s ∈ itemTexts vs, f s = s) →
    mapItems f vs = vs
  | [], _ => rfl
  | v :: vs, h => by
    rw [itemTexts, List.forall_mem_append] at h
    rw [mapItems, mapTexts_eq_self v h.1, mapItems_eq_self vs h.2]

theorem mapMembers_eq_self {f : String → String} : ∀ ms : List (String × Json),
    (∀ s ∈ memberTexts ms, f s = s) → mapMembers f ms = ms
  | [], _ => rfl
  | (n, v) :: ms, h => by
    rw [memberTexts, List.forall_mem_append] at h
    rw [mapMembers, mapTexts_eq_self v h.1, mapMembers_eq_self ms h.2]

end

/-- A document without placeholders stays as it is. -/
theorem resolveData_eq_self {ds : Delimiters} {fields : Fields} {v : Json}
    (clean : ∀ s ∈ texts v, ∀ p ∈ placeholders ds fields, ¬p.toList <:+: s.toList) :
    resolveData ds fields v = v :=
  mapTexts_eq_self v fun s hs => substitute_eq_self (clean s hs)

section

variable {canvas : Except (List Mismatch) Canvas} {t : Timeline}

theorem resolveData_toJson (fields : Fields) (t : Timeline) :
    resolveData .standard fields (t.toJson .brief) =
      (t.mapTexts (substitute .standard fields)).toJson .brief :=
  t.mapTexts_toJson (keepsWords_standard fields)

theorem ofJson_resolveData (tidy : t.Tidy) (inForce : t.InForce canvas) (fields : Fields) :
    Timeline.ofJson canvas (resolveData .standard fields (t.toJson .brief)) =
      .ok (t.mapTexts (substitute .standard fields)) := by
  rw [resolveData_toJson]
  exact Timeline.ofJson_toJson (tidy.mapTexts (keepsWords_standard fields)) inForce.mapTexts

theorem resolve_eq (tidy : t.Tidy) (inForce : t.InForce canvas) (fields : Fields) :
    resolve .standard fields canvas t = .ok (t.mapTexts (substitute .standard fields)) := by
  have merged := ofJson_resolveData tidy inForce fields
  cases fields with
  | nil =>
    -- without fields nothing is written, but there are no placeholders either
    have none : placeholders .standard [] = [] := by simp [placeholders, names]
    rw [← merged, resolveData_eq_self (by simp [none]), Timeline.ofJson_toJson tidy inForce]
    rfl
  | cons => exact merged

end

/-- A title with a note, which is a member beside its fields. -/
def greeting (text note : String) : Json :=
  .object [("tracks", .array [.object [("clips", .array [.object [("type", .string "text"),
    ("text", .string text), ("duration", .int 5), ("note", .array [.string note])]])]])]

/-- The timeline that is read from `greeting`. -/
def greetingTimeline (text note : String) : Timeline where
  duration := none
  frameRate := none
  resolution := none
  background := none
  tracks := some [{
    id := none
    clips := some [{
      id := none
      start := none
      duration := 5
      position := none
      opacity := none
      scale := none
      content := .text text none
      extra := [("note", .array [.string note])] }]
    extra := [] }]
  soundtrack := none
  extra := []
  canvas := fullCanvas

theorem mapTexts_greeting (f : String → String) (text note : String) :
    (greetingTimeline text note).mapTexts f = greetingTimeline (f text) (f note) := rfl

theorem substitute_greeting :
    substitute .standard [("name", .string "Ada")] "Hello \x7bname\x7d" = "Hello Ada" ∧
      substitute .standard [("name", .string "Ada")] "%name%" = "Ada" := by
  decide +kernel

end Merge

end Montage
