import Montage.Proofs.Timeline.Places
import Montage.Proofs.Timeline.Spelling

/-!
# Respelled timelines

The names of fields are resolved twice: by the check, which looks them up in the document, and by
the readers. `accept_respelled` says that it does not matter to either which name a field has, as long
as it has one only: the report of the check is the same, and so is the timeline, if there is one.

Which names belong to a clip's fields depends on its type, and what is named like a field elsewhere is
no field: it is kept with the clip (`Clip.Respelled`).
-/
namespace Montage

open Parsed Schema

def TextStyle.Respelled : Json → Json → Prop := RespelledObject TextStyle.fields []

def Shape.Respelled : Json → Json → Prop := RespelledObject Shape.fields []

/-- The fields of a type's own content that have fields of several names in them. -/
def Content.inner : String → List (String × (Json → Json → Prop))
  | "text" => [("style", TextStyle.Respelled)]
  | "shape" => [("shape", Shape.Respelled)]
  | _ => []

/-- Clips with respelled fields. Where the type is unknown no name is known to be a field's, and the
clips may differ in all that clips do not have in common. -/
inductive Clip.Respelled : Json → Json → Prop
  | same (v : Json) : Respelled v v
  | known {ms ms' : List (String × Json)} {kind : String} {own : List Names}
      {read : List (String × Json) → Parsed Content}
      (tag : Json.lookup "type" ms = some (.string kind))
      (reader : Content.reader? kind = some (own, read))
      (h : Schema.Respelled (Clip.fields ++ own) (Content.inner kind) ms ms') :
      Respelled (.object ms) (.object ms')
  | unknown {ms ms' : List (String × Json)}
      (tag : ∀ kind, Json.lookup "type" ms = some (.string kind) → Content.reader? kind = none)
      (common : ∀ n, [n] ∈ Clip.fields → Json.lookup n ms' = Json.lookup n ms) :
      Respelled (.object ms) (.object ms')

def Track.Respelled : Json → Json → Prop :=
  RespelledObject [["id"], ["clips"]] [("clips", RespelledList Clip.Respelled)]

def Timeline.Respelled : Json → Json → Prop :=
  RespelledObject Timeline.fields [("tracks", RespelledList Track.Respelled)]

/-! ## Readers -/

variable {ms ms' : List (String × Json)} {v v' : Json} {kind : String} {own : List Names}
  {read : List (String × Json) → Parsed Content}

theorem TextStyle.coincide (h : TextStyle.Respelled v v') :
    Coincide (object "TextStyle" TextStyle.ofMembers v)
      (object "TextStyle" TextStyle.ofMembers v') := by
  cases h with
  | same => exact .refl _
  | @members ms ms' h =>
    show Coincide (TextStyle.ofMembers ms) (TextStyle.ofMembers ms')
    have distinct : TextStyle.fields.flatten.Nodup := by decide
    unfold TextStyle.ofMembers
    rw [h.rest distinct nofun]
    exact (((h.optional distinct (by decide) nofun).map _).seq
      (h.optional distinct (by decide) nofun)).seq (h.optional distinct (by decide) nofun)

theorem Shape.coincide (h : Shape.Respelled v v') :
    Coincide (object "ShapeSpec" Shape.ofMembers v) (object "ShapeSpec" Shape.ofMembers v') := by
  cases h with
  | same => exact .refl _
  | @members ms ms' h =>
    show Coincide (Shape.ofMembers ms) (Shape.ofMembers ms')
    have distinct : Shape.fields.flatten.Nodup := by decide
    unfold Shape.ofMembers
    rw [h.rest distinct nofun]
    exact ((((((h.optional distinct (by decide) nofun).map _).seq
      (h.optional distinct (by decide) nofun)).seq (h.optional distinct (by decide) nofun)).seq
      (h.optional distinct (by decide) nofun)).seq (h.optional distinct (by decide) nofun)).seq
      (h.optional distinct (by decide) nofun)

/-- The fields of a type's clips, each with its names. -/
structure Content.Named (kind : String) (own : List Names) : Prop where
  distinct : (Clip.fields ++ own).flatten.Nodup
  fit : ∀ e ∈ Content.inner kind, e.1 ∈ (Clip.fields ++ own).flatten
  plain : ∀ names ∈ Clip.fields, ∀ e ∈ Content.inner kind, e.1 ∉ names

theorem Content.named (reader : Content.reader? kind = some (own, read)) :
    Content.Named kind own := by
  unfold Content.reader? at reader
  split at reader <;> cases reader
  · exact ⟨by decide, nofun, fun _ _ => nofun⟩
  · have foreign : ∀ names ∈ Clip.fields, "style" ∉ names := by decide
    exact ⟨by decide, List.forall_mem_singleton.2 (by decide),
      fun names there => List.forall_mem_singleton.2 (foreign names there)⟩
  · exact ⟨by decide, nofun, fun _ _ => nofun⟩
  · exact ⟨by decide, nofun, fun _ _ => nofun⟩
  · have foreign : ∀ names ∈ Clip.fields, "shape" ∉ names := by decide
    exact ⟨by decide, List.forall_mem_singleton.2 (by decide),
      fun names there => List.forall_mem_singleton.2 (foreign names there)⟩

theorem Media.coincide (distinct : (Clip.fields ++ own).flatten.Nodup)
    (there : ∀ names ∈ Media.fields, names ∈ Clip.fields ++ own)
    (h : Schema.Respelled (Clip.fields ++ own) [] ms ms') :
    Coincide (Media.ofMembers ms) (Media.ofMembers ms') :=
  (((((h.required distinct (there _ (by decide)) nofun).map _).seq
    (h.optional distinct (there _ (by decide)) nofun)).seq
    (h.optional distinct (there _ (by decide)) nofun)).seq
    (h.optional distinct (there _ (by decide)) nofun)).seq
    (h.optional distinct (there _ (by decide)) nofun)

theorem Content.coincide (reader : Content.reader? kind = some (own, read))
    (h : Schema.Respelled (Clip.fields ++ own) (Content.inner kind) ms ms') :
    Coincide (read ms) (read ms') := by
  have distinct := (Content.named reader).distinct
  unfold Content.reader? at reader
  split at reader <;> cases reader
  · exact ((h.optional distinct (by decide) nofun).map _).seq (h.optional distinct (by decide) nofun)
  · refine ((h.required distinct (by decide) ?_).map _).seq (h.optional distinct (by decide) ?_)
    · exact List.forall_mem_singleton.2 (by decide)
    · exact List.forall_mem_singleton.2 fun _ _ _ => TextStyle.coincide
  · exact (Media.coincide distinct (by decide) h).map _
  · exact ((Media.coincide distinct (by decide) h).map _).seq (h.optional distinct (by decide) nofun)
  · refine (h.optional distinct (by decide) ?_).map _
    exact List.forall_mem_singleton.2 fun _ _ _ => Shape.coincide

/-! ### Clips, tracks and timelines -/

namespace Clip.Respelled

theorem common (h : Clip.Respelled (.object ms) (.object ms')) {n : String}
    (there : [n] ∈ Clip.fields) : Json.lookup n ms' = Json.lookup n ms := by
  cases h with
  | same => rfl
  | known tag reader h =>
    have named := Content.named reader
    exact h.lookup named.distinct (List.mem_append_left _ there) fun e he same =>
      named.plain [n] there e he (List.mem_singleton.2 same)
  | unknown tag common => exact common n there

/-- Two clips that are not the same are objects. -/
theorem objects (h : Clip.Respelled v v') : v' = v ∨ ∃ ms ms', v = .object ms ∧ v' = .object ms' := by
  cases h with
  | same => exact .inl rfl
  | known => exact .inr ⟨_, _, rfl, rfl⟩
  | unknown => exact .inr ⟨_, _, rfl, rfl⟩

theorem coincide (h : Clip.Respelled v v') : Coincide (Clip.ofJson v) (Clip.ofJson v') := by
  cases h with
  | same => exact .refl _
  | @known ms ms' kind own read tag reader h =>
    have named := Content.named reader
    have tag' : Json.lookup "type" ms' = some (.string kind) := by
      rw [(Clip.Respelled.known tag reader h).common (by decide), tag]
    have plain {names : Names} (there : names ∈ Clip.fields) {α : Type} {value : Json → Parsed α} :
        Coincide (optional names value ms) (optional names value ms') :=
      h.optional named.distinct (List.mem_append_left _ there) fun e he inside =>
        absurd inside (named.plain names there e he)
    simp only [Clip.ofJson, tag, tag', reader]
    unfold Clip.ofMembers
    rw [h.rest named.distinct named.fit]
    exact ((((((((plain (by decide)).map _).seq (plain (by decide))).seq
      (h.required named.distinct (List.mem_append_left _ (by decide)) fun e he =>
        named.plain _ (by decide) e he)).seq (plain (by decide))).seq (plain (by decide))).seq
      (plain (by decide))).seq (Content.coincide reader h)).under _ _
  | @unknown ms ms' tag common =>
    have fails (ms : List (String × Json))
        (tag : ∀ kind, Json.lookup "type" ms = some (.string kind) → Content.reader? kind = none) :
        ∃ es, Clip.ofJson (.object ms) = .bad es := by
      unfold Clip.ofJson
      dsimp only
      split
      · exact ⟨_, rfl⟩
      · split
        · next found =>
          rw [tag _ found]
          exact ⟨_, rfl⟩
        · exact ⟨_, rfl⟩
    obtain ⟨es, bad⟩ := fails ms tag
    obtain ⟨es', bad'⟩ := fails ms' (by rwa [common "type" (by decide)])
    rw [bad, bad']
    exact .bad _ _

end Clip.Respelled

theorem RespelledList.coincide {α : Type} {R : Json → Json → Prop} {value : Json → Parsed α}
    (each : ∀ v v', R v v' → Coincide (value v) (value v')) (h : RespelledList R v v') :
    Coincide (list value v) (list value v') := by
  cases h with
  | same => exact .refl _
  | items h => exact items_coincide (h.imp each) 0

theorem Track.coincide (h : Track.Respelled v v') :
    Coincide (object "Track" Track.ofMembers v) (object "Track" Track.ofMembers v') := by
  cases h with
  | same => exact .refl _
  | @members ms ms' h =>
    show Coincide (Track.ofMembers ms) (Track.ofMembers ms')
    have distinct : [["id"], ["clips"]].flatten.Nodup := by decide
    unfold Track.ofMembers
    rw [h.rest distinct (List.forall_mem_singleton.2 (by decide))]
    refine ((h.optional distinct (by decide) ?_).map _).seq (h.optional distinct (by decide) ?_)
    · exact List.forall_mem_singleton.2 fun other => absurd other (by decide)
    · exact List.forall_mem_singleton.2 fun _ _ _ =>
        RespelledList.coincide fun _ _ => Clip.Respelled.coincide

namespace Timeline

theorem coincide
    (h : Schema.Respelled Timeline.fields [("tracks", RespelledList Track.Respelled)] ms ms')
    (canvas : Canvas) :
    Coincide (Timeline.ofMembers canvas ms) (Timeline.ofMembers canvas ms') := by
  have distinct : Timeline.fields.flatten.Nodup := by decide
  have plain {names : Names} (there : names ∈ Timeline.fields) (other : "tracks" ∉ names) {α : Type}
      {value : Json → Parsed α} : Coincide (optional names value ms) (optional names value ms') :=
    h.optional distinct there (List.forall_mem_singleton.2 fun named => absurd named other)
  have tracks : Coincide (optional ["tracks"] (list (object "Track" Track.ofMembers)) ms)
      (optional ["tracks"] (list (object "Track" Track.ofMembers)) ms') :=
    h.optional distinct (by decide) (List.forall_mem_singleton.2 fun _ _ _ =>
      RespelledList.coincide fun _ _ => Track.coincide)
  unfold Timeline.ofMembers
  rw [h.rest distinct (List.forall_mem_singleton.2 (by decide))]
  exact ((((((plain (by decide) (by decide)).map _).seq (plain (by decide) (by decide))).seq
    (plain (by decide) (by decide))).seq (plain (by decide) (by decide))).seq tracks).seq
    (plain (by decide) (by decide))

theorem ofJson_coincide (h : Timeline.Respelled v v') (canvas : Except (List Mismatch) Canvas)
    (t : Timeline) : ofJson canvas v' = .ok t ↔ ofJson canvas v = .ok t := by
  cases h with
  | same => exact Iff.rfl
  | @members ms ms' h =>
    cases canvas with
    | ok c => exact ((coincide h c).toExcept t).symm
    | error es =>
      have distinct : Timeline.fields.flatten.Nodup := by decide
      have plain (n : String) (there : [n] ∈ Timeline.fields) (other : "tracks" ≠ n) :
          find [n] ms' = find [n] ms := by
        have same := h.lookup distinct there (List.forall_mem_singleton.2 other)
        simp only [find, List.findSome?_cons, List.findSome?_nil, same]
      have needs : needsCanvas ms' = needsCanvas ms := by
        unfold needsCanvas
        rw [plain "fps" (by decide) (by decide), plain "resolution" (by decide) (by decide)]
      dsimp only [ofJson]
      rw [needs]
      cases needsCanvas ms with
      | true => exact Iff.rfl
      | false => exact ((coincide h _).toExcept t).symm

end Timeline

/-! ## The check -/

namespace Check

theorem content_known (reader : Content.reader? kind = some (own, read))
    (h : Schema.Respelled (Clip.fields ++ own) (Content.inner kind) ms ms') :
    content (.string kind) ms' = content (.string kind) ms := by
  have distinct := (Content.named reader).distinct
  -- the check looks for the two names of a field in the order of the readers
  have two (n n' : String) (there : [n, n'] ∈ Clip.fields ++ own)
      (plain : Content.inner kind = []) :
      ((Json.lookup n ms').orElse fun _ => Json.lookup n' ms') =
        (Json.lookup n ms).orElse fun _ => Json.lookup n' ms := by
    rw [← find_two, ← find_two]
    exact h.find_same distinct there (by simp [plain])
  unfold Content.reader? at reader
  split at reader <;> cases reader
  · rfl
  · have same := h.lookup (n := "text") distinct (by decide) (List.forall_mem_singleton.2 (by decide))
    exact congrArg (fun text : Option Json => demand (isFilled (text.getD .null)) ".text"
      "text is required for text clips") same
  · unfold content
    dsimp only
    rw [two "source" "src" (by decide) rfl, two "chromaKey" "chroma_key" (by decide) rfl]
    rfl
  · unfold content
    dsimp only
    rw [two "source" "src" (by decide) rfl, two "chromaKey" "chroma_key" (by decide) rfl]
    rfl
  · rfl

/-- A type that no clip has asks for nothing. -/
theorem content_unknown (tag : ∀ kind, v = .string kind → Content.reader? kind = none) :
    content v ms = [] := by
  unfold content
  split
  · cases tag _ rfl
  · split
    · next media =>
      rcases media with rfl | rfl <;> cases tag _ rfl
    · rfl
  · rfl

theorem clip_respelled (h : Clip.Respelled v v') : clip v' = clip v := by
  obtain rfl | ⟨ms, ms', rfl, rfl⟩ := h.objects
  · rfl
  · have own : content ((Json.lookup "type" ms).getD .null) ms' =
        content ((Json.lookup "type" ms).getD .null) ms := by
      cases h with
      | same => rfl
      | known tag reader h =>
        rw [tag]
        exact content_known reader h
      | unknown tag common =>
        have other (kind : String) (named : (Json.lookup "type" ms).getD .null = .string kind) :
            Content.reader? kind = none := by
          cases found : Json.lookup "type" ms with
          | none =>
            rw [found] at named
            cases named
          | some v =>
            rw [found] at named
            exact tag kind (found.trans (congrArg some named))
        rw [content_unknown other, content_unknown other]
    unfold clip
    dsimp only
    rw [h.common (n := "type") (by decide), h.common (n := "start") (by decide),
      h.common (n := "duration") (by decide), h.common (n := "opacity") (by decide),
      h.common (n := "scale") (by decide), own]

theorem map_eq_of_forall₂ {α β : Type} {R : α → α → Prop} {f : α → β} {as bs : List α}
    (h : List.Forall₂ R as bs) (same : ∀ a b, R a b → f a = f b) : as.map f = bs.map f := by
  induction h with
  | nil => rfl
  | cons first _ ih => rw [List.map_cons, List.map_cons, same _ _ first, ih]

theorem flatMap_eq_of_forall₂ {α β : Type} {R : α → α → Prop} {f : α → List β} {as bs : List α}
    (h : List.Forall₂ R as bs) (same : ∀ a b, R a b → f a = f b) : as.flatMap f = bs.flatMap f := by
  rw [List.flatMap_def, List.flatMap_def, map_eq_of_forall₂ h same]

theorem clips_respelled
    (h : Schema.Respelled [["id"], ["clips"]] [("clips", RespelledList Clip.Respelled)] ms ms') :
    Option.Rel (RespelledList Clip.Respelled) (Json.lookup "clips" ms) (Json.lookup "clips" ms') :=
  h.lookup_inner (by decide) (by decide) (List.forall_mem_singleton.2 rfl) .same

theorem track_respelled (h : Track.Respelled v v') (i : Nat) : track i v' = track i v := by
  cases h with
  | same => rfl
  | @members ms ms' h =>
    have found := clips_respelled h
    unfold track
    dsimp only
    generalize Json.lookup "clips" ms = o, Json.lookup "clips" ms' = o' at found
    cases found with
    | none => rfl
    | some related =>
      cases related with
      | same => rfl
      | items each =>
        cases each with
        | nil => rfl
        | cons first rest =>
          refine (flatMap_eq_of_forall₂ (forall₂_zipIdx (.cons first rest) 0) ?_).symm
          rintro ⟨c, j⟩ ⟨c', j'⟩ ⟨related, rfl⟩
          dsimp only at related ⊢
          rw [clip_respelled related]

/-- Two clips are in one place, and one is the other respelled. -/
def Side (a b : (Nat × Nat) × List (String × Json)) : Prop :=
  a.1 = b.1 ∧ Clip.Respelled (.object a.2) (.object b.2)

theorem trackClips_respelled (h : Track.Respelled v v') (i : Nat) :
    List.Forall₂ Side (trackClips i v) (trackClips i v') := by
  have same (v : Json) : List.Forall₂ Side (trackClips i v) (trackClips i v) :=
    List.forall₂_same.2 fun _ _ => ⟨rfl, .same _⟩
  cases h with
  | same => exact same _
  | @members ms ms' h =>
    have found := clips_respelled h
    unfold trackClips
    dsimp only [Json.get?]
    generalize Json.lookup "clips" ms = o, Json.lookup "clips" ms' = o' at found
    cases found with
    | none => exact .nil
    | some related =>
      cases related with
      | same => exact List.forall₂_same.2 fun _ _ => ⟨rfl, .same _⟩
      | items each =>
        refine List.rel_filterMap ?_ (forall₂_zipIdx each 0)
        rintro ⟨c, j⟩ ⟨c', j'⟩ ⟨related, rfl⟩
        dsimp only at related ⊢
        obtain rfl | ⟨ms, ms', rfl, rfl⟩ := Clip.Respelled.objects related
        · cases c' with
          | object => exact .some ⟨rfl, related⟩
          | _ => exact .none
        · exact .some ⟨rfl, related⟩

theorem objectClips_respelled {ts ts' : List Json} (h : List.Forall₂ Track.Respelled ts ts') :
    List.Forall₂ Side (objectClips ts) (objectClips ts') := by
  refine List.rel_flatMap (forall₂_zipIdx h 0) ?_
  rintro ⟨t, i⟩ ⟨t', i'⟩ ⟨related, rfl⟩
  exact trackClips_respelled related i

section

variable {ts ts' : List Json} (h : List.Forall₂ Track.Respelled ts ts')
include h

theorem tracks_respelled : (ts'.zipIdx.flatMap fun (t, i) => track i t) =
    ts.zipIdx.flatMap fun (t, i) => track i t := by
  refine (flatMap_eq_of_forall₂ (forall₂_zipIdx h 0) ?_).symm
  rintro ⟨t, i⟩ ⟨t', i'⟩ ⟨related, rfl⟩
  exact (track_respelled related i).symm

/-- What is made of the fields that all clips have is the same. -/
theorem map_objectClips_respelled {β : Type} {f : (Nat × Nat) × List (String × Json) → β}
    (same : ∀ place ms ms', (∀ n, [n] ∈ Clip.fields → Json.lookup n ms' = Json.lookup n ms) →
      f (place, ms') = f (place, ms)) : (objectClips ts').map f = (objectClips ts).map f := by
  refine (map_eq_of_forall₂ (objectClips_respelled h) ?_).symm
  rintro ⟨place, ms⟩ ⟨_, ms'⟩ ⟨rfl, related⟩
  exact (same place ms ms' fun n there => related.common there).symm

theorem legible_respelled : legible ts' = legible ts := by
  have all (ts : List Json) : (objectClips ts).all (isLegible ·.2) =
      ((objectClips ts).map (isLegible ·.2)).all id := by
    rw [List.all_map]
    rfl
  have same := map_objectClips_respelled h (f := (isLegible ·.2)) fun _ ms ms' common => by
    simp only [isLegible, common "type" (by decide), common "id" (by decide)]
  unfold legible
  rw [all, all, same]

theorem ids_respelled : ids ts' = ids ts := by
  have same := map_objectClips_respelled h (f := fun item => (checkedId item.2).map (item.1, ·))
    fun _ ms ms' common => by simp only [checkedId, common "id" (by decide)]
  have all (ts : List Json) : identified ts =
      ((objectClips ts).map fun item => (checkedId item.2).map (item.1, ·)).filterMap id := by
    rw [List.filterMap_map]
    rfl
  rw [ids_eq_identified, ids_eq_identified, all, all, same]

theorem overruns_respelled (limit : Number) : overruns limit ts' = overruns limit ts := by
  have same := map_objectClips_respelled h (f := fun item => overrun limit item.1.1 item.1.2 item.2)
    fun _ ms ms' common => by
      simp only [overrun, common "start" (by decide), common "duration" (by decide)]
  have all (ts : List Json) : overruns limit ts = (do
      let found ← ((objectClips ts).map fun item =>
        overrun limit item.1.1 item.1.2 item.2).mapM id
      return found.filterMap id) := by
    rw [List.mapM_map]
    rfl
  rw [all, all, same]

end

end Check

/-! ## The theorem -/

theorem check_respelled (h : Timeline.Respelled v v') : check v' = check v := by
  cases h with
  | same => rfl
  | @members ms ms' h =>
    have distinct : Timeline.fields.flatten.Nodup := by decide
    have plain (n : String) (there : [n] ∈ Timeline.fields) (other : "tracks" ≠ n) :
        Json.lookup n ms' = Json.lookup n ms :=
      h.lookup distinct there (List.forall_mem_singleton.2 other)
    have tracks := h.lookup_inner distinct (n := "tracks") (by decide)
      (List.forall_mem_singleton.2 rfl) .same
    have lists : List.Forall₂ Track.Respelled (Check.trackList (Json.lookup "tracks" ms)).1
          (Check.trackList (Json.lookup "tracks" ms')).1 ∧
        (Check.trackList (Json.lookup "tracks" ms')).2 =
          (Check.trackList (Json.lookup "tracks" ms)).2 := by
      generalize Json.lookup "tracks" ms = o, Json.lookup "tracks" ms' = o' at tracks
      cases tracks with
      | none => exact ⟨.nil, rfl⟩
      | some related =>
        cases related with
        | same => exact ⟨List.forall₂_same.2 fun _ _ => .same _, rfl⟩
        | items each =>
          cases each with
          | nil => exact ⟨.nil, rfl⟩
          | cons first rest => exact ⟨.cons first rest, rfl⟩
    have globals : Check.globals ms' = Check.globals ms := by
      simp only [Check.globals, plain "fps" (by decide) (by decide),
        plain "resolution" (by decide) (by decide), plain "soundtrack" (by decide) (by decide)]
    have defects : Check.defects ms' = Check.defects ms := by
      simp only [Check.defects, lists.2, Check.tracks_respelled lists.1, Check.ids_respelled lists.1,
        globals, plain "duration" (by decide) (by decide)]
    have warnings : Check.warnings ms' = Check.warnings ms := by
      simp only [Check.warnings, Check.overruns_respelled lists.1,
        plain "duration" (by decide) (by decide)]
    simp only [check, Check.legible_respelled lists.1, defects, warnings]

/-- **Spelling.** If two documents only differ in the names of their fields, each of which has one
name only, the check has the same report for both, and they are accepted as the same timeline, if at
all. -/
theorem accept_respelled (h : Timeline.Respelled v v') (canvas : Except (List Mismatch) Canvas) :
    check v' = check v ∧
      ∀ t, Timeline.accept canvas v' = .ok t ↔ Timeline.accept canvas v = .ok t := by
  have same := check_respelled h
  refine ⟨same, fun t => ?_⟩
  unfold Timeline.accept
  rw [same]
  cases check v with
  | error f => exact Iff.rfl
  | ok report =>
    dsimp only
    cases report.isValid with
    | false => exact Iff.rfl
    | true =>
      cases first : Timeline.ofJson canvas v with
      | ok a => rw [(Timeline.ofJson_coincide h canvas a).2 first]
      | error ms =>
        cases second : Timeline.ofJson canvas v' with
        | ok a => cases first.symm.trans ((Timeline.ofJson_coincide h canvas a).1 second)
        | error ms' => simp

/-- A title, a video with a key and a shape, with names for their fields of several words. -/
def scene (size source key width fill : String) : Json :=
  .object [("tracks", .array [.object [("clips", .array [
    .object [("type", .string "text"), ("text", .string "Hi"), ("duration", .int 5),
      ("style", .object [(size, .int 60), ("color", .string "red")])],
    .object [("type", .string "video"), (source, .string "a.mp4"), ("duration", .int 5),
      (key, .object [("threshold", .float 0.5)]), (width, .int 640), ("noteText", .string "x")],
    .object [("type", .string "shape"), ("duration", .int 5),
      ("shape", .object [(fill, .string "blue")])]])]])]

theorem accept_respelled_scene :
    let camel := scene "fontSize" "source" "chromaKey" "originalWidth" "fillColor"
    let snake := scene "font_size" "src" "chroma_key" "originalWidth" "fill_color"
    (∃ t, Timeline.accept (.ok Settings.standard.canvas) camel = .ok t) ∧ check snake = check camel ∧
      ∀ t, Timeline.accept (.ok Settings.standard.canvas) snake = .ok t ↔
        Timeline.accept (.ok Settings.standard.canvas) camel = .ok t := by
  intro camel snake
  have kept {fields : List Names} {inner : List (String × (Json → Json → Prop))}
      (m : String × Json) : SameField fields m.1 m.1 ∧
        (m.2 = m.2 ∨ ∃ e ∈ inner, e.1 = m.1 ∧ e.2 m.2 m.2) := ⟨.inl rfl, .inl rfl⟩
  have style : TextStyle.Respelled (.object [("fontSize", .int 60), ("color", .string "red")])
      (.object [("font_size", .int 60), ("color", .string "red")]) :=
    .members ⟨.cons ⟨.inr ⟨["fontSize", "font_size"], by decide, by decide, by decide⟩, .inl rfl⟩
      (.cons (kept _) .nil), by decide⟩
  have shape : Shape.Respelled (.object [("fillColor", .string "blue")])
      (.object [("fill_color", .string "blue")]) :=
    .members ⟨.cons ⟨.inr ⟨["fillColor", "fill_color"], by decide, by decide, by decide⟩, .inl rfl⟩
      .nil, by decide⟩
  have respelled : Timeline.Respelled camel snake := by
    refine .members ⟨.cons ⟨.inl rfl, .inr ⟨_, List.mem_singleton.2 rfl, rfl,
      .items (.cons (.members ⟨.cons ⟨.inl rfl, .inr ⟨_, List.mem_singleton.2 rfl, rfl,
        .items (.cons ?title (.cons ?video (.cons ?shape .nil)))⟩⟩ .nil, by decide⟩) .nil)⟩⟩ .nil,
      by decide⟩
    case title =>
      exact @Clip.Respelled.known _ _ "text" _ _ rfl rfl ⟨.cons (kept _) (.cons (kept _) (.cons (kept _)
        (.cons ⟨.inl rfl, .inr ⟨_, List.mem_singleton.2 rfl, rfl, style⟩⟩ .nil))), by decide⟩
    case video =>
      exact @Clip.Respelled.known _ _ "video" _ _ rfl rfl ⟨.cons (kept _) (.cons
        ⟨.inr ⟨["source", "src"], by decide, by decide, by decide⟩, .inl rfl⟩ (.cons (kept _) (.cons
        ⟨.inr ⟨["chromaKey", "chroma_key"], by decide, by decide, by decide⟩, .inl rfl⟩
        (.cons (kept _) (.cons (kept _) .nil))))), by decide⟩
    case shape =>
      exact @Clip.Respelled.known _ _ "shape" _ _ rfl rfl ⟨.cons (kept _) (.cons (kept _) (.cons
        ⟨.inl rfl, .inr ⟨_, List.mem_singleton.2 rfl, rfl, shape⟩⟩ .nil)), by decide⟩
  exact ⟨⟨_, rfl⟩, accept_respelled respelled _⟩

end Montage
