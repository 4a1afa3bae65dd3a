import Montage.Proofs.Graph.Labels
import Montage.Proofs.Timeline.Reading

/-!
# What an accepted document is like

The check and the readers look at the same document, each in its own way. `accept_ok` puts what
the two found side by side: the document's tracks and clips stand in the order of those that were
read, and for each pair both what the check demands of the document and what the reader made of it
are at hand (`Accepted`, `AcceptedTrack`, `AcceptedClip`).
-/
namespace Montage

namespace Check

@[simp]
theorem demand_eq_nil {holds : Bool} {path message : String} :
    demand holds path message = [] ↔ holds = true := by
  cases holds <;> simp [demand]

theorem isNumber_iff {p : Number → Bool} {v : Json} :
    isNumber p v = true ↔ ∃ n, v = .number n ∧ p n = true := by
  cases v <;> simp [isNumber, Json.number?]

theorem isFilled_iff {v : Json} : isFilled v = true ↔ ∃ s, v = .string s ∧ s ≠ "" := by
  cases v <;> simp [isFilled]

/-- Indices aside, a list of defects is empty if there are none for any item. -/
theorem flatMap_zipIdx_eq_nil {α β : Type} {f : α × Nat → List β} {items : List α} :
    items.zipIdx.flatMap f = [] ↔ ∀ i a, items[i]? = some a → f (a, i) = [] := by
  simp only [List.flatMap_eq_nil_iff, Prod.forall, List.mem_zipIdx_iff_getElem?]
  exact ⟨fun h i a ha => h a i ha, fun h a i ha => h i a ha⟩

/-- What the check demands of a clip. -/
structure ClipPasses (members : List (String × Json)) : Prop where
  start : isNotNegative ((Json.lookup "start" members).getD (.int 0)) = true
  duration : isNotBelowOrZero ((Json.lookup "duration" members).getD .null) = true
  content : content ((Json.lookup "type" members).getD .null) members = []
  opacity : isWithin 0 100 ((Json.lookup "opacity" members).getD (.int 100)) = true
  scale : isNotBelowOrZero ((Json.lookup "scale" members).getD (.int 1)) = true

theorem clip_eq_nil {v : Json} (h : clip v = []) :
    ∃ members, v = .object members ∧ ClipPasses members := by
  cases v with
  | object members =>
    simp only [clip, List.append_eq_nil_iff, demand_eq_nil] at h
    obtain ⟨⟨⟨⟨⟨-, start⟩, duration⟩, content⟩, opacity⟩, scale⟩ := h
    exact ⟨members, rfl, start, duration, content, opacity, scale⟩
  | _ => cases h

theorem track_eq_nil {i : Nat} {v : Json} (h : track i v = []) :
    ∃ members clips, v = .object members ∧ Json.lookup "clips" members = some (.array clips) ∧
      clips ≠ [] ∧ ∀ c ∈ clips, clip c = [] := by
  cases v with
  | object members =>
    simp only [track] at h
    split at h
    · cases h
    · next clips filled found =>
      refine ⟨members, clips, rfl, found, by simpa using filled, fun c hc => ?_⟩
      obtain ⟨j, hj⟩ := List.getElem?_of_mem hc
      exact List.map_eq_nil_iff.1 (flatMap_zipIdx_eq_nil.1 h j c hj)
    · cases h
  | _ => cases h

theorem trackList_eq_nil {v : Option Json} (h : (trackList v).2 = []) :
    ∃ docs, v = some (.array docs) ∧ docs ≠ [] ∧ (trackList v).1 = docs := by
  unfold trackList at h ⊢
  split at h
  · cases h
  · next docs filled => exact ⟨docs, rfl, by simpa using filled, rfl⟩
  · cases h

end Check

/-- A clip that was read, with the document that passed. -/
structure AcceptedClip (v : Json) (c : Clip) : Prop where
  passes : Check.clip v = []
  read : Clip.ofJson v = .ok c

/-- A track that was read, with the document that passed. -/
structure AcceptedTrack (v : Json) (t : Track) : Prop where
  clips : ∃ docs, v.get? "clips" = some (.array docs) ∧ docs ≠ [] ∧
    List.Forall₂ AcceptedClip docs t.clipList

/-- A timeline that was read, with the members of the document that passed, and the documents of
its tracks. -/
structure Accepted (members : List (String × Json)) (docs : List Json) (t : Timeline) : Prop
    extends Timeline.Fields members t where
  found : Json.lookup "tracks" members = some (.array docs)
  filled : docs ≠ []
  each : List.Forall₂ AcceptedTrack docs t.trackList
  ids : Check.duplicates [] (Check.ids docs) = []
  globals : Check.globals members = []
  length : Check.duration ((Json.lookup "duration" members).getD .null) = []

theorem acceptedTrack {i : Nat} {v : Json} {t : Track} (h : Check.track i v = [])
    (read : Schema.object "Track" Track.ofMembers v = .ok t) : AcceptedTrack v t := by
  obtain ⟨members, docs, rfl, found, filled, passes⟩ := Check.track_eq_nil h
  have clips := Schema.optional_ok (Track.ofMembers_ok read).clips
  rw [Schema.find_one, found] at clips
  obtain ⟨cs, items, hclips⟩ := clips
  obtain ⟨_, e, pairs⟩ := Schema.list_ok items
  cases e
  refine ⟨docs, found, filled, ?_⟩
  rw [Track.clipList, hclips, Option.getD_some]
  refine ((List.forall₂_and_left docs cs).2 ⟨passes, pairs⟩).imp ?_
  exact fun _ _ ⟨passes, read⟩ => ⟨passes, read⟩

/-- The errors of a report are the defects, whatever the warnings are. -/
theorem check_object {members : List (String × Json)} {report : Report}
    (h : check (.object members) = .ok report) :
    report.errors = (Check.defects members).map Defect.toIssue := by
  unfold check at h
  obtain ⟨_, -, h⟩ := Graph.except_bind_ok.1 h
  obtain ⟨_, -, h⟩ := Graph.except_bind_ok.1 h
  exact (congrArg Report.errors (Except.ok.inj h)).symm

/-- A document without defects. -/
theorem check_ok {v : Json} {report : Report} (h : check v = .ok report) (valid : report.isValid) :
    ∃ members docs, v = .object members ∧ Json.lookup "tracks" members = some (.array docs) ∧
      docs ≠ [] ∧ (∀ doc ∈ docs, ∃ i, Check.track i doc = []) ∧
      Check.duplicates [] (Check.ids docs) = [] ∧ Check.globals members = [] ∧
      Check.duration ((Json.lookup "duration" members).getD .null) = [] := by
  cases v with
  | object members =>
    simp only [Report.isValid, check_object h, Check.defects, List.isEmpty_iff,
      List.map_eq_nil_iff, List.append_eq_nil_iff] at valid
    obtain ⟨⟨⟨⟨missing, tracks⟩, ids⟩, globals⟩, length⟩ := valid
    obtain ⟨docs, found, filled, list⟩ := Check.trackList_eq_nil missing
    rw [list] at tracks ids
    refine ⟨members, docs, rfl, found, filled, fun doc hdoc => ?_, ids, globals, length⟩
    obtain ⟨i, hi⟩ := List.getElem?_of_mem hdoc
    exact ⟨i, Check.flatMap_zipIdx_eq_nil.1 tracks i doc hi⟩
  | _ =>
    obtain rfl := Except.ok.inj h
    cases valid

/-- An accepted timeline has passed the check and been read from one document. -/
theorem accept_ok {canvas : Except (List Mismatch) Canvas} {v : Json} {t : Timeline}
    (h : Timeline.accept canvas v = .ok t) :
    ∃ members docs, v = .object members ∧ Accepted members docs t ∧
      (canvas = .ok t.canvas ∨ Timeline.needsCanvas members = false) := by
  unfold Timeline.accept at h
  split at h
  · cases h
  · next report checked =>
    split at h
    · next valid =>
      obtain ⟨members, docs, rfl, found, filled, tracks, ids, globals, length⟩ :=
        check_ok checked valid
      split at h
      · next read =>
        cases h
        obtain ⟨fields, inForce⟩ := Timeline.ofJson_ok read
        have list := Schema.optional_ok fields.tracks
        rw [Schema.find_one, found] at list
        obtain ⟨ts, items, htracks⟩ := list
        obtain ⟨_, e, pairs⟩ := Schema.list_ok items
        cases e
        refine ⟨members, docs, rfl, ⟨fields, found, filled, ?_, ids, globals, length⟩, inForce⟩
        rw [Timeline.trackList, htracks, Option.getD_some]
        refine ((List.forall₂_and_left docs ts).2 ⟨tracks, pairs⟩).imp ?_
        exact fun _ _ ⟨⟨_, passes⟩, read⟩ => acceptedTrack passes read
      · cases h
    · cases h

end Montage
