import Montage.Proofs.Timeline.Breaking
import Montage.Proofs.Timeline.Places

/-!
# Defects apart from one another

A check goes on after a defect, so what it reports about a clip must not depend on what is wrong
elsewhere. `errors_independent` says so of every document with a list of tracks: the errors of a
clip are those that it has as the only clip of a timeline, they come in the order of the clips and
before all others, and an id is reported as used twice at all clips that have it but the first.

The errors of a clip are told by their path (`Issue.isOf`), since no two clips have the same one
(`clipPath_append_inj`), and what is used twice by its message.
-/
namespace Montage

namespace Issue

/-- Whether an issue is about an id that was used before. -/
def isRepeat (e : Issue) : Bool := "duplicate clip id ".toList.isPrefixOf e.message.toList

/-- Whether an issue is about one of the timeline's own fields. -/
def isGlobal (e : Issue) : Bool :=
  ["fps", "resolution", "resolution.width", "resolution.height", "soundtrack.src",
    "duration"].contains e.path

/-- Whether the path of an issue is this one, or leads on from it to a field. -/
def isAt (path : String) (e : Issue) : Bool :=
  e.path == path || (path ++ ".").toList.isPrefixOf e.path.toList

/-- Whether an issue is one of a clip by itself. -/
def isOf (i j : Nat) (e : Issue) : Bool := e.isAt (Check.clipPath i j) && !e.isRepeat

/-- An issue of a clip, as if this were the first clip of the first track. -/
def zeroed (i j : Nat) (e : Issue) : Issue :=
  { e with
    path := Check.clipPath 0 0 ++
      String.ofList (e.path.toList.drop (Check.clipPath i j).toList.length) }

end Issue

namespace Check

/-- A track with one clip and nothing else. -/
def single (clip : Json) : Json := .object [("clips", .array [clip])]

/-- A timeline with one clip and nothing else. -/
def alone (clip : Json) : Json := .object [("tracks", .array [single clip])]

/-- The errors of a report do not depend on each other. -/
structure Independent (tracks : List Json) (report : Report) : Prop where
  own : ∀ i j c, clipAt? tracks i j = some c → ∃ sole, check (alone c) = .ok sole ∧
    (report.errors.filter (Issue.isOf i j)).map (Issue.zeroed i j) = sole.errors
  ordered : report.errors.Pairwise fun e e' => ∀ i j i' j', e.isOf i j → e'.isOf i' j' →
    (i, j) = (i', j') ∨ Earlier (i, j) (i', j')
  first : report.errors.Pairwise fun e e' => e.isRepeat ∨ e.isGlobal →
    ∀ i j, e'.isOf i j = false
  repeated : ∀ i j, (∃ e ∈ report.errors, e.isRepeat ∧ e.path = clipPath i j ++ ".id") ↔
    Repeats tracks i j
  once : ((report.errors.filter Issue.isRepeat).map (·.path)).Nodup
  placed : ∀ e ∈ report.errors, e.isRepeat → ∃ i j, e.path = clipPath i j ++ ".id"

variable {tracks : List Json} {i j i' j' : Nat} {d : Defect}

/-! ## Paths -/

/-- Where a path of a clip's own defects leads: nowhere, or to a field. -/
def Inner (path : List Char) : Prop := path.head?.all (· == '.') = true

instance (path : List Char) : Decidable (Inner path) := inferInstanceAs (Decidable (_ = _))

theorem isAt_iff {path : String} {e : Issue} :
    e.isAt path = true ↔ ∃ us, e.path.toList = path.toList ++ us ∧ Inner us := by
  simp only [Issue.isAt, Bool.or_eq_true, beq_iff_eq, List.isPrefixOf_iff_prefix,
    String.toList_append]
  constructor
  · rintro (same | ⟨us, h⟩)
    · exact ⟨[], by rw [same, List.append_nil], rfl⟩
    · exact ⟨'.' :: us, by simp [← h], rfl⟩
  · rintro ⟨_ | ⟨c, us⟩, h, inner⟩
    · exact .inl (String.toList_inj.1 (by rw [h, List.append_nil]))
    · obtain rfl : c = '.' := by simpa [Inner] using inner
      exact .inr ⟨us, by simp [h]⟩

/-- No path with another beginning is at a clip. -/
theorem isAt_clipPath_of_head {e : Issue} (h : e.path.toList.head? ≠ some 't') :
    e.isAt (clipPath i j) = false := by
  rw [Bool.eq_false_iff]
  intro there
  obtain ⟨us, same, -⟩ := isAt_iff.1 there
  rw [same, clipPath_toList] at h
  exact h rfl

/-- The path of a track, or of its clips, is at no clip. -/
theorem isAt_clipPath_of_track {e : Issue} {k : Nat} {us : List Char} (short : us.length < 7)
    (h : e.path.toList = "tracks[".toList ++ ((toString k).toList ++ ']' :: us)) :
    e.isAt (clipPath i j) = false := by
  rw [Bool.eq_false_iff]
  intro there
  obtain ⟨vs, same, -⟩ := isAt_iff.1 there
  rw [h, clipPath_toList, List.append_assoc, List.append_assoc] at same
  have rest := congrArg List.length (index_append_inj (List.append_cancel_left same)).2
  simp only [List.append_assoc, List.append_eq, List.length_append] at rest
  have long : ".clips[".toList.length = 7 := rfl
  omega

/-! ## The defects of a clip -/

/-- What a defect of a clip by itself is like. -/
structure Own (d : Defect) : Prop where
  inner : Inner d.path.toList
  fresh : d.toIssue.isRepeat = false

theorem forall_demand {P : Defect → Prop} {holds : Bool} {path message : String}
    (h : P ⟨path, message⟩) : ∀ d ∈ demand holds path message, P d := by
  intro d there
  unfold demand at there
  split at there
  · cases there
  · rwa [List.mem_singleton.1 there]

theorem own_measure {name : String} (key : List (String × Json))
    (own : Own ⟨".chromaKey" ++ ("." ++ name), name ++ " must be between 0 and 1"⟩) :
    ∀ d ∈ (keyMeasure name key).map (·.below ".chromaKey"), Own d := by
  intro d there
  obtain ⟨d, there, rfl⟩ := List.mem_map.1 there
  unfold keyMeasure demand at there
  split at there
  · cases there
  · cases there
  · split at there
    · cases there
    · rw [List.mem_singleton.1 there]
      exact own

theorem own_chromaKey (key : Json) : ∀ d ∈ chromaKey key, Own d := by
  unfold chromaKey
  split
  · exact nofun
  · rw [List.map_append, List.forall_mem_append]
    exact ⟨own_measure _ ⟨by decide, by decide⟩, own_measure _ ⟨by decide, by decide⟩⟩
  · rw [List.forall_mem_singleton]
    exact ⟨by decide, by decide⟩

theorem own_content (kind : Json) (members : List (String × Json)) :
    ∀ d ∈ content kind members, Own d := by
  unfold content
  split
  · exact forall_demand ⟨by decide, by decide⟩
  · split
    · rw [List.forall_mem_append]
      refine ⟨forall_demand ⟨(by decide : Inner ".source".toList), ?_⟩, own_chromaKey _⟩
      rw [Defect.toIssue, Issue.isRepeat, String.append_assoc, String.toList_append]
      rfl
    · exact nofun
  · exact nofun

theorem own_clip (c : Json) : ∀ d ∈ clip c, Own d := by
  unfold clip
  split
  · simp only [List.forall_mem_append]
    refine ⟨⟨⟨⟨⟨forall_demand ⟨(by decide : Inner ".type".toList), ?_⟩,
      forall_demand ⟨by decide, by decide⟩⟩, forall_demand ⟨by decide, by decide⟩⟩,
      own_content _ _⟩, forall_demand ⟨by decide, by decide⟩⟩,
      forall_demand ⟨by decide, by decide⟩⟩
    rw [Defect.toIssue, Issue.isRepeat, String.toList_append]
    rfl
  · rw [List.forall_mem_singleton]
    exact ⟨by decide, by decide⟩

theorem Own.below_path (d : Defect) (i j : Nat) : (d.below (clipPath i j)).toIssue.path.toList =
    (clipPath i j).toList ++ d.path.toList := String.toList_append

/-- A clip's defect is one of this clip, and of no other. -/
theorem Own.isOf_iff (own : Own d) :
    (d.below (clipPath i j)).toIssue.isOf i' j' = true ↔ (i, j) = (i', j') := by
  have fresh : (d.below (clipPath i j)).toIssue.isRepeat = false := own.fresh
  rw [Issue.isOf, fresh, Bool.not_false, Bool.and_true, isAt_iff, Own.below_path]
  constructor
  · rintro ⟨us, h, -⟩
    obtain ⟨rfl, rfl, -⟩ := clipPath_append_inj h
    rfl
  · rintro ⟨⟩
    exact ⟨_, rfl, own.inner⟩

theorem zeroed_below (d : Defect) : (d.below (clipPath i j)).toIssue.zeroed i j =
    (d.below (clipPath 0 0)).toIssue := by
  rw [Issue.zeroed, Own.below_path, List.drop_left, String.ofList_toList]
  rfl

/-! ## The defects of tracks -/

/-- The defects of the tracks and clips, each of them by itself. -/
def early (tracks : List Json) : List Defect :=
  (trackList (some (.array tracks))).2 ++ tracks.zipIdx.flatMap fun (t, i) => track i t

/-- A track has one defect of its own, or those of its clips. -/
inductive TrackDefects (i : Nat) (t : Json) : List Defect → Prop
  | clips {cs : List Json} (found : t.get? "clips" = some (.array cs)) (filled : cs ≠ []) :
      TrackDefects i t (cs.zipIdx.flatMap fun (c, j) => (clip c).map (·.below (clipPath i j)))
  | whole {message : String} (clipless : ∀ cs, t.get? "clips" = some (.array cs) → cs = [])
      (fresh : Issue.isRepeat ⟨"", message, .error⟩ = false) {us : String}
      (short : us.toList.length < 7) :
      TrackDefects i t [⟨"tracks[" ++ toString i ++ "]" ++ us, message⟩]

theorem track_defects (i : Nat) (t : Json) : TrackDefects i t (track i t) := by
  have list : "tracks[" ++ toString i ++ "].clips" = "tracks[" ++ toString i ++ "]" ++ ".clips" :=
    String.toList_inj.1 (by simp)
  have bare : "tracks[" ++ toString i ++ "]" = "tracks[" ++ toString i ++ "]" ++ "" :=
    String.append_empty.symm
  unfold track
  split
  · next members =>
    split
    · next found =>
      rw [list]
      refine .whole (fun cs h => ?_) (by decide) (by decide)
      cases found.symm.trans h
      rfl
    · next cs filled found => exact .clips found (by simpa using filled)
    · next missing =>
      rw [list]
      refine .whole (fun cs h => ?_) (by decide) (by decide)
      exact absurd h (missing cs)
  · next other =>
    rw [bare]
    refine .whole (fun cs h => ?_) (by decide) (by decide)
    cases t with
    | object members => exact absurd rfl (other members)
    | _ => cases h

theorem toIssue_track_toList {message us : String} : (Defect.toIssue
    ⟨"tracks[" ++ toString i ++ "]" ++ us, message⟩).path.toList =
      "tracks[".toList ++ ((toString i).toList ++ ']' :: us.toList) := by
  simp [Defect.toIssue]

/-- A defect of a track is one of a clip in it, or of no clip. -/
theorem isOf_of_track {t : Json} (there : d ∈ track i t) (h : d.toIssue.isOf i' j' = true) :
    i = i' ∧ ∃ cs c, t.get? "clips" = some (.array cs) ∧ cs[j']? = some c ∧
      ∃ o ∈ clip c, d = o.below (clipPath i j') := by
  have defects := track_defects i t
  generalize track i t = ds at there defects
  cases defects with
  | clips found filled =>
    obtain ⟨⟨c, j⟩, hc, there⟩ := List.mem_flatMap.1 there
    obtain ⟨o, ho, rfl⟩ := List.mem_map.1 there
    obtain ⟨⟩ := (own_clip c o ho).isOf_iff.1 h
    exact ⟨rfl, _, c, found, List.mem_zipIdx_iff_getElem?.1 hc, o, ho, rfl⟩
  | whole clipless fresh short =>
    rw [List.mem_singleton.1 there, Issue.isOf,
      isAt_clipPath_of_track short toIssue_track_toList] at h
    cases h

/-- If only the item at `i` gives anything, it gives everything. -/
theorem flatMap_zipIdx_eq {α β : Type} {f : α × Nat → List β} {items : List α} {a : α} {n k : Nat}
    (there : items[k]? = some a)
    (others : ∀ m b, m ≠ k → items[m]? = some b → f (b, n + m) = []) :
    (items.zipIdx n).flatMap f = f (a, n + k) := by
  induction items generalizing n k with
  | nil => cases there
  | cons x items ih =>
    rw [List.zipIdx_cons, List.flatMap_cons]
    cases k with
    | zero =>
      cases there
      rw [List.flatMap_eq_nil_iff.2, List.append_nil, Nat.add_zero]
      rintro ⟨b, m⟩ hb
      obtain ⟨le, found⟩ := List.mk_mem_zipIdx_iff_le_and_getElem?_sub.1 hb
      have behind := others (m - (n + 1) + 1) b (by omega) found
      rwa [show n + (m - (n + 1) + 1) = m by omega] at behind
    | succ k =>
      have first : f (x, n) = [] := others 0 x (by omega) rfl
      rw [first, List.nil_append, ih there fun m b ne found => ?_]
      · rw [Nat.add_right_comm, Nat.add_assoc]
      · have moved := others (m + 1) b (by omega) found
        rwa [show n + (m + 1) = n + 1 + m by omega] at moved

/-- Among the defects of tracks and clips, those of one clip are what it has by itself. -/
theorem filter_early {c : Json} (h : clipAt? tracks i j = some c) :
    (early tracks).filter (·.toIssue.isOf i j) = (clip c).map (·.below (clipPath i j)) := by
  obtain ⟨t, cs, ht, found, hc⟩ := clipAt?_eq_some h
  have listed : (trackList (some (.array tracks))).2 = [] := by
    cases tracks with
    | nil => cases ht
    | cons => rfl
  rw [early, listed, List.nil_append, List.filter_flatMap, flatMap_zipIdx_eq ht]
  · have defects := track_defects i t
    rw [Nat.zero_add]
    dsimp only
    generalize track i t = ds at defects
    cases defects with
    | clips found' filled =>
      cases found.symm.trans found'
      rw [List.filter_flatMap, flatMap_zipIdx_eq hc]
      · rw [Nat.zero_add, List.filter_eq_self]
        intro d there
        obtain ⟨o, ho, rfl⟩ := List.mem_map.1 there
        exact (own_clip c o ho).isOf_iff.2 rfl
      · intro m b ne found
        rw [Nat.zero_add, List.filter_eq_nil_iff]
        intro d there h
        obtain ⟨o, ho, rfl⟩ := List.mem_map.1 there
        exact ne (Prod.mk.inj ((own_clip b o ho).isOf_iff.1 h)).2
    | whole clipless =>
      rw [clipless cs found] at hc
      cases hc
  · intro m b ne found
    rw [Nat.zero_add, List.filter_eq_nil_iff]
    exact fun d there h => ne (isOf_of_track there h).1

/-! ## What comes after the defects of the clips -/

/-- The defects of ids used twice and of the timeline's own fields. -/
def late (members : List (String × Json)) (tracks : List Json) : List Defect :=
  duplicates [] (ids tracks) ++
    (globals members ++ duration ((Json.lookup "duration" members).getD .null))

theorem trackList_fst (tracks : List Json) : (trackList (some (.array tracks))).1 = tracks := by
  cases tracks <;> rfl

theorem errors_eq {members : List (String × Json)} {report : Report}
    (found : Json.lookup "tracks" members = some (.array tracks))
    (h : check (.object members) = .ok report) :
    report.errors = (early tracks ++ late members tracks).map Defect.toIssue := by
  rw [check_object h, defects, found, trackList_fst, early, late]
  simp only [List.append_assoc]

/-- What a defect of the timeline's own fields is like. -/
structure OfGlobals (d : Defect) : Prop where
  elsewhere : d.path.toList.head? ≠ some 't'
  fresh : d.toIssue.isRepeat = false

theorem ofGlobals_measure {name : String} (resolution : List (String × Json))
    (h : OfGlobals ⟨"resolution." ++ name, name ++ " must be a positive number"⟩) :
    ∀ d ∈ measure name resolution, OfGlobals d := by
  unfold measure
  split
  · exact nofun
  · exact nofun
  · exact forall_demand h

theorem ofGlobals (members : List (String × Json)) (v : Json) :
    ∀ d ∈ globals members ++ duration v, OfGlobals d := by
  simp only [globals, List.forall_mem_append]
  refine ⟨⟨⟨forall_demand ⟨by decide, by decide⟩, ?_⟩, ?_⟩, ?_⟩
  · split
    · exact nofun
    · exact nofun
    · rw [List.forall_mem_append]
      exact ⟨ofGlobals_measure _ ⟨by decide, by decide⟩, ofGlobals_measure _ ⟨by decide, by decide⟩⟩
    · rw [List.forall_mem_singleton]
      exact ⟨by decide, by decide⟩
  · split
    · exact nofun
    · exact nofun
    · exact forall_demand ⟨by decide, by decide⟩
  · unfold duration
    split
    · exact nofun
    · exact forall_demand ⟨by decide, by decide⟩

theorem isRepeat_of_duplicates {seen names : List (String × String)}
    (there : d ∈ duplicates seen names) : d.toIssue.isRepeat = true := by
  induction names generalizing seen with
  | nil => cases there
  | cons name rest ih =>
    unfold duplicates at there
    split at there
    · rcases List.mem_cons.1 there with rfl | there
      · simp [Defect.toIssue, Issue.isRepeat]
      · exact ih there
    · exact ih there

/-- Nothing that comes later is a clip's own. -/
theorem isOf_of_late {members : List (String × Json)} (there : d ∈ late members tracks) :
    d.toIssue.isOf i j = false := by
  rcases List.mem_append.1 there with again | global
  · rw [Issue.isOf, isRepeat_of_duplicates again]
    exact Bool.and_false _
  · rw [Issue.isOf, isAt_clipPath_of_head (ofGlobals members _ d global).elsewhere]
    rfl

theorem isGlobal_of_head {e : Issue} (h : e.path.toList.head? = some 't') : e.isGlobal = false := by
  rw [Bool.eq_false_iff]
  intro global
  simp only [Issue.isGlobal, List.contains_eq_mem, List.mem_cons, List.not_mem_nil, or_false,
    decide_eq_true_eq] at global
  rcases global with path | path | path | path | path | path <;> rw [path] at h <;>
    exact absurd h (by decide)

/-- Nothing that comes early is about an id, or about a field of the timeline. -/
theorem fresh_of_early (there : d ∈ early tracks) :
    d.toIssue.isRepeat = false ∧ d.toIssue.isGlobal = false := by
  rcases List.mem_append.1 there with missing | there
  · cases tracks with
    | nil =>
      rw [List.mem_singleton.1 missing]
      exact ⟨by decide, by decide⟩
    | cons => cases missing
  · obtain ⟨⟨t, i⟩, ht, there⟩ := List.mem_flatMap.1 there
    have defects := track_defects i t
    dsimp only at there
    generalize track i t = ds at defects there
    cases defects with
    | clips found filled =>
      obtain ⟨⟨c, j⟩, hc, there⟩ := List.mem_flatMap.1 there
      obtain ⟨o, ho, rfl⟩ := List.mem_map.1 there
      refine ⟨(own_clip c o ho).fresh, isGlobal_of_head ?_⟩
      rw [Own.below_path, clipPath_toList]
      rfl
    | whole clipless fresh short =>
      rw [List.mem_singleton.1 there]
      refine ⟨fresh, isGlobal_of_head ?_⟩
      rw [toIssue_track_toList]
      rfl

/-! ## The order of the errors -/

/-- The errors of tracks and clips come in the order of the clips. -/
theorem early_sorted (tracks : List Json) : (early tracks).Pairwise fun d d' =>
    ∀ i j i' j', d.toIssue.isOf i j → d'.toIssue.isOf i' j' →
      (i, j) = (i', j') ∨ Earlier (i, j) (i', j') := by
  refine List.pairwise_append.2 ⟨?_, ?_, ?_⟩
  · cases tracks with
    | nil => exact List.pairwise_singleton ..
    | cons => exact .nil
  · rw [List.pairwise_flatMap]
    constructor
    · rintro ⟨t, k⟩ -
      have defects := track_defects k t
      dsimp only
      generalize track k t = ds at defects
      cases defects with
      | clips =>
        rw [List.pairwise_flatMap]
        constructor
        · rintro ⟨c, m⟩ -
          refine List.pairwise_map.2 (List.pairwise_iff_forall_sublist.2 fun sub => ?_)
          have first := own_clip c _ (sub.subset List.mem_cons_self)
          have second := own_clip c _ (sub.subset (List.mem_cons_of_mem _ List.mem_cons_self))
          exact fun i j i' j' h h' => .inl ((first.isOf_iff.1 h).symm.trans (second.isOf_iff.1 h'))
        · refine (zipIdx_sorted _).imp ?_
          rintro ⟨c, m⟩ ⟨c', m'⟩ lt d there d' there' i j i' j' h h'
          obtain ⟨o, ho, rfl⟩ := List.mem_map.1 there
          obtain ⟨o', ho', rfl⟩ := List.mem_map.1 there'
          obtain ⟨⟩ := (own_clip c o ho).isOf_iff.1 h
          obtain ⟨⟩ := (own_clip c' o' ho').isOf_iff.1 h'
          exact .inr (.inr ⟨rfl, lt⟩)
      | whole => exact List.pairwise_singleton ..
    · refine (zipIdx_sorted _).imp ?_
      rintro ⟨t, k⟩ ⟨t', k'⟩ lt d there d' there' i j i' j' h h'
      obtain ⟨rfl, -⟩ := isOf_of_track there h
      obtain ⟨rfl, -⟩ := isOf_of_track there' h'
      exact .inr (.inl lt)
  · intro d missing d' there
    cases tracks with
    | nil => cases there
    | cons => cases missing

/-! ## Clips by themselves -/

theorem track_single (c : Json) : track 0 (single c) = (clip c).map (·.below (clipPath 0 0)) :=
  List.append_nil _

theorem clipAt?_single {b c : Json} (h : clipAt? [single c] i j = some b) : c = b := by
  obtain ⟨t, cs, ht, found, hb⟩ := clipAt?_eq_some h
  obtain rfl := List.mem_singleton.1 (List.mem_of_getElem? ht)
  obtain rfl : [c] = cs := by simpa [single, Json.get?, Json.lookup] using found
  exact (List.mem_singleton.1 (List.mem_of_getElem? hb)).symm

/-- A clip alone repeats no id, and the fields that it has no values for are in order. -/
theorem late_single (c : Json) : late [("tracks", .array [single c])] [single c] = [] := by
  have once : (ids [single c]).length ≤ 1 := by
    rw [ids_eq_identified, List.length_map, identified]
    refine (List.length_filterMap_le ..).trans ?_
    cases c <;> exact Nat.le_of_ble_eq_true rfl
  have fresh : duplicates [] (ids [single c]) = [] := by
    match ids [single c], once with
    | [], _ => rfl
    | [_], _ => rfl
  rw [late, fresh]
  rfl

/-- A clip of a document that can be checked can be checked by itself. -/
theorem check_alone {members : List (String × Json)} {report : Report} {c : Json}
    (found : Json.lookup "tracks" members = some (.array tracks))
    (h : check (.object members) = .ok report) (hc : clipAt? tracks i j = some c) :
    ∃ sole, check (alone c) = .ok sole ∧
      sole.errors = ((clip c).map (·.below (clipPath 0 0))).map Defect.toIssue := by
  have intact : ¬Breaks (alone c) := by
    rintro ⟨there, breaks⟩
    rename_i item
    obtain rfl := clipAt?_single (mem_objectClips.1 there)
    have clips : ((i, j), item.2) ∈ objectClips (tracksOf members) := by
      rw [tracksOf, found, trackList_fst]
      exact mem_objectClips.2 hc
    refine (check_ok_iff_not_breaks (.object members)).1 ⟨report, h⟩ (.clip clips ?_)
    cases breaks with
    | type there unknown digits => exact .type there unknown digits
    | id there truthy digits => exact .id there truthy digits
    | sum limited => cases limited
    | warning limited => cases limited
  obtain ⟨sole, ok⟩ := (check_ok_iff_not_breaks (alone c)).2 intact
  refine ⟨sole, ok, ?_⟩
  rw [@errors_eq [single c] _ _ rfl ok, late_single, List.append_nil, early, ← track_single]
  exact congrArg _ (List.append_nil _)

/-! ## The theorem -/

/-- **Independence.** What the check of a document with a list of tracks reports about one clip is
what it reports about this clip alone; these errors come in order, before all others, and an id used
twice is reported at each clip that has the id of an earlier one, once. -/
theorem errors_independent {members : List (String × Json)} {report : Report}
    (found : Json.lookup "tracks" members = some (.array tracks))
    (h : check (.object members) = .ok report) : Independent tracks report := by
  have errors := errors_eq found h
  have before : (early tracks).filter (Issue.isRepeat ∘ Defect.toIssue) = [] :=
    List.filter_eq_nil_iff.2 fun d there => by simp [fresh_of_early there]
  have repeats : (duplicates [] (ids tracks)).filter (Issue.isRepeat ∘ Defect.toIssue) =
      duplicates [] (ids tracks) := List.filter_eq_self.2 fun d there => isRepeat_of_duplicates there
  have own : (globals members ++ duration ((Json.lookup "duration" members).getD .null)).filter
      (Issue.isRepeat ∘ Defect.toIssue) = [] :=
    List.filter_eq_nil_iff.2 fun d there => by simp [(ofGlobals members _ d there).fresh]
  have others (i j : Nat) : (late members tracks).filter (Issue.isOf i j ∘ Defect.toIssue) = [] :=
    List.filter_eq_nil_iff.2 fun d there => by simp [isOf_of_late there]
  have paths : (report.errors.filter Issue.isRepeat).map (·.path) =
      (duplicates [] (ids tracks)).map (·.path) := by
    rw [errors, List.filter_map, List.filter_append, before, late, List.filter_append, repeats, own,
      List.nil_append, List.append_nil, List.map_map]
    rfl
  refine ⟨fun i j c hc => ?own, ?ordered, ?first, fun i j => ?repeated, ?once, ?placed⟩
  case own =>
    obtain ⟨sole, ok, same⟩ := check_alone found h hc
    refine ⟨sole, ok, ?_⟩
    have clip : (early tracks).filter (Issue.isOf i j ∘ Defect.toIssue) = _ := filter_early hc
    rw [errors, List.filter_map, List.filter_append, clip, others, List.append_nil, same]
    simp only [List.map_map]
    exact List.map_congr_left fun d _ => zeroed_below d
  case ordered =>
    rw [errors, List.pairwise_map, List.pairwise_append]
    refine ⟨early_sorted tracks, List.pairwise_of_forall_mem_list ?_, ?_⟩
    · intro d there d' there' i j i' j' h
      rw [isOf_of_late there] at h
      cases h
    · intro d there d' there' i j i' j' h h'
      rw [isOf_of_late there'] at h'
      cases h'
  case first =>
    rw [errors, List.pairwise_map, List.pairwise_append]
    refine ⟨List.pairwise_of_forall_mem_list ?_, List.pairwise_of_forall_mem_list ?_, ?_⟩
    · intro d there d' there' special
      simp [fresh_of_early there] at special
    · exact fun d there d' there' _ i j => isOf_of_late there'
    · exact fun d there d' there' _ i j => isOf_of_late there'
  case repeated =>
    rw [← mem_duplicates_ids, ← paths]
    simp [List.mem_map, List.mem_filter, and_assoc]
  case once =>
    rw [paths]
    exact duplicates_nodup tracks
  case placed =>
    intro e there again
    have named : e.path ∈ (report.errors.filter Issue.isRepeat).map (·.path) :=
      List.mem_map_of_mem (List.mem_filter.2 ⟨there, again⟩)
    rw [paths] at named
    have at_id := (duplicates_sublist _ _).subset named
    rw [ids_eq_identified, List.map_map] at at_id
    obtain ⟨e', -, path⟩ := List.mem_map.1 at_id
    exact ⟨e'.1.1, e'.1.2, path.symm⟩

/-- The tracks of a document with six defects: two of one clip, a clip that is none, a track that is
none, an id used again and a frame rate of zero. -/
def crowdedTracks : List Json :=
  [.object [("clips", .array [.object [("type", .string "text"), ("text", .string ""),
      ("duration", .int (-1)), ("id", .string "a")], .int 7])],
    .int 5,
    .object [("clips", .array [.object [("type", .string "text"), ("text", .string "Hi"),
      ("duration", .int 5), ("id", .string "a")]])]]

theorem errors_independent_crowded : ∃ report,
    check (.object [("tracks", .array crowdedTracks), ("fps", .int 0)]) = .ok report ∧
      report.errors.map (·.path) = ["tracks[0].clips[0].duration", "tracks[0].clips[0].text",
        "tracks[0].clips[1]", "tracks[1]", "tracks[2].clips[0].id", "fps"] ∧
      Independent crowdedTracks report := by
  have paths : (check (.object [("tracks", .array crowdedTracks), ("fps", .int 0)])).map
      (fun report => report.errors.map (·.path)) = .ok ["tracks[0].clips[0].duration",
        "tracks[0].clips[0].text", "tracks[0].clips[1]", "tracks[1]", "tracks[2].clips[0].id",
        "fps"] := by decide +kernel
  obtain ⟨report, checked, paths⟩ := Graph.except_map_ok.1 paths
  exact ⟨report, checked, paths, errors_independent rfl checked⟩

end Check
end Montage
