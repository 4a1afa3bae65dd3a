import Montage.Proofs.Timeline.Names

/-!
# The places of clips

A clip has a place: its track, and its number in it. The path that an issue has for the place tells
it, whatever field the path leads on to (`clipPath_append_inj`). The check goes through the clips in
the order of their places (`objectClips_sorted`), and it reports the id of a clip as used twice if
and only if a clip before it has the same one (`mem_duplicates_ids`).
-/
namespace Montage.Check

/-- The clip in a place, if there is one. -/
def clipAt? (tracks : List Json) (i j : Nat) : Option Json :=
  match tracks[i]?.bind (·.get? "clips") with
  | some (.array clips) => clips[j]?
  | _ => none

/-- The text of the id of the clip in a place, if it has one that does not count as absent. -/
def idAt? (tracks : List Json) (i j : Nat) : Option String :=
  match clipAt? tracks i j with
  | some (.object members) => checkedId members
  | _ => none

/-- The order of the clips: by their tracks, then by their places in it. -/
def Earlier (p q : Nat × Nat) : Prop := p.1 < q.1 ∨ p.1 = q.1 ∧ p.2 < q.2

/-- The clip in a place has the id of an earlier one. -/
def Repeats (tracks : List Json) (i j : Nat) : Prop :=
  ∃ id i' j', Earlier (i', j') (i, j) ∧ idAt? tracks i' j' = some id ∧ idAt? tracks i j = some id

variable {tracks : List Json} {i j i' j' : Nat}

/-! ## Paths -/

theorem append_cons_inj_of_notMem {α : Type} {c : α} {xs ys us vs : List α} (hx : c ∉ xs)
    (hy : c ∉ ys) (h : xs ++ c :: us = ys ++ c :: vs) : xs = ys ∧ us = vs := by
  induction xs generalizing ys with
  | nil =>
    cases ys with
    | nil => exact ⟨rfl, (List.cons.inj h).2⟩
    | cons y ys => exact absurd ((List.cons.inj h).1 ▸ List.mem_cons_self) hy
  | cons x xs ih =>
    cases ys with
    | nil => exact absurd ((List.cons.inj h).1 ▸ List.mem_cons_self) hx
    | cons y ys =>
      obtain ⟨rfl, tails⟩ := List.cons.inj h
      obtain ⟨rfl, rest⟩ := ih (fun m => hx (List.mem_cons_of_mem _ m))
        (fun m => hy (List.mem_cons_of_mem _ m)) tails
      exact ⟨rfl, rest⟩

/-- An index tells itself from what comes behind its bracket. -/
theorem index_append_inj {m n : Nat} {us vs : List Char}
    (h : (toString m).toList ++ ']' :: us = (toString n).toList ++ ']' :: vs) :
    m = n ∧ us = vs := by
  have digits (k : Nat) : ']' ∉ (toString k).toList := by
    rw [Nat.toString_eq_repr, Nat.toList_repr]
    exact fun there => absurd (Nat.isDigit_of_mem_toDigits (by decide) (by decide) there) (by decide)
  obtain ⟨same, rest⟩ := append_cons_inj_of_notMem (digits m) (digits n) h
  exact ⟨Graph.toString_inj.1 (String.toList_inj.1 same), rest⟩

theorem clipPath_toList (i j : Nat) : (clipPath i j).toList = "tracks[".toList ++
    ((toString i).toList ++ ']' :: (".clips[".toList ++ ((toString j).toList ++ [']']))) := by
  simp [clipPath]

/-- The path of a clip tells the clip, whatever it leads on to. -/
theorem clipPath_append_inj {us vs : List Char}
    (h : (clipPath i j).toList ++ us = (clipPath i' j').toList ++ vs) :
    i = i' ∧ j = j' ∧ us = vs := by
  simp only [clipPath_toList, List.append_assoc, List.cons_append, List.nil_append] at h
  obtain ⟨track, h⟩ := index_append_inj (List.append_cancel_left h)
  obtain ⟨place, h⟩ := index_append_inj (List.append_cancel_left h)
  exact ⟨track, place, h⟩

/-! ## Clips -/

theorem zipIdx_sorted {α : Type} (items : List α) : items.zipIdx.Pairwise fun a b => a.2 < b.2 := by
  rw [← List.pairwise_map (f := Prod.snd) (R := (· < ·)), List.zipIdx_map_snd]
  exact List.pairwise_lt_range' ..

theorem clipAt?_eq_some {c : Json} (h : clipAt? tracks i j = some c) :
    ∃ t cs, tracks[i]? = some t ∧ t.get? "clips" = some (.array cs) ∧ cs[j]? = some c := by
  unfold clipAt? at h
  split at h
  · next cs found =>
    obtain ⟨t, ht, found⟩ := Option.bind_eq_some_iff.1 found
    exact ⟨t, cs, ht, found, h⟩
  · cases h

theorem mem_objectClips {members : List (String × Json)} :
    ((i, j), members) ∈ objectClips tracks ↔ clipAt? tracks i j = some (.object members) := by
  constructor
  · intro there
    obtain ⟨⟨t, k⟩, ht, there⟩ := List.mem_flatMap.1 there
    rw [List.mem_zipIdx_iff_getElem?] at ht
    dsimp only [trackClips] at there ht
    split at there
    · next cs found =>
      obtain ⟨⟨c, m⟩, hc, there⟩ := List.mem_filterMap.1 there
      rw [List.mem_zipIdx_iff_getElem?] at hc
      dsimp only at there hc
      split at there
      · cases there
        simp [clipAt?, ht, found, hc]
      · cases there
    · cases there
  · intro h
    obtain ⟨t, cs, ht, found, hc⟩ := clipAt?_eq_some h
    refine List.mem_flatMap.2 ⟨(t, i), List.mem_zipIdx_iff_getElem?.2 ht, ?_⟩
    simp only [trackClips, found]
    exact List.mem_filterMap.2 ⟨(.object members, j), List.mem_zipIdx_iff_getElem?.2 hc, rfl⟩

theorem Earlier.irrefl (p : Nat × Nat) : ¬Earlier p p := by
  unfold Earlier
  omega

theorem Earlier.asymm {p q : Nat × Nat} (h : Earlier p q) : ¬Earlier q p := by
  unfold Earlier at *
  omega

theorem track_of_trackClips {t : Json} {item : (Nat × Nat) × List (String × Json)}
    (there : item ∈ trackClips i t) : item.1.1 = i := by
  unfold trackClips at there
  split at there
  · obtain ⟨⟨c, m⟩, -, there⟩ := List.mem_filterMap.1 there
    dsimp only at there
    split at there <;> cases there
    rfl
  · cases there

theorem objectClips_sorted (tracks : List Json) :
    (objectClips tracks).Pairwise fun a b => Earlier a.1 b.1 := by
  refine List.pairwise_flatMap.2 ⟨?_, (zipIdx_sorted _).imp ?_⟩
  · rintro ⟨t, k⟩ -
    dsimp only [trackClips]
    split
    · refine List.Pairwise.filterMap _ ?_ (zipIdx_sorted _)
      rintro ⟨c, m⟩ ⟨c', m'⟩ lt item there item' there'
      dsimp only at there there'
      split at there <;> cases there
      split at there' <;> cases there'
      exact .inr ⟨rfl, lt⟩
    · exact .nil
  · rintro ⟨t, k⟩ ⟨t', k'⟩ lt item there item' there'
    refine .inl ?_
    rw [track_of_trackClips there, track_of_trackClips there']
    exact lt

/-! ## Ids -/

/-- The clips with ids, in order. -/
def identified (tracks : List Json) : List ((Nat × Nat) × String) :=
  (objectClips tracks).filterMap fun item => (checkedId item.2).map (item.1, ·)

theorem ids_eq_identified (tracks : List Json) : ids tracks =
    (identified tracks).map fun e => (e.2, clipPath e.1.1 e.1.2 ++ ".id") := by
  unfold ids identified
  rw [List.map_filterMap]
  congr 1
  funext ⟨⟨i, j⟩, c⟩
  unfold checkedId
  dsimp only
  cases Json.lookup "id" c with
  | none => rfl
  | some id =>
    rw [Option.bind_some]
    dsimp only
    cases id.isTruthy <;> rfl

theorem mem_identified {id : String} :
    ((i, j), id) ∈ identified tracks ↔ idAt? tracks i j = some id := by
  unfold identified idAt?
  rw [List.mem_filterMap]
  constructor
  · rintro ⟨⟨place, members⟩, there, h⟩
    obtain ⟨_, checked, ⟨⟩⟩ := Option.map_eq_some_iff.1 h
    rw [mem_objectClips.1 there]
    exact checked
  · intro h
    split at h
    · next members found =>
      exact ⟨((i, j), members), mem_objectClips.2 found, by rw [h]; rfl⟩
    · cases h

theorem identified_sorted (tracks : List Json) :
    (identified tracks).Pairwise fun a b => Earlier a.1 b.1 := by
  refine List.Pairwise.filterMap _ ?_ (objectClips_sorted tracks)
  rintro item item' earlier a ha a' ha'
  obtain ⟨id, -, rfl⟩ := Option.map_eq_some_iff.1 ha
  obtain ⟨id', -, rfl⟩ := Option.map_eq_some_iff.1 ha'
  exact earlier

/-- A split of a list is at its first item, or behind it. -/
theorem exists_split_cons {α : Type} {P : List α → α → Prop} {a : α} {rest : List α} :
    (∃ before b after, a :: rest = before ++ b :: after ∧ P before b) ↔
      P [] a ∨ ∃ before b after, rest = before ++ b :: after ∧ P (a :: before) b := by
  constructor
  · rintro ⟨_ | ⟨_, before⟩, b, after, h, p⟩
    · cases h
      exact .inl p
    · obtain ⟨rfl, tails⟩ := List.cons.inj h
      exact .inr ⟨before, b, after, tails, p⟩
  · rintro (p | ⟨before, b, after, rfl, p⟩)
    · exact ⟨[], a, rest, rfl, p⟩
    · exact ⟨a :: before, b, after, rfl, p⟩

/-- An id is reported if it was used before, be it in the part that the list continues. -/
theorem mem_duplicates {seen names : List (String × String)} {path : String} :
    path ∈ (duplicates seen names).map (·.path) ↔
      ∃ before name after, names = before ++ name :: after ∧
        (name.2 = path ∧ ∃ s ∈ seen ++ before, s.1 = name.1) := by
  induction names generalizing seen with
  | nil => simp [duplicates]
  | cons name rest ih =>
    rw [exists_split_cons, List.append_nil]
    unfold duplicates
    cases found : seen.find? fun s => s.1 == name.1 with
    | some first =>
      have there := List.mem_of_find?_eq_some found
      have same : first.1 = name.1 := by simpa using List.find?_some found
      -- the name need not be added: an earlier use stands for it
      have known (before : List (String × String)) (id : String) :
          (∃ s ∈ seen ++ name :: before, s.1 = id) ↔ ∃ s ∈ seen ++ before, s.1 = id := by
        simp only [List.mem_append, List.mem_cons]
        constructor
        · rintro ⟨s, hs | rfl | hs, h⟩
          · exact ⟨s, .inl hs, h⟩
          · exact ⟨first, .inl there, same.trans h⟩
          · exact ⟨s, .inr hs, h⟩
        · rintro ⟨s, hs | hs, h⟩
          · exact ⟨s, .inl hs, h⟩
          · exact ⟨s, .inr (.inr hs), h⟩
      simp only [known]
      rw [List.map_cons, List.mem_cons, ih, @eq_comm _ path]
      exact or_congr_left (and_iff_left ⟨first, there, same⟩).symm
    | none =>
      have unused : ¬∃ s ∈ seen, s.1 = name.1 := by
        rintro ⟨s, hs, same⟩
        exact List.find?_eq_none.1 found s hs (by simpa using same)
      rw [ih]
      simp [unused]

theorem duplicates_sublist (seen names : List (String × String)) :
    ((duplicates seen names).map (·.path)).Sublist (names.map (·.2)) := by
  induction names generalizing seen with
  | nil => exact .slnil
  | cons name rest ih =>
    unfold duplicates
    split
    · exact (ih seen).cons_cons _
    · exact (ih _).cons _

/-- A clip is named by a repeated id if and only if it has the id of an earlier one. -/
theorem mem_duplicates_ids : clipPath i j ++ ".id" ∈ (duplicates [] (ids tracks)).map (·.path) ↔
    Repeats tracks i j := by
  have sorted := identified_sorted tracks
  rw [mem_duplicates, ids_eq_identified]
  simp only [List.nil_append]
  constructor
  · rintro ⟨before, name, after, split, path, s, hs, named⟩
    obtain ⟨firsts, others, all, rfl, here⟩ := List.map_eq_append_iff.1 split
    obtain ⟨e, rest, rfl, rfl, -⟩ := List.map_eq_cons_iff.1 here
    obtain ⟨rfl, rfl⟩ := clipPath_inj ((String.append_left_inj _).1 path)
    obtain ⟨f, hf, rfl⟩ := List.mem_map.1 hs
    have same : f.2 = e.2 := named
    rw [all] at sorted
    refine ⟨e.2, f.1.1, f.1.2, (List.pairwise_append.1 sorted).2.2 f hf e List.mem_cons_self,
      mem_identified.1 ?_, mem_identified.1 ?_⟩
    · rw [all, ← same]
      exact List.mem_append_left _ hf
    · rw [all]
      exact List.mem_append_right _ List.mem_cons_self
  · rintro ⟨id, i', j', earlier, first, second⟩
    obtain ⟨firsts, others, all⟩ := List.append_of_mem (mem_identified.2 second)
    rw [all, List.map_append, List.map_cons]
    refine ⟨_, _, _, rfl, rfl, (id, clipPath i' j' ++ ".id"),
      List.mem_map.2 ⟨((i', j'), id), ?_, rfl⟩, rfl⟩
    -- what comes after the clip, or is the clip, is not earlier
    have there := mem_identified.2 first
    rw [all] at there sorted
    rcases List.mem_append.1 there with there | there
    · exact there
    · rcases List.mem_cons.1 there with same | there
      · cases same
        exact absurd earlier (Earlier.irrefl _)
      · have later := (List.pairwise_cons.1 (List.pairwise_append.1 sorted).2.1).1 _ there
        exact absurd earlier later.asymm

theorem duplicates_nodup (tracks : List Json) :
    ((duplicates [] (ids tracks)).map (·.path)).Nodup := by
  refine (duplicates_sublist [] (ids tracks)).nodup ?_
  rw [ids_eq_identified, List.map_map]
  refine List.pairwise_map.2 ((identified_sorted tracks).imp ?_)
  intro a b earlier same
  obtain ⟨track, place⟩ := clipPath_inj ((String.append_left_inj _).1 same)
  exact Earlier.irrefl a.1 ((Prod.ext track place : a.1 = b.1) ▸ earlier)

end Montage.Check
