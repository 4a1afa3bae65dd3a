import Mathlib.Data.List.Pairwise
import Montage.Proofs.Compiler.Numbering
import Montage.Proofs.Timeline.Accepted

/-!
# The names of clips

A clip is named by its id, and a clip without one by its place (`Clip.ref`). The check refuses ids
that occur twice, but it looks at the ids of the document and leaves out those that count as
absent; the number zero is one of them, and is read as the id `0`. `refs_nodup_iff` says what
comes of it: the names in an accepted timeline differ unless two clips have the id `0`, or one has
the place of another for its id (`Unambiguous`).
-/
namespace Montage

/-- The name that a clip brings, if it brings one. -/
def Clip.name? (c : Clip) : Option String := c.id.join.filter (!·.isEmpty)

namespace Timeline

/-- The names of all clips, in drawing order. -/
def refs (t : Timeline) : List String := t.slots.map fun s => Clip.ref s.1.1 s.1.2 (some s.2)

/-- No two clips have the id `0`, and no clip has the place of a nameless one for its id. -/
structure Unambiguous (t : Timeline) : Prop where
  zero : ∀ s ∈ t.slots, ∀ s' ∈ t.slots, s.2.name? = some "0" → s'.2.name? = some "0" → s = s'
  place : ∀ s ∈ t.slots, ∀ s' ∈ t.slots, s.2.name? = some (Check.clipPath s'.1.1 s'.1.2) →
    s'.2.name? ≠ none

end Timeline

theorem Clip.ref_eq (i j : Nat) (c : Clip) :
    Clip.ref i j (some c) = c.name?.getD (Check.clipPath i j) := by
  rcases c with ⟨_ | _ | id, _, _, _, _, _, _, _⟩
  · rfl
  · rfl
  · show (if id.isEmpty then _ else id) = (if !id.isEmpty then some id else none).getD _
    cases id.isEmpty <;> rfl

/-! ## Places -/

/-- A place tells its track and its number. -/
theorem clipPath_inj {i j i' j' : Nat} (h : Check.clipPath i j = Check.clipPath i' j') :
    i = i' ∧ j = j' := by
  have stem (i : Nat) : Graph.Unnumbered ("tracks[" ++ toString i ++ "].clips[") := by
    refine Graph.unnumbered_of_getLast? (c := '[') ?_ rfl
    rw [String.toList_append, List.getLast?_append]
    rfl
  obtain ⟨stems, numbers⟩ := Graph.numbered_inj (stem i) (stem i') ((String.append_left_inj _).1 h)
  rw [String.append_left_inj, String.append_right_inj, Graph.toString_inj] at stems
  exact ⟨stems, numbers⟩

/-! ## What the check knows of ids -/

/-- The id that the check compares, if it looks at the clip. -/
def checkedId (members : List (String × Json)) : Option String :=
  (Json.lookup "id" members).bind fun id => if id.isTruthy then some id.text else none

theorem duplicates_eq_nil {seen ids : List (String × String)} :
    Check.duplicates seen ids = [] ↔
      (ids.map (·.1)).Nodup ∧ ∀ id ∈ ids, ∀ s ∈ seen, s.1 ≠ id.1 := by
  induction ids generalizing seen with
  | nil => simp [Check.duplicates]
  | cons id rest ih =>
    obtain ⟨name, path⟩ := id
    unfold Check.duplicates
    cases found : seen.find? fun s => s.1 == name with
    | some first =>
      have used := List.mem_of_find?_eq_some found
      have same : first.1 = name := by simpa using List.find?_some found
      simp only [reduceCtorEq, false_iff]
      exact fun h => h.2 (name, path) (List.mem_cons_self ..) first used same
    | none =>
      have unused : ∀ s ∈ seen, s.1 ≠ name := by simpa using List.find?_eq_none.1 found
      simp only [ih, List.map_cons, List.nodup_cons, List.forall_mem_cons, List.mem_append,
        List.mem_singleton]
      constructor
      · rintro ⟨nodup, fresh⟩
        refine ⟨⟨fun again => ?_, nodup⟩, unused, fun id hid s hs => fresh id hid s (.inl hs)⟩
        obtain ⟨id, hid, e⟩ := List.mem_map.1 again
        exact fresh id hid (name, path) (.inr rfl) e.symm
      · rintro ⟨⟨fresh, nodup⟩, -, others⟩
        refine ⟨nodup, fun id hid s hs => ?_⟩
        rcases hs with hs | rfl
        · exact others id hid s hs
        · exact fun e => fresh (List.mem_map.2 ⟨id, hid, e.symm⟩)

theorem ids_eq (docs : List Json) :
    (Check.ids docs).map (·.1) = (Check.objectClips docs).filterMap fun d => checkedId d.2 := by
  unfold Check.ids
  rw [List.map_filterMap]
  congr 1
  funext ⟨⟨i, j⟩, c⟩
  unfold checkedId
  dsimp only
  cases Json.lookup "id" c with
  | none => rfl
  | some id =>
    rw [Option.bind_some]
    dsimp only
    cases id.isTruthy <;> rfl

theorem readId_ok {v : Json} {o : Option String} (h : readId v = .ok o) :
    v = .null ∧ o = none ∨ (∃ n : Int, v = Json.int n ∧ o = some (toString n)) ∨
      ∃ s, v = .string s ∧ o = some s := by
  unfold readId at h
  split at h
  · next n =>
    split at h
    · next digits written =>
      cases h
      exact .inr (.inl ⟨n, rfl, congrArg some (Number.written_ok_iff.1 written).2.symm⟩)
    · cases h
  · rcases Schema.nullable_ok h with ⟨rfl, rfl⟩ | ⟨s, hs, rfl⟩
    · exact .inl ⟨rfl, rfl⟩
    · exact .inr (.inr ⟨s, Schema.string_ok hs, rfl⟩)

/-- A number has at least one digit. -/
theorem isEmpty_toString (n : Int) : (toString n).isEmpty = false := by
  have digits (m : Nat) : (toString m).toList ≠ [] := by
    rw [Nat.toString_eq_repr, Nat.toList_repr]
    exact List.ne_nil_of_length_pos Nat.length_toDigits_pos
  rw [← Bool.not_eq_true, String.isEmpty_iff, ← String.toList_inj]
  cases n with
  | ofNat m => exact digits m
  | negSucc m =>
    show ("-" ++ toString (m + 1)).toList ≠ []
    simp

/-- What the check sees of a clip's id, and what it is read as: the same, or nothing and `0`. -/
theorem checkedId_of_read {members : List (String × Json)} {c : Clip}
    (h : Schema.optional ["id"] readId members = .ok c.id) :
    checkedId members = c.name? ∨ checkedId members = none ∧ c.name? = some "0" := by
  have read := Schema.optional_ok h
  rw [Schema.find_one] at read
  unfold checkedId Clip.name?
  cases found : Json.lookup "id" members with
  | none =>
    rw [found] at read
    rw [show c.id = none from read]
    exact .inl rfl
  | some v =>
    rw [found] at read
    obtain ⟨o, ho, hid⟩ := read
    rw [hid, Option.bind_some, Option.join_some]
    rcases readId_ok ho with ⟨rfl, rfl⟩ | ⟨n, rfl, rfl⟩ | ⟨s, rfl, rfl⟩
    · exact .inl rfl
    · rcases eq_or_ne n 0 with rfl | ne
      · exact .inr ⟨by decide, by decide⟩
      · refine .inl ?_
        have zero : (Number.int n).isZero = false := by
          rw [Bool.eq_false_iff]
          intro same
          refine ne ?_
          simpa [Number.isZero, Number.same, Number.value, Number.Value.compare?] using same
        have truthy : (Json.int n).isTruthy = true := by
          show (!(Number.int n).isZero) = true
          rw [zero]
          rfl
        rw [if_pos truthy, Option.filter_some, isEmpty_toString]
        rfl
    · refine .inl ?_
      show (if !s.isEmpty then some s else none) = if !s.isEmpty then some s else none
      rfl

/-! ## Documents and clips, slot by slot -/

section

variable {α β : Type} {R : α → β → Prop}

theorem forall₂_zipIdx {as : List α} {bs : List β} (h : List.Forall₂ R as bs) (n : Nat) :
    List.Forall₂ (fun a b => R a.1 b.1 ∧ a.2 = b.2) (as.zipIdx n) (bs.zipIdx n) := by
  induction h generalizing n with
  | nil => exact .nil
  | cons first _ ih => exact .cons ⟨first, rfl⟩ (ih (n + 1))

/-- A relation within one list holds within the other. -/
theorem pairwise_forall₂ {S : α → α → Prop} {T : β → β → Prop} {as : List α} {bs : List β}
    (h : List.Forall₂ R as bs) (pairs : as.Pairwise S)
    (carry : ∀ a b a' b', R a b → R a' b' → S a a' → T b b') : bs.Pairwise T := by
  induction h with
  | nil => exact .nil
  | @cons a b as bs first rest ih =>
    obtain ⟨others, pairs⟩ := List.pairwise_cons.1 pairs
    refine List.pairwise_cons.2 ⟨fun b' hb' => ?_, ih pairs⟩
    obtain ⟨a', ha', -, later⟩ := forall₂_right rest hb'
    exact carry a b a' b' first later (others a' ha')

end

/-- The document of a clip in its slot. -/
def Documents (d : (Nat × Nat) × List (String × Json)) (s : (Nat × Nat) × Clip) : Prop :=
  d.1 = s.1 ∧ Schema.optional ["id"] readId d.2 = .ok s.2.id

theorem documents_track {v : Json} {t : Track} (h : AcceptedTrack v t) (i : Nat) :
    List.Forall₂ Documents (Check.trackClips i v)
      (t.clipList.zipIdx.map fun (c, j) => ((i, j), c)) := by
  obtain ⟨docs, found, -, pairs⟩ := h.clips
  unfold Check.trackClips
  rw [found, ← List.filterMap_eq_map]
  refine List.rel_filterMap ?_ (forall₂_zipIdx pairs 0)
  rintro ⟨doc, j⟩ ⟨c, j'⟩ ⟨accepted, rfl⟩
  obtain ⟨members, _, _, _, rfl, -, -, fields⟩ := Clip.ofJson_ok accepted.read
  exact .some ⟨rfl, fields.id⟩

/-- The clips that the check looks at are those that were read, in their slots. -/
theorem Accepted.documents {members : List (String × Json)} {docs : List Json} {t : Timeline}
    (a : Accepted members docs t) : List.Forall₂ Documents (Check.objectClips docs) t.slots := by
  refine List.rel_flatMap (forall₂_zipIdx a.each 0) ?_
  rintro ⟨v, i⟩ ⟨track, i'⟩ ⟨accepted, rfl⟩
  exact documents_track accepted i

/-- Whether two clips bring no name in common but `0`. -/
def Apart (s s' : (Nat × Nat) × Clip) : Prop :=
  ∀ name, s.2.name? = some name → s'.2.name? = some name → name = "0"

instance : Std.Symm Apart := ⟨fun _ _ apart name h h' => apart name h' h⟩

/-- No name but `0` is brought by two clips. -/
theorem Accepted.apart {members : List (String × Json)} {docs : List Json} {t : Timeline}
    (a : Accepted members docs t) {s s' : (Nat × Nat) × Clip} (hs : s ∈ t.slots)
    (hs' : s' ∈ t.slots) (ne : s ≠ s') : Apart s s' := by
  have nodup := (duplicates_eq_nil.1 a.ids).1
  rw [ids_eq, List.Nodup, List.pairwise_filterMap] at nodup
  have apart : t.slots.Pairwise Apart := by
    refine pairwise_forall₂ a.documents nodup ?_
    rintro d s d' s' ⟨-, read⟩ ⟨-, read'⟩ distinct name h h'
    rcases checkedId_of_read read with seen | ⟨-, zero⟩
    · rcases checkedId_of_read read' with seen' | ⟨-, zero⟩
      · exact absurd rfl (distinct name (seen.trans h) name (seen'.trans h'))
      · exact Option.some.inj (h'.symm.trans zero)
    · exact Option.some.inj (h.symm.trans zero)
  exact apart.forall hs hs' ne

/-! ## Names -/

/-- The names of an accepted timeline's clips differ if and only if at most one clip has the id
`0` and no clip has the place of a nameless one for its id. -/
theorem refs_nodup {members : List (String × Json)} {docs : List Json} {t : Timeline}
    (a : Accepted members docs t) : t.refs.Nodup ↔ t.Unambiguous := by
  have slots := Compiler.slots_nodup t
  unfold Timeline.refs
  rw [List.nodup_map_iff_inj_on slots.of_map]
  constructor
  · intro inj
    constructor
    · intro s hs s' hs' h h'
      refine inj s hs s' hs' ?_
      rw [Clip.ref_eq, Clip.ref_eq, h, h']
      rfl
    · intro s hs s' hs' shadows nameless
      have same : s = s' := by
        refine inj s hs s' hs' ?_
        rw [Clip.ref_eq, Clip.ref_eq, shadows, nameless]
        rfl
      rw [same, nameless] at shadows
      cases shadows
  · rintro ⟨zero, place⟩ s hs s' hs' same
    rw [Clip.ref_eq, Clip.ref_eq] at same
    cases h : s.2.name? with
    | none =>
      cases h' : s'.2.name? with
      | none =>
        rw [h, h'] at same
        obtain ⟨track, index⟩ := clipPath_inj same
        exact List.inj_on_of_nodup_map slots hs hs' (Prod.ext track index)
      | some name =>
        rw [h, h'] at same
        exact absurd h (place s' hs' s hs (h'.trans (congrArg some same.symm)))
    | some name =>
      cases h' : s'.2.name? with
      | none =>
        rw [h, h'] at same
        exact absurd h' (place s hs s' hs' (h.trans (congrArg some same)))
      | some name' =>
        rw [h, h'] at same
        obtain rfl : name = name' := same
        by_contra ne
        obtain rfl := a.apart hs hs' ne _ h h'
        exact ne (zero s hs s' hs' h h')

end Montage
