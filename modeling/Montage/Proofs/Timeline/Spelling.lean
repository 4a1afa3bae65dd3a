import Mathlib.Data.List.Nodup
import Mathlib.Data.List.Pairwise
import Montage.Proofs.Timeline.Writing

/-!
# Documents that are spelled differently

A field of several words has several names, and a reader takes the first that is there. Two objects
are `Respelled` if their members stand side by side, each under some name of the same field, and no
field has two names in one of them. Then every field is found in both or in neither
(`Respelled.find`), and the same members belong to no field (`Respelled.rest`); so if the readings of
the values coincide, those of the objects do (`Respelled.optional`, `Respelled.required`).

Readings coincide if they give the same value or none (`Parsed.Coincide`): where both fail, the
mismatches may be at differently spelled places.
-/
namespace Montage

/-! ## Readings that coincide -/

namespace Parsed

variable {α β : Type} {x x' : Parsed α}

/-- Two readings give the same value, or none. -/
def Coincide (x x' : Parsed α) : Prop := ∀ a, x = .ok a ↔ x' = .ok a

namespace Coincide

theorem refl (x : Parsed α) : Coincide x x := fun _ => Iff.rfl

theorem bad (ms ms' : List Mismatch) : Coincide (.bad ms : Parsed α) (.bad ms') :=
  fun _ => iff_of_false nofun nofun

theorem cases (h : Coincide x x') : (∃ a, x = .ok a ∧ x' = .ok a) ∨
    ∃ ms ms', x = .bad ms ∧ x' = .bad ms' := by
  cases x with
  | ok a => exact .inl ⟨a, rfl, (h a).1 rfl⟩
  | bad ms =>
    cases x' with
    | ok a => cases (h a).2 rfl
    | bad ms' => exact .inr ⟨ms, ms', rfl, rfl⟩

theorem map (h : Coincide x x') (f : α → β) : Coincide (f <$> x) (f <$> x') := by
  obtain ⟨a, rfl, rfl⟩ | ⟨ms, ms', rfl, rfl⟩ := h.cases
  · exact refl _
  · exact bad ms ms'

theorem under (h : Coincide x x') (s s' : Step) : Coincide (x.under s) (x'.under s') := by
  obtain ⟨a, rfl, rfl⟩ | ⟨ms, ms', rfl, rfl⟩ := h.cases
  · exact refl _
  · exact bad _ _

theorem seq {f f' : Parsed (α → β)} (hf : Coincide f f') (hx : Coincide x x') :
    Coincide (f <*> x) (f' <*> x') := by
  obtain ⟨g, rfl, rfl⟩ | ⟨ms, ms', rfl, rfl⟩ := hf.cases
  · exact hx.map g
  · obtain ⟨a, rfl, rfl⟩ | ⟨ns, ns', rfl, rfl⟩ := hx.cases
    · exact bad ms ms'
    · exact bad _ _

theorem toExcept (h : Coincide x x') (a : α) : x.toExcept = .ok a ↔ x'.toExcept = .ok a := by
  obtain ⟨b, rfl, rfl⟩ | ⟨ms, ms', rfl, rfl⟩ := h.cases
  · exact Iff.rfl
  · exact iff_of_false nofun nofun

end Coincide

end Parsed

open Parsed

namespace Schema

variable {α : Type} {fields : List Names} {names : Names} {read : Json → Parsed α}
  {inner : List (String × (Json → Json → Prop))} {ms ms' : List (String × Json)} {v v' : Json}

theorem items_coincide {vs vs' : List Json}
    (h : List.Forall₂ (fun v v' => Coincide (read v) (read v')) vs vs') (i : Nat) :
    Coincide (items read i vs) (items read i vs') := by
  induction h generalizing i with
  | nil => exact .refl _
  | cons first _ ih => exact ((first.under (.index i) (.index i)).map List.cons).seq (ih (i + 1))

/-! ## Members under other names -/

/-- Whether two names are the same, or both are names of one field. -/
def SameField (fields : List Names) (n n' : String) : Prop :=
  n = n' ∨ ∃ names ∈ fields, n ∈ names ∧ n' ∈ names

/-- Members side by side that only differ in the names of fields, and in what the fields named in
`inner` hold. A field of several names has one of them at most. -/
structure Respelled (fields : List Names) (inner : List (String × (Json → Json → Prop)))
    (ms ms' : List (String × Json)) : Prop where
  members : List.Forall₂ (fun m m' => SameField fields m.1 m'.1 ∧
    (m'.2 = m.2 ∨ ∃ e ∈ inner, e.1 = m.1 ∧ e.2 m.2 m'.2)) ms ms'
  once : ∀ names ∈ fields, 1 < names.length → (ms.filter fun m => m.1 ∈ names).length ≤ 1

/-- Objects with respelled members, or the same value. -/
inductive RespelledObject (fields : List Names) (inner : List (String × (Json → Json → Prop))) :
    Json → Json → Prop
  | same (v : Json) : RespelledObject fields inner v v
  | members {ms ms' : List (String × Json)} (h : Respelled fields inner ms ms') :
      RespelledObject fields inner (.object ms) (.object ms')

/-- Arrays with related items, or the same value. -/
inductive RespelledList (R : Json → Json → Prop) : Json → Json → Prop
  | same (v : Json) : RespelledList R v v
  | items {vs vs' : List Json} (h : List.Forall₂ R vs vs') :
      RespelledList R (.array vs) (.array vs')

/-! ### What a field is read from -/

theorem mem_of_lookup {n : String} {v : Json} (h : Json.lookup n ms = some v) : (n, v) ∈ ms := by
  obtain ⟨m, found, rfl⟩ := Option.map_eq_some_iff.1 h
  have same : m.1 = n := by simpa using List.find?_some found
  rw [← same]
  exact List.mem_of_find?_eq_some found

theorem eq_of_once {α : Type} {as : List α} {a b : α} (once : as.length ≤ 1) (ha : a ∈ as)
    (hb : b ∈ as) : a = b := by
  match as, once with
  | [_], _ => rw [List.mem_singleton.1 ha, List.mem_singleton.1 hb]

/-- If a field has one of its names at most, it is read from the first member with one of them. -/
theorem find_eq_find? (once : 1 < names.length → (ms.filter fun m => m.1 ∈ names).length ≤ 1) :
    find names ms = ms.find? fun m => m.1 ∈ names := by
  cases found : ms.find? fun m => m.1 ∈ names with
  | none =>
    have foreign : ∀ m ∈ ms, m.1 ∉ names := by simpa using List.find?_eq_none.1 found
    exact Record.find_eq_none.2 fun n hn =>
      Record.lookup_eq_none.2 fun m hm same => foreign m hm (same ▸ hn)
  | some m =>
    have hm := List.mem_of_find?_eq_some found
    have named : m.1 ∈ names := by simpa using List.find?_some found
    cases read : find names ms with
    | none =>
      exact absurd rfl (Record.lookup_eq_none.1 (Record.find_eq_none.1 read m.1 named) m hm)
    | some m' =>
      obtain ⟨n, hn, taken⟩ := List.exists_of_findSome?_eq_some read
      obtain ⟨v, known, rfl⟩ := Option.map_eq_some_iff.1 taken
      rcases Nat.lt_or_ge 1 names.length with several | one
      · exact congrArg some (eq_of_once (once several)
          (List.mem_filter.2 ⟨mem_of_lookup known, by simpa using hn⟩)
          (List.mem_filter.2 ⟨hm, by simpa using named⟩))
      · -- the first member with the only name is the one that is looked up
        have only (x : String) : x ∈ names ↔ x = n :=
          ⟨fun hx => eq_of_once one hx hn, fun same => same ▸ hn⟩
        have first : (ms.find? fun m => m.1 == n) = some m := by
          rw [← found]
          congr 1
          funext m
          rw [Bool.eq_iff_iff, beq_iff_eq, decide_eq_true_iff, only]
        unfold Json.lookup at known
        rw [first] at known
        cases known
        rw [← (only m.1).1 named]

/-- The members beside the fields are those without the name of a field. -/
theorem rest_eq (once : ∀ names ∈ fields, 1 < names.length →
    (ms.filter fun m => m.1 ∈ names).length ≤ 1) :
    rest fields ms = ms.filter fun m => m.1 ∉ fields.flatten := by
  unfold rest
  refine List.filter_congr fun m hm => ?_
  rw [Bool.eq_iff_iff, Bool.not_eq_true', Bool.eq_false_iff, ne_eq, List.contains_iff_mem,
    decide_eq_true_iff, not_iff_not, List.mem_filterMap, List.mem_flatten]
  constructor
  · rintro ⟨names, there, read⟩
    obtain ⟨m', found, same⟩ := Option.map_eq_some_iff.1 read
    rw [find_eq_find? (once names there)] at found
    exact ⟨names, there, same ▸ by simpa using List.find?_some found⟩
  · rintro ⟨names, there, named⟩
    refine ⟨names, there, ?_⟩
    rw [find_eq_find? (once names there)]
    have present : (ms.find? fun m => decide (m.1 ∈ names)).isSome :=
      List.find?_isSome.2 ⟨m, hm, decide_eq_true named⟩
    obtain ⟨m', found⟩ := Option.isSome_iff_exists.1 present
    have named' : m'.1 ∈ names := by simpa using List.find?_some found
    rw [found, Option.map_some]
    rcases Nat.lt_or_ge 1 names.length with several | one
    · rw [eq_of_once (once names there several)
        (List.mem_filter.2 ⟨List.mem_of_find?_eq_some found, decide_eq_true named'⟩)
        (List.mem_filter.2 ⟨hm, decide_eq_true named⟩)]
    · exact congrArg some (eq_of_once one named' named)

/-- The names of a field stand for no other field. -/
theorem SameField.mem_iff {n n' : String} (distinct : fields.flatten.Nodup) (there : names ∈ fields)
    (h : SameField fields n n') : n ∈ names ↔ n' ∈ names := by
  obtain rfl | ⟨others, ho, hn, hn'⟩ := h
  · exact Iff.rfl
  · have same {x : String} (hx : x ∈ others) (hx' : x ∈ names) : others = names := by
      by_contra ne
      have : Std.Symm (@List.Disjoint String) := ⟨fun _ _ apart _ hx hy => apart hy hx⟩
      exact (List.nodup_flatten.1 distinct).2.forall ho there ne hx hx'
    constructor
    · intro h
      rwa [← same hn h]
    · intro h
      rwa [← same hn' h]

namespace Respelled

variable (h : Respelled fields inner ms ms') (distinct : fields.flatten.Nodup)
include h distinct

theorem once' (names : Names) (there : names ∈ fields) (several : 1 < names.length) :
    (ms'.filter fun m => m.1 ∈ names).length ≤ 1 := by
  have count := h.once names there several
  have both := List.rel_filter (p := fun m => m.1 ∈ names) (q := fun m => m.1 ∈ names)
    (fun m m' related => by simpa using related.1.mem_iff distinct there) h.members
  rwa [← both.length_eq]

/-- What a field is read from in both. -/
theorem find (there : names ∈ fields) : Option.Rel (fun m m' => m.1 ∈ names ∧
      (m'.2 = m.2 ∨ ∃ e ∈ inner, e.1 = m.1 ∧ e.2 m.2 m'.2))
    (Schema.find names ms) (Schema.find names ms') := by
  rw [find_eq_find? (h.once names there), find_eq_find? (h.once' distinct names there)]
  have members := h.members
  clear h
  induction members with
  | nil => exact .none
  | @cons m m' _ _ first _ ih =>
    have named := first.1.mem_iff distinct there
    by_cases hm : m.1 ∈ names
    · have hm' := named.1 hm
      rw [List.find?_cons_of_pos (by simpa using hm), List.find?_cons_of_pos (by simpa using hm')]
      exact .some ⟨hm, first.2⟩
    · have hm' := fun hm' => hm (named.2 hm')
      rw [List.find?_cons_of_neg (by simpa using hm), List.find?_cons_of_neg (by simpa using hm')]
      exact ih

/-- A field that is not respelled inside has the same value. -/
theorem find_same (there : names ∈ fields) (plain : ∀ e ∈ inner, e.1 ∉ names) :
    (Schema.find names ms').map (·.2) = (Schema.find names ms).map (·.2) := by
  have found := h.find distinct there
  generalize Schema.find names ms = o, Schema.find names ms' = o' at found
  cases found with
  | none => rfl
  | some related =>
    obtain ⟨hm, same | ⟨e, he, named, -⟩⟩ := related
    · exact congrArg some same
    · exact absurd (named ▸ hm) (plain e he)

theorem lookup {n : String} (there : [n] ∈ fields) (plain : ∀ e ∈ inner, e.1 ≠ n) :
    Json.lookup n ms' = Json.lookup n ms := by
  rw [← find_one, ← find_one]
  exact h.find_same distinct there fun e he => List.mem_singleton.not.2 (plain e he)

/-- A field that is respelled inside is so in both, if it is there. -/
theorem lookup_inner {n : String} {R : Json → Json → Prop} (there : [n] ∈ fields)
    (only : ∀ e ∈ inner, e.2 = R) (refl : ∀ v, R v v) :
    Option.Rel R (Json.lookup n ms) (Json.lookup n ms') := by
  have found := h.find distinct there
  rw [← find_one n ms, ← find_one n ms']
  generalize Schema.find [n] ms = o, Schema.find [n] ms' = o' at found
  cases found with
  | none => exact .none
  | some related =>
    refine .some ?_
    dsimp only
    obtain ⟨-, same | ⟨e, he, -, inside⟩⟩ := related
    · rw [same]
      exact refl _
    · rwa [only e he] at inside

theorem optional (there : names ∈ fields) (inside : ∀ e ∈ inner, e.1 ∈ names → ∀ v v', e.2 v v' →
    Coincide (read v) (read v')) : Coincide (optional names read ms) (optional names read ms') := by
  have found := h.find distinct there
  unfold Schema.optional
  generalize Schema.find names ms = o, Schema.find names ms' = o' at found
  cases found with
  | none => exact .refl _
  | @some m m' related =>
    refine Coincide.map ?_ some
    obtain ⟨hm, same | ⟨e, he, named, respelled⟩⟩ := related
    · rw [same]
      exact (Coincide.refl _).under _ _
    · exact (inside e he (named ▸ hm) _ _ respelled).under _ _

theorem required (there : names ∈ fields) (plain : ∀ e ∈ inner, e.1 ∉ names) :
    Coincide (required names read ms) (required names read ms') := by
  have same := h.find_same distinct there plain
  unfold Schema.required
  generalize Schema.find names ms = o, Schema.find names ms' = o' at same
  cases o with
  | none =>
    obtain rfl := Option.map_eq_none_iff.1 same
    exact .refl _
  | some m =>
    obtain ⟨m', rfl, value⟩ := Option.map_eq_some_iff.1 same
    dsimp only at value ⊢
    rw [value]
    exact (Coincide.refl _).under _ _

/-- The same members belong to no field. -/
theorem rest (fit : ∀ e ∈ inner, e.1 ∈ fields.flatten) : rest fields ms' = rest fields ms := by
  rw [rest_eq h.once, rest_eq (h.once' distinct)]
  have members := h.members
  clear h
  induction members with
  | nil => rfl
  | @cons m m' _ _ first _ ih =>
    by_cases hm : m.1 ∈ fields.flatten
    · obtain ⟨names, there, named⟩ := List.mem_flatten.1 hm
      have hm' := List.mem_flatten.2 ⟨names, there, (first.1.mem_iff distinct there).1 named⟩
      rw [List.filter_cons_of_neg (by simpa using hm'), List.filter_cons_of_neg (by simpa using hm),
        ih]
    · have same : m' = m := by
        obtain ⟨same | ⟨names, there, named, -⟩, value | ⟨e, he, inside, -⟩⟩ := first
        · exact Prod.ext same.symm value
        · exact absurd (inside ▸ fit e he) hm
        · exact absurd (List.mem_flatten.2 ⟨names, there, named⟩) hm
        · exact absurd (inside ▸ fit e he) hm
      rw [same, List.filter_cons_of_pos (by simpa using hm),
        List.filter_cons_of_pos (by simpa using hm), ih]

end Respelled

end Schema
end Montage
