import Mathlib.Algebra.GroupWithZero.Nat
import Mathlib.Tactic.Common
import Montage.Text.Tail
import Montage.Text.Utf8

/-!
# Text that arrives in portions

Bytes are read in portions, and each portion is decoded for itself. Where all portions end between
two characters this gives the text of all the bytes (`decode_append`); a portion that ends inside
one gives more characters than there are (`length_decode_lt`), since each of its bytes behind the
cut is a defect of its own. So the two texts agree if and only if no character is cut
(`decodeEach_eq_iff`), and ends of any length are the same just then (`tail_decodeEach_iff`).
-/
namespace Montage.Text

/-- The first character of some bytes, and how many bytes it takes behind the first one. -/
def firstChar (b : UInt8) (rest : List UInt8) : Option Char × Nat :=
  match leadOf b.toNat with
  | none => (none, 0)
  | some (more, value, low, high) => finishChar more value low high rest

theorem decode_cons (b : UInt8) (rest : List UInt8) :
    decode (b :: rest) = (firstChar b rest).1 :: decode (rest.drop (firstChar b rest).2) := by
  rw [decode, firstChar]
  cases leadOf b.toNat <;> rfl

/-- How many bytes each character takes, or each defect. -/
def widths (bytes : List UInt8) : List Nat :=
  match bytes with
  | [] => []
  | b :: rest => ((firstChar b rest).2 + 1) :: widths (rest.drop (firstChar b rest).2)
termination_by bytes.length
decreasing_by simp only [List.length_drop, List.length_cons]; omega

/-- Whether a place in a byte string lies between two characters, or at an end. -/
def IsBoundary (bytes : List UInt8) (place : Nat) : Prop :=
  ∃ k, ((widths bytes).take k).sum = place

/-! ## One character -/

/-- A byte within the bounds of a character is no lead. -/
theorem leadOf_eq_none {b : Nat} (low : 0x80 ≤ b) (high : b ≤ 0xbf) : leadOf b = none := by
  unfold leadOf
  rw [if_neg (by omega), if_neg (by simp; omega), if_neg (by omega), if_neg (by omega),
    if_neg (by simp; omega), if_neg (by omega), if_neg (by simp; omega), if_neg (by omega)]

theorem decode_cons_of_follower {b : UInt8} (low : 0x80 ≤ b.toNat) (high : b.toNat ≤ 0xbf)
    (rest : List UInt8) : decode (b :: rest) = none :: decode rest := by
  rw [decode_cons, firstChar, leadOf_eq_none low high]
  rfl

/-- The bounds of a second byte are those of a follower, or narrower. -/
theorem leadOf_bounds {b more value low high : Nat} (h : leadOf b = some (more, value, low, high)) :
    more = 0 ∨ 0x80 ≤ low ∧ high ≤ 0xbf := by
  simp only [leadOf, Bool.and_eq_true, decide_eq_true_eq] at h
  split_ifs at h <;> simp only [Option.some.injEq, Prod.mk.injEq] at h <;> omega

theorem finishChar_cons (more value low high : Nat) (b : UInt8) (rest : List UInt8) :
    finishChar (more + 1) value low high (b :: rest) =
      if low ≤ b.toNat ∧ b.toNat ≤ high then
        ((finishChar more (value * 64 + b.toNat % 64) 0x80 0xbf rest).1,
          (finishChar more (value * 64 + b.toNat % 64) 0x80 0xbf rest).2 + 1)
      else (none, 0) := by
  simp only [finishChar, Bool.and_eq_true, decide_eq_true_eq]

/-- A character that is read from the front of some bytes is read from that front alone. -/
theorem finishChar_append {a b : List UInt8} {more value low high : Nat}
    (within : (finishChar more value low high (a ++ b)).2 ≤ a.length) :
    finishChar more value low high a = finishChar more value low high (a ++ b) := by
  induction a generalizing more value low high with
  | nil =>
    cases more with
    | zero => rfl
    | succ more =>
      cases b with
      | nil => rfl
      | cons c b =>
        rw [List.nil_append, finishChar_cons] at within ⊢
        split at within
        · exact absurd within (by simp)
        · next out => rw [if_neg out]; rfl
  | cons c a ih =>
    cases more with
    | zero => rfl
    | succ more =>
      rw [List.cons_append, finishChar_cons] at within ⊢
      rw [finishChar_cons]
      split at within
      · next fits =>
        rw [if_pos fits, if_pos fits, ih (Nat.le_of_succ_le_succ within)]
      · next out => rw [if_neg out, if_neg out]

/-- A character that is cut leaves a defect in front of the cut, and each of its bytes behind the
cut is one. -/
theorem finishChar_cut {a b : List UInt8} {more value low high : Nat}
    (bounds : more = 0 ∨ 0x80 ≤ low ∧ high ≤ 0xbf)
    (cut : a.length < (finishChar more value low high (a ++ b)).2) :
    (finishChar more value low high a).2 = a.length ∧
      (decode b).length = (finishChar more value low high (a ++ b)).2 - a.length +
        (decode (b.drop ((finishChar more value low high (a ++ b)).2 - a.length))).length := by
  induction a generalizing more value low high with
  | nil =>
    refine ⟨by cases more <;> rfl, ?_⟩
    simp only [List.nil_append, List.length_nil, Nat.sub_zero] at cut ⊢
    clear cut
    -- the bytes behind the cut, one by one
    induction b generalizing more value low high with
    | nil => cases more <;> simp [finishChar, decode]
    | cons c b ih =>
      cases more with
      | zero => simp [finishChar]
      | succ more =>
        have bounds : 0x80 ≤ low ∧ high ≤ 0xbf := bounds.resolve_left (by omega)
        rw [finishChar_cons]
        split
        · next fits =>
          have follower := decode_cons_of_follower (b := c) (by omega) (by omega) b
          have later := @ih more (value * 64 + c.toNat % 64) 0x80 0xbf
            (.inr ⟨Nat.le_refl _, Nat.le_refl _⟩)
          rw [follower, List.length_cons, later, List.drop_succ_cons]
          omega
        · rw [List.drop_zero, Nat.zero_add]
  | cons c a ih =>
    cases more with
    | zero => exact absurd cut (Nat.not_lt_zero _)
    | succ more =>
      rw [List.cons_append, finishChar_cons] at cut ⊢
      rw [finishChar_cons]
      split at cut
      · next fits =>
        rw [if_pos fits, if_pos fits]
        obtain ⟨all, behind⟩ := @ih more _ _ _ (.inr ⟨Nat.le_refl _, Nat.le_refl _⟩)
          (Nat.lt_of_succ_lt_succ cut)
        refine ⟨by rw [all, List.length_cons], ?_⟩
        rw [List.length_cons, Nat.add_sub_add_right]
        exact behind
      · exact absurd cut (Nat.not_lt_zero _)

theorem firstChar_append {b : UInt8} {a c : List UInt8} (within : (firstChar b (a ++ c)).2 ≤ a.length) :
    firstChar b a = firstChar b (a ++ c) := by
  unfold firstChar at within ⊢
  cases lead : leadOf b.toNat with
  | none => rfl
  | some l =>
    rw [lead] at within
    exact finishChar_append within

theorem firstChar_cut {b : UInt8} {a c : List UInt8} (cut : a.length < (firstChar b (a ++ c)).2) :
    (firstChar b a).2 = a.length ∧
      (decode c).length = (firstChar b (a ++ c)).2 - a.length +
        (decode (c.drop ((firstChar b (a ++ c)).2 - a.length))).length := by
  unfold firstChar at cut ⊢
  cases lead : leadOf b.toNat with
  | none => rw [lead] at cut; exact absurd cut (Nat.not_lt_zero _)
  | some l =>
    rw [lead] at cut
    exact finishChar_cut (leadOf_bounds lead) cut

/-! ## One cut -/

theorem isBoundary_cons {b : UInt8} {rest : List UInt8} {place : Nat} :
    IsBoundary (b :: rest) place ↔ place = 0 ∨ ∃ later, place = (firstChar b rest).2 + 1 + later ∧
      IsBoundary (rest.drop (firstChar b rest).2) later := by
  unfold IsBoundary
  rw [widths]
  constructor
  · rintro ⟨_ | k, rfl⟩
    · exact .inl rfl
    · exact .inr ⟨_, by rw [List.take_succ_cons, List.sum_cons], k, rfl⟩
  · rintro (rfl | ⟨_, rfl, k, rfl⟩)
    · exact ⟨0, rfl⟩
    · exact ⟨k + 1, by rw [List.take_succ_cons, List.sum_cons]⟩

/-- Between two characters bytes can be cut. -/
theorem decode_append {a b : List UInt8} (h : IsBoundary (a ++ b) a.length) :
    decode (a ++ b) = decode a ++ decode b ∧ widths (a ++ b) = widths a ++ widths b := by
  induction hn : a.length using Nat.strongRecOn generalizing a with
  | ind n ih =>
    cases a with
    | nil => exact ⟨by rw [decode]; rfl, by rw [widths]; rfl⟩
    | cons c a =>
      rw [List.cons_append, isBoundary_cons] at h
      obtain ⟨later, place, boundary⟩ := h.resolve_left (by simp)
      rw [List.length_cons] at place hn
      have within : (firstChar c (a ++ b)).2 ≤ a.length := by omega
      have first := firstChar_append within
      rw [List.drop_append_of_le_length within] at boundary
      have length : (a.drop (firstChar c (a ++ b)).2).length = later := by
        rw [List.length_drop]
        omega
      obtain ⟨text, sizes⟩ := ih later (by omega) (length ▸ boundary) length
      rw [List.cons_append, decode_cons, widths, decode_cons c a, widths.eq_2 c a, first,
        List.drop_append_of_le_length within, text, sizes]
      exact ⟨rfl, rfl⟩

/-- A cut inside a character makes more of it. -/
theorem length_decode_lt {a b : List UInt8} (h : ¬IsBoundary (a ++ b) a.length) :
    (decode (a ++ b)).length < (decode a).length + (decode b).length := by
  induction hn : a.length using Nat.strongRecOn generalizing a with
  | ind n ih =>
    cases a with
    | nil => exact absurd ⟨0, rfl⟩ h
    | cons c a =>
      rw [List.length_cons] at hn
      rw [List.cons_append, decode_cons, decode_cons c a, List.length_cons, List.length_cons]
      by_cases within : (firstChar c (a ++ b)).2 ≤ a.length
      · have first := firstChar_append within
        have inside : ¬IsBoundary (a.drop (firstChar c (a ++ b)).2 ++ b)
            (a.drop (firstChar c (a ++ b)).2).length := by
          intro boundary
          rw [← List.drop_append_of_le_length within] at boundary
          refine h ?_
          rw [List.cons_append]
          refine isBoundary_cons.2 (.inr ⟨_, ?_, boundary⟩)
          rw [List.length_cons, List.length_drop]
          omega
        have later := ih (a.drop (firstChar c (a ++ b)).2).length (by
          rw [List.length_drop]; omega) inside rfl
        rw [first, List.drop_append_of_le_length within]
        omega
      · have cut : a.length < (firstChar c (a ++ b)).2 := Nat.lt_of_not_le within
        obtain ⟨all, behind⟩ := firstChar_cut cut
        have skipped : (a ++ b).drop (firstChar c (a ++ b)).2 =
            b.drop ((firstChar c (a ++ b)).2 - a.length) := by
          rw [List.drop_append, List.drop_eq_nil_of_le (Nat.le_of_lt cut), List.nil_append]
        rw [skipped]
        omega

/-! ## All cuts -/

/-- The text of some portions, each of which is decoded for itself. -/
def decodeEach (portions : List (List UInt8)) : String :=
  String.join (portions.map decodeLenient)

/-- Whether no portion ends inside a character. -/
def Unbroken (portions : List (List UInt8)) : Prop :=
  ∀ before after, portions = before ++ after → IsBoundary portions.flatten before.flatten.length

theorem length_decode_le (a b : List UInt8) :
    (decode (a ++ b)).length ≤ (decode a).length + (decode b).length := by
  by_cases h : IsBoundary (a ++ b) a.length
  · exact Nat.le_of_eq (by rw [(decode_append h).1, List.length_append])
  · exact Nat.le_of_lt (length_decode_lt h)

theorem length_decode_flatten_le (portions : List (List UInt8)) :
    (decode portions.flatten).length ≤ (portions.flatMap decode).length := by
  induction portions with
  | nil => rw [List.flatten_nil, decode]; exact Nat.zero_le _
  | cons p ps ih =>
    rw [List.flatten_cons, List.flatMap_cons, List.length_append]
    exact Nat.le_trans (length_decode_le p ps.flatten) (Nat.add_le_add_left ih _)

/-- The first places of a boundary are the characters in front of it. -/
theorem isBoundary_append {a b : List UInt8} (h : IsBoundary (a ++ b) a.length) (place : Nat) :
    IsBoundary (a ++ b) (a.length + place) ↔ IsBoundary b place := by
  induction hn : a.length using Nat.strongRecOn generalizing a with
  | ind n ih =>
    cases a with
    | nil => rw [← hn, List.length_nil, Nat.zero_add, List.nil_append]
    | cons c a =>
      rw [List.cons_append, isBoundary_cons] at h ⊢
      rw [List.length_cons] at hn h
      obtain ⟨later, here, boundary⟩ := h.resolve_left (by omega)
      have within : (firstChar c (a ++ b)).2 ≤ a.length := by omega
      rw [List.drop_append_of_le_length within] at boundary ⊢
      have length : (a.drop (firstChar c (a ++ b)).2).length = later := by
        rw [List.length_drop]
        omega
      rw [← ih later (by omega) (length ▸ boundary) length]
      constructor
      · rintro (none | ⟨next, there, boundary'⟩)
        · omega
        · obtain rfl : next = later + place := by omega
          exact boundary'
      · exact fun boundary' => .inr ⟨later + place, by omega, boundary'⟩

theorem Unbroken.tail {p : List UInt8} {ps : List (List UInt8)} (h : Unbroken (p :: ps)) :
    Unbroken ps := by
  rintro before after rfl
  have first : IsBoundary (p ++ (before ++ after).flatten) p.length := by
    simpa using h [p] (before ++ after) rfl
  have later := h (p :: before) after rfl
  rw [List.flatten_cons, List.flatten_cons, List.length_append] at later
  exact (isBoundary_append first _).1 later

theorem flatMap_decode {portions : List (List UInt8)} (h : Unbroken portions) :
    portions.flatMap decode = decode portions.flatten := by
  induction portions with
  | nil => rw [List.flatten_nil, decode]; rfl
  | cons p ps ih =>
    have first : IsBoundary (p ++ ps.flatten) p.length := by simpa using h [p] ps rfl
    rw [List.flatMap_cons, List.flatten_cons, (decode_append first).1, ih h.tail]

/-- As many characters as there are come from unbroken portions only. -/
theorem unbroken_of_length {portions : List (List UInt8)}
    (h : (portions.flatMap decode).length = (decode portions.flatten).length) :
    Unbroken portions := by
  induction portions with
  | nil =>
    intro before after e
    obtain ⟨rfl, rfl⟩ := List.append_eq_nil_iff.1 e.symm
    exact ⟨0, rfl⟩
  | cons p ps ih =>
    rw [List.flatMap_cons, List.flatten_cons, List.length_append] at h
    have rest := length_decode_flatten_le ps
    have first : IsBoundary (p ++ ps.flatten) p.length := by
      by_contra cut
      have := length_decode_lt cut
      omega
    rw [(decode_append first).1, List.length_append] at h
    have later := ih (by omega)
    intro before after e
    cases before with
    | nil => exact ⟨0, rfl⟩
    | cons q before =>
      obtain ⟨rfl, rfl⟩ := List.cons.inj e
      rw [List.flatten_cons, List.flatten_cons, List.length_append]
      exact (isBoundary_append first _).2 (later before after rfl)

theorem toList_decodeEach (portions : List (List UInt8)) : (decodeEach portions).toList =
    (portions.flatMap decode).map fun c => c.getD (Char.ofNat 0xfffd) := by
  rw [decodeEach]
  induction portions with
  | nil => rfl
  | cons p ps ih =>
    rw [List.map_cons, String.join_cons, String.toList_append, ih, List.flatMap_cons,
      List.map_append, decodeLenient, String.toList_ofList]

/-- Portions give the text of all the bytes if and only if no character is cut. -/
theorem decodeEach_eq_iff (portions : List (List UInt8)) :
    decodeEach portions = decodeLenient portions.flatten ↔ Unbroken portions := by
  rw [← String.toList_inj, toList_decodeEach, decodeLenient, String.toList_ofList]
  constructor
  · intro same
    refine unbroken_of_length ?_
    simpa using congrArg List.length same
  · exact fun h => by rw [flatMap_decode h]

/-! ## Ends -/

theorem tailOf_eq_self {n : Int} {cs : List Char} (h : (cs.length : Int) ≤ n) : tailOf n cs = cs := by
  unfold tailOf tailStart
  split
  · rw [show cs.length - n.toNat = 0 by omega, List.drop_zero]
  · rw [if_pos (by omega), List.drop_zero]

/-- The end of an end is the end. -/
theorem tail_tail {n : Int} (hn : 0 < n) (s : String) : tail n (tail n s) = tail n s := by
  have kept := tailOf_append_tailOf n hn s.toList []
  simp only [List.append_nil] at kept
  rw [tail, tail, String.toList_ofList, kept]

/-- All ends of two texts are the same if and only if the texts are. -/
theorem tail_eq_iff (s t : String) : (∀ n : Int, 0 < n → tail n s = tail n t) ↔ s = t := by
  constructor
  · intro h
    have same := h (s.toList.length + t.toList.length + 1) (by omega)
    unfold tail at same
    rw [tailOf_eq_self (by omega), tailOf_eq_self (by omega)] at same
    simpa using same
  · rintro rfl _ _
    rfl

/-- The ends of what portions give are those of the whole text if and only if no character is
cut. -/
theorem tail_decodeEach_iff (portions : List (List UInt8)) :
    (∀ n : Int, 0 < n → tail n (decodeEach portions) = tail n (decodeLenient portions.flatten)) ↔
      Unbroken portions :=
  (tail_eq_iff _ _).trans (decodeEach_eq_iff portions)

end Montage.Text
