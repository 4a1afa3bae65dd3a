import Mathlib.Algebra.Order.Field.Rat
import Mathlib.Data.List.DropRight
import Mathlib.Tactic.FieldSimp
import Mathlib.Tactic.Ring
import Montage.Decimal.Fixed
import Montage.Decimal.Reader

/-!
# What a decimal denotes

The number that a printed decimal stands for, as an exact fraction (`value?`), so that what was
printed can be compared with what was meant. Whole numbers are printed exactly
(`value?_toString`). A decimal with fixed places denotes its number of units (`value?_placed`), and
the zeros at its end can be dropped with no change of the value (`value?_trimZeros`).
-/
namespace Montage.Decimal

/-- The number that digits denote, with a point and more digits behind them or without. -/
def unsignedValue? (cs : List Char) : Option ℚ :=
  let whole := cs.takeWhile Char.isDigit
  if whole.isEmpty then none
  else match cs.dropWhile Char.isDigit with
    | [] => some (Nat.ofDigitChars 10 whole 0)
    | '.' :: places =>
      if places.isEmpty || !places.all Char.isDigit then none
      else some ((Nat.ofDigitChars 10 (whole ++ places) 0 : ℚ) / 10 ^ places.length)
    | _ => none

/-- The number that a decimal with an optional sign denotes. An infinity and what is not a number
denote none. -/
def value? (s : String) : Option ℚ :=
  let (minus, rest) := takeSign s.toList
  (unsignedValue? rest).map fun q => if minus then -q else q

/-! ## Digits -/

theorem isDigit_toDigits {n : Nat} {c : Char} (h : c ∈ Nat.toDigits 10 n) : c.isDigit = true :=
  Nat.isDigit_of_mem_toDigits (by decide) (by decide) h

/-- The digits in front of something else are just these. -/
theorem span_toDigits (n : Nat) (rest : List Char) (stops : ∀ c ∈ rest.head?, c.isDigit = false) :
    (Nat.toDigits 10 n ++ rest).takeWhile Char.isDigit = Nat.toDigits 10 n ∧
      (Nat.toDigits 10 n ++ rest).dropWhile Char.isDigit = rest := by
  have digits : ∀ c ∈ Nat.toDigits 10 n, c.isDigit = true := fun c => isDigit_toDigits
  rw [List.takeWhile_append_of_pos digits, List.dropWhile_append_of_pos digits]
  cases rest with
  | nil => simp
  | cons c rest => simp [stops c rfl]

theorem unsignedValue?_toDigits (n : Nat) : unsignedValue? (Nat.toDigits 10 n) = some (n : ℚ) := by
  obtain ⟨front, back⟩ := span_toDigits n [] nofun
  rw [List.append_nil] at front back
  unfold unsignedValue?
  simp only [front, back, List.isEmpty_iff, Nat.toDigits_ne_nil, ↓reduceIte,
    Nat.ofDigitChars_ten_toDigits]

theorem unsignedValue?_point (n : Nat) {places : List Char} (some_places : places ≠ [])
    (digits : ∀ c ∈ places, c.isDigit = true) :
    unsignedValue? (Nat.toDigits 10 n ++ '.' :: places) =
      some ((n : ℚ) + (Nat.ofDigitChars 10 places 0 : ℚ) / 10 ^ places.length) := by
  obtain ⟨front, back⟩ := span_toDigits n ('.' :: places) (by rintro c ⟨⟩; decide)
  have filled : places.isEmpty = false := List.isEmpty_eq_false_iff.2 some_places
  have all : places.all Char.isDigit = true := List.all_eq_true.2 digits
  have power : (10 : ℚ) ^ places.length ≠ 0 := pow_ne_zero _ (by decide)
  unfold unsignedValue?
  simp only [front, back, List.isEmpty_iff, Nat.toDigits_ne_nil, ↓reduceIte, filled, all,
    Bool.not_true, Bool.or_self, Bool.false_eq_true, Nat.ofDigitChars_append,
    Nat.ofDigitChars_ten_toDigits]
  rw [Nat.ofDigitChars_eq_ofDigitChars_zero]
  push_cast
  field_simp

/-- A sign is taken from in front of digits, and nothing else is. -/
theorem takeSign_toDigits (n : Nat) (rest : List Char) :
    takeSign (Nat.toDigits 10 n ++ rest) = (false, Nat.toDigits 10 n ++ rest) := by
  cases digits : Nat.toDigits 10 n with
  | nil => exact absurd digits Nat.toDigits_ne_nil
  | cons c cs =>
    have digit : c.isDigit = true := isDigit_toDigits (digits ▸ List.mem_cons_self)
    rw [List.cons_append]
    unfold takeSign
    split
    · next same => cases same; cases digit
    · next same => cases same; cases digit
    · rfl

theorem value?_digits (n : Nat) (rest : List Char) :
    value? (String.ofList (Nat.toDigits 10 n ++ rest)) =
      unsignedValue? (Nat.toDigits 10 n ++ rest) := by
  unfold value?
  simp only [String.toList_ofList, takeSign_toDigits]
  simp

theorem value?_minus (n : Nat) (rest : List Char) :
    value? (String.ofList ('-' :: (Nat.toDigits 10 n ++ rest))) =
      (unsignedValue? (Nat.toDigits 10 n ++ rest)).map (-·) := by
  unfold value?
  simp only [String.toList_ofList, takeSign, if_true]

/-- A whole number is printed exactly. -/
theorem value?_toString (n : Int) : value? (toString n) = some (n : ℚ) := by
  cases n with
  | ofNat n =>
    have text : toString (Int.ofNat n) = String.ofList (Nat.toDigits 10 n ++ []) := by
      rw [List.append_nil, ← Nat.toString_eq_ofList_toDigits]
      rfl
    rw [text, value?_digits, List.append_nil, unsignedValue?_toDigits]
    rfl
  | negSucc n =>
    have text : toString (Int.negSucc n) =
        String.ofList ('-' :: (Nat.toDigits 10 (n + 1) ++ [])) := by
      rw [List.append_nil, String.ofList_cons, ← Nat.toString_eq_ofList_toDigits]
      rfl
    rw [text, value?_minus, List.append_nil, unsignedValue?_toDigits]
    simp

/-! ## Fixed places -/

/-- The places of a decimal: all of them are there, and they write what is left of the units. -/
theorem placed_eq {places : Nat} (some_places : 0 < places) (units : Nat) :
    ∃ ps : List Char, placed places units =
        String.ofList (Nat.toDigits 10 (units / 10 ^ places) ++ '.' :: ps) ∧
      ps.length = places ∧ (∀ c ∈ ps, c.isDigit = true) ∧
      Nat.ofDigitChars 10 ps 0 = units % 10 ^ places := by
  have short : (Nat.toDigits 10 (units % 10 ^ places)).length ≤ places :=
    (Nat.length_toDigits_le_iff (by decide) some_places).2 (Nat.mod_lt _ (Nat.pow_pos (by decide)))
  refine ⟨List.replicate (places - (Nat.toDigits 10 (units % 10 ^ places)).length) '0' ++
    Nat.toDigits 10 (units % 10 ^ places), ?_, ?_, ?_, ?_⟩
  · rw [← String.toList_inj]
    simp [placed, padZeros, Nat.repr_eq_ofList_toDigits]
  · rw [List.length_append, List.length_replicate]
    omega
  · intro c mem
    rcases List.mem_append.1 mem with zero | digit
    · rw [List.eq_of_mem_replicate zero]
      decide
    · exact isDigit_toDigits digit
  · rw [Nat.ofDigitChars_append, Nat.ofDigitChars_replicate_zero, Nat.mul_zero,
      Nat.ofDigitChars_ten_toDigits]

theorem units_div_add_mod (places units : Nat) :
    ((units / 10 ^ places : Nat) : ℚ) + ((units % 10 ^ places : Nat) : ℚ) / 10 ^ places =
      (units : ℚ) / 10 ^ places := by
  have power : (10 : ℚ) ^ places ≠ 0 := pow_ne_zero _ (by decide)
  have whole : ((10 ^ places * (units / 10 ^ places) + units % 10 ^ places : Nat) : ℚ) = units := by
    rw [Nat.div_add_mod]
  rw [← whole]
  push_cast
  field_simp

/-- A decimal with a sign in front of it or without. -/
theorem value?_signed (minus : Bool) (n : Nat) (rest : List Char) :
    value? ((if minus then "-" else "") ++ String.ofList (Nat.toDigits 10 n ++ rest)) =
      (unsignedValue? (Nat.toDigits 10 n ++ rest)).map fun q => if minus then -q else q := by
  cases minus with
  | false =>
    have plain : (if false = true then "-" else "") ++ String.ofList (Nat.toDigits 10 n ++ rest) =
        String.ofList (Nat.toDigits 10 n ++ rest) := String.empty_append
    rw [plain, value?_digits]
    simp
  | true =>
    have sign : (if true = true then "-" else "") ++ String.ofList (Nat.toDigits 10 n ++ rest) =
        String.ofList ('-' :: (Nat.toDigits 10 n ++ rest)) := by
      rw [String.ofList_cons]
      rfl
    rw [sign, value?_minus]
    rfl

theorem value?_placed (minus : Bool) {places : Nat} (some_places : 0 < places) (units : Nat) :
    value? ((if minus then "-" else "") ++ placed places units) =
      some (if minus then -((units : ℚ) / 10 ^ places) else (units : ℚ) / 10 ^ places) := by
  obtain ⟨ps, text, length, digits, rest⟩ := placed_eq some_places units
  have filled : ps ≠ [] := List.ne_nil_of_length_pos (by omega)
  rw [text, value?_signed, unsignedValue?_point _ filled digits, rest, length, units_div_add_mod]
  rfl

/-! ## Zeros at the end -/

theorem dropEnd_append (c : Char) {front : List Char} (other : ∀ l ∈ front.getLast?, l ≠ c)
    (n : Nat) :
    dropEnd c (String.ofList (front ++ List.replicate n c)) = String.ofList front := by
  have dropped : front.reverse.dropWhile (· == c) = front.reverse := by
    rcases List.eq_nil_or_concat front with rfl | ⟨front, l, rfl⟩
    · rfl
    · rw [List.concat_eq_append] at other ⊢
      simp [other l (by simp)]
  unfold dropEnd
  rw [String.toList_ofList, List.reverse_append, List.reverse_replicate,
    List.dropWhile_append_of_pos (by simp), dropped, List.reverse_reverse]

theorem exists_zeros (ps : List Char) :
    ∃ kept n, ps = kept ++ List.replicate n '0' ∧ ∀ l ∈ kept.getLast?, l ≠ '0' := by
  induction ps using List.reverseRecOn with
  | nil => exact ⟨[], 0, rfl, nofun⟩
  | append_singleton ps c ih =>
    by_cases zero : c = '0'
    · obtain ⟨kept, n, rfl, other⟩ := ih
      refine ⟨kept, n + 1, ?_, other⟩
      rw [zero, List.append_assoc, List.replicate_succ']
    · exact ⟨ps ++ [c], 0, by simp, by simpa using zero⟩

/-- What is left of a decimal: its places up to the zeros at their end, and no point without
places. -/
theorem trimZeros_append {front kept : List Char} (start : ∀ l ∈ front.getLast?, l.isDigit = true)
    (digits : ∀ c ∈ kept, c.isDigit = true) (other : ∀ l ∈ kept.getLast?, l ≠ '0') (n : Nat) :
    trimZeros (String.ofList (front ++ '.' :: (kept ++ List.replicate n '0'))) =
      String.ofList (front ++ if kept = [] then [] else '.' :: kept) := by
  have noPoint {l : Char} (digit : l.isDigit = true) : l ≠ '.' := by
    rintro rfl
    cases digit
  have split : front ++ '.' :: (kept ++ List.replicate n '0') =
      (front ++ '.' :: kept) ++ List.replicate n '0' := by simp
  unfold trimZeros
  rw [split]
  by_cases none_kept : kept = []
  · subst none_kept
    rw [dropEnd_append _ (by simp), if_pos rfl, List.append_nil]
    exact dropEnd_append '.' (fun l mem => noPoint (start l mem)) 1
  · have last := List.getLast?_eq_some_getLast none_kept
    generalize kept.getLast none_kept = c at last
    have ends : (front ++ '.' :: kept).getLast? = some c := by
      rw [List.getLast?_append, List.getLast?_cons, last]
      rfl
    rw [dropEnd_append _ (by rw [ends, ← last]; exact other), if_neg none_kept]
    have noPoints : ∀ l ∈ (front ++ '.' :: kept).getLast?, l ≠ '.' := by
      rw [ends]
      rintro l ⟨⟩
      exact noPoint (digits c (List.mem_of_getLast? last))
    have point := dropEnd_append '.' noPoints 0
    rwa [List.replicate_zero, List.append_nil] at point

/-- What is left of a decimal with fixed places: some of its places, the last of them no zero. -/
theorem trimZeros_placed (minus : Bool) {places : Nat} (some_places : 0 < places) (units : Nat) :
    ∃ kept n, placed places units = String.ofList (Nat.toDigits 10 (units / 10 ^ places) ++
        '.' :: (kept ++ List.replicate n '0')) ∧
      kept ++ List.replicate n '0' ≠ [] ∧ (∀ c ∈ kept, c.isDigit = true) ∧
      (∀ l ∈ kept.getLast?, l ≠ '0') ∧
      trimZeros ((if minus then "-" else "") ++ placed places units) =
        (if minus then "-" else "") ++ String.ofList (Nat.toDigits 10 (units / 10 ^ places) ++
          if kept = [] then [] else '.' :: kept) := by
  obtain ⟨ps, text, length, digits, -⟩ := placed_eq some_places units
  obtain ⟨kept, n, rfl, other⟩ := exists_zeros ps
  have filled : kept ++ List.replicate n '0' ≠ [] := List.ne_nil_of_length_pos (by omega)
  have inner : ∀ c ∈ kept, c.isDigit = true := fun c mem => digits c (List.mem_append_left _ mem)
  refine ⟨kept, n, text, filled, inner, other, ?_⟩
  generalize whole : Nat.toDigits 10 (units / 10 ^ places) = front at text ⊢
  have signed (rest : List Char) : (if minus then "-" else "") ++ String.ofList (front ++ rest) =
      String.ofList (((if minus then ['-'] else []) ++ front) ++ rest) := by
    rw [← String.toList_inj]
    cases minus <;> simp
  have start : ∀ l ∈ ((if minus then ['-'] else []) ++ front).getLast?, l.isDigit = true := by
    intro l last
    have ne : front ≠ [] := whole ▸ Nat.toDigits_ne_nil
    rw [List.getLast?_append_of_ne_nil _ ne] at last
    exact isDigit_toDigits (whole ▸ List.mem_of_getLast? last)
  rw [text, signed, trimZeros_append start inner other, ← signed]

/-- Zeros at the end of a decimal do not count. -/
theorem value?_trimZeros (minus : Bool) {places : Nat} (some_places : 0 < places) (units : Nat) :
    value? (trimZeros ((if minus then "-" else "") ++ placed places units)) =
      value? ((if minus then "-" else "") ++ placed places units) := by
  obtain ⟨kept, n, text, filled, inner, -, trimmed⟩ := trimZeros_placed minus some_places units
  have digits : ∀ c ∈ kept ++ List.replicate n '0', c.isDigit = true := by
    intro c mem
    rcases List.mem_append.1 mem with mem | zero
    · exact inner c mem
    · rw [List.eq_of_mem_replicate zero]
      decide
  rw [trimmed, text, value?_signed, value?_signed, unsignedValue?_point _ filled digits]
  congr 1
  rw [Nat.ofDigitChars_append, Nat.ofDigitChars_replicate_zero, List.length_append,
    List.length_replicate]
  split
  · next none_kept =>
    subst none_kept
    rw [List.append_nil, unsignedValue?_toDigits]
    simp
  · next some_kept =>
    have power (k : Nat) : (10 : ℚ) ^ k ≠ 0 := pow_ne_zero _ (by decide)
    have first := power kept.length
    have second := power n
    rw [unsignedValue?_point _ some_kept inner]
    push_cast
    rw [pow_add]
    field_simp

/-! ## Doubles -/

/-- A finite double in units of the last of some places. -/
def unitsOf (places : Nat) (d : Dyadic) : Nat :=
  divNearest (d.numerator * 10 ^ places) d.denominator

theorem signed_cast (d : Dyadic) (n : Nat) (q : ℚ) :
    ((d.signed n : Int) : ℚ) * q = if d.negative then -((n : ℚ) * q) else (n : ℚ) * q := by
  unfold Dyadic.signed
  split <;> push_cast <;> ring

theorem value?_fixed {places : Nat} (some_places : 0 < places) (d : Dyadic) :
    value? (fixed places d) = some ((d.signed (unitsOf places d) : ℚ) / 10 ^ places) := by
  rw [div_eq_mul_inv, signed_cast, ← div_eq_mul_inv]
  exact value?_placed d.negative some_places _

theorem value?_trimZeros_fixed {places : Nat} (some_places : 0 < places) (d : Dyadic) :
    value? (trimZeros (fixed places d)) =
      some ((d.signed (unitsOf places d) : ℚ) / 10 ^ places) := by
  rw [← value?_fixed some_places]
  exact value?_trimZeros d.negative some_places _

end Montage.Decimal
