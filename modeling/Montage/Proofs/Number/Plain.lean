import Montage.Proofs.Number.Printed

/-!
# Plain numerals

How a double is written in the options of a filter (`compactFloat`): as a numeral in the plain form
(`IsPlain`), with no exponent, with no zeros behind its last place and with no point that is left
last. What it denotes is the double itself if that is whole, and otherwise the nearest millionth
(`writes_compactFloat`). Nothing more is needed to see that a greater double is written as no
lesser a numeral (`compactFloat_mono`): rounding to the nearest is monotone (`IsNearest.mono`), and
the two ways to write a double agree where both apply.
-/
namespace Montage

namespace Decimal

/-- A numeral in the plain form: digits, with a minus in front of them or without, and perhaps
places, the last of them no zero. -/
structure Numeral where
  minus : Bool
  whole : List Char
  places : List Char
  some_whole : whole ≠ []
  whole_digits : ∀ c ∈ whole, c.isDigit = true
  places_digits : ∀ c ∈ places, c.isDigit = true
  last_place : ∀ c ∈ places.getLast?, c ≠ '0'

/-- Just in front of places stands a point. -/
def Numeral.text (n : Numeral) : String :=
  (if n.minus then "-" else "") ++
    String.ofList (n.whole ++ if n.places = [] then [] else '.' :: n.places)

/-- A text is a numeral in the plain form. -/
def IsPlain (s : String) : Prop := ∃ n : Numeral, n.text = s

theorem isPlain_nat (minus : Bool) (n : Nat) (places : List Char)
    (digits : ∀ c ∈ places, c.isDigit = true) (last : ∀ c ∈ places.getLast?, c ≠ '0') :
    IsPlain ((if minus then "-" else "") ++ String.ofList (Nat.toDigits 10 n ++
      if places = [] then [] else '.' :: places)) :=
  ⟨⟨minus, Nat.toDigits 10 n, places, Nat.toDigits_ne_nil, fun _ => isDigit_toDigits, digits, last⟩,
    rfl⟩

theorem isPlain_toString (n : Int) : IsPlain (toString n) := by
  have sign (minus : Bool) (m : Nat) (text : toString n = (if minus then "-" else "") ++ m.repr) :
      IsPlain (toString n) := by
    have plain := isPlain_nat minus m [] nofun nofun
    rwa [if_pos rfl, List.append_nil, ← Nat.repr_eq_ofList_toDigits, ← text] at plain
  cases n with
  | ofNat n => exact sign false n String.empty_append.symm
  | negSucc n => exact sign true (n + 1) rfl

theorem isPlain_trimZeros {places : Nat} (some_places : 0 < places) (d : Dyadic) :
    IsPlain (trimZeros (fixed places d)) := by
  obtain ⟨kept, -, -, -, digits, last, trimmed⟩ :=
    trimZeros_placed d.negative some_places (divNearest (d.numerator * 10 ^ places) d.denominator)
  have text : trimZeros (fixed places d) = _ := trimmed
  rw [text]
  exact isPlain_nat d.negative _ kept digits last

end Decimal

/-! ## Rounding is monotone -/

theorem IsNearest.mono {q r : ℚ} {k l : ℤ} (h : IsNearest q k) (h' : IsNearest r l) (le : q ≤ r) :
    k ≤ l := by
  by_contra more
  have next : l + 1 ≤ k := by omega
  have gap : (l : ℚ) + 1 ≤ k := by exact_mod_cast next
  have below := (abs_le.1 h.close).1
  have above := (abs_le.1 h'.close).2
  -- there is room for one number only, and of that the nearest whole number is one
  have same : q = r := by linarith
  subst same
  exact more (h.le_of_close h')

theorem Shows.mono {places : Nat} {m n : Number} {s s' : String} {q r : ℚ} (h : Shows places m s)
    (h' : Shows places n s') (hq : m.fraction? = some q) (hr : n.fraction? = some r) (le : q ≤ r) :
    ∃ v w, Decimal.value? s = some v ∧ Decimal.value? s' = some w ∧ v ≤ w := by
  have power : (0 : ℚ) < 10 ^ places := by positivity
  rw [Shows, hq] at h
  rw [Shows, hr] at h'
  obtain ⟨k, nearest, value⟩ := h
  obtain ⟨l, nearest', value'⟩ := h'
  refine ⟨_, _, value, value', ?_⟩
  have order : k ≤ l := nearest.mono nearest' (mul_le_mul_of_nonneg_right le power.le)
  exact div_le_div_of_nonneg_right (by exact_mod_cast order) power.le

/-! ## Doubles -/

theorem Dyadic.isWhole_iff (d : Dyadic) : d.isWhole = true ↔ ∃ n : ℤ, d.fraction = n := by
  refine ⟨fun whole => ⟨_, d.fraction_whole whole⟩, fun ⟨n, fraction⟩ => ?_⟩
  have positive : (d.denominator : ℚ) ≠ 0 := by exact_mod_cast d.denominator_pos.ne'
  have product : d.signed d.numerator = n * d.denominator := by
    rw [Dyadic.fraction, div_eq_iff positive] at fraction
    exact_mod_cast fraction
  have divides : (d.denominator : ℤ) ∣ d.numerator := by
    have signed : (d.denominator : ℤ) ∣ d.signed d.numerator := ⟨n, by rw [product, mul_comm]⟩
    unfold Dyadic.signed at signed
    split at signed
    · exact (Int.dvd_neg).1 signed
    · exact signed
  exact beq_iff_eq.2 (Nat.mod_eq_zero_of_dvd (Int.natCast_dvd_natCast.1 divides))

namespace Number

variable {x y : Float} {q r : ℚ}

theorem exists_fraction? (finite : x.isFinite) : ∃ q, (Number.float x).fraction? = some q :=
  ⟨_, fraction?_units finite⟩

/-- Finite doubles are ordered as the fractions that they stand for. -/
theorem le_iff_fraction (hx : x.isFinite) (hy : y.isFinite)
    (hq : (Number.float x).fraction? = some q) (hr : (Number.float y).fraction? = some r) :
    x ≤ y ↔ q ≤ r := by
  rw [fraction?_units hx, Option.some.injEq] at hq
  rw [fraction?_units hy, Option.some.injEq] at hr
  have one : (0 : ℚ) < Double.unity := by exact_mod_cast Double.unity_pos
  rw [Double.le_iff_units hx hy, ← hq, ← hr, div_le_div_iff_of_pos_right one, Int.cast_le]

/-- A whole double is written by its digits, and any other one with places. -/
theorem compactFloat_eq (hq : (Number.float x).fraction? = some q) :
    (∃ n : ℤ, q = n ∧ compactFloat x = toString n) ∨
      (∀ n : ℤ, q ≠ n) ∧
        ∃ d : Dyadic, compactFloat x = Decimal.trimZeros (Decimal.fixed 6 d) := by
  rw [fraction?_float] at hq
  unfold compactFloat wholeOr
  cases read : Dyadic.ofFloat? x with
  | none =>
    rw [read] at hq
    cases hq
  | some d =>
    rw [read] at hq
    cases hq
    dsimp only
    split
    · next whole => exact .inl ⟨_, d.fraction_whole whole, rfl⟩
    · next broken =>
      refine .inr ⟨fun n same => broken (d.isWhole_iff.2 ⟨n, same⟩), d, ?_⟩
      rw [Decimal.fixedText, read]

theorem isPlain_compactFloat (finite : x.isFinite) : Decimal.IsPlain (compactFloat x) := by
  obtain ⟨q, hq⟩ := exists_fraction? finite
  obtain ⟨n, -, text⟩ | ⟨-, d, text⟩ := compactFloat_eq hq
  · rw [text]
    exact Decimal.isPlain_toString n
  · rw [text]
    exact Decimal.isPlain_trimZeros (by decide) d

/-- A text writes a fraction: plainly, as it is if it is whole, and otherwise as the nearest
millionth. -/
structure Writes (s : String) (q v : ℚ) : Prop where
  plain : Decimal.IsPlain s
  value : Decimal.value? s = some v
  whole : ∀ n : ℤ, q = n → s = toString n ∧ v = q
  nearest : (∀ n : ℤ, q ≠ n) → ∃ k : ℤ, IsNearest (q * 10 ^ 6) k ∧ v = k / 10 ^ 6
  close : |q - v| ≤ 5 / 10 ^ 7

theorem writes_compactFloat (finite : x.isFinite) (hq : (Number.float x).fraction? = some q) :
    ∃ v, Writes (compactFloat x) q v := by
  have shows := shows_compactFloat x
  obtain ⟨v, value, close⟩ := shows.close hq
  rw [Shows, hq] at shows
  obtain ⟨k, nearest, shown⟩ := shows
  rw [value, Option.some.injEq] at shown
  refine ⟨v, isPlain_compactFloat finite, value, fun n whole => ?_, fun _ => ⟨k, nearest, shown⟩,
    close.trans (by norm_num)⟩
  obtain ⟨m, same, text⟩ | ⟨broken, -⟩ := compactFloat_eq hq
  · have equal : m = n := by exact_mod_cast same.symm.trans whole
    subst equal
    rw [text, Decimal.value?_toString, Option.some.injEq] at value
    exact ⟨text, by rw [← value, whole]⟩
  · exact absurd whole (broken n)

/-- A greater double is written as no lesser a numeral. -/
theorem compactFloat_mono (hx : x.isFinite) (hy : y.isFinite) (le : x ≤ y) :
    ∃ v w, Decimal.value? (compactFloat x) = some v ∧ Decimal.value? (compactFloat y) = some w ∧
      v ≤ w := by
  obtain ⟨q, hq⟩ := exists_fraction? hx
  obtain ⟨r, hr⟩ := exists_fraction? hy
  exact (shows_compactFloat x).mono (shows_compactFloat y) hq hr
    ((le_iff_fraction hx hy hq hr).1 le)

end Number
end Montage
