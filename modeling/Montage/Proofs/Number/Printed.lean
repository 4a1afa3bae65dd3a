import Mathlib.Algebra.Order.Field.Basic
import Mathlib.Algebra.Ring.Int.Parity
import Mathlib.Data.Nat.Cast.Field
import Mathlib.Tactic.Linarith
import Montage.Number.Compact
import Montage.Proofs.Decimal.Value
import Montage.Proofs.Float.Units
import Montage.Proofs.Graph.Labels

/-!
# How far a printed number is off

Numbers are printed to six places where a filter reads them, to three where the encoder reads a
length of time, and to none as sizes of letters. `Shows` says what all of these have in common: the
text denotes the nearest decimal with so many places, a half going to the even one. Whole numbers
are shown exactly, and a number that is not finite is shown as nothing.

* `Shows.positive_iff`: what is printed is positive just if the number is more than half a unit.
* `Shows.agree_iff`: a number printed to six places and to three denotes the same twice just if it
  is, to six places, a whole number of thousandths.
-/
namespace Montage

/-! ## The nearest whole number -/

/-- A whole number is the nearest one to a fraction; of two it is the even one. -/
structure IsNearest (q : ℚ) (k : ℤ) : Prop where
  close : |q - k| ≤ 1 / 2
  even : |q - k| = 1 / 2 → Even k

namespace IsNearest

variable {q : ℚ} {k l : ℤ}

theorem le_of_close (h : IsNearest q k) (h' : IsNearest q l) : k ≤ l := by
  by_contra more
  have next : l + 1 ≤ k := by omega
  have gap : (l : ℚ) + 1 ≤ k := by exact_mod_cast next
  have below := (abs_le.1 h.close).1
  have above := (abs_le.1 h'.close).2
  -- both are half a unit away, and so both are even
  have first : |q - k| = 1 / 2 := by
    rw [abs_of_nonpos (by linarith)]
    linarith
  have second : |q - l| = 1 / 2 := by
    rw [abs_of_nonneg (by linarith)]
    linarith
  have same : (k : ℚ) = l + 1 := by linarith
  have same : k = l + 1 := by exact_mod_cast same
  obtain ⟨a, evenK⟩ := h.even first
  obtain ⟨b, evenL⟩ := h'.even second
  omega

theorem unique (h : IsNearest q k) (h' : IsNearest q l) : k = l :=
  le_antisymm (h.le_of_close h') (h'.le_of_close h)

theorem neg (h : IsNearest q k) : IsNearest (-q) (-k) := by
  have distance : |(-q) - ((-k : ℤ) : ℚ)| = |q - k| := by
    rw [← abs_neg]
    congr 1
    push_cast
    ring
  exact ⟨distance ▸ h.close, fun half => (h.even (distance ▸ half)).neg⟩

theorem of_eq (h : q = k) : IsNearest q k := by
  have none_off : |q - k| = 0 := by rw [h, sub_self, abs_zero]
  exact ⟨by rw [none_off]; norm_num, fun half => by rw [none_off] at half; norm_num at half⟩

/-- Just the fractions above one half are rounded to something positive. -/
theorem pos_iff (h : IsNearest q k) : 0 < k ↔ 1 / 2 < q := by
  have bounds := abs_le.1 h.close
  constructor
  · intro positive
    have one : (1 : ℚ) ≤ k := by exact_mod_cast positive
    rcases lt_or_eq_of_le (show (1 : ℚ) / 2 ≤ q by linarith) with more | half
    · exact more
    · -- a half is rounded to zero
      have off : |q - k| = 1 / 2 := by
        rw [abs_of_nonpos (by linarith)]
        linarith
      obtain ⟨a, even⟩ := h.even off
      have two : (2 : ℚ) ≤ k := by
        have : (2 : ℤ) ≤ k := by omega
        exact_mod_cast this
      linarith
  · intro more
    have positive : (0 : ℚ) < k := by linarith
    exact_mod_cast positive

end IsNearest

/-- Where the quotient lies in the middle, the even neighbour is taken. -/
theorem divNearest_even {num den : Nat} (hd : 0 < den)
    (half : 2 * num + den = 2 * (den * divNearest num den) ∨
      2 * num = 2 * (den * divNearest num den) + den) : divNearest num den % 2 = 0 := by
  have hdiv := Nat.div_add_mod num den
  have hlt := Nat.mod_lt num hd
  unfold divNearest at half ⊢
  simp only at half ⊢
  split at half
  · omega
  · split at half
    · rw [Nat.mul_add] at half
      omega
    · next notLess notMore =>
      rw [if_neg notLess, if_neg notMore]
      omega

theorem isNearest_divNearest (num : Nat) {den : Nat} (hd : 0 < den) :
    IsNearest ((num : ℚ) / den) (divNearest num den : ℤ) := by
  have positive : (0 : ℚ) < den := by exact_mod_cast hd
  have off : |(num : ℚ) / den - (divNearest num den : ℤ)| =
      |(num : ℚ) - den * divNearest num den| / den := by
    rw [← abs_of_pos positive, ← abs_div, abs_of_pos positive]
    congr 1
    push_cast
    field_simp
  obtain ⟨low, high⟩ := divNearest_close num den hd
  have low : (2 : ℚ) * num ≤ 2 * (den * divNearest num den) + den := by exact_mod_cast low
  have high : (2 : ℚ) * (den * divNearest num den) ≤ 2 * num + den := by exact_mod_cast high
  refine ⟨?_, fun half => ?_⟩
  · rw [off, div_le_iff₀ positive, abs_le]
    constructor <;> linarith
  · rw [off, div_eq_iff positive.ne', abs_eq (by positivity)] at half
    refine (Int.even_coe_nat _).2 (Nat.even_iff.2 (divNearest_even hd ?_))
    rcases half with more | less
    · right
      have more : (2 : ℚ) * num = 2 * (den * divNearest num den) + den := by linarith
      exact_mod_cast more
    · left
      have less : (2 : ℚ) * num + den = 2 * (den * divNearest num den) := by linarith
      exact_mod_cast less

/-! ## Numbers -/

/-- The fraction that a finite double stands for. -/
def Dyadic.fraction (d : Dyadic) : ℚ := (d.signed d.numerator : ℚ) / d.denominator

/-- The fraction that a number stands for, if it is finite. -/
def Number.fraction? (n : Number) : Option ℚ :=
  match n.value with
  | .finite num den => some ((num : ℚ) / den)
  | _ => none

theorem Number.fraction?_int (n : Int) : (Number.int n).fraction? = some (n : ℚ) := by
  show some ((n : ℚ) / ((1 : Nat) : ℚ)) = _
  rw [Nat.cast_one, div_one]

theorem Number.fraction?_float (x : Float) :
    (Number.float x).fraction? = (Dyadic.ofFloat? x).map Dyadic.fraction := by
  have opened : (Number.float x).fraction? = match valueOfFloat x with
    | .finite num den => some ((num : ℚ) / den)
    | _ => none := rfl
  rw [opened, valueOfFloat]
  cases Dyadic.ofFloat? x with
  | some d => rfl
  | none => cases x.isNaN <;> rfl

/-- The fraction of a finite double counts units. -/
theorem Number.fraction?_units {x : Float} (finite : x.isFinite) : (Number.float x).fraction? =
    some ((Double.units x.toModel.unpack : ℚ) / Double.unity) := by
  obtain ⟨num, den, value, positive, units⟩ := Double.valueOfFloat_finite finite
  have value : (Number.float x).value = .finite num den := value
  have one : (Double.unity : ℚ) ≠ 0 := by exact_mod_cast Double.unity_pos.ne'
  have parts : (den : ℚ) ≠ 0 := by exact_mod_cast positive.ne'
  have units : (num : ℚ) * Double.unity = Double.units x.toModel.unpack * den := by
    exact_mod_cast units
  rw [Number.fraction?, value]
  exact congrArg some ((div_eq_div_iff parts one).2 units)

/-- The rounded magnitude with its sign is the rounded double. -/
theorem Dyadic.isNearest (d : Dyadic) (num : Nat) :
    IsNearest ((d.signed num : ℚ) / d.denominator) (d.signed (divNearest num d.denominator)) := by
  have nearest := isNearest_divNearest num d.denominator_pos
  unfold Dyadic.signed
  split
  · have := nearest.neg
    push_cast at this ⊢
    rwa [neg_div]
  · push_cast at nearest ⊢
    exact nearest

theorem Dyadic.isNearest_units (places : Nat) (d : Dyadic) :
    IsNearest (d.fraction * 10 ^ places) (d.signed (Decimal.unitsOf places d)) := by
  have scaled : d.fraction * 10 ^ places =
      (d.signed (d.numerator * 10 ^ places) : ℚ) / d.denominator := by
    unfold Dyadic.fraction Dyadic.signed
    split <;> push_cast <;> ring
  rw [scaled]
  exact d.isNearest _

/-- A text shows a number to some places: it denotes the nearest decimal with so many places. A
number that is not finite is shown as none. -/
def Shows (places : Nat) (n : Number) (s : String) : Prop :=
  match n.fraction? with
  | some q => ∃ k : ℤ, IsNearest (q * 10 ^ places) k ∧
      Decimal.value? s = some ((k : ℚ) / 10 ^ places)
  | none => Decimal.value? s = none

/-- A whole number is shown exactly. -/
theorem shows_whole (places : Nat) {n : Number} {m : Int} (whole : n.fraction? = some (m : ℚ)) :
    Shows places n (toString m) := by
  have power : (10 : ℚ) ^ places ≠ 0 := pow_ne_zero _ (by norm_num)
  unfold Shows
  rw [whole]
  refine ⟨m * 10 ^ places, .of_eq (by push_cast; rfl), ?_⟩
  rw [Decimal.value?_toString]
  push_cast
  rw [mul_div_cancel_right₀ _ power]

theorem Dyadic.fraction_whole {d : Dyadic} (whole : d.isWhole = true) :
    d.fraction = (d.truncate : ℚ) := by
  have divides : d.denominator ∣ d.numerator := Nat.dvd_of_mod_eq_zero (eq_of_beq whole)
  have quotient : ((d.numerator / d.denominator : Nat) : ℚ) = d.numerator / d.denominator :=
    Nat.cast_div divides (by exact_mod_cast d.denominator_pos.ne')
  unfold Dyadic.fraction Dyadic.truncate Dyadic.signed
  split
  · rw [Int.cast_neg, Int.cast_neg, Int.cast_natCast, Int.cast_natCast, quotient, neg_div]
  · rw [Int.cast_natCast, Int.cast_natCast, quotient]

/-- Whole doubles are printed exactly, the others as they are printed by `rest`. -/
theorem shows_wholeOr {places : Nat} {rest : Float → String} {x : Float}
    (finite : ∀ d, Dyadic.ofFloat? x = some d → Decimal.value? (rest x) =
      some ((d.signed (Decimal.unitsOf places d) : ℚ) / 10 ^ places))
    (infinite : Dyadic.ofFloat? x = none → Decimal.value? (rest x) = none) :
    Shows places (.float x) (Number.wholeOr rest x) := by
  have fraction := Number.fraction?_float x
  unfold Number.wholeOr
  cases read : Dyadic.ofFloat? x with
  | none =>
    rw [read, Option.map_none] at fraction
    rw [Shows, fraction]
    exact infinite read
  | some d =>
    rw [read, Option.map_some] at fraction
    dsimp only
    split
    · next whole => exact shows_whole places (by rw [fraction, d.fraction_whole whole])
    · rw [Shows, fraction]
      exact ⟨_, d.isNearest_units places, finite d read⟩

theorem shows_compactFloat (x : Float) : Shows 6 (.float x) (Number.compactFloat x) := by
  refine shows_wholeOr (fun d read => ?_) (fun read => ?_)
  · rw [Decimal.fixedText, read]
    exact Decimal.value?_trimZeros_fixed (by decide) d
  · rw [Decimal.fixedText, read]
    dsimp only
    split
    · rfl
    · split <;> rfl

theorem shows_secondsFloat (x : Float) : Shows 3 (.float x) (Number.secondsFloat x) := by
  refine shows_wholeOr (fun d read => ?_) (fun read => ?_)
  · rw [Decimal.fixedText, read]
    exact Decimal.value?_fixed (by decide) d
  · rw [Decimal.fixedText, read]
    dsimp only
    split
    · rfl
    · split <;> rfl

/-- What writes doubles with some places writes numbers so. -/
theorem shows_textBy {places : Nat} {write : Float → String}
    (doubles : ∀ x, Shows places (.float x) (write x)) {n : Number} {s : String}
    (h : n.textBy write = .ok s) : Shows places n s := by
  cases n with
  | int n =>
    obtain ⟨_, -, h⟩ := Graph.except_bind_ok.1 h
    cases h
    exact shows_whole places (Number.fraction?_int n)
  | float x =>
    cases h
    exact doubles x

theorem shows_compact {n : Number} {s : String} (h : n.compact = .ok s) : Shows 6 n s :=
  shows_textBy shows_compactFloat h

theorem shows_seconds {n : Number} {s : String} (h : n.seconds = .ok s) : Shows 3 n s :=
  shows_textBy shows_secondsFloat h

/-- A double rounded to a whole number is shown without places. -/
theorem shows_nearestInt {x : Float} {n : Int} (h : Number.nearestInt x = .ok n) :
    Shows 0 (.float x) (toString n) := by
  have fraction := Number.fraction?_float x
  unfold Number.nearestInt at h
  cases read : Dyadic.ofFloat? x with
  | none =>
    rw [read] at h
    cases h
  | some d =>
    rw [read] at h
    cases h
    rw [read, Option.map_some] at fraction
    rw [Shows, fraction]
    refine ⟨d.nearest, ?_, ?_⟩
    · rw [pow_zero, mul_one]
      exact d.isNearest _
    · rw [Decimal.value?_toString, pow_zero, div_one]

/-! ## What is left of a number -/

/-- A text denotes a positive number. -/
def IsPositive (s : String) : Prop := ∃ v, Decimal.value? s = some v ∧ 0 < v

/-- A number is more than half a unit of the last of some places. -/
def Number.Exceeds (places : Nat) (n : Number) : Prop :=
  ∃ q, n.fraction? = some q ∧ 1 / 2 < q * 10 ^ places

variable {places : Nat} {n : Number} {s s' : String}

/-- A number that is printed stays positive just if it is more than half a unit of the last
place. -/
theorem Shows.positive_iff (h : Shows places n s) : IsPositive s ↔ n.Exceeds places := by
  have power : (0 : ℚ) < 10 ^ places := by positivity
  unfold Shows at h
  unfold IsPositive Number.Exceeds
  cases fraction : n.fraction? with
  | none =>
    rw [fraction] at h
    rw [h]
    exact iff_of_false nofun nofun
  | some q =>
    rw [fraction] at h
    obtain ⟨k, nearest, value⟩ := h
    rw [value]
    have sign : (0 : ℚ) < k / 10 ^ places ↔ 0 < k := by
      rw [lt_div_iff₀ power, zero_mul, Int.cast_pos]
    simp [sign, nearest.pos_iff]

/-- A greater double is printed as positive if a lesser one is. -/
theorem Number.Exceeds.of_lt {x y : Float} (h : (Number.float x).Exceeds places) (less : x < y)
    (hx : x.isFinite) (hy : y.isFinite) : (Number.float y).Exceeds places := by
  obtain ⟨q, fraction, more⟩ := h
  rw [Number.fraction?_units hx, Option.some.injEq] at fraction
  have below := (Double.lt_iff_units hx hy).1 less
  have below : (Double.units x.toModel.unpack : ℚ) < Double.units y.toModel.unpack := by
    exact_mod_cast below
  have one : (0 : ℚ) < Double.unity := by exact_mod_cast Double.unity_pos
  have power : (0 : ℚ) < 10 ^ places := by positivity
  refine ⟨_, Number.fraction?_units hy, more.trans ?_⟩
  rw [← fraction]
  exact mul_lt_mul_of_pos_right (div_lt_div_of_pos_right below one) power

/-- A number that is positive to fewer places is to more. -/
theorem Number.Exceeds.more {places more : Nat} (h : n.Exceeds places) (le : places ≤ more) :
    n.Exceeds more := by
  obtain ⟨q, fraction, half⟩ := h
  refine ⟨q, fraction, half.trans_le ?_⟩
  have positive : 0 < q := by
    by_contra least
    have power : (0 : ℚ) ≤ 10 ^ places := by positivity
    have := mul_nonpos_of_nonpos_of_nonneg (not_lt.1 least) power
    linarith
  exact mul_le_mul_of_nonneg_left (pow_le_pow_right₀ (by norm_num) le) positive.le

/-- A printed number is off by half a unit at most. -/
theorem Shows.close (h : Shows places n s) {q : ℚ} (fraction : n.fraction? = some q) :
    ∃ v, Decimal.value? s = some v ∧ |q - v| ≤ 1 / (2 * 10 ^ places) := by
  have power : (0 : ℚ) < 10 ^ places := by positivity
  rw [Shows, fraction] at h
  obtain ⟨k, nearest, value⟩ := h
  refine ⟨_, value, ?_⟩
  have off : |q - k / 10 ^ places| = |q * 10 ^ places - k| / 10 ^ places := by
    rw [← abs_of_pos power, ← abs_div, abs_of_pos power]
    congr 1
    field_simp
  rw [off, div_le_iff₀ power]
  have unit : (1 : ℚ) / (2 * 10 ^ places) * 10 ^ places = 1 / 2 := by field_simp
  rw [unit]
  exact nearest.close

/-- A number printed to six places and to three denotes the same number twice just if it is a whole
number of thousandths to six places. -/
theorem Shows.agree_iff (six : Shows 6 n s) (three : Shows 3 n s') {q : ℚ}
    (fraction : n.fraction? = some q) :
    Decimal.value? s = Decimal.value? s' ↔ ∃ m : ℤ, |q - m / 1000| ≤ 1 / 2000000 := by
  obtain ⟨v, value, close⟩ := six.close fraction
  rw [Shows, fraction] at six three
  obtain ⟨k, nearest, shown⟩ := six
  obtain ⟨l, nearest', shown'⟩ := three
  constructor
  · intro same
    have off : v = l / 1000 := by
      rw [same, shown', Option.some.injEq] at value
      rw [← value]
      norm_num
    refine ⟨l, ?_⟩
    rw [← off]
    refine close.trans ?_
    norm_num
  · rintro ⟨m, near⟩
    have bounds := abs_le.1 near
    -- a whole number of thousandths is an even one of millionths
    have sixth : IsNearest (q * 10 ^ 6) (1000 * m) := by
      refine ⟨?_, fun _ => ⟨500 * m, by ring⟩⟩
      push_cast
      rw [abs_le]
      constructor <;> linarith
    have third : IsNearest (q * 10 ^ 3) m := by
      have off : |q * 10 ^ 3 - m| ≤ 1 / 2000 := by
        rw [abs_le]
        constructor <;> linarith
      refine ⟨off.trans (by norm_num), fun half => ?_⟩
      rw [half] at off
      norm_num at off
    rw [shown, shown', nearest.unique sixth, nearest'.unique third]
    push_cast
    congr 1
    ring

end Montage
