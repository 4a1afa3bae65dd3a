import Mathlib.Algebra.Order.Field.Power
import Montage.Number.Quotient
import Montage.Proofs.Float.Rounding
import Montage.Proofs.Number.Printed

/-!
# Quotients that are rounded once

A quotient of whole numbers is rounded to a whole number of last places, once and exactly. The
last place is chosen so that the quotient has all the bits of a double (`lastPlace_spec`): a double
with a smaller last place lies below the quotient, by more than the rounding is off, and any other
double is a whole number of these places (`RoundedAt.le_units`). So the quotient is the nearest of
all doubles (`quotientInt_nearest`).
-/
namespace Montage

/-- No finite double is nearer to a fraction. -/
def IsNearestDouble (q : ℚ) (x : Float) : Prop :=
  ∃ p, (Number.float x).fraction? = some p ∧
    ∀ y p', (Number.float y).fraction? = some p' → |q - p| ≤ |q - p'|

/-- No whole number is nearer than the nearest one. -/
theorem IsNearest.le_distance {q : ℚ} {k : ℤ} (h : IsNearest q k) (l : ℤ) : |q - k| ≤ |q - l| := by
  rcases eq_or_ne k l with rfl | other
  · exact le_rfl
  · have apart : (1 : ℚ) ≤ |(l : ℚ) - k| := by
      have := Int.one_le_abs (sub_ne_zero.2 other.symm)
      exact_mod_cast this
    have triangle : |(l : ℚ) - k| ≤ |q - k| + |q - l| := by
      have := abs_sub_le (l : ℚ) q k
      rw [abs_sub_comm (l : ℚ) q] at this
      linarith
    have := h.close
    linarith

theorem IsNearest.le_of_lt {q : ℚ} {k l : ℤ} (h : IsNearest q k) (less : q < l) : k ≤ l := by
  have := (abs_le.1 h.close).1
  have next : (k : ℚ) < l + 1 := by linarith
  exact Int.lt_add_one_iff.1 (by exact_mod_cast next)

theorem IsNearest.ge_of_le {q : ℚ} {k l : ℤ} (h : IsNearest q k) (le : l ≤ q) : l ≤ k := by
  have := (abs_le.1 h.close).2
  have next : (l : ℚ) < k + 1 := by linarith
  exact Int.lt_add_one_iff.1 (by exact_mod_cast next)

namespace Number

open Float.Model (UnpackedFloat)
open Float.Model.UnpackedFloat

variable {num den : Nat}

/-- A quotient counted in a place. -/
theorem quotient_scaled (num den : Nat) (place : Int) :
    ((num * 2 ^ (-place).toNat : Nat) : ℚ) / (den * 2 ^ place.toNat : Nat) =
      (num / den : ℚ) * 2 ^ (-place) := by
  obtain ⟨k, rfl | rfl⟩ := place.eq_nat_or_neg
  · have none : (-(k : Int)).toNat = 0 := by omega
    rw [none, Int.toNat_natCast, zpow_neg, zpow_natCast]
    push_cast
    rw [mul_one, div_mul_eq_div_div, div_eq_mul_inv]
  · have none : (-(k : Int)).toNat = 0 := by omega
    rw [none, neg_neg, Int.toNat_natCast, zpow_natCast]
    push_cast
    rw [mul_one, mul_div_right_comm]

/-- The power of two below a quotient, and the next one. -/
theorem quotient_between (hn : 0 < num) (hd : 0 < den) :
    (2 : ℚ) ^ ((num.log2 : Int) - den.log2 - 1) ≤ num / den ∧
      (num / den : ℚ) < 2 ^ ((num.log2 : Int) - den.log2 + 1) := by
  have bounds {n : Nat} (h : 0 < n) :
      (2 : ℚ) ^ (n.log2 : Int) ≤ n ∧ (n : ℚ) < 2 ^ (n.log2 + 1 : Int) := by
    constructor
    · rw [zpow_natCast]
      exact_mod_cast Nat.log2_self_le h.ne'
    · exact_mod_cast @Nat.lt_log2_self n
  obtain ⟨nLow, nHigh⟩ := bounds hn
  obtain ⟨dLow, dHigh⟩ := bounds hd
  have positive : (0 : ℚ) < den := by exact_mod_cast hd
  constructor
  · rw [le_div_iff₀ positive]
    calc (2 : ℚ) ^ ((num.log2 : Int) - den.log2 - 1) * den
        ≤ 2 ^ ((num.log2 : Int) - den.log2 - 1) * 2 ^ (den.log2 + 1 : Int) :=
          mul_le_mul_of_nonneg_left dHigh.le (by positivity)
      _ = 2 ^ (num.log2 : Int) := by
          rw [← zpow_add₀ (by norm_num)]
          congr 1
          ring
      _ ≤ num := nLow
  · rw [div_lt_iff₀ positive]
    calc (num : ℚ) < 2 ^ (num.log2 + 1 : Int) := nHigh
      _ = 2 ^ ((num.log2 : Int) - den.log2 + 1) * 2 ^ (den.log2 : Int) := by
          rw [← zpow_add₀ (by norm_num)]
          congr 1
          ring
      _ ≤ 2 ^ ((num.log2 : Int) - den.log2 + 1) * den :=
          mul_le_mul_of_nonneg_left dLow (by positivity)

/-- The last place of a quotient: it is counted in less than `2 ^ 53` such places, and in at least
`2 ^ 52` unless the place is the last of all. -/
theorem lastPlace_spec (hn : 0 < num) (hd : 0 < den) :
    -1074 ≤ lastPlace num den ∧ (num / den : ℚ) * 2 ^ (-lastPlace num den) < 2 ^ 53 ∧
      (lastPlace num den = -1074 ∨ 2 ^ 52 ≤ (num / den : ℚ) * 2 ^ (-lastPlace num den)) := by
  obtain ⟨low, high⟩ := quotient_between hn hd
  -- the exponent of the first bit, found by one comparison
  obtain ⟨e, place, low, high⟩ : ∃ e : Int, lastPlace num den = Max.max (e - 52) (-1074) ∧
      (2 : ℚ) ^ e ≤ num / den ∧ (num / den : ℚ) < 2 ^ (e + 1) := by
    have scaled := quotient_scaled num den ((num.log2 : Int) - den.log2)
    generalize he : (num.log2 : Int) - den.log2 = e at low high scaled
    have positive : (0 : ℚ) < (den * 2 ^ e.toNat : Nat) := by
      exact_mod_cast Nat.mul_pos hd (Nat.two_pow_pos _)
    have compare : num * 2 ^ (-e).toNat < den * 2 ^ e.toNat ↔ (num / den : ℚ) < 2 ^ e := by
      have power : (0 : ℚ) < 2 ^ e := by positivity
      rw [← Nat.cast_lt (α := ℚ), ← div_lt_one positive, scaled, zpow_neg, ← div_eq_mul_inv,
        div_lt_one power]
    unfold lastPlace
    rw [he]
    by_cases below : (num / den : ℚ) < 2 ^ e
    · refine ⟨e - 1, ?_, low, by rwa [sub_add_cancel]⟩
      simp only [Nat.pow_eq, compare.2 below, decide_true, if_true]
      omega
    · refine ⟨e, ?_, not_lt.1 below, high⟩
      simp only [Nat.pow_eq, mt compare.1 below, decide_false, Bool.false_eq_true, if_false]
      omega
  have two : (1 : ℚ) ≤ 2 := by norm_num
  have shift (k : Int) : (2 : ℚ) ^ k * 2 ^ (-lastPlace num den) = 2 ^ (k - lastPlace num den) := by
    rw [← zpow_add₀ (by norm_num), sub_eq_add_neg]
  have positive : (0 : ℚ) < 2 ^ (-lastPlace num den) := by positivity
  refine ⟨by omega, ?_, ?_⟩
  · calc (num / den : ℚ) * 2 ^ (-lastPlace num den)
        < 2 ^ (e + 1) * 2 ^ (-lastPlace num den) := mul_lt_mul_of_pos_right high positive
      _ = 2 ^ (e + 1 - lastPlace num den) := shift _
      _ ≤ 2 ^ (53 : Int) := zpow_le_zpow_right₀ two (by omega)
      _ = 2 ^ 53 := by norm_num
  · by_cases least : lastPlace num den = -1074
    · exact .inl least
    · right
      calc (2 : ℚ) ^ 52 = 2 ^ (52 : Int) := by norm_num
        _ = 2 ^ (e - lastPlace num den) := by
          congr 1
          omega
        _ = 2 ^ e * 2 ^ (-lastPlace num den) := (shift _).symm
        _ ≤ (num / den : ℚ) * 2 ^ (-lastPlace num den) :=
          mul_le_mul_of_nonneg_right low positive.le

/-- A fraction is rounded to a whole number. It is the last place of a double, the `k`-th one, in
which it is counted: it has all the bits of a double, unless the place is the last of all. -/
structure RoundedAt (k : Nat) (q : ℚ) (u : Nat) : Prop where
  nearest : IsNearest q u
  upper : q < 2 ^ 53
  filled : k = 0 ∨ 2 ^ 52 ≤ q

namespace RoundedAt

variable {k u : Nat} {q : ℚ}

theorem units_upper (h : RoundedAt k q u) : u ≤ 2 ^ 53 := by
  have le : (u : Int) ≤ 2 ^ 53 := h.nearest.le_of_lt (by push_cast; exact h.upper)
  exact_mod_cast le

theorem units_filled (h : RoundedAt k q u) : k = 0 ∨ 2 ^ 52 ≤ u := by
  refine h.filled.imp (fun least => least) fun long => ?_
  have le : (2 : Int) ^ 52 ≤ u := h.nearest.ge_of_le (by push_cast; exact long)
  exact_mod_cast le

theorem abs_scaled (k : Nat) (q v : ℚ) : |q * 2 ^ k - v * 2 ^ k| = |q - v| * 2 ^ k := by
  have power : (0 : ℚ) < 2 ^ k := by positivity
  rw [← sub_mul, abs_mul, abs_of_pos power]

/-- No whole number of places is nearer. -/
theorem le_multiple (h : RoundedAt k q u) (v : ℤ) :
    |q * 2 ^ k - u * 2 ^ k| ≤ |q * 2 ^ k - v * 2 ^ k| := by
  have close := h.nearest.le_distance v
  rw [Int.cast_natCast] at close
  rw [abs_scaled, abs_scaled]
  exact mul_le_mul_of_nonneg_right close (by positivity)

/-- No number is nearer that is below all doubles with this last place. -/
theorem le_below (h : RoundedAt k q u) (some_place : k ≠ 0) {v : ℚ} (below : v ≤ 2 ^ 52 * 2 ^ k) :
    |q * 2 ^ k - u * 2 ^ k| ≤ |q * 2 ^ k - v| := by
  have filled := h.filled.resolve_left some_place
  have here : (2 : ℚ) ^ 52 * 2 ^ k ≤ q * 2 ^ k := mul_le_mul_of_nonneg_right filled (by positivity)
  have close := h.le_multiple (2 ^ 52)
  rw [Int.cast_pow, Int.cast_ofNat] at close
  calc |q * 2 ^ k - u * 2 ^ k| ≤ |q * 2 ^ k - 2 ^ 52 * 2 ^ k| := close
    _ = q * 2 ^ k - 2 ^ 52 * 2 ^ k := abs_of_nonneg (by linarith)
    _ ≤ q * 2 ^ k - v := by linarith
    _ ≤ |q * 2 ^ k - v| := le_abs_self _

/-- No double is nearer. -/
theorem le_units (h : RoundedAt k q u) {y : UnpackedFloat} (hy : Double.IsCanonical y) :
    |q * 2 ^ k - u * 2 ^ k| ≤ |q * 2 ^ k - Double.units y| := by
  cases y with
  | infinity | notANumber => cases hy
  | zero =>
    have none : ((0 : ℤ) : ℚ) * 2 ^ k = ((0 : ℤ) : ℚ) := by rw [Int.cast_zero, zero_mul]
    rw [Double.units_zero, ← none]
    exact h.le_multiple 0
  | finite s m e hm =>
    obtain ⟨small, least, -⟩ := hy
    rw [Double.units_finite]
    by_cases coarse : k ≤ (e + 1074).toNat
    · have size : Double.size m e = m * 2 ^ ((e + 1074).toNat - k) * 2 ^ k := by
        rw [Double.size, mul_assoc, ← pow_add, Nat.sub_add_cancel coarse]
      have multiple : ((s.apply (Double.size m e) : ℤ) : ℚ) =
          (s.apply (m * 2 ^ ((e + 1074).toNat - k) : Nat) : ℤ) * 2 ^ k := by
        rw [size]
        cases s <;> simp [Sign.apply]
      rw [multiple]
      exact h.le_multiple _
    · -- a double with a smaller last place
      refine h.le_below (by omega) ?_
      have magnitude : s.apply (Double.size m e) ≤ Double.size m e := by
        cases s <;> simp [Sign.apply]
      have below : (Double.size m e : ℚ) < (2 ^ 52 * 2 ^ k : Nat) :=
        Nat.cast_lt.2 (Double.size_lt_place small (by omega))
      rw [Nat.cast_mul, Nat.cast_pow, Nat.cast_pow, Nat.cast_ofNat] at below
      have magnitude : ((s.apply (Double.size m e) : ℤ) : ℚ) ≤ Double.size m e := by
        exact_mod_cast magnitude
      exact magnitude.trans below.le

end RoundedAt

/-- A quotient that is not zero is rounded in its last place. -/
theorem exists_roundedAt (hn : 0 < num) (hd : 0 < den) : ∃ u k : Nat,
    nearestQuotient num den = Float.ofBits (min (k * 2 ^ 52 + u) infiniteBits).toUInt64 ∧
      ∃ q, RoundedAt k q u ∧ q * 2 ^ k = num / den * Double.unity := by
  obtain ⟨least, upper, filled⟩ := lastPlace_spec hn hd
  have nearest := isNearest_divNearest (num * 2 ^ (-lastPlace num den).toNat)
    (Nat.mul_pos hd (Nat.two_pow_pos (lastPlace num den).toNat))
  rw [quotient_scaled num den (lastPlace num den)] at nearest
  refine ⟨_, (lastPlace num den + 1074).toNat, if_neg hn.ne', _,
    ⟨nearest, upper, filled.imp (fun least => by omega) fun long => long⟩, ?_⟩
  obtain ⟨k, place⟩ : ∃ k : Nat, lastPlace num den = k - 1074 :=
    ⟨(lastPlace num den + 1074).toNat, by omega⟩
  have places : ((k : Int) - 1074 + 1074).toNat = k := by omega
  have power (n : Nat) : (2 : ℚ) ^ (-((k : Int) - n)) * 2 ^ k = (2 ^ n : Nat) := by
    rw [← zpow_natCast, ← zpow_add₀ (by norm_num), neg_sub, sub_add_cancel, zpow_natCast,
      Nat.cast_pow, Nat.cast_ofNat]
  rw [place, places, mul_assoc]
  exact congrArg (num / den * · : ℚ → ℚ) (power 1074)

theorem isFinite_of_fraction? {x : Float} {q : ℚ} (h : (Number.float x).fraction? = some q) :
    x.isFinite := by
  rw [fraction?_float, Dyadic.ofFloat?] at h
  show x.toModel.unpack.isFinite = true
  cases hu : x.toModel.unpack with
  | finite | zero => rfl
  | infinity | notANumber =>
    rw [hu] at h
    cases h

theorem toNat_toUInt64 {n : Nat} (h : n < 2 ^ 64) : n.toUInt64.toBitVec.toNat = n :=
  Nat.mod_eq_of_lt h

/-- The bits of a number of places. -/
theorem units_place {u k : Nat} (upper : u ≤ 2 ^ 53) (filled : k = 0 ∨ 2 ^ 52 ≤ u)
    (finite : k * 2 ^ 52 + u < 0x7ff * 2 ^ 52) :
    Double.IsCanonical (Float.ofBits (k * 2 ^ 52 + u).toUInt64).toModel.unpack ∧
      Double.units (Float.ofBits (k * 2 ^ 52 + u).toUInt64).toModel.unpack = (u * 2 ^ k : Nat) := by
  have bits := toNat_toUInt64 (show k * 2 ^ 52 + u < 2 ^ 64 by omega)
  rw [Double.unpack_ofBits]
  generalize (k * 2 ^ 52 + u).toUInt64.toBitVec = b at bits
  obtain ⟨canonical, units⟩ := Double.units_bits (b := b) (by omega)
  refine ⟨canonical, ?_⟩
  rw [units, bits]
  congr 1
  by_cases small : k * 2 ^ 52 + u < 2 ^ 52
  · obtain rfl : k = 0 := by omega
    rw [if_pos small, Nat.zero_mul, Nat.zero_add, pow_zero, Nat.mul_one]
  rw [if_neg small]
  rcases upper.lt_or_eq with less | rfl
  · have exponent : (k * 2 ^ 52 + u) / 2 ^ 52 - 1 = k := by omega
    have mantissa : 2 ^ 52 + (k * 2 ^ 52 + u) % 2 ^ 52 = u := by omega
    rw [exponent, mantissa]
  · -- rounded up to the next power of two
    have exponent : (k * 2 ^ 52 + 2 ^ 53) / 2 ^ 52 - 1 = k + 1 := by omega
    have mantissa : 2 ^ 52 + (k * 2 ^ 52 + 2 ^ 53) % 2 ^ 52 = 2 ^ 52 := by omega
    rw [exponent, mantissa]
    ring

/-- A distance in units. -/
theorem abs_sub_div (q v : ℚ) {c : ℚ} (hc : 0 < c) : |q - v / c| = |q * c - v| / c := by
  have counted : q - v / c = (q * c - v) / c := by field_simp
  rw [counted, abs_div, abs_of_pos hc]

theorem isNearestDouble_zero : IsNearestDouble 0 0 := by
  refine ⟨0, ?_, fun y p _ => ?_⟩
  · rw [fraction?_units rfl]
    exact congrArg some (zero_div _)
  · rw [sub_zero, abs_zero]
    exact abs_nonneg _

/-- A quotient that is not too large is rounded to the nearest double. -/
theorem nearestQuotient_nearest (num : Nat) {den : Nat} (hd : 0 < den)
    (finite : (nearestQuotient num den).isInf = false) :
    IsNearestDouble (num / den) (nearestQuotient num den) := by
  rcases Nat.eq_zero_or_pos num with rfl | hn
  · have zero : nearestQuotient 0 den = 0 := if_pos rfl
    rw [zero, Nat.cast_zero, zero_div]
    exact isNearestDouble_zero
  obtain ⟨u, k, opened, q, rounded, counted⟩ := exists_roundedAt hn hd
  rw [opened] at finite ⊢
  have below : k * 2 ^ 52 + u < infiniteBits := by
    by_contra above
    rw [min_eq_right (not_lt.1 above)] at finite
    cases finite
  rw [min_eq_left below.le]
  obtain ⟨canonical, units⟩ := units_place rounded.units_upper rounded.units_filled below
  refine ⟨_, fraction?_units (Double.isFinite_of_isCanonical canonical), fun y p hp => ?_⟩
  have unity : (0 : ℚ) < Double.unity := by exact_mod_cast Double.unity_pos
  have hy := isFinite_of_fraction? hp
  rw [fraction?_units hy, Option.some.injEq] at hp
  have closest := rounded.le_units (Double.isCanonical_unpack hy)
  rw [counted] at closest
  rw [← hp, units, abs_sub_div _ _ unity, abs_sub_div _ _ unity]
  push_cast
  exact div_le_div_of_nonneg_right closest unity.le

theorem fraction?_neg {x : Float} {q : ℚ} (h : (Number.float x).fraction? = some q) :
    (Number.float (-x)).fraction? = some (-q) := by
  have hx := isFinite_of_fraction? h
  have finite : (-x).isFinite := by
    show (-x).toModel.unpack.isFinite = true
    rw [Double.unpack_neg]
    exact Double.isFinite_of_isCanonical (Double.isCanonical_neg (Double.isCanonical_unpack hx))
  rw [fraction?_units hx, Option.some.injEq] at h
  rw [fraction?_units finite, Double.unpack_neg, Double.units_neg, ← h]
  push_cast
  rw [neg_div]

theorem isNearestDouble_neg {q : ℚ} {x : Float} (h : IsNearestDouble q x) :
    IsNearestDouble (-q) (-x) := by
  obtain ⟨p, value, closest⟩ := h
  refine ⟨-p, fraction?_neg value, fun y p' hp => ?_⟩
  have flip (a b : ℚ) : |-a - b| = |a - -b| := by
    rw [← abs_neg]
    congr 1
    ring
  rw [flip, flip, neg_neg]
  exact closest (-y) (-p') (fraction?_neg hp)

/-- A quotient by a positive whole number is the nearest of all doubles to the exact one. -/
theorem quotientInt_nearest {n d : Int} (hd : 0 < d) {x : Float} (h : quotientInt n d = .ok x) :
    IsNearestDouble (n / d) x := by
  obtain ⟨d, rfl⟩ := Int.eq_ofNat_of_zero_le hd.le
  have hd : 0 < d := by exact_mod_cast hd
  have natural : ((d : Int) < 0) = False := by simp
  unfold quotientInt at h
  simp only [Int.natAbs_natCast, natural, decide_false, Bool.bne_false, decide_eq_true_eq] at h
  split at h
  · cases h
  · next finite =>
    have closest := nearestQuotient_nearest n.natAbs hd (Bool.eq_false_iff.2 finite)
    have x_eq := Except.ok.inj h
    by_cases negative : n < 0
    · rw [if_pos negative] at x_eq
      have magnitude : ((n : ℚ) / (d : Int)) = -((n.natAbs : ℚ) / d) := by
        rw [Nat.cast_natAbs, abs_of_neg negative, Int.cast_neg, neg_div, neg_neg, Int.cast_natCast]
      rw [magnitude, ← x_eq]
      exact isNearestDouble_neg closest
    · rw [if_neg negative] at x_eq
      have magnitude : ((n : ℚ) / (d : Int)) = (n.natAbs : ℚ) / d := by
        rw [Nat.cast_natAbs, abs_of_nonneg (not_lt.1 negative), Int.cast_natCast]
      rw [magnitude, ← x_eq]
      exact closest

end Number
end Montage
