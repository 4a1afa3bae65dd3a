import Mathlib.Tactic.NormNum
import Mathlib.Tactic.Positivity
import Mathlib.Tactic.Ring
import Montage.Number
import Montage.Proofs.Float.Order

/-!
# Doubles as whole numbers of units

Every finite double is a whole number of units of `2 ^ -1074` (`units`), and finite doubles are
ordered as these numbers are (`units_lt_iff`). Two orders meet here: documents compare numbers by
their exact values (`Number.lt`), all other code compares doubles. `float_lt_int` and its three
siblings say that against a whole number that has a double of its own (`Stands`) the two agree,
infinities and what is not a number included.
-/
namespace Montage.Double

open Float.Model (UnpackedFloat Format)
open Float.Model.UnpackedFloat

/-- The mantissas and exponents that doubles have. -/
def Canonical (m : Nat) (e : Int) : Prop := m < 2 ^ 53 ∧ -1074 ≤ e ∧ (e = -1074 ∨ 2 ^ 52 ≤ m)

theorem canonical_unpack {b : BitVec Format.binary64.numBits} {s : Sign} {m : Nat} {e : Int}
    {h : 0 < m} (hb : unpack Format.binary64 b = .finite s m e h) : Canonical m e := by
  have low : (unpackMantissa b).toNat < 2 ^ 52 := (unpackMantissa b).isLt
  have bias : Format.binary64.exponentBias = 1023 := rfl
  unfold unpack at hb
  dsimp only at hb
  by_cases most : unpackExponent b = -1#_
  · rw [if_pos most] at hb
    by_cases none : unpackMantissa b = 0#_
    · rw [if_pos none] at hb; cases hb
    · rw [if_neg none] at hb; cases hb
  · rw [if_neg most] at hb
    by_cases zero : unpackExponent b = 0#_
    · rw [if_pos zero] at hb
      by_cases none : unpackMantissa b = 0#_
      · rw [dif_pos none] at hb; cases hb
      · rw [dif_neg none] at hb
        cases hb
        rw [zero, bias]
        exact ⟨by omega, by norm_num, .inl (by norm_num)⟩
    · rw [if_neg zero] at hb
      have pos : (unpackExponent b).toNat ≠ 0 := fun e => zero (BitVec.eq_of_toNat_eq e)
      have joined : (1#1 ++ unpackMantissa b).toNat = 2 ^ 52 + (unpackMantissa b).toNat := by
        rw [BitVec.toNat_append, ← Nat.shiftLeft_add_eq_or_of_lt low]
        rfl
      cases hb
      rw [joined, bias]
      refine ⟨by omega, ?_, .inr (by omega)⟩
      push_cast
      omega

/-! ## Units -/

/-- The distance of `m · 2 ^ e` from zero in units of `2 ^ -1074`. -/
def size (m : Nat) (e : Int) : Nat := m * 2 ^ (e + 1074).toNat

/-- A finite double in units of `2 ^ -1074`. -/
def units : UnpackedFloat → Int
  | .finite s m e _ => s.apply (size m e)
  | _ => 0

@[simp]
theorem units_zero (s : Sign) : units (.zero s) = 0 := rfl

@[simp]
theorem units_finite (s : Sign) (m : Nat) (e : Int) (h : 0 < m) :
    units (.finite s m e h) = s.apply (size m e) := rfl

/-- A finite number in the form that doubles have. -/
def IsCanonical : UnpackedFloat → Prop
  | .finite _ m e _ => Canonical m e
  | .zero _ => True
  | _ => False

theorem isCanonical_unpack {x : Float} (h : x.isFinite) : IsCanonical x.toModel.unpack := by
  have finite : x.toModel.unpack.isFinite = true := h
  generalize hu : x.toModel.unpack = u at finite
  cases u with
  | infinity => cases finite
  | notANumber => cases finite
  | zero => trivial
  | finite => exact canonical_unpack hu

theorem size_pos {m : Nat} (h : 0 < m) (e : Int) : 0 < size m e :=
  Nat.mul_pos h (Nat.two_pow_pos _)

/-- A double is less than the least one with all its bits that has a greater exponent. -/
theorem size_lt_place {m k : Nat} {e : Int} (upper : m < 2 ^ 53) (fine : (e + 1074).toNat < k) :
    size m e < 2 ^ 52 * 2 ^ k := by
  unfold size
  calc m * 2 ^ (e + 1074).toNat < 2 ^ 53 * 2 ^ (e + 1074).toNat :=
        Nat.mul_lt_mul_of_pos_right upper (Nat.two_pow_pos _)
    _ = 2 ^ 52 * 2 ^ ((e + 1074).toNat + 1) := by ring
    _ ≤ 2 ^ 52 * 2 ^ k := Nat.mul_le_mul_left _ (Nat.pow_le_pow_right (by decide) fine)

/-- The greater exponent makes the greater number, and with one exponent the greater mantissa. -/
theorem size_lt {m n : Nat} {e f : Int} (hm : Canonical m e) (hn : Canonical n f)
    (h : e < f ∨ e = f ∧ m < n) : size m e < size n f := by
  obtain ⟨mUpper, eLower, -⟩ := hm
  obtain ⟨-, fLower, nLower⟩ := hn
  rcases h with h | ⟨rfl, h⟩
  · have nLower : 2 ^ 52 ≤ n := nLower.resolve_left (by omega)
    exact (size_lt_place mUpper (by omega)).trans_le (Nat.mul_le_mul_right _ nLower)
  · exact Nat.mul_lt_mul_of_pos_right h (Nat.two_pow_pos _)

theorem units_lt {a b : UnpackedFloat} (ha : IsCanonical a) (hb : IsCanonical b)
    (h : Below (place a) (place b)) : units a < units b := by
  unfold Below at h
  cases a with
  | infinity | notANumber => cases ha
  | zero =>
    cases b with
    | infinity | notANumber => cases hb
    | zero => dsimp only [place] at h; omega
    | finite t n f hn =>
      have := size_pos hn f
      cases t <;> dsimp only [place, units_zero, units_finite, Sign.apply] at h ⊢ <;> omega
  | finite s m e hm =>
    have := size_pos hm e
    cases b with
    | infinity | notANumber => cases hb
    | zero => cases s <;> dsimp only [place, units_zero, units_finite, Sign.apply] at h ⊢ <;> omega
    | finite t n f hn =>
      have := size_pos hn f
      have up := size_lt ha hb
      have down := size_lt hb ha
      cases s <;> cases t <;> dsimp only [place, units_finite, Sign.apply] at h ⊢ <;> omega

theorem units_congr {a b : UnpackedFloat} (ha : IsCanonical a) (hb : IsCanonical b)
    (h : place a = place b) : units a = units b := by
  cases a with
  | infinity | notANumber => cases ha
  | zero =>
    cases b with
    | infinity | notANumber => cases hb
    | zero => rfl
    | finite t n f hn => cases t <;> cases congrArg Prod.fst h
  | finite s m e hm =>
    cases b with
    | infinity | notANumber => cases hb
    | zero => cases s <;> cases congrArg Prod.fst h
    | finite t n f hn =>
      cases s <;> cases t <;> dsimp only [place] at h <;> rw [Prod.mk.injEq, Prod.mk.injEq] at h
      case negative.positive | positive.negative => omega
      all_goals
        obtain rfl : e = f := by omega
        obtain rfl : m = n := by omega
        rfl

theorem units_lt_iff {a b : UnpackedFloat} (ha : IsCanonical a) (hb : IsCanonical b) :
    Below (place a) (place b) ↔ units a < units b := by
  refine ⟨units_lt ha hb, fun h => ?_⟩
  have other := units_lt hb ha
  have same := units_congr ha hb
  rw [Prod.ext_iff, Prod.ext_iff] at same
  unfold Below at *
  omega

variable {x y : Float}

theorem isNaN_of_isFinite (h : x.isFinite) : x.isNaN = false := by
  have finite : x.toModel.unpack.isFinite = true := h
  show x.toModel.unpack.isNaN = false
  cases hu : x.toModel.unpack with
  | notANumber => rw [hu] at finite; cases finite
  | _ => rfl

theorem lt_iff_units (hx : x.isFinite) (hy : y.isFinite) :
    x < y ↔ units x.toModel.unpack < units y.toModel.unpack := by
  rw [lt_iff, units_lt_iff (isCanonical_unpack hx) (isCanonical_unpack hy)]
  exact ⟨fun h => h.2.2, fun h => ⟨isNaN_of_isFinite hx, isNaN_of_isFinite hy, h⟩⟩

theorem le_iff_units (hx : x.isFinite) (hy : y.isFinite) :
    x ≤ y ↔ units x.toModel.unpack ≤ units y.toModel.unpack := by
  rw [le_iff, units_lt_iff (isCanonical_unpack hy) (isCanonical_unpack hx), not_lt]
  exact ⟨fun h => h.2.2, fun h => ⟨isNaN_of_isFinite hx, isNaN_of_isFinite hy, h⟩⟩

/-! ## Whole numbers -/

/-- The number one in units. -/
def unity : Nat := 2 ^ 1074

theorem unity_pos : 0 < unity := by
  unfold unity
  positivity

/-- A double that stands for a whole number. -/
def Stands (y : Float) (k : Int) : Prop := y.isFinite ∧ units y.toModel.unpack = k * unity

theorem stands_zero : Stands 0 0 := ⟨by decide, by decide +kernel⟩
theorem stands_one : Stands 1 1 := ⟨by decide, by decide +kernel⟩
theorem stands_hundred : Stands 100 100 := ⟨by decide, by decide +kernel⟩

theorem size_mul_denominator {m : Nat} {e : Int} (h : -1074 ≤ e) :
    m * 2 ^ e.toNat * unity = size m e * 2 ^ (-e).toNat := by
  rw [size, unity, Nat.mul_assoc, Nat.mul_assoc, ← Nat.pow_add, ← Nat.pow_add]
  congr 2
  omega

/-- The fraction that a finite double stands for, in units. -/
theorem valueOfFloat_finite (h : x.isFinite) : ∃ n d, Number.valueOfFloat x = .finite n d ∧
    0 < d ∧ n * unity = units x.toModel.unpack * d := by
  have canonical := isCanonical_unpack h
  unfold Number.valueOfFloat Dyadic.ofFloat?
  cases hu : x.toModel.unpack with
  | infinity | notANumber => rw [hu] at canonical; cases canonical
  | zero s =>
    refine ⟨_, _, rfl, Nat.one_pos, ?_⟩
    cases s <;> exact (Int.zero_mul _).trans (Int.zero_mul _).symm
  | finite s m e hm =>
    rw [hu] at canonical
    refine ⟨_, _, rfl, Dyadic.denominator_pos _, ?_⟩
    have eq : m * 2 ^ e.toNat * unity = size m e * 2 ^ (-e).toNat :=
      size_mul_denominator canonical.2.1
    have eq : ((m * 2 ^ e.toNat : Nat) : Int) * unity = size m e * (2 ^ (-e).toNat : Nat) := by
      exact_mod_cast eq
    cases s
    · show -((m * 2 ^ e.toNat : Nat) : Int) * unity = -(size m e : Int) * (2 ^ (-e).toNat : Nat)
      rw [Int.neg_mul, eq, Int.neg_mul]
    · exact eq

theorem compare_mul_right {c : Int} (h : 0 < c) (a b : Int) :
    compare (a * c) (b * c) = compare a b := by
  simp only [compare, compareOfLessAndEq, Int.mul_lt_mul_right h,
    Int.mul_eq_mul_right_iff h.ne']

/-- A finite double compares with a whole number as their units do. -/
theorem compare_units (h : x.isFinite) (k : Int) :
    (Number.float x).value.compare? (Number.int k).value =
      some (compare (units x.toModel.unpack) (k * unity)) := by
  obtain ⟨n, d, hv, hd, hn⟩ := valueOfFloat_finite h
  have hd : (0 : Int) < d := Int.natCast_pos.2 hd
  show (Number.valueOfFloat x).compare? (.finite k 1) = _
  rw [hv, Number.Value.compare?, Nat.cast_one, Int.mul_one,
    ← compare_mul_right (Int.natCast_pos.2 unity_pos) n, hn, Int.mul_right_comm,
    compare_mul_right hd]

theorem valueOfFloat_infinity {s : Sign} (h : x.toModel.unpack = .infinity s) :
    Number.valueOfFloat x = .infinite (s == .negative) := by
  have number : x.isNaN = false := by
    show x.toModel.unpack.isNaN = false
    rw [h]
    rfl
  have lt : decide (x < 0) = (s == .negative) := by
    have zero : (0 : Float).toModel.unpack = .zero .positive := by rfl
    rw [Bool.eq_iff_iff, decide_eq_true_iff, lt_iff, zero, h, number]
    cases s
    · exact iff_of_true ⟨rfl, rfl, .inl (by decide)⟩ rfl
    · refine iff_of_false (fun ⟨_, _, below⟩ => ?_) (by decide)
      dsimp only [Below, place] at below
      omega
  unfold Number.valueOfFloat Dyadic.ofFloat?
  rw [h, number, lt]
  rfl

theorem valueOfFloat_notANumber (h : x.toModel.unpack = .notANumber) :
    Number.valueOfFloat x = .undefined := by
  have number : x.isNaN = true := by
    show x.toModel.unpack.isNaN = true
    rw [h]
    rfl
  unfold Number.valueOfFloat Dyadic.ofFloat?
  rw [h, number]
  rfl

/-- A double compares with a whole number as with the double that stands for it. -/
theorem compare_stands {k : Int} (h : Stands y k) (x : Float) :
    (Number.float x).value.compare? (Number.int k).value =
      x.toModel.unpack.compare y.toModel.unpack := by
  obtain ⟨hy, hk⟩ := h
  have canonical := isCanonical_unpack hy
  cases hu : x.toModel.unpack with
  | notANumber =>
    show (Number.valueOfFloat x).compare? (.finite k 1) = _
    rw [valueOfFloat_notANumber hu]
    rfl
  | infinity s =>
    show (Number.valueOfFloat x).compare? (.finite k 1) = _
    rw [valueOfFloat_infinity hu]
    cases hv : y.toModel.unpack with
    | infinity | notANumber => rw [hv] at canonical; cases canonical
    | zero | finite => cases s <;> rfl
  | zero | finite =>
    have hx : x.isFinite := by show x.toModel.unpack.isFinite = true; rw [hu]; rfl
    rw [compare_units hx, ← hk, ← hu]
    obtain ⟨lt, gt, defined⟩ := compare_place (isNaN_of_isFinite hx) (isNaN_of_isFinite hy)
    rw [units_lt_iff (isCanonical_unpack hx) canonical] at lt
    rw [units_lt_iff canonical (isCanonical_unpack hx)] at gt
    obtain ⟨o, ho⟩ := Option.isSome_iff_exists.1 defined
    rw [ho] at lt gt ⊢
    cases o with
    | lt => rw [Int.compare_eq_lt.2 (lt.1 rfl)]
    | gt => rw [Int.compare_eq_gt.2 (gt.1 rfl)]
    | eq =>
      have same : units x.toModel.unpack = units y.toModel.unpack := by simp at lt gt; omega
      rw [same, Int.compare_eq_eq.2 rfl]

variable {k : Int}

theorem compare?_swap (a b : Number.Value) : a.compare? b = (b.compare? a).map Ordering.swap := by
  cases a <;> cases b <;> simp only [Number.Value.compare?, Option.map_none, Option.map_some]
  · rw [Int.compare_swap]
  · split <;> rfl
  · split <;> rfl
  · next a b => cases a <;> cases b <;> rfl

theorem compare_eq_gt (x y : Float) :
    x.toModel.unpack.compare y.toModel.unpack = some .gt ↔ y < x := by
  rw [lt_iff]
  constructor
  · intro h
    obtain ⟨hx, hy⟩ := numbers_of_compare h
    exact ⟨hy, hx, (compare_place hx hy).2.1.1 h⟩
  · rintro ⟨hy, hx, below⟩
    exact (compare_place hx hy).2.1.2 below

theorem float_lt_int (h : Stands y k) : (Number.float x).lt (.int k) = true ↔ x < y := by
  rw [Number.lt, compare_stands h]
  exact decide_eq_true_iff.symm

theorem int_lt_float (h : Stands y k) : (Number.int k).lt (.float x) = true ↔ y < x := by
  rw [Number.lt, compare?_swap, compare_stands h, ← compare_eq_gt]
  cases x.toModel.unpack.compare y.toModel.unpack with
  | none => simp
  | some o => cases o <;> simp

theorem float_le_int (h : Stands y k) : (Number.float x).le (.int k) = true ↔ x ≤ y := by
  have le : x ≤ y ↔ (x.toModel.unpack.compare y.toModel.unpack).any (·.isLE) = true :=
    decide_eq_true_iff
  rw [Number.le, compare_stands h, le]
  cases x.toModel.unpack.compare y.toModel.unpack with
  | none => simp
  | some o => cases o <;> simp

theorem int_le_float (h : Stands y k) : (Number.int k).le (.float x) = true ↔ y ≤ x := by
  rw [Number.le, compare?_swap, compare_stands h, le_iff]
  constructor
  · intro le
    cases hc : x.toModel.unpack.compare y.toModel.unpack with
    | none => rw [hc] at le; cases le
    | some o =>
      obtain ⟨hx, hy⟩ := numbers_of_compare hc
      refine ⟨hy, hx, fun below => ?_⟩
      rw [(compare_place hx hy).1.2 below] at le
      cases le
  · rintro ⟨hy, hx, above⟩
    obtain ⟨lt, -, defined⟩ := compare_place hx hy
    obtain ⟨o, ho⟩ := Option.isSome_iff_exists.1 defined
    rw [ho] at lt ⊢
    cases o with
    | lt => exact absurd (lt.1 rfl) above
    | eq => rfl
    | gt => rfl

end Montage.Double
