import Montage.Proofs.Float.Units

/-!
# Whole numbers as doubles

A whole number that is read as a double is rounded twice and packed. What a check has found out
about the whole number must hold of the double: above zero stays above zero (`ofNat_pos`), as
long as a number has a first bit that a double can hold (`round_isPositive`). The last section
puts this together with the order of documents: a number that passed a comparison there has a
double that passes it.
-/
namespace Montage.Double

open Float.Model (UnpackedFloat Format totalExponent)
open Float.Model.UnpackedFloat

variable {x y : Float}

/-! ## Rounding and packing -/

/-- A number above zero. -/
def IsPositive : UnpackedFloat → Prop
  | .finite .positive _ _ _ => True
  | .infinity .positive => True
  | _ => False

theorem pos_of_isPositive (h : IsPositive x.toModel.unpack) : 0 < x := by
  have zero : (0 : Float).toModel.unpack = .zero .positive := rfl
  have number : x.isNaN = false := by
    show x.toModel.unpack.isNaN = false
    cases hu : x.toModel.unpack with
    | notANumber => rw [hu] at h; cases h
    | _ => rfl
  rw [lt_iff, zero]
  refine ⟨rfl, number, .inl ?_⟩
  cases hu : x.toModel.unpack with
  | notANumber | zero => rw [hu] at h; cases h
  | infinity s =>
    cases s with
    | negative => rw [hu] at h; cases h
    | positive => exact (by decide : (0 : Int) < 2)
  | finite s =>
    cases s with
    | negative => rw [hu] at h; cases h
    | positive => exact Int.zero_lt_one

theorem mantissa_shift (em : ExtendedMantissa) (k : Nat) :
    (em >>> k).mantissa = em.mantissa / 2 ^ k := by
  induction k with
  | zero => exact (Nat.div_one _).symm
  | succ k ih =>
    show (em >>> k).mantissa / 2 = _
    rw [ih, Nat.div_div_eq_div_mul, Nat.pow_succ]

theorem le_roundedMantissa (em : ExtendedMantissa) :
    em.mantissa ≤ em.roundedMantissa ∧ em.roundedMantissa ≤ em.mantissa + 1 := by
  obtain ⟨m, _ | _, _ | _⟩ := em <;>
    simp only [ExtendedMantissa.roundedMantissa, ExtendedMantissa.accuracy,
      Accuracy.roundToNearestEven] <;> omega

/-- How far a mantissa is shifted to be one of a double. -/
def shiftOf (m : Nat) (e : Int) : Nat := (max ((m.log2 : Int) - 52) (-1074 - e)).toNat

theorem shiftToTarget (m : Nat) (e : Int) :
    (shiftToTargetExponent Format.binary64 m e .exact).1.mantissa = m / 2 ^ shiftOf m e ∧
      (shiftToTargetExponent Format.binary64 m e .exact).2 = e + shiftOf m e := by
  have same : (Format.binary64.targetExponent (totalExponent m e) - e).toNat = shiftOf m e := by
    have minimum : Format.binary64.minExponent = -1074 := rfl
    have bits : Format.binary64.mantissaBits = 53 := rfl
    simp only [Format.targetExponent, totalExponent, minimum, bits, shiftOf]
    push_cast
    omega
  simp only [shiftToTargetExponent, shiftToExponent, same, mantissa_shift,
    ExtendedMantissa.ofMantissaAndAccuracy, and_self]

theorem shifted_pos {m : Nat} {e : Int} (h : 0 < m) (normal : -1074 ≤ m.log2 + e) :
    0 < m / 2 ^ shiftOf m e := by
  refine Nat.div_pos ?_ (Nat.two_pow_pos _)
  calc 2 ^ shiftOf m e ≤ 2 ^ m.log2 := Nat.pow_le_pow_right (by decide) (by unfold shiftOf; omega)
    _ ≤ m := Nat.log2_self_le h.ne'

theorem shifted_lt (m : Nat) (e : Int) : m / 2 ^ shiftOf m e < 2 ^ 53 := by
  rw [Nat.div_lt_iff_lt_mul (Nat.two_pow_pos _), ← Nat.pow_add]
  calc m < 2 ^ (m.log2 + 1) := Nat.lt_log2_self
    _ ≤ 2 ^ (53 + shiftOf m e) := Nat.pow_le_pow_right (by decide) (by unfold shiftOf; omega)

/-- Rounding a positive number that is not too small gives a positive number. -/
theorem round_isPositive {m : Nat} {e : Int} (h : 0 < m) (normal : -1074 ≤ m.log2 + e) :
    ∃ n f hn, roundWithAccuracy Format.binary64 .positive m e .exact = .finite .positive n f hn ∧
      n < 2 ^ 53 ∧ -1074 ≤ f := by
  obtain ⟨mantissa, exponent⟩ := shiftToTarget m e
  have first := shifted_pos h normal
  have upward := (le_roundedMantissa (shiftToTargetExponent Format.binary64 m e .exact).1).1
  have least : -1074 ≤ e + shiftOf m e := by unfold shiftOf; omega
  unfold roundWithAccuracy
  generalize shiftToTargetExponent Format.binary64 m e .exact = shifted at *
  obtain ⟨em, e₁⟩ := shifted
  dsimp only at mantissa exponent upward ⊢
  rw [← exponent] at least
  have rounded : 0 < em.roundedMantissa := by omega
  obtain ⟨mantissa', exponent'⟩ := shiftToTarget em.roundedMantissa e₁
  have second := shifted_pos rounded (e := e₁) (by omega)
  rw [dif_neg (by omega)]
  refine ⟨_, _, _, rfl, ?_, ?_⟩
  · rw [mantissa']
    exact shifted_lt ..
  · omega

theorem unpackSign_packComponents (s : Sign) (e : BitVec 11) (m : BitVec 52) :
    Sign.ofBitVec (unpackSign (packComponents Format.binary64 s e m)) = s := by
  have kept : unpackSign (packComponents Format.binary64 s e m) = s.toBitVec := by
    apply BitVec.eq_of_getLsbD_eq
    intro i hi
    obtain rfl : i = 0 := by omega
    have top : (s.toBitVec ++ e ++ m).getLsbD 63 = s.toBitVec.getLsbD 0 := by
      rw [BitVec.getLsbD_append, BitVec.getLsbD_append]
      rfl
    have read : (unpackSign (packComponents Format.binary64 s e m)).getLsbD 0 =
        (s.toBitVec ++ e ++ m).getLsbD 63 := by
      delta unpackSign
      rw [BitVec.getLsbD_cast, BitVec.getLsbD_extractLsb]
      rfl
    exact read.trans top
  rw [kept]
  cases s <;> rfl

theorem isPositive_unpack {b : BitVec Format.binary64.numBits}
    (sign : Sign.ofBitVec (unpackSign b) = .positive) (exponent : unpackExponent b ≠ -1#_)
    (mantissa : unpackExponent b = 0#_ → unpackMantissa b ≠ 0#_) :
    IsPositive (unpack Format.binary64 b) := by
  unfold unpack
  dsimp only
  rw [sign, if_neg exponent]
  by_cases zero : unpackExponent b = 0#_
  · rw [if_pos zero, dif_neg (mantissa zero)]
    trivial
  · rw [if_neg zero]
    trivial

theorem isPositive_packedInfinity :
    IsPositive (unpack Format.binary64 (packedInfinity Format.binary64 .positive)) := by
  have same : unpack Format.binary64 (packedInfinity Format.binary64 .positive) =
      .infinity .positive := by rfl
  rw [same]
  trivial

/-- A positive number stays positive when it is packed. -/
theorem isPositive_pack {m : Nat} {e : Int} (h : 0 < m) (upper : m < 2 ^ 53) (lower : -1074 ≤ e) :
    IsPositive (unpack Format.binary64 (pack Format.binary64 (.finite .positive m e h))) := by
  have bias : Format.binary64.exponentBias = 1023 := rfl
  have stored (e : BitVec 11) (m : BitVec 52) (he : e ≠ -1#_) (hm : e = 0#_ → m ≠ 0#_) :
      IsPositive (unpack Format.binary64 (packComponents Format.binary64 .positive e m)) := by
    apply isPositive_unpack (unpackSign_packComponents ..)
    · rwa [unpackExponent_packComponents]
    · rwa [unpackExponent_packComponents, unpackMantissa_packComponents]
  unfold pack
  dsimp only
  split
  · exact isPositive_packedInfinity
  · next small =>
    have small : (e + 1023 + 52).toNat + 1 < 2 ^ 11 := by
      rw [bias] at small
      exact Nat.lt_of_not_le small
    split
    · refine stored _ _ ?_ fun zero => ?_
      · intro he
        have eq := congrArg BitVec.toNat he
        rw [BitVec.toNat_ofNat, bias] at eq
        have most : (-1#11).toNat = 2 ^ 11 - 1 := rfl
        rw [most] at eq
        have := Nat.mod_le (e + (1023 : Nat) + (52 : Nat)).toNat (2 ^ 11)
        push_cast at *
        omega
      · have eq := congrArg BitVec.toNat zero
        rw [BitVec.toNat_ofNat, bias, Nat.mod_eq_of_lt (by push_cast; omega)] at eq
        have none : (0#11).toNat = 0 := rfl
        rw [none] at eq
        omega
    · next short =>
      refine stored _ _ (by decide) fun _ zero => ?_
      have short : m.log2 + 1 ≠ 53 := short
      have log : m.log2 < 53 := (Nat.log2_lt h.ne').2 upper
      have less : m < 2 ^ 52 := (Nat.log2_lt h.ne').1 (by omega)
      have eq := congrArg BitVec.toNat zero
      rw [BitVec.toNat_ofNat, Nat.mod_eq_of_lt less] at eq
      exact h.ne' eq

/-- The place of a mantissa's first bit is kept when the mantissa gets more places. -/
theorem decreaseExponent_isPositive {m : Nat} {e : Int} (h : 0 < m) (t : Int) :
    let d := decreaseExponent m e t
    0 < d.1 ∧ (m.log2 : Int) + e ≤ d.1.log2 + d.2 := by
  have shifted : m <<< (e - t).toNat = m * 2 ^ (e - t).toNat := Nat.shiftLeft_eq ..
  have pos : 0 < m * 2 ^ (e - t).toNat := Nat.mul_pos h (Nat.two_pow_pos _)
  have log : m.log2 + (e - t).toNat ≤ (m * 2 ^ (e - t).toNat).log2 := by
    rw [Nat.le_log2 pos.ne', Nat.pow_add]
    exact Nat.mul_le_mul_right _ (Nat.log2_self_le h.ne')
  unfold decreaseExponent
  dsimp only
  rw [shifted]
  exact ⟨pos, by omega⟩

/-- A positive number in units of a double is positive when it is stored. -/
theorem isPositive_pack_round {m : Nat} {e : Int} (h : 0 < m) (normal : -1074 ≤ m.log2 + e) :
    IsPositive (unpack Format.binary64
      (pack Format.binary64 (roundWithAccuracy Format.binary64 .positive m e .exact))) := by
  obtain ⟨n, f, hn, eq, upper, lower⟩ := round_isPositive h normal
  rw [eq]
  exact isPositive_pack hn upper lower

theorem isPositive_pack_mul {m n : Nat} {e f : Int} (hm : 0 < m) (hn : 0 < n)
    (normal : -1074 ≤ (m.log2 + n.log2 : Nat) + (e + f)) :
    IsPositive (unpack Format.binary64 (pack Format.binary64
      (mul Format.binary64 (.finite .positive m e hm) (.finite .positive n f hn)))) := by
  have pos : 0 < m * n := Nat.mul_pos hm hn
  have log : m.log2 + n.log2 ≤ (m * n).log2 := by
    rw [Nat.le_log2 pos.ne', Nat.pow_add]
    exact Nat.mul_le_mul (Nat.log2_self_le hm.ne') (Nat.log2_self_le hn.ne')
  exact isPositive_pack_round pos (by omega)

theorem isPositive_toFloat {n : Nat} (h : 0 < n) (small : n < 2 ^ 53) :
    IsPositive n.toUInt64.toFloat.toModel.unpack := by
  have size : n.toUInt64.toNat = n := Nat.mod_eq_of_lt (by omega)
  have normalized : ofUInt64 Format.binary64 n.toUInt64 =
      UnpackedFloat.round Format.binary64 .positive n 0 := by
    unfold ofUInt64 ofNat ofInt UnpackedFloat.normalize
    rw [size, Int.compare_eq_gt.2 (Int.natCast_pos.2 h)]
    rfl
  have : n.toUInt64.toFloat.toModel.unpack =
      unpack Format.binary64 (pack Format.binary64 (ofUInt64 Format.binary64 n.toUInt64)) := rfl
  rw [this, normalized]
  obtain ⟨pos, log⟩ :=
    decreaseExponent_isPositive h (Format.binary64.targetExponent (totalExponent n 0)) (e := 0)
  exact isPositive_pack_round pos (Int.le_trans (by omega) log)

theorem isPositive_mul_one {x : Float} (h : IsPositive x.toModel.unpack) :
    IsPositive (x * 1).toModel.unpack := by
  have one : (1 : Float).toModel.unpack = .finite .positive (2 ^ 52) (-52) (by decide) := by rfl
  show IsPositive (unpack Format.binary64 (pack Format.binary64
    (mul Format.binary64 x.toModel.unpack (1 : Float).toModel.unpack)))
  rw [one]
  cases hu : x.toModel.unpack with
  | notANumber | zero => rw [hu] at h; cases h
  | infinity s =>
    cases s with
    | negative => rw [hu] at h; cases h
    | positive => exact isPositive_packedInfinity
  | finite s m e hm =>
    cases s with
    | negative => rw [hu] at h; cases h
    | positive =>
      have lower := (canonical_unpack hu).2.1
      refine isPositive_pack_mul hm (by decide) ?_
      rw [Nat.log2_two_pow]
      omega

/-- A whole number above zero is a double above zero. -/
theorem ofNat_pos {n : Nat} (h : 0 < n) : 0 < Float.ofNat n := by
  apply pos_of_isPositive
  show IsPositive (Float.ofScientific n false 0).toModel.unpack
  unfold Float.ofScientific
  split
  · next small => exact isPositive_mul_one (isPositive_toFloat h small.1)
  · next large =>
    show IsPositive (unpack Format.binary64 (pack Format.binary64
      (UnpackedFloat.ofScientific Format.binary64 n 0)))
    unfold UnpackedFloat.ofScientific
    have near : ¬(0 : Int) < -(2 ^ Format.binary64.exponentBits + (n.log2 : Int)) := by
      have : (0 : Int) ≤ 2 ^ Format.binary64.exponentBits := by decide
      omega
    rw [dif_neg h.ne', if_neg (by decide), if_neg near, if_pos (by decide)]
    refine isPositive_pack_mul _ _ ?_
    have bits : Format.binary64.mantissaBits = 53 := rfl
    rw [bits, Nat.shiftLeft_eq]
    have log : 53 ≤ (n * 2 ^ 53).log2 := by
      rw [Nat.le_log2 (by positivity)]
      exact Nat.le_mul_of_pos_left _ h
    omega

/-! ## Numbers of documents -/

theorem toFloat_int {n : Int} (h : (Number.int n).toFloat = .ok x) : x = Float.ofInt n := by
  simp only [Number.toFloat, Number.floatOfInt] at h
  split at h
  · cases h
  · exact (Except.ok.inj h).symm

theorem int_lt_int (m n : Int) : (Number.int m).lt (.int n) = true ↔ m < n := by
  show (some (compare (m * (1 : Nat)) (n * (1 : Nat))) == some .lt) = true ↔ _
  rw [beq_iff_eq, Option.some_inj, Int.compare_eq_lt, Nat.cast_one, Int.mul_one, Int.mul_one]

theorem int_le_int (m n : Int) : (Number.int m).le (.int n) = true ↔ m ≤ n := by
  show (some (compare (m * (1 : Nat)) (n * (1 : Nat))) == some .lt ||
    some (compare (m * (1 : Nat)) (n * (1 : Nat))) == some .eq) = true ↔ _
  rw [Bool.or_eq_true, beq_iff_eq, beq_iff_eq, Option.some_inj, Option.some_inj,
    Int.compare_eq_lt, Int.compare_eq_eq, Nat.cast_one, Int.mul_one, Int.mul_one]
  omega

theorem ofInt_pos {n : Int} (h : 0 < n) : 0 < Float.ofInt n := by
  obtain ⟨m, rfl⟩ := Int.eq_ofNat_of_zero_le h.le
  exact ofNat_pos (Int.natCast_pos.1 h)

variable {n : Number}

/-- A number above zero has a double that is above zero, or nothing compares with it. -/
theorem not_le_zero_of_toFloat (h : n.toFloat = .ok x) (above : n.le (.int 0) = false) :
    ¬x ≤ 0 := by
  cases n with
  | float y =>
    cases h
    rw [← float_le_int stands_zero, above]
    exact Bool.false_ne_true
  | int n =>
    obtain rfl := toFloat_int h
    refine not_le_of_lt (ofInt_pos (Int.not_le.1 fun le => ?_))
    rw [(int_le_int n 0).2 le] at above
    cases above

/-- A number that is not below zero has a double that is not below zero. -/
theorem not_lt_zero_of_toFloat (h : n.toFloat = .ok x) (least : n.lt (.int 0) = false) :
    ¬x < 0 := by
  cases n with
  | float y =>
    cases h
    rw [← float_lt_int stands_zero, least]
    exact Bool.false_ne_true
  | int n =>
    obtain rfl := toFloat_int h
    have nonneg : 0 ≤ n := Int.not_lt.1 fun lt => by
      rw [(int_lt_int n 0).2 lt] at least
      cases least
    rcases nonneg.eq_or_lt with rfl | pos
    · decide
    · exact fun lt => not_le_of_lt (ofInt_pos pos) (le_of_lt lt)

/-- Whether the whole numbers up to `k` have doubles from zero to `y`. -/
def Reaches (y : Float) (k : Nat) : Prop :=
  Stands y k ∧ ∀ n < k + 1, 0 ≤ Float.ofNat n ∧ Float.ofNat n ≤ y

theorem reaches_one : Reaches 1 1 := ⟨stands_one, by decide⟩
theorem reaches_hundred : Reaches 100 100 := ⟨stands_hundred, by decide +kernel⟩

/-- A number within bounds has a double within them. -/
theorem within_of_toFloat {k : Nat} (reaches : Reaches y k) (h : n.toFloat = .ok x)
    (lower : Number.le (.int 0) n = true) (upper : n.le (.int k) = true) : 0 ≤ x ∧ x ≤ y := by
  obtain ⟨stands, small⟩ := reaches
  cases n with
  | float y =>
    cases h
    exact ⟨(int_le_float stands_zero).1 lower, (float_le_int stands).1 upper⟩
  | int n =>
    obtain rfl := toFloat_int h
    obtain ⟨m, rfl⟩ := Int.eq_ofNat_of_zero_le ((int_le_int 0 n).1 lower)
    exact small m (Nat.lt_succ_of_le (Int.ofNat_le.1 ((int_le_int _ _).1 upper)))

end Montage.Double
