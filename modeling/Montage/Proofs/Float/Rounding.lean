import Montage.Proofs.Float.Whole

/-!
# How doubles are packed and rounded

A double that is unpacked and packed again is the same (`unpack_pack`), so a number is packed
without loss if its mantissa and exponent are those of a double (`Fits`). Any other result of
arithmetic is rounded first. All that is needed of the rounding is that it does not pass a double
(`Rounds`): a sum that lies between two doubles is a double between them, and finite
(`add_between`).
-/
namespace Montage.Double

open Float.Model (UnpackedFloat Format totalExponent)
open Float.Model.UnpackedFloat

/-! ## Reading bits -/

variable {b : BitVec Format.binary64.numBits}

theorem finite_congr {s : Sign} {m m' : Nat} {e e' : Int} {h : 0 < m} (hm : m = m') (he : e = e') :
    UnpackedFloat.finite s m e h = .finite s m' e' (hm ▸ h) := by
  subst hm he
  rfl

/-- Bits with an exponent between the least and the greatest one. -/
theorem unpack_normal (most : unpackExponent b ≠ -1#11) (zero : unpackExponent b ≠ 0#11) :
    unpack Format.binary64 b = .finite (Sign.ofBitVec (unpackSign b))
      (2 ^ 52 + (unpackMantissa b).toNat) ((unpackExponent b).toNat - 1075)
      (Nat.add_pos_left (Nat.two_pow_pos 52) _) := by
  have low : (unpackMantissa b).toNat < 2 ^ 52 := (unpackMantissa b).isLt
  have joined : (1#1 ++ unpackMantissa b).toNat = 2 ^ 52 + (unpackMantissa b).toNat := by
    rw [BitVec.toNat_append, ← Nat.shiftLeft_add_eq_or_of_lt low]
    rfl
  unfold unpack
  dsimp only
  rw [if_neg most, if_neg zero]
  exact finite_congr joined rfl

/-- Bits with the least exponent. -/
theorem unpack_small (zero : unpackExponent b = 0#11) (some : unpackMantissa b ≠ 0#52) :
    unpack Format.binary64 b = .finite (Sign.ofBitVec (unpackSign b)) (unpackMantissa b).toNat
      (-1074) (Nat.pos_of_ne_zero fun none => some (BitVec.eq_of_toNat_eq none)) := by
  have most : unpackExponent b ≠ -1#11 := by
    rw [zero]
    decide
  unfold unpack
  dsimp only
  rw [if_neg most, if_pos zero, dif_neg some]
  refine finite_congr rfl ?_
  rw [zero]
  rfl

/-! ## Packing -/

/-- A number that is a double as it is. -/
def Fits : UnpackedFloat → Prop
  | .finite _ m e _ => Canonical m e ∧ e ≤ 971
  | _ => True

theorem fits_unpack (b : BitVec Format.binary64.numBits) : Fits (unpack Format.binary64 b) := by
  cases hu : unpack Format.binary64 b with
  | finite s m e h =>
    refine ⟨canonical_unpack hu, ?_⟩
    have size : (unpackExponent b).toNat < 2 ^ 11 := (unpackExponent b).isLt
    by_cases most : unpackExponent b = -1#11
    · unfold unpack at hu
      dsimp only at hu
      rw [if_pos most] at hu
      by_cases none : unpackMantissa b = 0#52
      · rw [if_pos none] at hu
        cases hu
      · rw [if_neg none] at hu
        cases hu
    · have below : (unpackExponent b).toNat ≠ 2 ^ 11 - 1 := fun eq =>
        most (BitVec.eq_of_toNat_eq eq)
      by_cases zero : unpackExponent b = 0#11
      · by_cases none : unpackMantissa b = 0#52
        · unfold unpack at hu
          dsimp only at hu
          rw [if_neg most, if_pos zero, dif_pos none] at hu
          cases hu
        · rw [unpack_small zero none] at hu
          cases hu
          decide
      · rw [unpack_normal most zero] at hu
        cases hu
        omega
  | _ => trivial

theorem unpack_pack_finite {s : Sign} {m : Nat} {e : Int} (h : 0 < m) (hm : Canonical m e)
    (he : e ≤ 971) : unpack Format.binary64 (pack Format.binary64 (.finite s m e h)) =
      .finite s m e h := by
  obtain ⟨upper, lower, normal⟩ := hm
  have bias : Format.binary64.exponentBias = 1023 := rfl
  have few : ¬2 ^ 11 ≤ (e + (1023 : Nat) + (52 : Nat)).toNat + 1 := by push_cast; omega
  have log : m.log2 < 53 := (Nat.log2_lt h.ne').2 upper
  have packed : pack Format.binary64 (.finite s m e h) =
      if m.log2 + 1 = 53 then packComponents Format.binary64 s
        (BitVec.ofNat 11 (e + (1023 : Nat) + (52 : Nat)).toNat) (BitVec.ofNat 52 m)
      else packComponents Format.binary64 s 0#11 (BitVec.ofNat 52 m) := by
    unfold pack
    dsimp only
    rw [bias]
    exact if_neg few
  rw [packed]
  by_cases long : m.log2 + 1 = 53
  · rw [if_pos long]
    have large : 2 ^ 52 ≤ m := (Nat.le_log2 h.ne').1 (by omega)
    have exponent : (BitVec.ofNat 11 (e + (1023 : Nat) + (52 : Nat)).toNat).toNat =
        (e + (1023 : Nat) + (52 : Nat)).toNat := by
      rw [BitVec.toNat_ofNat, Nat.mod_eq_of_lt (by push_cast; omega)]
    have mantissa : (BitVec.ofNat 52 m).toNat = m - 2 ^ 52 := by
      rw [BitVec.toNat_ofNat]
      omega
    rw [unpack_normal]
    · rw [unpackSign_packComponents]
      refine finite_congr ?_ ?_
      · rw [unpackMantissa_packComponents, mantissa]
        omega
      · rw [unpackExponent_packComponents, exponent]
        push_cast
        omega
    · rw [unpackExponent_packComponents]
      intro eq
      have eq := congrArg BitVec.toNat eq
      rw [exponent, show (-1#11).toNat = 2 ^ 11 - 1 from rfl] at eq
      push_cast at eq
      omega
    · rw [unpackExponent_packComponents]
      intro eq
      have eq := congrArg BitVec.toNat eq
      rw [exponent, show (0#11).toNat = 0 from rfl] at eq
      push_cast at eq
      omega
  · rw [if_neg long]
    have small : m < 2 ^ 52 := (Nat.log2_lt h.ne').1 (by omega)
    have mantissa : (BitVec.ofNat 52 m).toNat = m := by
      rw [BitVec.toNat_ofNat, Nat.mod_eq_of_lt small]
    rw [unpack_small]
    · rw [unpackSign_packComponents]
      refine finite_congr ?_ ?_
      · rw [unpackMantissa_packComponents, mantissa]
      · omega
    · rw [unpackExponent_packComponents]
    · rw [unpackMantissa_packComponents]
      intro eq
      have eq := congrArg BitVec.toNat eq
      rw [mantissa, show (0#52).toNat = 0 from rfl] at eq
      omega

/-- Packing keeps what is a double. -/
theorem unpack_pack {u : UnpackedFloat} (h : Fits u) :
    unpack Format.binary64 (pack Format.binary64 u) = u := by
  cases u with
  | finite s m e hm => exact unpack_pack_finite hm h.1 h.2
  | notANumber => rfl
  | zero s => cases s <;> rfl
  | infinity s => cases s <;> rfl

theorem fits_neg {u : UnpackedFloat} (h : Fits u) : Fits u.neg := by
  cases u <;> exact h

theorem isCanonical_neg {u : UnpackedFloat} (h : IsCanonical u) : IsCanonical u.neg := by
  cases u <;> exact h

theorem units_neg (u : UnpackedFloat) : units u.neg = -units u := by
  cases u with
  | finite s m e h =>
    cases s with
    | negative => exact (Int.neg_neg _).symm
    | positive => rfl
  | _ => rfl

/-- The negative of a double. -/
theorem unpack_neg (x : Float) : (-x).toModel.unpack = x.toModel.unpack.neg :=
  unpack_pack (fits_neg (fits_unpack _))

/-- A double that is given by its bits. -/
theorem unpack_ofBits (b : UInt64) :
    (Float.ofBits b).toModel.unpack = unpack Format.binary64 b.toBitVec :=
  unpack_pack (fits_unpack _)

/-- The parts of bits, as numbers. -/
theorem toNat_parts (b : BitVec Format.binary64.numBits) :
    (unpackExponent b).toNat = b.toNat / 2 ^ 52 % 2 ^ 11 ∧
      (unpackMantissa b).toNat = b.toNat % 2 ^ 52 := by
  constructor
  · delta unpackExponent
    rw [BitVec.toNat_cast, BitVec.extractLsb_toNat, Nat.shiftRight_eq_div_pow]
    rfl
  · delta unpackMantissa
    rw [BitVec.toNat_cast, BitVec.extractLsb_toNat, Nat.shiftRight_eq_div_pow]
    exact congrArg (· % 2 ^ 52) (Nat.div_one b.toNat)

/-- Bits without a sign. -/
theorem ofBitVec_unpackSign (h : b.toNat < 2 ^ 63) :
    Sign.ofBitVec (unpackSign b) = .positive := by
  have none : (unpackSign b).toNat = (0#1).toNat := by
    delta unpackSign
    rw [BitVec.toNat_cast, BitVec.extractLsb_toNat, Nat.shiftRight_eq_div_pow]
    show b.toNat / 2 ^ 63 % 2 ^ 1 = 0
    omega
  rw [BitVec.eq_of_toNat_eq none]
  rfl

/-- Bits below those of infinity, in units of the least double: the bits of the mantissa, with one
more in front of them if there are bits of an exponent. -/
theorem units_bits (h : b.toNat < 0x7ff * 2 ^ 52) : IsCanonical (unpack Format.binary64 b) ∧
    units (unpack Format.binary64 b) = (if b.toNat < 2 ^ 52 then b.toNat
      else (2 ^ 52 + b.toNat % 2 ^ 52) * 2 ^ (b.toNat / 2 ^ 52 - 1) : Nat) := by
  obtain ⟨exponent, mantissa⟩ := toNat_parts b
  have sign := ofBitVec_unpackSign (b := b) (by omega)
  have fits := fits_unpack b
  have greatest : (-1#11).toNat = 0x7ff := rfl
  have least : (0#11).toNat = 0 := rfl
  by_cases small : b.toNat < 2 ^ 52
  · rw [if_pos small]
    have first : unpackExponent b = 0#11 := BitVec.eq_of_toNat_eq (by rw [exponent, least]; omega)
    by_cases none : b.toNat = 0
    · obtain rfl : b = 0#64 := BitVec.eq_of_toNat_eq none
      exact ⟨trivial, rfl⟩
    · have filled : unpackMantissa b ≠ 0#52 := by
        intro eq
        have eq := congrArg BitVec.toNat eq
        rw [mantissa, show (0#52).toNat = 0 from rfl] at eq
        omega
      rw [unpack_small first filled] at fits ⊢
      refine ⟨fits.1, ?_⟩
      rw [sign, units_finite, mantissa, Nat.mod_eq_of_lt small]
      simp [Sign.apply, size]
  · rw [if_neg small]
    have quotient : (unpackExponent b).toNat = b.toNat / 2 ^ 52 := by
      rw [exponent]
      omega
    have most : unpackExponent b ≠ -1#11 := by
      intro eq
      have eq := congrArg BitVec.toNat eq
      rw [quotient, greatest] at eq
      omega
    have some : unpackExponent b ≠ 0#11 := by
      intro eq
      have eq := congrArg BitVec.toNat eq
      rw [quotient, least] at eq
      omega
    rw [unpack_normal most some] at fits ⊢
    refine ⟨fits.1, ?_⟩
    have place : ((b.toNat / 2 ^ 52 : Nat) - 1075 + 1074 : Int).toNat = b.toNat / 2 ^ 52 - 1 := by
      omega
    rw [sign, units_finite, mantissa, quotient, size, place]
    rfl

/-! ## Rounding -/

/-- Nothing is cut off when a mantissa ends in enough zeros. -/
theorem shift_exact {m k : Nat} (divides : 2 ^ k ∣ m) :
    (ExtendedMantissa.mk m false false) >>> k = .mk (m / 2 ^ k) false false := by
  induction k with
  | zero => exact congrArg (ExtendedMantissa.mk · false false) (Nat.div_one m).symm
  | succ k ih =>
    obtain ⟨n, rfl⟩ := divides
    have first := ih ⟨2 * n, by ring⟩
    have half : 2 ^ (k + 1) * n / 2 ^ k = 2 * n := by
      rw [pow_succ, mul_assoc]
      exact Nat.mul_div_cancel_left _ (Nat.two_pow_pos k)
    show ((ExtendedMantissa.mk (2 ^ (k + 1) * n) false false) >>> k).shiftRightOne = _
    rw [first, half, Nat.mul_div_cancel_left _ (Nat.two_pow_pos (k + 1))]
    simp [ExtendedMantissa.shiftRightOne]

/-- A mantissa that loses places is rounded to a neighbour: whole numbers on either side of it stay
there. -/
theorem rounded_between (m k v : Nat) :
    (v * 2 ^ k ≤ m → v ≤ ((ExtendedMantissa.mk m false false) >>> k).roundedMantissa) ∧
      (m ≤ v * 2 ^ k → ((ExtendedMantissa.mk m false false) >>> k).roundedMantissa ≤ v) := by
  have positive := Nat.two_pow_pos k
  obtain ⟨down, up⟩ := le_roundedMantissa ((ExtendedMantissa.mk m false false) >>> k)
  rw [mantissa_shift] at down up
  refine ⟨fun below => ((Nat.le_div_iff_mul_le positive).2 below).trans down, fun above => ?_⟩
  by_cases divides : 2 ^ k ∣ m
  · rw [shift_exact divides]
    exact Nat.div_le_of_le_mul (by rwa [mul_comm])
  · have less : m < v * 2 ^ k :=
      lt_of_le_of_ne above fun same => divides ⟨v, by rw [same, mul_comm]⟩
    exact up.trans ((Nat.div_lt_iff_lt_mul positive).2 less)

/-- A mantissa of at most 53 bits, as a double with that exponent, or with the next one. -/
theorem finish {s : Sign} {r : Nat} {t : Int} (upper : r ≤ 2 ^ 53) (lower : -1074 ≤ t)
    (normal : t = -1074 ∨ 2 ^ 52 ≤ r) :
    let shifted := shiftToTargetExponent Format.binary64 r t .exact
    let u := if h : shifted.1.mantissa = 0 then UnpackedFloat.zero s
      else .finite s shifted.1.mantissa shifted.2 (Nat.pos_of_ne_zero h)
    IsCanonical u ∧ units u = s.apply (size r t) := by
  obtain ⟨mantissa, exponent⟩ := shiftToTarget r t
  dsimp only
  generalize shiftToTargetExponent Format.binary64 r t .exact = shifted at mantissa exponent ⊢
  rcases upper.lt_or_eq with less | rfl
  · have none : shiftOf r t = 0 := by
      have log : r.log2 ≤ 52 := by
        by_cases zero : r = 0
        · subst zero; decide
        · exact Nat.le_of_lt_succ ((Nat.log2_lt zero).2 less)
      unfold shiftOf
      omega
    rw [none] at mantissa exponent
    rw [pow_zero, Nat.div_one] at mantissa
    by_cases zero : shifted.1.mantissa = 0
    · rw [dif_pos zero]
      rw [mantissa] at zero
      subst zero
      exact ⟨trivial, by cases s <;> simp [size, Sign.apply]⟩
    · rw [dif_neg zero]
      refine ⟨?_, ?_⟩
      · show Canonical _ _
        rw [mantissa, exponent]
        exact ⟨less, by omega, by omega⟩
      · rw [units_finite, mantissa, exponent]
        simp
  · have one : shiftOf (2 ^ 53) t = 1 := by
      unfold shiftOf
      rw [Nat.log2_two_pow]
      omega
    rw [one] at mantissa exponent
    have mantissa : shifted.1.mantissa = 2 ^ 52 := mantissa
    rw [dif_neg (by rw [mantissa]; decide)]
    refine ⟨?_, ?_⟩
    · show Canonical _ _
      rw [mantissa, exponent]
      exact ⟨by decide, by omega, by omega⟩
    · rw [units_finite, mantissa, exponent, size, size]
      have next : (t + (1 : Nat) + 1074).toNat = (t + 1074).toNat + 1 := by omega
      rw [next]
      congr 2
      ring

/-- A number of units is rounded: it does not pass any double. -/
structure Rounds (exact : Int) (u : UnpackedFloat) : Prop where
  canonical : IsCanonical u
  le {z : UnpackedFloat} (hz : IsCanonical z) (h : exact ≤ units z) : units u ≤ units z
  ge {z : UnpackedFloat} (hz : IsCanonical z) (h : units z ≤ exact) : units z ≤ units u

/-- It is enough to look at the sizes. -/
theorem rounds_of_size {s : Sign} {exact r : Nat} {u : UnpackedFloat} (positive : 0 < exact)
    (canonical : IsCanonical u) (value : units u = s.apply r)
    (between : ∀ n f, Canonical n f →
      (exact ≤ size n f → r ≤ size n f) ∧ (size n f ≤ exact → size n f ≤ r)) :
    Rounds (s.apply exact) u := by
  refine ⟨canonical, fun {z} hz h => ?_, fun {z} hz h => ?_⟩
  · rw [value]
    cases z with
    | infinity | notANumber => cases hz
    | zero => cases s <;> dsimp only [units_zero, Sign.apply] at h ⊢ <;> omega
    | finite t n f hn =>
      obtain ⟨up, down⟩ := between n f hz
      have := size_pos hn f
      cases s <;> cases t <;> dsimp only [units_finite, Sign.apply] at h ⊢ <;> omega
  · rw [value]
    cases z with
    | infinity | notANumber => cases hz
    | zero => cases s <;> dsimp only [units_zero, Sign.apply] at h ⊢ <;> omega
    | finite t n f hn =>
      obtain ⟨up, down⟩ := between n f hz
      have := size_pos hn f
      cases s <;> cases t <;> dsimp only [units_finite, Sign.apply] at h ⊢ <;> omega

/-- How long a mantissa is that loses as many places as a double has no room for. -/
theorem length_of_shift {m k : Nat} {e : Int} (h : 0 < m)
    (amount : (k : Int) = max ((m.log2 : Int) - 52) (-1074 - e)) :
    m ≤ 2 ^ 53 * 2 ^ k ∧ (-1074 < e + k → 2 ^ 52 * 2 ^ k ≤ m) := by
  constructor
  · calc
      m ≤ 2 ^ (m.log2 + 1) := Nat.lt_log2_self.le
      _ ≤ 2 ^ (53 + k) := Nat.pow_le_pow_right (by decide) (by omega)
      _ = 2 ^ 53 * 2 ^ k := pow_add ..
  · intro above
    calc
      2 ^ 52 * 2 ^ k = 2 ^ (52 + k) := (pow_add ..).symm
      _ ≤ 2 ^ m.log2 := Nat.pow_le_pow_right (by decide) (by omega)
      _ ≤ m := Nat.log2_self_le h.ne'

/-- A mantissa that is rounded to a neighbour does not pass a double. -/
theorem size_between {m k r : Nat} {e : Int} (lower : -1074 ≤ e)
    (between : ∀ v, (v * 2 ^ k ≤ m → v ≤ r) ∧ (m ≤ v * 2 ^ k → r ≤ v))
    (long : -1074 < e + k → 2 ^ 52 * 2 ^ k ≤ m) {n : Nat} {f : Int} (hn : Canonical n f) :
    (size m e ≤ size n f → size r (e + k) ≤ size n f) ∧
      (size n f ≤ size m e → size n f ≤ size r (e + k)) := by
  obtain ⟨small, least, -⟩ := hn
  have scale : 2 ^ (e + k + 1074).toNat = 2 ^ k * 2 ^ (e + 1074).toNat := by
    rw [← pow_add]
    congr 1
    omega
  by_cases fine : f < e + k
  · -- all doubles with the place of the mantissa are greater
    have below : size n f < 2 ^ 52 * 2 ^ (e + k + 1074).toNat := size_lt_place small (by omega)
    have rounded : 2 ^ 52 * 2 ^ (e + k + 1074).toNat ≤ size r (e + k) :=
      Nat.mul_le_mul_right _ ((between _).1 (long (by omega)))
    have exact : 2 ^ 52 * 2 ^ (e + k + 1074).toNat ≤ size m e := by
      rw [scale, ← mul_assoc]
      exact Nat.mul_le_mul_right _ (long (by omega))
    exact ⟨fun le => by omega, fun _ => by omega⟩
  · have multiple : size n f = n * 2 ^ (f - (e + k)).toNat * 2 ^ (e + k + 1074).toNat := by
      rw [size, mul_assoc, ← pow_add]
      congr 2
      omega
    have one := Nat.two_pow_pos (e + 1074).toNat
    rw [multiple, size, size]
    constructor
    · intro le
      rw [scale, ← mul_assoc, Nat.mul_le_mul_right_iff one] at le
      exact Nat.mul_le_mul_right _ ((between _).2 le)
    · intro le
      rw [scale, ← mul_assoc, Nat.mul_le_mul_right_iff one] at le
      exact Nat.mul_le_mul_right _ ((between _).1 le)

theorem rounds_accuracy {m : Nat} {e : Int} (s : Sign) (h : 0 < m) (lower : -1074 ≤ e)
    (room : 52 ≤ m.log2 ∨ e = -1074) :
    Rounds (s.apply (size m e)) (roundWithAccuracy Format.binary64 s m e .exact) := by
  obtain ⟨-, exponent⟩ := shiftToTarget m e
  have amount : (shiftOf m e : Int) = max ((m.log2 : Int) - 52) (-1074 - e) := by
    unfold shiftOf
    omega
  generalize shiftOf m e = k at exponent amount
  have shifted : shiftToTargetExponent Format.binary64 m e .exact =
      ((ExtendedMantissa.mk m false false) >>> k, e + k) := by
    have same : (Format.binary64.targetExponent (totalExponent m e) - e).toNat = k :=
      Int.ofNat_inj.1 (Int.add_left_cancel exponent)
    rw [← same]
    rfl
  obtain ⟨short, long⟩ := length_of_shift h amount
  have between := rounded_between m k
  unfold roundWithAccuracy
  rw [shifted]
  dsimp only
  generalize ((ExtendedMantissa.mk m false false) >>> k).roundedMantissa = r at between ⊢
  have normal : e + k = -1074 ∨ 2 ^ 52 ≤ r := by
    by_cases above : -1074 < e + k
    · exact .inr ((between (2 ^ 52)).1 (long above))
    · exact .inl (by omega)
  obtain ⟨canonical, value⟩ := finish (s := s) ((between (2 ^ 53)).2 short) (t := e + k) (by omega)
    normal
  exact rounds_of_size (size_pos h e) canonical value fun n f => size_between lower between long

theorem rounds_round {m : Nat} {e : Int} (s : Sign) (h : 0 < m) (lower : -1074 ≤ e) :
    Rounds (s.apply (size m e)) (UnpackedFloat.round Format.binary64 s m e) := by
  have target : Format.binary64.targetExponent (totalExponent m e) =
      max ((m.log2 : Int) + e - 52) (-1074) := by
    have minimum : Format.binary64.minExponent = -1074 := rfl
    have bits : Format.binary64.mantissaBits = 53 := rfl
    simp only [Format.targetExponent, totalExponent, minimum, bits]
    push_cast
    omega
  unfold UnpackedFloat.round decreaseExponent
  dsimp only
  generalize Format.binary64.targetExponent (totalExponent m e) = t at target
  rw [Nat.shiftLeft_eq]
  have positive : 0 < m * 2 ^ (e - t).toNat := Nat.mul_pos h (Nat.two_pow_pos _)
  have log : m.log2 + (e - t).toNat ≤ (m * 2 ^ (e - t).toNat).log2 := by
    rw [Nat.le_log2 positive.ne', Nat.pow_add]
    exact Nat.mul_le_mul_right _ (Nat.log2_self_le h.ne')
  have same : size (m * 2 ^ (e - t).toNat) (e - (e - t).toNat) = size m e := by
    unfold size
    rw [mul_assoc, ← pow_add]
    congr 2
    omega
  rw [← same]
  exact rounds_accuracy s positive (by omega) (by omega)

/-! ## Sums -/

/-- A sum of mantissas with one exponent. -/
theorem rounds_normalize (m : Int) {e : Int} (lower : -1074 ≤ e) (s : Sign) :
    Rounds (m * 2 ^ (e + 1074).toNat) (UnpackedFloat.normalize Format.binary64 m e s) := by
  unfold UnpackedFloat.normalize
  split
  · next less =>
    have negative : m < 0 := Int.compare_eq_lt.1 less
    have exact : m * 2 ^ (e + 1074).toNat = Sign.negative.apply (size (-m).toNat e) := by
      simp only [Sign.apply, size]
      push_cast
      rw [Int.toNat_of_nonneg (by omega)]
      ring
    rw [exact]
    exact rounds_round _ (by omega) lower
  · next same =>
    have zero : m = 0 := Int.compare_eq_eq.1 same
    rw [zero, zero_mul]
    exact ⟨trivial, fun _ h => h, fun _ h => h⟩
  · next more =>
    have positive : 0 < m := Int.compare_eq_gt.1 more
    have exact : m * 2 ^ (e + 1074).toNat = Sign.positive.apply (size m.toNat e) := by
      simp only [Sign.apply, size]
      push_cast
      rw [Int.toNat_of_nonneg (by omega)]
    rw [exact]
    exact rounds_round _ (by omega) lower

/-- What a mantissa stands for is kept when it gets more places. -/
theorem apply_decreaseExponent (s : Sign) (m : Nat) {e t : Int} (lower : -1074 ≤ t) (le : t ≤ e) :
    s.apply ((decreaseExponent m e t).1 : Int) * 2 ^ (t + 1074).toNat = s.apply (size m e) := by
  have same : m * 2 ^ (e - t).toNat * 2 ^ (t + 1074).toNat = size m e := by
    rw [size, mul_assoc, ← pow_add]
    congr 2
    omega
  rw [← same, decreaseExponent]
  dsimp only
  rw [Nat.shiftLeft_eq]
  cases s <;> simp only [Sign.apply] <;> push_cast <;> ring

theorem rounds_add {x y : UnpackedFloat} (hx : IsCanonical x) (hy : IsCanonical y) :
    Rounds (units x + units y) (add Format.binary64 x y) := by
  have self {u : UnpackedFloat} (hu : IsCanonical u) : Rounds (units u) u :=
    ⟨hu, fun _ h => h, fun _ h => h⟩
  cases x with
  | infinity | notANumber => cases hx
  | zero s =>
    rw [units_zero, zero_add]
    cases y with
    | infinity | notANumber => cases hy
    | zero t =>
      unfold add
      dsimp only
      split
      · exact @self (.zero s) trivial
      · exact @self (.zero .positive) trivial
    | finite => exact self hy
  | finite s m e hm =>
    cases y with
    | infinity | notANumber => cases hy
    | zero t =>
      rw [units_zero, add_zero]
      exact self hx
    | finite t n f hn =>
      have first := hx.2.1
      have second := hy.2.1
      have exact : units (.finite s m e hm) + units (.finite t n f hn) =
          (s.apply ((decreaseExponent m e (min e f)).1 : Int) +
            t.apply ((decreaseExponent n f (min e f)).1 : Int)) * 2 ^ (min e f + 1074).toNat := by
        rw [add_mul, apply_decreaseExponent s m (by omega) (by omega),
          apply_decreaseExponent t n (by omega) (by omega), units_finite, units_finite]
      rw [exact]
      exact rounds_normalize _ (by omega) _

theorem isFinite_of_isCanonical {u : UnpackedFloat} (h : IsCanonical u) : u.isFinite = true := by
  cases u with
  | infinity | notANumber => cases h
  | zero | finite => rfl

/-- No double is as far from zero as a number that is too large. -/
theorem units_lt_of_large {z : UnpackedFloat} {m : Nat} {e : Int} (fits : Fits z)
    (hz : IsCanonical z) (hm : 0 < m) (canonical : Canonical m e) (large : ¬e ≤ 971) :
    |units z| < size m e := by
  cases z with
  | infinity | notANumber => cases hz
  | zero =>
    rw [units_zero, abs_zero]
    exact_mod_cast size_pos hm e
  | finite t n f hn =>
    have less : (size n f : Int) < size m e := by
      exact_mod_cast size_lt hz canonical (.inl (by have := fits.2; omega))
    rw [units_finite]
    cases t <;> simpa only [Sign.apply, abs_neg, Nat.abs_cast] using less

/-- Between two doubles there is no number that is too large. -/
theorem fits_of_between {lo u hi : UnpackedFloat} (hlo : Fits lo) (hhi : Fits hi)
    (hu : IsCanonical u) (clo : IsCanonical lo) (chi : IsCanonical hi) (above : units lo ≤ units u)
    (below : units u ≤ units hi) : Fits u := by
  cases u with
  | infinity | notANumber => cases hu
  | zero => trivial
  | finite s m e hm =>
    refine ⟨hu, ?_⟩
    by_contra large
    have := abs_lt.1 (units_lt_of_large hlo clo hm hu large)
    have := abs_lt.1 (units_lt_of_large hhi chi hm hu large)
    rw [units_finite] at above below
    cases s <;> simp only [Sign.apply] at above below <;> omega

/-- A sum that lies between two doubles is rounded to a double between them. -/
theorem add_between {x y lo hi : Float} (hx : x.isFinite) (hy : y.isFinite) (hlo : lo.isFinite)
    (hhi : hi.isFinite)
    (above : units lo.toModel.unpack ≤ units x.toModel.unpack + units y.toModel.unpack)
    (below : units x.toModel.unpack + units y.toModel.unpack ≤ units hi.toModel.unpack) :
    (x + y).isFinite ∧ units lo.toModel.unpack ≤ units (x + y).toModel.unpack ∧
      units (x + y).toModel.unpack ≤ units hi.toModel.unpack := by
  have rounds := rounds_add (isCanonical_unpack hx) (isCanonical_unpack hy)
  have above := rounds.ge (isCanonical_unpack hlo) above
  have below := rounds.le (isCanonical_unpack hhi) below
  have fits := fits_of_between (fits_unpack _) (fits_unpack _) rounds.canonical
    (isCanonical_unpack hlo) (isCanonical_unpack hhi) above below
  have sum : (x + y).toModel.unpack = add Format.binary64 x.toModel.unpack y.toModel.unpack :=
    unpack_pack fits
  have finite : (x + y).isFinite = (x + y).toModel.unpack.isFinite := rfl
  rw [finite, sum]
  exact ⟨isFinite_of_isCanonical rounds.canonical, above, below⟩

/-- A positive number that does not pass a double is finite. -/
theorem isFinite_of_not_below {u z : UnpackedFloat} (positive : IsPositive u) (hz : IsCanonical z)
    (le : ¬Below (place z) (place u)) : u.isFinite = true := by
  cases u with
  | finite | zero => rfl
  | notANumber => cases positive
  | infinity s =>
    cases s with
    | negative => cases positive
    | positive =>
      refine absurd (.inl ?_) le
      cases z with
      | infinity | notANumber => cases hz
      | zero => exact (by decide : (0 : Int) < 2)
      | finite s =>
        cases s with
        | negative => exact (by decide : (-1 : Int) < 2)
        | positive => exact (by decide : (1 : Int) < 2)

/-- A sum that is not below its first number is finite if it does not pass a double. -/
theorem isFinite_of_add_le {x y z : Float} (hx : x.isFinite) (hy : y.isFinite) (hz : z.isFinite)
    (more : 0 ≤ units y.toModel.unpack) (le : x + y ≤ z) : (x + y).isFinite := by
  have rounds := rounds_add (isCanonical_unpack hx) (isCanonical_unpack hy)
  have above := rounds.ge (isCanonical_unpack hx) (by omega)
  have canonical := rounds.canonical
  have below := ((le_iff _ _).1 le).2.2
  have packed : (x + y).toModel.unpack = unpack Format.binary64
      (pack Format.binary64 (add Format.binary64 x.toModel.unpack y.toModel.unpack)) := rfl
  have finite : (x + y).isFinite = (x + y).toModel.unpack.isFinite := rfl
  rw [packed] at below
  rw [finite, packed]
  have start : Fits x.toModel.unpack := fits_unpack _
  generalize add Format.binary64 x.toModel.unpack y.toModel.unpack = u at *
  by_cases fits : Fits u
  · rw [unpack_pack fits]
    exact isFinite_of_isCanonical canonical
  · -- what is too large is packed as an infinity, which would pass the double
    cases u with
    | infinity | notANumber => cases canonical
    | zero => exact absurd trivial fits
    | finite s m e hm =>
      have far := abs_lt.1 (units_lt_of_large start (isCanonical_unpack hx) hm canonical
        fun small => fits ⟨canonical, small⟩)
      cases s with
      | negative =>
        dsimp only [units_finite, Sign.apply] at above
        omega
      | positive =>
        exact isFinite_of_not_below (isPositive_pack hm canonical.1 canonical.2.1)
          (isCanonical_unpack hz) below

end Montage.Double
