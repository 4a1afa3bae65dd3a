import Mathlib.Tactic.SplitIfs

/-!
# Readings of the clock

The clock reads doubles, so moments are compared and added by the rules of floating point: a
value that is not a number lies neither before nor after anything. `lt_iff` and `le_iff` put both
comparisons down to triples of integers; what follows is what an order of moments needs. A sum
with a finite number of seconds is a number again (`isNaN_add`).
-/
namespace Montage.Double

open Float.Model (UnpackedFloat Format)
open Float.Model.UnpackedFloat

/-- Whether one triple of integers comes before another, the first numbers first. -/
def Below (a b : Int × Int × Int) : Prop :=
  a.1 < b.1 ∨ a.1 = b.1 ∧ (a.2.1 < b.2.1 ∨ a.2.1 = b.2.1 ∧ a.2.2 < b.2.2)

/-- The place of a number among all numbers: its kind and sign, then its exponent and mantissa. -/
def place : UnpackedFloat → Int × Int × Int
  | .infinity .negative => (-2, 0, 0)
  | .finite .negative m e _ => (-1, -e, -m)
  | .zero _ => (0, 0, 0)
  | .finite .positive m e _ => (1, e, m)
  | .infinity .positive => (2, 0, 0)
  | .notANumber => (0, 0, 0)

theorem then_compare (a c : Int) (b d : Nat) :
    ((compare a c).then (compare b d) = .lt ↔ a < c ∨ a = c ∧ b < d) ∧
      ((compare a c).then (compare b d) = .gt ↔ c < a ∨ a = c ∧ d < b) := by
  simp only [compare, compareOfLessAndEq]
  split_ifs <;> simp_all [Ordering.then] <;> omega

theorem compare_place {a b : UnpackedFloat} (ha : a.isNaN = false) (hb : b.isNaN = false) :
    (a.compare b = some .lt ↔ Below (place a) (place b)) ∧
      (a.compare b = some .gt ↔ Below (place b) (place a)) ∧ (a.compare b).isSome := by
  rcases a with (_ | _) | _ | _ | ⟨_ | _, m, e, _⟩ <;> cases ha <;>
    rcases b with (_ | _) | _ | _ | ⟨_ | _, n, f, _⟩ <;> cases hb <;>
    dsimp only [UnpackedFloat.compare, place, Below] <;> simp
  · rfl
  · rfl
  · rw [(then_compare e f m n).1, (then_compare e f m n).2]
    omega
  · rw [(then_compare e f m n).1, (then_compare e f m n).2]
    omega

/-- Only numbers compare. -/
theorem numbers_of_compare {a b : UnpackedFloat} {o : Ordering} (h : a.compare b = some o) :
    a.isNaN = false ∧ b.isNaN = false := by
  cases a with
  | notANumber => cases h
  | _ => cases b <;> first | exact ⟨rfl, rfl⟩ | cases h

theorem lt_iff (a b : Float) : a < b ↔ a.isNaN = false ∧ b.isNaN = false ∧
    Below (place a.toModel.unpack) (place b.toModel.unpack) := by
  show decide ((a.toModel.unpack.compare b.toModel.unpack == some .lt) = true) = true ↔ _
  rw [decide_eq_true_iff, beq_iff_eq]
  constructor
  · intro h
    obtain ⟨ha, hb⟩ := numbers_of_compare h
    exact ⟨ha, hb, (compare_place ha hb).1.1 h⟩
  · rintro ⟨ha, hb, below⟩
    exact (compare_place ha hb).1.2 below

theorem le_iff (a b : Float) : a ≤ b ↔ a.isNaN = false ∧ b.isNaN = false ∧
    ¬Below (place b.toModel.unpack) (place a.toModel.unpack) := by
  show decide ((a.toModel.unpack.compare b.toModel.unpack).any (·.isLE) = true) = true ↔ _
  rw [decide_eq_true_iff]
  constructor
  · intro h
    obtain ⟨o, ho, le⟩ := (Option.any_eq_true _ _).1 h
    obtain ⟨ha, hb⟩ := numbers_of_compare ho
    refine ⟨ha, hb, fun below => ?_⟩
    cases ho.symm.trans ((compare_place ha hb).2.1.2 below)
    cases le
  · rintro ⟨ha, hb, below⟩
    obtain ⟨o, ho⟩ := Option.isSome_iff_exists.1 (compare_place ha hb).2.2
    rw [ho]
    cases o with
    | lt => rfl
    | eq => rfl
    | gt => exact absurd ((compare_place ha hb).2.1.1 ho) below

/-! ## The order of moments -/

variable {a b c : Float}

theorem lt_of_le_of_lt (h : a ≤ b) (h' : b < c) : a < c := by
  obtain ⟨ha, -, hab⟩ := (le_iff a b).1 h
  obtain ⟨-, hc, hbc⟩ := (lt_iff b c).1 h'
  refine (lt_iff a c).2 ⟨ha, hc, ?_⟩
  unfold Below at *
  omega

theorem le_trans (h : a ≤ b) (h' : b ≤ c) : a ≤ c := by
  obtain ⟨ha, -, hab⟩ := (le_iff a b).1 h
  obtain ⟨-, hc, hbc⟩ := (le_iff b c).1 h'
  refine (le_iff a c).2 ⟨ha, hc, ?_⟩
  unfold Below at *
  omega

theorem le_of_lt (h : a < b) : a ≤ b := by
  obtain ⟨ha, hb, below⟩ := (lt_iff a b).1 h
  refine (le_iff a b).2 ⟨ha, hb, ?_⟩
  unfold Below at *
  omega

theorem lt_trans (h : a < b) (h' : b < c) : a < c := lt_of_le_of_lt (le_of_lt h) h'

theorem not_le_of_lt (h : a < b) : ¬b ≤ a := fun h' =>
  ((le_iff b a).1 h').2.2 ((lt_iff a b).1 h).2.2

theorem le_self (h : a.isNaN = false) : a ≤ a := by
  refine (le_iff a a).2 ⟨h, h, ?_⟩
  unfold Below
  omega

theorem isNaN_of_lt (h : a < b) : b.isNaN = false := ((lt_iff a b).1 h).2.1

theorem lt_of_not_le (ha : a.isNaN = false) (hb : b.isNaN = false) (h : ¬b ≤ a) : a < b := by
  refine (lt_iff a b).2 ⟨ha, hb, ?_⟩
  exact Classical.byContradiction fun below => h ((le_iff b a).2 ⟨hb, ha, below⟩)

theorem le_of_not_lt (ha : a.isNaN = false) (hb : b.isNaN = false) (h : ¬b < a) : a ≤ b :=
  (le_iff a b).2 ⟨ha, hb, fun below => h ((lt_iff b a).2 ⟨hb, ha, below⟩)⟩

/-- What lies between two others is finite. -/
theorem isFinite_of_lt_of_lt (h : a < b) (h' : b < c) : b.isFinite = true := by
  obtain ⟨-, hb, hab⟩ := (lt_iff a b).1 h
  obtain ⟨-, -, hbc⟩ := (lt_iff b c).1 h'
  show b.toModel.unpack.isFinite = true
  change b.toModel.unpack.isNaN = false at hb
  generalize b.toModel.unpack = y at hb hab hbc
  cases y with
  | notANumber => cases hb
  | zero => rfl
  | finite => rfl
  | infinity s =>
    -- one infinity is behind all others, the other one before them
    have extreme (x : UnpackedFloat) : -2 ≤ (place x).1 ∧ (place x).1 ≤ 2 ∧
        ((place x).1 = 2 → place x = (2, 0, 0)) ∧ ((place x).1 = -2 → place x = (-2, 0, 0)) := by
      rcases x with (_ | _) | _ | _ | ⟨_ | _, m, e, _⟩ <;> dsimp only [place] <;> simp
    cases s with
    | positive =>
      obtain ⟨-, most, top, -⟩ := extreme c.toModel.unpack
      rcases hbc with less | ⟨same, less⟩
      · exact absurd (Int.lt_of_lt_of_le less most) (Int.lt_irrefl _)
      · rw [top same.symm] at less
        rcases less with less | ⟨-, less⟩ <;> exact absurd less (Int.lt_irrefl _)
    | negative =>
      obtain ⟨least, -, -, bottom⟩ := extreme a.toModel.unpack
      rcases hab with less | ⟨same, less⟩
      · exact absurd (Int.lt_of_lt_of_le less least) (Int.lt_irrefl _)
      · rw [bottom same] at less
        rcases less with less | ⟨-, less⟩ <;> exact absurd less (Int.lt_irrefl _)

/-! ## Sums -/

theorem isNaN_dite {c : Prop} [Decidable c] {x : c → UnpackedFloat} {y : ¬c → UnpackedFloat}
    (hx : ∀ h, (x h).isNaN = false) (hy : ∀ h, (y h).isNaN = false) :
    (dite c x y).isNaN = false := by
  split
  · exact hx _
  · exact hy _

/-- A number in packed form is read as a number. -/
theorem isNaN_unpack_pack {u : UnpackedFloat} (h : u.isNaN = false) :
    (unpack Format.binary64 (pack Format.binary64 u)).isNaN = false := by
  have infinite (s : Sign) :
      (unpack Format.binary64 (packedInfinity Format.binary64 s)).isNaN = false := by
    unfold unpack packedInfinity
    rw [if_pos (by rw [unpackExponent_packComponents]),
      if_pos (by rw [unpackMantissa_packComponents]; rfl)]
    rfl
  have other (s : Sign) (e : BitVec 11) (m : BitVec 52) (he : e ≠ -1#_) :
      (unpack Format.binary64 (packComponents Format.binary64 s e m)).isNaN = false := by
    unfold unpack
    rw [if_neg (by rw [unpackExponent_packComponents]; exact he)]
    exact isNaN_dite (fun _ => isNaN_dite (fun _ => rfl) fun _ => rfl) fun _ => rfl
  cases u with
  | notANumber => cases h
  | infinity s => exact infinite s
  | zero s => exact other s 0 0 (by decide)
  | finite s m e hm =>
    unfold pack
    dsimp only
    split
    · exact infinite s
    · split
      · refine other s _ _ fun he => ?_
        have max : (-1#11).toNat = 2 ^ 11 - 1 := rfl
        have eq := congrArg BitVec.toNat he
        rw [BitVec.toNat_ofNat, max] at eq
        have := Nat.mod_le (e + Format.binary64.exponentBias + 52).toNat (2 ^ 11)
        omega
      · exact other s 0 _ (by decide)

theorem isNaN_normalize (m e : Int) (s : Sign) :
    (UnpackedFloat.normalize Format.binary64 m e s).isNaN = false := by
  have rounded (sign : Sign) (m : Nat) (e : Int) :
      (UnpackedFloat.round Format.binary64 sign m e).isNaN = false :=
    isNaN_dite (fun _ => rfl) fun _ => rfl
  unfold UnpackedFloat.normalize
  split
  · exact rounded ..
  · rfl
  · exact rounded ..

/-- A number of seconds after a moment is a moment. -/
theorem isNaN_add (ha : a.isNaN = false) (hb : b.isFinite) : (a + b).isNaN = false := by
  have sum (x y : UnpackedFloat) (hx : x.isNaN = false) (hy : y.isFinite = true) :
      (add Format.binary64 x y).isNaN = false := by
    cases y with
    | infinity => cases hy
    | notANumber => cases hy
    | zero t =>
      cases x with
      | infinity => rfl
      | notANumber => cases hx
      | zero s => cases s <;> cases t <;> rfl
      | finite => rfl
    | finite =>
      cases x with
      | infinity => rfl
      | notANumber => cases hx
      | zero => rfl
      | finite => exact isNaN_normalize ..
  exact isNaN_unpack_pack (sum _ _ ha hb)

/-- What lies between a moment and an earlier one is a number of seconds. -/
theorem isNaN_sub (ha : a.isNaN = false) (hb : b.isFinite) : (a - b).isNaN = false := by
  have difference (x y : UnpackedFloat) (hx : x.isNaN = false) (hy : y.isFinite = true) :
      (sub Format.binary64 x y).isNaN = false := by
    cases y with
    | infinity => cases hy
    | notANumber => cases hy
    | zero t =>
      cases x with
      | infinity => rfl
      | notANumber => cases hx
      | zero s => cases s <;> cases t <;> rfl
      | finite => rfl
    | finite =>
      cases x with
      | infinity => rfl
      | notANumber => cases hx
      | zero => rfl
      | finite => exact isNaN_normalize ..
  exact isNaN_unpack_pack (difference _ _ ha hb)

end Montage.Double
