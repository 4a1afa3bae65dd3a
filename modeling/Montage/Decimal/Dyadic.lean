/-!
# Doubles as exact fractions

A finite double is `± mantissa · 2 ^ exponent`. Everything that writes a double or turns it into
a whole number starts from this reading and computes in whole numbers, so that nothing is
rounded twice. The two roundings to whole numbers are here: toward zero, and to the nearest with
a half going to the even neighbour.

* `divNearest_close`: a rounded quotient is within half a unit of the exact one.
* `divNearest_of_dvd`: an exact quotient is kept.
-/
namespace Montage

/-- The quotient `num / den` rounded to the nearest whole number, a half to the even one. -/
def divNearest (num den : Nat) : Nat :=
  let q := num / den
  let r := num % den
  if 2 * r < den then q else if den < 2 * r then q + 1 else q + q % 2

theorem divNearest_of_dvd {num den : Nat} (hd : 0 < den) (h : den ∣ num) :
    divNearest num den = num / den := by
  simp [divNearest, Nat.mod_eq_zero_of_dvd h, hd]

/-- Twice the distance between `num` and `den` times the rounded quotient is at most `den`. -/
theorem divNearest_close (num den : Nat) (hd : 0 < den) :
    2 * num ≤ 2 * (den * divNearest num den) + den ∧
      2 * (den * divNearest num den) ≤ 2 * num + den := by
  have hdiv := Nat.div_add_mod num den
  have hlt := Nat.mod_lt num hd
  unfold divNearest
  simp only
  split
  · omega
  · split
    · rw [Nat.mul_add]; omega
    · have h2 : num / den % 2 < 2 := Nat.mod_lt _ (by decide)
      rcases (by omega : num / den % 2 = 0 ∨ num / den % 2 = 1) with h | h <;>
        rw [h, Nat.mul_add] <;> omega

/-- A finite double: `± mantissa · 2 ^ exponent`. -/
structure Dyadic where
  negative : Bool
  mantissa : Nat
  exponent : Int
deriving DecidableEq, Repr

namespace Dyadic

/-- The exact value of a double, unless it is infinite or not a number. -/
def ofFloat? (x : Float) : Option Dyadic :=
  match x.toModel.unpack with
  | .finite sign mantissa exponent _ => some ⟨sign == .negative, mantissa, exponent⟩
  | .zero sign => some ⟨sign == .negative, 0, 0⟩
  | .infinity _ => none
  | .notANumber => none

/-- The magnitude is `numerator / denominator`. -/
def numerator (d : Dyadic) : Nat := d.mantissa * Nat.pow 2 d.exponent.toNat

/-- The magnitude is `numerator / denominator`. -/
def denominator (d : Dyadic) : Nat := Nat.pow 2 (-d.exponent).toNat

theorem denominator_pos (d : Dyadic) : 0 < d.denominator := Nat.pow_pos (by decide)

/-- The sign given back to a magnitude. -/
def signed (d : Dyadic) (magnitude : Nat) : Int :=
  if d.negative then -(magnitude : Int) else magnitude

/-- Whether the value is a whole number. -/
def isWhole (d : Dyadic) : Bool := d.numerator % d.denominator == 0

/-- The whole part, toward zero. -/
def truncate (d : Dyadic) : Int := d.signed (d.numerator / d.denominator)

/-- The nearest whole number, a half to the even one. -/
def nearest (d : Dyadic) : Int := d.signed (divNearest d.numerator d.denominator)

end Dyadic
end Montage
