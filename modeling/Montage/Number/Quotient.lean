import Montage.Number

/-!
# Quotients of numbers

The quotient of two whole numbers is the double nearest to the exact fraction, however large
both of them are.
-/
namespace Montage.Number

/-- The exponent of the last place that a double near `num / den` has. -/
def lastPlace (num den : Nat) : Int :=
  let e : Int := (num.log2 : Int) - den.log2
  let below : Bool := decide (num * Nat.pow 2 (-e).toNat < den * Nat.pow 2 e.toNat)
  let place := (if below then e - 1 else e) - 52
  if place < -1074 then -1074 else place

/-- Infinity in bits. The bits of finite doubles come before, in the order of the doubles. -/
def infiniteBits : Nat := 0x7ff * Nat.pow 2 52

/-- The double nearest to `num / den`, infinite if the fraction is too large. -/
def nearestQuotient (num den : Nat) : Float :=
  if num = 0 then 0
  else
    let place := lastPlace num den
    let units := divNearest (num * Nat.pow 2 (-place).toNat) (den * Nat.pow 2 place.toNat)
    -- the first bit of the units is not stored: it counts as one more in the exponent
    Float.ofBits (min ((place + 1074).toNat * Nat.pow 2 52 + units) infiniteBits).toUInt64

/-- The quotient of two whole numbers, the second of which is not zero. -/
def quotientInt (a b : Int) : Except Fault Float :=
  let x := nearestQuotient a.natAbs b.natAbs
  if x.isInf then .error .quotientTooLarge
  else .ok (if (a < 0) != (b < 0) then -x else x)

/-- The quotient of two numbers, the second of which is not zero. -/
def quotient : Number → Number → Except Fault Float
  | int a, int b => quotientInt a b
  | a, b => do
    let x ← a.toFloat
    let y ← b.toFloat
    return x / y

end Montage.Number
