import Montage.Decimal.Dyadic

/-!
# The shortest decimal text of a double

A double is written with the fewest digits that read back as the same double, and of those with
the nearest. The digits are chosen here by exact arithmetic; where the point stands and when an
exponent is written is a `Layout`.
-/
namespace Montage.Decimal

/-- The digits of a positive decimal: it is `0.d₁d₂… · 10 ^ point`. -/
structure Digits where
  digits : Nat
  point : Int
deriving DecidableEq, Repr

/-- How many decimal digits a number has. -/
def width (n : Nat) : Nat := (Nat.toDigits 10 n).length

/-- The place of the point in `num / den`: the quotient is below `10 ^ point` and not below a
tenth of that. -/
def pointOf (num den : Nat) : Int :=
  if den ≤ num then width (num / den)
  else
    let k := width (den / num)
    if num * Nat.pow 10 (k - 1) = den then 2 - (k : Int) else 1 - (k : Int)

/-- The positive reals that read as one double, over the common denominator `den`: from `low` to
`high`, the ends included when `closed`. -/
structure Interval where
  value : Nat
  low : Nat
  high : Nat
  den : Nat
  closed : Bool

/-- The reals that round to a positive double: half a unit to both sides, but only a quarter
below a power of two, where the doubles below are twice as dense. The ends round to an even
mantissa. -/
def Interval.ofDyadic (d : Dyadic) : Interval :=
  let below := if d.mantissa = Nat.pow 2 52 ∧ d.exponent ≠ -1074 then 1 else 2
  let scale := Nat.pow 2 d.exponent.toNat
  { value := 4 * d.mantissa * scale
    low := (4 * d.mantissa - below) * scale
    high := (4 * d.mantissa + 2) * scale
    den := 4 * d.denominator
    closed := d.mantissa % 2 == 0 }

/-- Whether `num / den` lies in the interval. -/
def Interval.contains (i : Interval) (num den : Nat) : Bool :=
  if i.closed then i.low * den ≤ num * i.den && num * i.den ≤ i.high * den
  else i.low * den < num * i.den && num * i.den < i.high * den

/-- The best decimal with `n` digits before the place `point`, if one reads back: of the two
neighbours of the value, the one in the interval, of two the nearer, of two equally near the even
one. -/
def withDigits? (i : Interval) (point : Int) (n : Nat) : Option Nat :=
  -- one unit of the last digit is `up / down`
  let unit : Int := point - n
  let up := Nat.pow 10 unit.toNat
  let down := Nat.pow 10 (-unit).toNat
  let lower := i.value * down / (i.den * up)
  let upper := lower + 1
  let hasLower := i.contains (lower * up) down
  let hasUpper := i.contains (upper * up) down
  if hasLower && hasUpper then
    -- the nearer, by comparing twice the value with the sum of the two
    let twice := 2 * i.value * down
    let sum := (lower + upper) * up * i.den
    if twice < sum then some lower
    else if sum < twice then some upper
    else some (lower + lower % 2)
  else if hasLower then some lower
  else if hasUpper then some upper
  else none

/-- The fewest digits that read back; seventeen always do. -/
def shortest (d : Dyadic) : Digits :=
  let i := Interval.ofDyadic d
  let point := pointOf d.numerator d.denominator
  match (List.range 17).findSome? fun k => (withDigits? i point (k + 1)).map fun n => (k + 1, n) with
  | some (k, n) =>
    -- rounding up may carry into one more digit
    if width n = k then ⟨n, point⟩ else ⟨n / 10, point + 1⟩
  | none => ⟨divNearest (d.numerator * Nat.pow 10 17) (d.denominator * Nat.pow 10 17), point⟩

/-- Where the point stands and how an exponent is written. -/
structure Layout where
  /-- the least place of the point that is still written without an exponent -/
  least : Int
  /-- the greatest place of the point that is still written without an exponent -/
  greatest : Int
  /-- a positive exponent has a sign -/
  plus : Bool
  /-- an exponent has at least so many digits -/
  exponentWidth : Nat

/-- Numbers in messages and labels: positional from `0.0001` up to sixteen digits before the
point, otherwise `1.5e-07`. -/
def Layout.plain : Layout := ⟨-3, 16, true, 2⟩

/-- Numbers in printed documents: positional from `0.00001`, otherwise `1.5e-7`. -/
def Layout.document : Layout := ⟨-4, 16, false, 1⟩

def zeros (n : Nat) : String := String.ofList (List.replicate n '0')

/-- The text of a positive decimal. A whole number keeps one zero after the point. -/
def Layout.write (l : Layout) (d : Digits) : String :=
  let ds := (toString d.digits).toList
  if l.least ≤ d.point ∧ d.point ≤ l.greatest then
    if d.point ≤ 0 then "0." ++ zeros (-d.point).toNat ++ String.ofList ds
    else
      let n := d.point.toNat
      if ds.length ≤ n then String.ofList ds ++ zeros (n - ds.length) ++ ".0"
      else String.ofList (ds.take n) ++ "." ++ String.ofList (ds.drop n)
  else
    let exponent := d.point - 1
    let size := toString exponent.natAbs
    let sign := if exponent < 0 then "-" else if l.plus then "+" else ""
    let mantissa :=
      if ds.length = 1 then String.ofList ds
      else String.ofList (ds.take 1) ++ "." ++ String.ofList (ds.drop 1)
    mantissa ++ "e" ++ sign ++ zeros (l.exponentWidth - size.length) ++ size

/-- The text of a double in a layout, the three special values by name. -/
def Layout.text (l : Layout) (x : Float) : String :=
  match Dyadic.ofFloat? x with
  | some d =>
    let sign := if d.negative then "-" else ""
    if d.mantissa = 0 then sign ++ "0.0" else sign ++ l.write (shortest d)
  | none => if x.isNaN then "nan" else if 0 < x then "inf" else "-inf"

/-- The text of a double in messages and labels. -/
def text (x : Float) : String := Layout.plain.text x

end Montage.Decimal
