import Montage.Decimal.Dyadic

/-!
# Decimals with a fixed number of places

A double with exactly `places` digits after the point, its exact value rounded to the nearest
such decimal and a half to the even one.
-/
namespace Montage.Decimal

/-- A text made at least `n` characters long by zeros in front. -/
def padZeros (n : Nat) (s : String) : String :=
  String.ofList (List.replicate (n - s.length) '0') ++ s

/-- A magnitude of `units / 10 ^ places`, written with all its places. -/
def placed (places units : Nat) : String :=
  toString (units / Nat.pow 10 places) ++ "." ++
    padZeros places (toString (units % Nat.pow 10 places))

/-- A finite double in fixed places. The sign stays even where the digits are all zero. -/
def fixed (places : Nat) (d : Dyadic) : String :=
  (if d.negative then "-" else "") ++
    placed places (divNearest (d.numerator * Nat.pow 10 places) d.denominator)

/-- Any double in fixed places, the special values by name. -/
def fixedText (places : Nat) (x : Float) : String :=
  match Dyadic.ofFloat? x with
  | some d => fixed places d
  | none => if x.isNaN then "nan" else if 0 < x then "inf" else "-inf"

/-- Drops every `c` at the end of a text. -/
def dropEnd (c : Char) (s : String) : String :=
  String.ofList (s.toList.reverse.dropWhile (· == c)).reverse

/-- Drops the zeros at the end of a decimal, and then a point that is left last. -/
def trimZeros (s : String) : String := dropEnd '.' (dropEnd '0' s)

end Montage.Decimal
