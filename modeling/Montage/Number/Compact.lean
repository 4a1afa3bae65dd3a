import Montage.Decimal.Fixed
import Montage.Number

/-!
# Compact numbers

How a number is written in the options of a filter: without places if it is whole, otherwise
with at most six places and no zeros at their end. A length of time on the command line keeps
exactly three places unless it is whole.
-/
namespace Montage.Number

/-- A double without places if it is whole, otherwise by `rest`. -/
def wholeOr (rest : Float → String) (x : Float) : String :=
  match Dyadic.ofFloat? x with
  | some d => if d.isWhole then toString d.truncate else rest x
  | none => rest x

/-- A double in the options of a filter. -/
def compactFloat (x : Float) : String :=
  wholeOr (fun x => Decimal.trimZeros (Decimal.fixedText 6 x)) x

/-- A double as a length of time on the command line. -/
def secondsFloat (x : Float) : String := wholeOr (Decimal.fixedText 3) x

/-- Writes a double by `write`, and a whole number by its digits unless it is too large for a
double. -/
def textBy (write : Float → String) : Number → Except Fault String
  | .int n => do
    let _ ← floatOfInt n
    return toString n
  | .float x => .ok (write x)

/-- A number in the options of a filter. -/
def compact (n : Number) : Except Fault String := textBy compactFloat n

/-- A length of time on the command line. -/
def seconds (n : Number) : Except Fault String := textBy secondsFloat n

end Montage.Number
