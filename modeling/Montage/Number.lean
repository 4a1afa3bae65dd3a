import Montage.Decimal.Shortest
import Montage.Fault

/-!
# Numbers

A number in a document is a whole number of any size or a double. The two stay apart: `5` and
`5.0` are written differently. They are compared by their exact values, and arithmetic that
mixes them is done in doubles.
-/
namespace Montage

/-- A whole number of any size, or a double. -/
inductive Number where
  | int (n : Int)
  | float (x : Float)
deriving DecidableEq

/-- What a number stands for: a fraction, an infinity, or nothing. -/
inductive Number.Value where
  | finite (num : Int) (den : Nat)
  | infinite (negative : Bool)
  | undefined
deriving DecidableEq, Repr

namespace Number

/-- The exact value of a double. -/
def valueOfFloat (x : Float) : Value :=
  match Dyadic.ofFloat? x with
  | some d => .finite (d.signed d.numerator) d.denominator
  | none => if x.isNaN then .undefined else .infinite (x < 0)

/-- The exact value of a number. -/
def value : Number → Value
  | int n => .finite n 1
  | float x => valueOfFloat x

/-- The order of two values; nothing compares with the undefined value. -/
def Value.compare? : Value → Value → Option Ordering
  | .undefined, _ => none
  | _, .undefined => none
  | .infinite a, .infinite b => some (compare b a)
  | .infinite a, .finite _ _ => some (if a then .lt else .gt)
  | .finite _ _, .infinite b => some (if b then .gt else .lt)
  | .finite n d, .finite m e => some (compare (n * e) (m * d))

def lt (a b : Number) : Bool := a.value.compare? b.value == some .lt

def le (a b : Number) : Bool :=
  a.value.compare? b.value == some .lt || a.value.compare? b.value == some .eq

/-- Equal in value: `5` equals `5.0`. -/
def same (a b : Number) : Bool := a.value.compare? b.value == some .eq

/-- A whole number as a double, unless it is too large for one. -/
def floatOfInt (n : Int) : Except Fault Float :=
  let x := Float.ofInt n
  if x.isInf then .error .wholeTooLarge else .ok x

/-- The number as a double. -/
def toFloat : Number → Except Fault Float
  | int n => floatOfInt n
  | float x => .ok x

/-- Whole numbers are added exactly, all others as doubles. -/
def add : Number → Number → Except Fault Number
  | int a, int b => .ok (int (a + b))
  | a, b => do return float ((← a.toFloat) + (← b.toFloat))

/-- The text of a number in messages. -/
def text : Number → String
  | int n => toString n
  | float x => Decimal.text x

/-- Whether a number can be written: a whole number must not have too many digits. -/
def isWritable : Number → Bool
  | int n => (Nat.toDigits 10 n.natAbs).length ≤ Text.digitLimit
  | float _ => true

/-- The text of a number that was not written before, unless it has too many digits. -/
def written (n : Number) : Except Fault String :=
  if n.isWritable then .ok n.text else .error .unwritable

theorem written_ok_iff {n : Number} {s : String} :
    n.written = .ok s ↔ n.isWritable = true ∧ n.text = s := by
  unfold written
  split <;> simp [*]

/-- A double as the nearest whole number, a half to the even one. -/
def nearestInt (x : Float) : Except Fault Int :=
  match Dyadic.ofFloat? x with
  | some d => .ok d.nearest
  | none => .error (if x.isNaN then .undefinedToWhole else .infiniteToWhole)

/-- A double without its places. -/
def truncateInt (x : Float) : Except Fault Int :=
  match Dyadic.ofFloat? x with
  | some d => .ok d.truncate
  | none => .error (if x.isNaN then .undefinedToWhole else .infiniteToWhole)

/-- Whether the number is zero. -/
def isZero (a : Number) : Bool := a.same (int 0)

/-- The greater of two numbers: the first one unless the second is greater. -/
def max (a b : Number) : Number := if a.lt b then b else a

end Number
end Montage
