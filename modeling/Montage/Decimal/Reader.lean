import Montage.Decimal.Dyadic
import Montage.Text.Blank
import Montage.Text.Digit

/-!
# Reading numbers from text

Two grammars are in use, both with white space around the number. A *document* number stands in
a field of a document and has ASCII digits. A *probed* number comes from a media prober and has
digits of any script, with single underscores between them.
-/
namespace Montage.Decimal

/-- The digits at the front of a text, and the rest. -/
def spanDigits (cs : List Char) : List Nat × List Char :=
  match cs with
  | [] => ([], [])
  | c :: rest =>
    if c.isDigit then let (ds, r) := spanDigits rest; ((c.toNat - 48) :: ds, r) else ([], cs)

/-- The whole number that a list of digits writes. -/
def ofDigits (ds : List Nat) : Nat := ds.foldl (fun n d => 10 * n + d) 0

/-- A sign at the front of a text: whether it is a minus, and the rest. -/
def takeSign : List Char → Bool × List Char
  | '-' :: rest => (true, rest)
  | '+' :: rest => (false, rest)
  | cs => (false, cs)

/-- An exponent after a mantissa: nothing at all, or `e`, a sign and digits to the end. -/
def exponent? : List Char → Option Int
  | [] => some 0
  | c :: rest =>
    if c = 'e' ∨ c = 'E' then
      let (minus, digits) := takeSign rest
      let (ds, after) := spanDigits digits
      if ds.isEmpty || !after.isEmpty then none
      else some (if minus then -(ofDigits ds : Int) else ofDigits ds)
    else none

/-- The double nearest to `mantissa · 10 ^ exponent`. -/
def scaled (mantissa : Nat) (exponent : Int) : Float :=
  -- beyond these bounds the value is zero or infinite whatever the digits are
  let width := (Nat.toDigits 10 mantissa).length
  if mantissa = 0 then 0
  else if 400 < exponent + width then 1.0 / 0.0
  else if exponent + width < -400 then 0
  else Float.ofScientific mantissa (exponent < 0) exponent.natAbs

/-- A decimal without sign: digits with at most one point among them and at least one digit,
then perhaps an exponent. -/
def unsigned? (cs : List Char) : Option Float :=
  let (whole, rest) := spanDigits cs
  let (places, rest) : List Nat × List Char :=
    match rest with
    | '.' :: r => spanDigits r
    | r => ([], r)
  if whole.isEmpty && places.isEmpty then none
  else (exponent? rest).map fun e => scaled (ofDigits (whole ++ places)) (e - places.length)

/-- The named values, in any mixture of capitals. -/
def named? (cs : List Char) : Option Float :=
  let name := String.ofList (cs.map Char.toLower)
  if name = "inf" ∨ name = "infinity" then some (1.0 / 0.0)
  else if name = "nan" then some (0.0 / 0.0)
  else none

/-- A decimal with an optional sign and nothing around it. -/
def signed? (cs : List Char) : Option Float :=
  let (minus, rest) := takeSign cs
  ((named? rest).orElse fun _ => unsigned? rest).map fun x => if minus then -x else x

/-- Whether underscores stand only singly and inside. -/
def underscoresInside (cs : List Char) : Bool :=
  cs.head? != some '_' && cs.getLast? != some '_' &&
    (cs.zip cs.tail).all fun p => !(p.1 == '_' && p.2 == '_')

/-- A decimal in a document. Single underscores inside it are passed over. -/
def document? (s : String) : Option Float :=
  let cs := Text.trimBoth Text.isWhite s.toList
  (signed? cs).orElse fun _ =>
    if underscoresInside cs then signed? (cs.filter (· != '_')) else none

/-- A whole number in a document: zeros after a point and single underscores are passed over. -/
def documentWhole? (s : String) : Option Int :=
  let cs := Text.trimBoth Text.isWhite s.toList
  let (minus, rest) := takeSign cs
  let digits := rest.takeWhile (· != '.')
  let places := (rest.dropWhile (· != '.')).drop 1
  if digits.isEmpty || !underscoresInside digits || !places.all (· == '0') then none
  else
    let (ds, after) := spanDigits (digits.filter (· != '_'))
    if after.isEmpty && !ds.isEmpty then
      some (if minus then -(ofDigits ds : Int) else ofDigits ds)
    else none

/-- Every digit of any script as the ASCII digit of its value. -/
def plainDigits (cs : List Char) : List Char :=
  cs.map fun c => match Text.digitValue? c with
    | some v => Char.ofNat (48 + v)
    | none => c

/-- Drops single underscores between two digits; none if one stands elsewhere. -/
def dropUnderscores? : List Char → Option (List Char)
  | [] => some []
  | '_' :: _ => none
  | [c] => some [c]
  | c :: '_' :: d :: rest =>
    if c.isDigit && d.isDigit then (dropUnderscores? (d :: rest)).map (c :: ·) else none
  | c :: rest => (dropUnderscores? rest).map (c :: ·)

/-- A probed decimal. -/
def probed? (s : String) : Option Float :=
  (dropUnderscores? (plainDigits (Text.trimBoth Text.isWhite s.toList))).bind signed?

/-- A probed whole number. One with too many digits is not read. -/
def probedWhole? (s : String) : Option Int :=
  match dropUnderscores? (plainDigits (Text.trimBoth Text.isWhite s.toList)) with
  | none => none
  | some cs =>
    let (minus, rest) := takeSign cs
    let (ds, after) := spanDigits rest
    if ds.isEmpty || !after.isEmpty || Text.digitLimit < ds.length then none
    else some (if minus then -(ofDigits ds : Int) else ofDigits ds)

end Montage.Decimal
