import Montage.Decimal.Reader
import Montage.Json

/-!
# Reading documents

The text form of documents: JSON with `NaN`, `Infinity` and `-Infinity` as further numbers. The
last of several members of one name counts. A text that is no document is refused at the place
of its first mistake, which is given by line, column and character. Whole numbers are read up to
a number of digits; a longer one is no mistake in the text but breaks the reading off.
-/
namespace Montage.Json

/-- What is wrong with a text. -/
inductive Mistake where
  | value
  | name
  | colon
  | comma
  | unterminated
  | controlCharacter
  | escape
  | unicodeEscape
  | extraData
  | byteOrderMark
  /-- a whole number with too many digits -/
  | tooLong (digits : String)
deriving DecidableEq, Repr

/-- A mistake and the index of the character it is at. -/
structure ReadError where
  mistake : Mistake
  position : Nat
deriving DecidableEq, Repr

def Mistake.message : Mistake → String
  | value => "Expecting value"
  | name => "Expecting property name enclosed in double quotes"
  | colon => "Expecting ':' delimiter"
  | comma => "Expecting ',' delimiter"
  | unterminated => "Unterminated string starting at"
  | controlCharacter => "Invalid control character at"
  | escape => "Invalid \\escape"
  | unicodeEscape => "Invalid \\uXXXX escape"
  | extraData => "Extra data"
  | byteOrderMark => "Unexpected UTF-8 BOM (decode using utf-8-sig)"
  | tooLong digits => Fault.unreadWhole digits

/-- The fault that broke the reading off, if it was no mistake in the text. -/
def ReadError.fault? (e : ReadError) : Option Fault :=
  match e.mistake with
  | .tooLong digits => some (.notWhole digits)
  | _ => none

/-- The mistake and its place: lines and columns count from one, characters from zero. -/
def ReadError.message (e : ReadError) (source : String) : String :=
  let before := source.toList.take e.position
  let line := before.count '\n' + 1
  let column := (before.reverse.takeWhile (· != '\n')).length + 1
  e.mistake.message ++ ": line " ++ toString line ++ " column " ++ toString column ++
    " (char " ++ toString e.position ++ ")"

/-- A document's blanks. -/
def isGap (c : Char) : Bool := c == ' ' || c == '\t' || c == '\n' || c == '\r'

/-- The first index from `i` on whose character does not satisfy `p`. -/
def skipWhile (p : Char → Bool) (src : Array Char) (i : Nat) : Nat :=
  if h : i < src.size then if p src[i] then skipWhile p src (i + 1) else i else i

/-- The characters from `i` up to `j`. -/
def slice (src : Array Char) (i j : Nat) : List Char := (src.extract i j).toList

/-- Whether the text goes on with `word` at `i`. -/
def wordAt (word : String) (src : Array Char) (i : Nat) : Bool :=
  slice src i (i + word.length) == word.toList

def digitAt (src : Array Char) (i : Nat) : Bool := (src[i]?.map Char.isDigit).getD false

/-- A number at `i`, and the index after it. Without a point and an exponent it is whole. -/
def readNumber (src : Array Char) (i : Nat) : Except ReadError (Number × Nat) :=
  let first := if src[i]? = some '-' then i + 1 else i
  if !digitAt src first then .error ⟨.value, i⟩
  else
    let whole := if src[first]? = some '0' then first + 1 else skipWhile Char.isDigit src first
    let places :=
      if src[whole]? = some '.' && digitAt src (whole + 1) then
        skipWhile Char.isDigit src (whole + 1)
      else whole
    let mark := if src[places]? = some 'e' || src[places]? = some 'E' then places + 1 else places
    let power := if src[mark]? = some '-' || src[mark]? = some '+' then mark + 1 else mark
    let last :=
      if places < mark && digitAt src power then skipWhile Char.isDigit src power else places
    let text := slice src i last
    if last = whole then
      if Text.digitLimit < last - first then .error ⟨.tooLong (String.ofList text), i⟩
      else
        let n : Int := Decimal.ofDigits (Decimal.spanDigits (slice src first last)).1
        .ok (.int (if first = i then n else -n), last)
    else .ok (.float ((Decimal.signed? text).getD 0), last)

/-- The number that four hexadecimal digits at `i` write. -/
def hexAt? (src : Array Char) (i : Nat) : Option Nat :=
  let digit? (c : Char) : Option Nat :=
    if c.isDigit then some (c.toNat - 48)
    else if 'a' ≤ c ∧ c ≤ 'f' then some (c.toNat - 87)
    else if 'A' ≤ c ∧ c ≤ 'F' then some (c.toNat - 55)
    else none
  (List.range 4).foldlM (fun n k => do
    let c ← src[i + k]?
    return 16 * n + (← digit? c)) 0

/-- The character that a letter after a backslash stands for. -/
def simpleEscape? (c : Char) : Option Char :=
  match c with
  | '"' => some '"'
  | '\\' => some '\\'
  | '/' => some '/'
  | 'b' => some '\x08'
  | 'f' => some '\x0c'
  | 'n' => some '\n'
  | 'r' => some '\r'
  | 't' => some '\t'
  | _ => none

/-- An escape by number whose digits start at `i`: the character and the index after it. Two
halves of a pair that follow each other make one character; a lone half is no character and
reads as `U+FFFD`. -/
def readUnicode (src : Array Char) (i : Nat) : Except ReadError (Char × Nat) :=
  if src.size ≤ i + 4 then .error ⟨.unicodeEscape, i - 1⟩
  else match hexAt? src i with
    | none => .error ⟨.unicodeEscape, i - 1⟩
    | some high =>
      let isHigh := 0xd800 ≤ high && high ≤ 0xdbff
      let lone := if 0xd800 ≤ high && high ≤ 0xdfff then Char.ofNat 0xfffd else Char.ofNat high
      if isHigh && i + 10 < src.size && wordAt "\\u" src (i + 4) then
        match hexAt? src (i + 6) with
        | none => .error ⟨.unicodeEscape, i + 5⟩
        | some low =>
          if 0xdc00 ≤ low && low ≤ 0xdfff then
            .ok (Char.ofNat (0x10000 + (high - 0xd800) * 0x400 + (low - 0xdc00)), i + 10)
          else .ok (lone, i + 4)
      else .ok (lone, i + 4)

/-- The rest of a text in quotes from `i` on; `start` is the index of its opening quote and
`done` holds what was read, the last character first. -/
def readString (src : Array Char) (start : Nat) :
    (fuel i : Nat) → (done : List Char) → Except ReadError (String × Nat)
  | 0, _, _ => .error ⟨.unterminated, start⟩
  | fuel + 1, i, done =>
    match src[i]? with
    | none => .error ⟨.unterminated, start⟩
    | some '"' => .ok (String.ofList done.reverse, i + 1)
    | some '\\' =>
      match src[i + 1]? with
      | none => .error ⟨.unterminated, start⟩
      | some 'u' =>
        match readUnicode src (i + 2) with
        | .error e => .error e
        | .ok (c, next) => readString src start fuel next (c :: done)
      | some c =>
        match simpleEscape? c with
        | some d => readString src start fuel (i + 2) (d :: done)
        | none => .error ⟨.escape, i⟩
    | some c =>
      if c.toNat ≤ 0x1f then .error ⟨.controlCharacter, i⟩
      else readString src start fuel (i + 1) (c :: done)

mutual

/-- A value at `i`, and the index after it. -/
def readValue (src : Array Char) : (fuel i : Nat) → Except ReadError (Json × Nat)
  | 0, i => .error ⟨.value, i⟩
  | fuel + 1, i =>
    match src[i]? with
    | none => .error ⟨.value, i⟩
    | some '"' => do
      let (s, next) ← readString src i src.size (i + 1) []
      return (.string s, next)
    | some '\x7b' => do
      let first := skipWhile isGap src (i + 1)
      if src[first]? = some '\x7d' then return (.object [], first + 1)
      let (members, next) ← readMembers src fuel first []
      return (.object members, next)
    | some '[' => do
      let first := skipWhile isGap src (i + 1)
      if src[first]? = some ']' then return (.array [], first + 1)
      let (items, next) ← readItems src fuel first
      return (.array items, next)
    | some _ =>
      if wordAt "null" src i then .ok (.null, i + 4)
      else if wordAt "true" src i then .ok (.bool true, i + 4)
      else if wordAt "false" src i then .ok (.bool false, i + 5)
      else if wordAt "NaN" src i then .ok (.float (0.0 / 0.0), i + 3)
      else if wordAt "Infinity" src i then .ok (.float (1.0 / 0.0), i + 8)
      else if wordAt "-Infinity" src i then .ok (.float (-1.0 / 0.0), i + 9)
      else (readNumber src i).map fun (n, next) => (.number n, next)

/-- The items of an array up to its bracket. -/
def readItems (src : Array Char) : (fuel i : Nat) → Except ReadError (List Json × Nat)
  | 0, i => .error ⟨.value, i⟩
  | fuel + 1, i => do
    let (item, after) ← readValue src fuel i
    let next := skipWhile isGap src after
    match src[next]? with
    | some ']' => return ([item], next + 1)
    | some ',' =>
      let (items, last) ← readItems src fuel (skipWhile isGap src (next + 1))
      return (item :: items, last)
    | _ => throw ⟨.comma, next⟩

/-- The members of an object up to its brace, added to those read before. -/
def readMembers (src : Array Char) :
    (fuel i : Nat) → List (String × Json) → Except ReadError (List (String × Json) × Nat)
  | 0, i, _ => .error ⟨.name, i⟩
  | fuel + 1, i, done => do
    if src[i]? ≠ some '"' then throw ⟨.name, i⟩
    let (name, after) ← readString src i src.size (i + 1) []
    let mark := skipWhile isGap src after
    if src[mark]? ≠ some ':' then throw ⟨.colon, mark⟩
    let (value, after) ← readValue src fuel (skipWhile isGap src (mark + 1))
    let next := skipWhile isGap src after
    let done := insert name value done
    match src[next]? with
    | some '\x7d' => return (done, next + 1)
    | some ',' => readMembers src fuel (skipWhile isGap src (next + 1)) done
    | _ => throw ⟨.comma, next⟩

end

/-- The document that a text writes. -/
def read (source : String) : Except ReadError Json := do
  let src := source.toList.toArray
  if src[0]? = some (Char.ofNat 0xfeff) then throw ⟨.byteOrderMark, 0⟩
  -- every step down or along takes at least one character, and a value costs two steps
  let (value, after) ← readValue src (2 * src.size + 2) (skipWhile isGap src 0)
  let last := skipWhile isGap src after
  if last < src.size then throw ⟨.extraData, last⟩
  return value

end Montage.Json
