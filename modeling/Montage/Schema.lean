import Montage.Decimal.Reader
import Montage.Json.Literal

/-!
# Reading typed data from documents

A reader turns a document into a value or into the list of its mismatches, each with the place
it was found at. Readers of several fields are put together with `seq`, which keeps the
mismatches of all of them in order. Reading is lenient: a number may be written as a text or as
a truth value, and a whole number with empty places.
-/
namespace Montage

/-- One step into a document. -/
inductive Step where
  | key (name : String)
  | index (i : Nat)
deriving DecidableEq, Repr

/-- A place in a document and what is wrong there. -/
structure Mismatch where
  place : List Step
  message : String
deriving DecidableEq, Repr

/-- What reading gives: a value, or mismatches. -/
inductive Parsed (α : Type) where
  | ok (value : α)
  | bad (mismatches : List Mismatch)

namespace Parsed

variable {α β : Type}

def map (f : α → β) : Parsed α → Parsed β
  | ok a => ok (f a)
  | bad ms => bad ms

/-- Two readings side by side: both must succeed, and all mismatches are kept. -/
def seq : Parsed (α → β) → (Unit → Parsed α) → Parsed β
  | ok f, x => (x ()).map f
  | bad ms, x => match x () with
    | ok _ => bad ms
    | bad ns => bad (ms ++ ns)

instance : Applicative Parsed where
  pure := ok
  map := map
  seq := seq

/-- A single mismatch at the value itself. -/
def fail (message : String) : Parsed α := bad [⟨[], message⟩]

/-- The mismatches moved one step down. -/
def under (s : Step) : Parsed α → Parsed α
  | ok a => ok a
  | bad ms => bad (ms.map fun m => { m with place := s :: m.place })

def toExcept : Parsed α → Except (List Mismatch) α
  | ok a => .ok a
  | bad ms => .error ms

end Parsed

namespace Schema

variable {α : Type}

/-- A text. -/
def string : Json → Parsed String
  | .string s => .ok s
  | _ => .fail "Input should be a valid string"

/-- A double. -/
def float : Json → Parsed Float
  | .number n => match n.toFloat with
    | .ok x => .ok x
    | .error _ => .fail "Input should be a valid number"
  | .bool b => .ok (if b then 1 else 0)
  | .string s => match Decimal.document? s with
    | some x => .ok x
    | none => .fail "Input should be a valid number, unable to parse string as a number"
  | _ => .fail "Input should be a valid number"

/-- The longest text that is read as a whole number. -/
def wholeLimit : Nat := 4300

/-- A double as a whole number. -/
def intOfFloat (x : Float) : Parsed Int :=
  match Dyadic.ofFloat? x with
  | none => .fail "Input should be a finite number"
  | some d =>
    if !d.isWhole then .fail "Input should be a valid integer, got a number with a fractional part"
    else if d.truncate.natAbs < Nat.pow 2 63 then .ok d.truncate
    else .fail "Unable to parse input string as an integer, exceeded maximum size"

/-- A whole number. -/
def int : Json → Parsed Int
  | .number (.int n) => .ok n
  | .number (.float x) => intOfFloat x
  | .bool b => .ok (if b then 1 else 0)
  | .string s =>
    if wholeLimit < s.length then
      .fail "Unable to parse input string as an integer, exceeded maximum size"
    else match Decimal.documentWhole? s with
      | some n => .ok n
      | none => .fail "Input should be a valid integer, unable to parse string as an integer"
  | _ => .fail "Input should be a valid integer"

/-- A truth value in words. -/
def bool : Json → Parsed Bool
  | .bool b => .ok b
  | .string s =>
    let word := String.ofList (s.toList.map Char.toLower)
    if ["0", "off", "f", "false", "n", "no"].contains word then .ok false
    else if ["1", "on", "t", "true", "y", "yes"].contains word then .ok true
    else .fail "Input should be a valid boolean, unable to interpret input"
  | _ => .fail "Input should be a valid boolean"

/-- The words of a choice in a message: `'a', 'b' or 'c'`. -/
def choiceText : List String → String
  | [] => ""
  | [a] => Text.quote a
  | [a, b] => Text.quote a ++ " or " ++ Text.quote b
  | a :: rest => Text.quote a ++ ", " ++ choiceText rest

/-- One of several words, each standing for a value. -/
def choice (words : List (String × α)) : Json → Parsed α
  | .string s => match words.find? fun w => w.1 == s with
    | some w => .ok w.2
    | none => .fail ("Input should be " ++ choiceText (words.map (·.1)))
  | _ => .fail ("Input should be " ++ choiceText (words.map (·.1)))

/-- A value that may be null. -/
def nullable (read : Json → Parsed α) : Json → Parsed (Option α)
  | .null => .ok none
  | v => (read v).map some

/-- The items of a list, each read on its own. -/
def items (read : Json → Parsed α) : (i : Nat) → List Json → Parsed (List α)
  | _, [] => .ok []
  | i, v :: rest =>
    ((read v).under (.index i)).map List.cons |>.seq fun _ => items read (i + 1) rest

/-- An array. -/
def list (read : Json → Parsed α) : Json → Parsed (List α)
  | .array vs => items read 0 vs
  | _ => .fail "Input should be a valid list"

/-- An object of the kind `name`. -/
def object (name : String) (read : List (String × Json) → Parsed α) : Json → Parsed α
  | .object members => read members
  | _ => .fail ("Input should be a valid dictionary or instance of " ++ name)

/-- The spellings of a field, the preferred one first. -/
abbrev Names := List String

/-- The member that a field is read from: the first of its spellings that is there. -/
def find (names : Names) (members : List (String × Json)) : Option (String × Json) :=
  names.findSome? fun n => (Json.lookup n members).map fun v => (n, v)

/-- A field that must be there. -/
def required (names : Names) (read : Json → Parsed α) (members : List (String × Json)) :
    Parsed α :=
  match find names members with
  | some (n, v) => (read v).under (.key n)
  | none => .bad [⟨[.key (names.headD "")], "Field required"⟩]

/-- A field that may be left out. -/
def optional (names : Names) (read : Json → Parsed α) (members : List (String × Json)) :
    Parsed (Option α) :=
  match find names members with
  | some (n, v) => ((read v).under (.key n)).map some
  | none => .ok none

/-- The members that no field is read from. -/
def rest (fields : List Names) (members : List (String × Json)) : List (String × Json) :=
  let used := fields.filterMap fun names => (find names members).map (·.1)
  members.filter fun m => !used.contains m.1

end Schema
end Montage
