import Montage.Json

/-!
# Printing documents

A document over several lines, two blanks for each level. Empty arrays and objects stay on one
line, and an infinite or undefined number is printed as null.
-/
namespace Montage.Json

/-- A character inside a printed text. -/
def printChar (c : Char) : List Char :=
  if c = '"' then ['\\', '"']
  else if c = '\\' then ['\\', '\\']
  else if c = '\n' then ['\\', 'n']
  else if c = '\r' then ['\\', 'r']
  else if c = '\t' then ['\\', 't']
  else if c = '\x08' then ['\\', 'b']
  else if c = '\x0c' then ['\\', 'f']
  else if c.toNat < 0x20 then '\\' :: 'u' :: Text.hex 4 c.toNat
  else [c]

/-- A text in double quotes. -/
def printString (s : String) : String :=
  String.ofList ('"' :: s.toList.flatMap printChar ++ ['"'])

def printNumber : Number → String
  | .int n => toString n
  | .float x => if x.isFinite then Decimal.Layout.document.text x else "null"

/-- A line break and the indentation of a level. -/
def newLine (level : Nat) : String := String.ofList ('\n' :: List.replicate (2 * level) ' ')

/-- Items between brackets, each on a line of its own. -/
def bracketed (left right : String) (level : Nat) (items : List String) : String :=
  if items.isEmpty then left ++ right
  else
    left ++ newLine (level + 1) ++ ("," ++ newLine (level + 1)).intercalate items ++
      newLine level ++ right

mutual

/-- A value at a level of indentation. -/
def printAt (level : Nat) : Json → String
  | null => "null"
  | bool b => if b then "true" else "false"
  | number n => printNumber n
  | string s => printString s
  | array items => bracketed "[" "]" level (printItems (level + 1) items)
  | object members => bracketed "\x7b" "\x7d" level (printMembers (level + 1) members)

def printItems (level : Nat) : List Json → List String
  | [] => []
  | v :: rest => printAt level v :: printItems level rest

def printMembers (level : Nat) : List (String × Json) → List String
  | [] => []
  | (name, v) :: rest =>
    (printString name ++ ": " ++ printAt level v) :: printMembers level rest

end

/-- The printed document. -/
def print (v : Json) : String := printAt 0 v

end Montage.Json
