import Montage.Json

/-!
# Values in messages

The text of a document's value inside a message. A text at the top stands for itself; inside an
array or object, and wherever a message quotes a value, texts are in quotes. A value in which a
whole number has too many digits has no such text.
-/
namespace Montage.Json

mutual

/-- The value with its texts quoted: `['a', 1.5, None]`. -/
def literal : Json → String
  | null => "None"
  | bool b => if b then "True" else "False"
  | number n => n.text
  | string s => Text.quote s
  | array items => "[" ++ ", ".intercalate (literals items) ++ "]"
  | object members => "\x7b" ++ ", ".intercalate (memberLiterals members) ++ "\x7d"

/-- The items of an array. -/
def literals : List Json → List String
  | [] => []
  | v :: rest => literal v :: literals rest

/-- The members of an object, name and value. -/
def memberLiterals : List (String × Json) → List String
  | [] => []
  | (name, v) :: rest => (Text.quote name ++ ": " ++ literal v) :: memberLiterals rest

end

mutual

/-- Whether no whole number in a value has too many digits to be written. -/
def isWritable : Json → Bool
  | null => true
  | bool _ => true
  | number n => n.isWritable
  | string _ => true
  | array items => itemsWritable items
  | object members => membersWritable members

/-- Whether the items of an array can be written. -/
def itemsWritable : List Json → Bool
  | [] => true
  | v :: rest => isWritable v && itemsWritable rest

/-- Whether the members of an object can be written. -/
def membersWritable : List (String × Json) → Bool
  | [] => true
  | (_, v) :: rest => isWritable v && membersWritable rest

end

/-- The text that stands for a value: a text for itself, everything else as its literal. -/
def text : Json → String
  | string s => s
  | v => literal v

end Montage.Json
