import Montage.Number

/-!
# Documents

A decoded document. Objects keep the order of their members, and numbers keep whether they were
written whole; a member's name occurs once.
-/
namespace Montage

/-- A decoded document. -/
inductive Json where
  | null
  | bool (b : Bool)
  | number (n : Number)
  | string (s : String)
  | array (items : List Json)
  | object (members : List (String × Json))

namespace Json

instance : Inhabited Json := ⟨.null⟩

/-- A whole number as a document. -/
def int (n : Int) : Json := .number (.int n)

/-- A double as a document. -/
def float (x : Float) : Json := .number (.float x)

/-- A value or nothing. -/
def ofOption {α : Type} (f : α → Json) : Option α → Json
  | some a => f a
  | none => .null

/-- The value of a member. -/
def lookup (name : String) (members : List (String × Json)) : Option Json :=
  (members.find? fun m => m.1 == name).map (·.2)

/-- The member of an object. -/
def get? (name : String) : Json → Option Json
  | object members => lookup name members
  | _ => none

/-- Puts a member last, or in its old place if the name is there already. -/
def insert (name : String) (value : Json) : List (String × Json) → List (String × Json)
  | [] => [(name, value)]
  | m :: rest => if m.1 == name then (name, value) :: rest else m :: insert name value rest

/-- A member that was put in is found, and the others stay as they were. -/
theorem lookup_insert (name other : String) (value : Json) (ms : List (String × Json)) :
    lookup other (insert name value ms) = if name = other then some value else lookup other ms := by
  induction ms with
  | nil => by_cases h : name = other <;> simp [insert, lookup, h]
  | cons m rest ih =>
    simp only [lookup] at ih ⊢
    by_cases hm : m.1 = name
    · subst hm
      by_cases h : m.1 = other <;> simp [insert, h]
    · by_cases ho : m.1 = other
      · subst ho; simp [insert, hm, Ne.symm hm]
      · simp [insert, hm, ho, ih]

/-- Null, false, zero and the empty text, array and object count as absent. -/
def isTruthy : Json → Bool
  | null => false
  | bool b => b
  | number n => !n.isZero
  | string s => !s.isEmpty
  | array items => !items.isEmpty
  | object members => !members.isEmpty

/-- The number in a document, if it is one. A truth value is none. -/
def number? : Json → Option Number
  | number n => some n
  | _ => none

/-- The kind of a value, as messages name it. -/
def kind : Json → String
  | null => "NoneType"
  | bool _ => "bool"
  | number (.int _) => "int"
  | number (.float _) => "float"
  | string _ => "str"
  | array _ => "list"
  | object _ => "dict"

end Json
end Montage
