import Montage.Json.Literal
import Montage.Timeline.Writer

/-!
# Merge fields

A placeholder is the name of a field between two delimiters. Every text of a timeline is read
once from left to right, and each placeholder is replaced by the text of its field; what was put
in is not read again. Where several placeholders begin at one place, the earlier pair of
delimiters is taken, and within one pair the longer name.
-/
namespace Montage

/-- Fields by name, in order. -/
abbrev Fields := List (String × Json)

/-- The pairs of delimiters, in order; there is at least one. -/
structure Delimiters where
  pairs : List (String × String)
  nonempty : pairs ≠ []

namespace Delimiters

def ofList (pairs : List (String × String)) : Except Fault Delimiters :=
  if h : pairs = [] then .error .noDelimiters else .ok ⟨pairs, h⟩

/-- The delimiters that are in use where none are given. -/
def standard : Delimiters where
  pairs := [("\x7b\x7b", "\x7d\x7d"), ("\x7b", "\x7d"), ("$\x7b", "\x7d"), ("[", "]"), ("%", "%")]
  nonempty := by simp

end Delimiters

namespace Merge

/-- A name between delimiters. -/
def placeholder (pair : String × String) (name : String) : String := pair.1 ++ name ++ pair.2

/-- The names that can be looked for, longer ones first. -/
def names (fields : Fields) : List String :=
  ((fields.map (·.1)).filter (!·.isEmpty)).mergeSort fun a b => b.length ≤ a.length

/-- All placeholders in the order in which they are tried. -/
def placeholders (ds : Delimiters) (fields : Fields) : List String :=
  ds.pairs.flatMap fun pair => (names fields).map (placeholder pair)

/-- The texts that stand for placeholders. Where two fields give the same placeholder, the first
one counts. -/
def replacements (ds : Delimiters) (fields : Fields) : List (String × String) :=
  fields.flatMap fun (name, value) => ds.pairs.map fun pair => (placeholder pair name, value.text)

/-- The placeholders in the order in which they are tried, each with its replacement. -/
def table (ds : Delimiters) (fields : Fields) : List (List Char × List Char) :=
  let texts := replacements ds fields
  (placeholders ds fields).map fun p =>
    (p.toList, (((texts.find? fun t => t.1 == p).map (·.2)).getD "").toList)

/-- One reading from left to right. -/
def scan (table : List (List Char × List Char)) : List Char → List Char
  | [] => []
  | c :: rest =>
    match table.find? fun entry => entry.1.isPrefixOf (c :: rest) with
    | some (found, text) => text ++ scan table (rest.drop (found.length - 1))
    | none => c :: scan table rest
termination_by cs => cs.length
decreasing_by all_goals simp; try omega

/-- A text with its placeholders replaced. -/
def substituteBy (table : List (List Char × List Char)) (s : String) : String :=
  String.ofList (scan table s.toList)

/-- A text with its placeholders replaced. -/
def substitute (ds : Delimiters) (fields : Fields) (s : String) : String :=
  substituteBy (table ds fields) s

mutual

/-- A document with `f` applied to each text in it that is not a name. -/
def mapTexts (f : String → String) : Json → Json
  | .string s => .string (f s)
  | .array items => .array (mapItems f items)
  | .object members => .object (mapMembers f members)
  | v => v

/-- The items of an array with `f` applied. -/
def mapItems (f : String → String) : List Json → List Json
  | [] => []
  | v :: vs => mapTexts f v :: mapItems f vs

/-- The members of an object with `f` applied. -/
def mapMembers (f : String → String) : List (String × Json) → List (String × Json)
  | [] => []
  | (name, v) :: ms => (name, mapTexts f v) :: mapMembers f ms

end

/-- A document with the placeholders in all its texts replaced. -/
def resolveData (ds : Delimiters) (fields : Fields) (v : Json) : Json :=
  mapTexts (substituteBy (table ds fields)) v

/-- A timeline with the placeholders in all its texts replaced. Without fields it stays as it
is; otherwise it is written and read again. -/
def resolve (ds : Delimiters) (fields : Fields) (canvas : Except (List Mismatch) Canvas)
    (t : Timeline) : Except (List Mismatch) Timeline :=
  if fields.isEmpty then .ok t
  else Timeline.ofJson canvas (resolveData ds fields (t.toJson .brief))

end Merge
end Montage
