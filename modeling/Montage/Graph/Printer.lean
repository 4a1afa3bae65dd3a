import Montage.Graph
import Montage.Text.Blank

/-!
# Graphs as text

A graph is written as the encoder reads it: filters are separated by semicolons, a filter is
its input labels in brackets, its operation with options, and its output label. A text goes
through two levels of quoting. The filter's own reader takes a backslash, a quote and a colon
literally after a backslash; around that the graph's reader takes everything in single quotes
literally.
-/
namespace Montage.Graph

/-- The characters that a filter's reader gives a meaning to. -/
def isOptionSpecial (c : Char) : Bool := c == '\\' || c == '\'' || c == ':'

/-- The characters that the graph's reader may give a meaning to. -/
def isGraphSpecial (c : Char) : Bool :=
  isOptionSpecial c || [',', ';', '[', ']', '='].contains c || Text.isBlank c

/-- A backslash before each character that is special to a filter's reader. -/
def escapeOption (cs : List Char) : List Char :=
  cs.flatMap fun c => if isOptionSpecial c then ['\\', c] else [c]

/-- The inside of a text in single quotes: a quote ends them, stands alone after a backslash,
and opens them again. -/
def quoteInside (cs : List Char) : List Char :=
  cs.flatMap fun c => if c = '\'' then ['\'', '\\', '\'', '\''] else [c]

/-- A text in single quotes, if the graph's reader could find a meaning in it. -/
def quoteGraph (cs : List Char) : List Char :=
  if cs.any isGraphSpecial then '\'' :: quoteInside cs ++ ['\''] else cs

/-- The plain text of an option's value. -/
def plainText : OptionValue → String
  | .text s => s
  | .number n => n.text
  | .flag b => if b then "1" else "0"

/-- The value of an option as it is written in a graph. -/
def escape (v : OptionValue) : String :=
  String.ofList (quoteGraph (escapeOption (plainText v).toList))

/-- A label in brackets. -/
def bracket (label : String) : String := "[" ++ label ++ "]"

/-- The options of a filter, separated by colons. -/
def printOptions (options : List (String × OptionValue)) : String :=
  ":".intercalate (options.map fun o => o.1 ++ "=" ++ escape o.2)

/-- A filter with its labels. -/
def printFilter (f : Filter) : String :=
  let options := printOptions f.options
  String.join (f.inputs.map bracket) ++
    (if options.isEmpty then f.operation else f.operation ++ "=" ++ options) ++ bracket f.output

/-- All filters of a graph, separated by semicolons. -/
def print (g : Graph) : String := ";".intercalate (g.filters.map printFilter)

end Montage.Graph
