import Montage.Output
import Montage.Text.Digit

/-!
# Command line arguments

A command line is a command word with its arguments, and options before and after it. An option
may be cut short as long as it stays unique, its value may be attached to it with an equals
sign, and after `--` nothing is an option any more.
-/
namespace Montage.Cli

/-- What an option does. -/
inductive OptionKind where
  | help
  /-- is on when it is given -/
  | switch
  /-- takes a value, one of several if there are choices -/
  | value (choices : List String)
deriving DecidableEq, Repr

/-- An option under its spellings. -/
structure OptionSpec where
  name : String
  spellings : List String
  kind : OptionKind
deriving DecidableEq, Repr

/-- What is attached to an option in the same argument: after an equals sign, or directly. -/
inductive Attached where
  | nothing
  | value (s : String)
  | letters (s : String)
deriving DecidableEq, Repr

/-- How an argument is taken. -/
inductive Word where
  /-- not an option -/
  | plain
  /-- the mark after which nothing is an option -/
  | dashes
  /-- an option that looks like one but is unknown -/
  | unknown
  /-- an option, and what is attached to it -/
  | option (spec : OptionSpec) (attached : Attached)

/-- The code with which the program ends without doing anything: zero after help was asked for,
two after a mistake. -/
abbrev UsageExit := Nat

def mistake : UsageExit := 2
def helped : UsageExit := 0

/-- Cuts a text at the first equals sign. -/
def cutEquals? (s : String) : Option (String × String) :=
  match s.splitOn "=" with
  | name :: value :: rest => some (name, "=".intercalate (value :: rest))
  | _ => none

/-- All spellings with their options. -/
def spellings (specs : List OptionSpec) : List (String × OptionSpec) :=
  specs.flatMap fun o => o.spellings.map fun s => (s, o)

/-- The option of a spelling. -/
def bySpelling? (specs : List OptionSpec) (s : String) : Option OptionSpec :=
  ((spellings specs).find? fun o => o.1 == s).map (·.2)

/-- The options that an argument may stand for: those it is a front part of, and those of one
letter that it begins with. -/
def matching (specs : List OptionSpec) (s : String) : List Word :=
  if "--".toList.isPrefixOf s.toList then
    let (name, attached) := match cutEquals? s with
      | some (n, v) => (n, Attached.value v)
      | none => (s, Attached.nothing)
    (spellings specs).filterMap fun (spelling, o) =>
      if name.toList.isPrefixOf spelling.toList then some (.option o attached) else none
  else
    let letter := String.ofList (s.toList.take 2)
    let rest := String.ofList (s.toList.drop 2)
    (spellings specs).filterMap fun (spelling, o) =>
      if spelling == letter then some (.option o (.letters rest))
      else if s.toList.isPrefixOf spelling.toList then some (.option o .nothing)
      else none

/-- Whether a text writes a negative number. -/
def isNegativeNumber (s : String) : Bool :=
  match s.toList with
  | '-' :: rest =>
    let whole := rest.takeWhile Text.isDigit
    match rest.drop whole.length with
    | [] => !whole.isEmpty
    | '.' :: places => !places.isEmpty && places.all Text.isDigit
    | _ => false
  | _ => false

/-- How an argument is taken. One that could stand for several options is a mistake. -/
def classify (specs : List OptionSpec) (s : String) : Except UsageExit Word :=
  if !"-".toList.isPrefixOf s.toList then .ok .plain
  else match bySpelling? specs s with
  | some o => .ok (.option o .nothing)
  | none =>
    if s.length = 1 then .ok .plain
    else match (cutEquals? s).bind fun (n, v) => (bySpelling? specs n).map fun o => (o, v) with
    | some (o, v) => .ok (.option o (.value v))
    | none => match matching specs s with
      | [w] => .ok w
      | _ :: _ => .error mistake
      | [] => .ok (if isNegativeNumber s || s.toList.contains ' ' then .plain else .unknown)

/-- How the arguments of a command line are taken. -/
def classifyAll (specs : List OptionSpec) : List String → Except UsageExit (List (Word × String))
  | [] => .ok []
  | s :: rest =>
    if s = "--" then .ok ((.dashes, s) :: rest.map fun r => (.plain, r))
    else do
      let w ← classify specs s
      let ws ← classifyAll specs rest
      return (w, s) :: ws

/-- What has been given so far. -/
structure Given where
  values : List (String × String) := []
  /-- the argument that is not an option -/
  operand : Option String := none
  /-- whether there was something that has no place -/
  strays : Bool := false

/-- The value of an option, the last one if it was given more than once. -/
def Given.value? (g : Given) (name : String) : Option String :=
  (g.values.find? fun v => v.1 == name).map (·.2)

/-- Gives an option a value that must be among its choices. -/
def setValue (g : Given) (o : OptionSpec) (choices : List String) (v : String) :
    Except UsageExit Given :=
  if choices.isEmpty || choices.contains v then .ok { g with values := (o.name, v) :: g.values }
  else .error mistake

/-- Does what options ask for that take no value. -/
def switchOn (g : Given) (os : List OptionSpec) : Except UsageExit Given :=
  if os.any (·.kind == .help) then .error helped
  else .ok { g with values := os.map (fun o => (o.name, "")) ++ g.values }

/-- Options of one letter in one argument, the first of which has been read. From the first
letter on that is no option, the argument is a stray. -/
def letters (specs : List OptionSpec) (done : List OptionSpec) :
    List Char → Except UsageExit (List OptionSpec × Bool)
  | [] => .ok (done, false)
  | c :: rest =>
    if c = '-' || c = '=' then .error mistake
    else match bySpelling? specs (String.ofList ['-', c]) with
      | none => .ok (done, true)
      | some o => letters specs (done ++ [o]) rest

/-- Takes one option, with what is attached to it or with the argument after it. Gives the
arguments that are left. -/
def takeOption (specs : List OptionSpec) (g : Given) (o : OptionSpec) (attached : Attached)
    (rest : List (Word × String)) : Except UsageExit (Given × List (Word × String)) :=
  match o.kind, attached, rest with
  | .value choices, .nothing, (.plain, v) :: rest => do
    let g ← setValue g o choices v
    return (g, rest)
  | .value _, .nothing, _ => .error mistake
  | .value choices, .value v, rest => do
    let g ← setValue g o choices v
    return (g, rest)
  | .value choices, .letters v, rest => do
    let g ← setValue g o choices v
    return (g, rest)
  | _, .nothing, rest => do
    let g ← switchOn g [o]
    return (g, rest)
  | _, .value _, _ => .error mistake
  | _, .letters s, rest => do
    let (os, stray) ← letters specs [o] s.toList
    let g ← switchOn g os
    return ({ g with strays := g.strays || stray }, rest)

/-- Takes the arguments of a command: options, and one operand. -/
def takeAll (specs : List OptionSpec) : Nat → Given → List (Word × String) →
    Except UsageExit Given
  | 0, g, _ => .ok g
  | _, g, [] => .ok g
  | n + 1, g, (w, s) :: rest =>
    match w with
    | .option o attached => do
      let (g, rest) ← takeOption specs g o attached rest
      takeAll specs n g rest
    | .unknown => takeAll specs n { g with strays := true } rest
    | .dashes =>
      match g.operand, rest with
      | none, (_, operand) :: rest => takeAll specs n { g with operand := some operand } rest
      | _, _ => takeAll specs n { g with strays := true } rest
    | .plain =>
      match g.operand, rest with
      | none, (.dashes, _) :: rest => takeAll specs n { g with operand := some s } rest
      | none, rest => takeAll specs n { g with operand := some s } rest
      | some _, _ => takeAll specs n { g with strays := true } rest

/-- The option that asks for help. -/
def helpOption : OptionSpec := ⟨"help", ["-h", "--help"], .help⟩

/-- The options before the command word. -/
def mainOptions : List OptionSpec := [helpOption, ⟨"verbose", ["-v", "--verbose"], .switch⟩]

/-- The options of the commands that produce something. -/
def makeOptions : List OptionSpec := [
  helpOption,
  ⟨"fields", ["--fields"], .value []⟩,
  ⟨"format", ["--format"], .value (Container.words.map (·.1))⟩,
  ⟨"quality", ["--quality"], .value (Quality.words.map (·.1))⟩,
  ⟨"assets-dir", ["--assets-dir"], .value []⟩,
  ⟨"output-dir", ["--output-dir"], .value []⟩]

/-- What the program is asked to do. -/
inductive Verb where
  | validate
  | compile
  | render
deriving DecidableEq, Repr

/-- The commands with their options. -/
def verbs : List (String × Verb × List OptionSpec) := [
  ("validate", .validate, [helpOption]), ("compile", .compile, makeOptions),
  ("render", .render, makeOptions)]

/-- A command line that makes sense. -/
structure Order where
  verb : Verb
  verbose : Bool
  timeline : String
  fields : Option String
  output : OutputOptions
  assetsDir : Option String
  outputDir : Option String

/-- The value of a word in a list. -/
def wordValue {α : Type} (words : List (String × α)) (word : Option String) (standard : α) : α :=
  ((word.bind fun s => words.find? fun w => w.1 == s).map (·.2)).getD standard

/-- The arguments after a command word. -/
def takeCommand (verbose : Bool) (verb : Verb) (specs : List OptionSpec) (args : List String) :
    Except UsageExit (Order × Bool) := do
  let words ← classifyAll specs args
  let g ← takeAll specs words.length {} words
  match g.operand with
  | none => throw mistake
  | some timeline =>
    let output : OutputOptions :=
      ⟨wordValue Container.words (g.value? "format") .mp4,
        wordValue Quality.words (g.value? "quality") .high⟩
    return (⟨verb, verbose, timeline, g.value? "fields", output, g.value? "assets-dir",
      g.value? "output-dir"⟩, g.strays)

/-- The options before the command word, then the command. -/
def takeMain : Given → List (Word × String) → Except UsageExit (Order × Bool)
  | _, [] => .error mistake
  | g, (w, s) :: rest =>
    match w with
    | .plain =>
      match verbs.find? fun v => v.1 == s with
      | some (_, verb, specs) => do
        let (order, strays) ← takeCommand (g.value? "verbose").isSome verb specs (rest.map (·.2))
        return (order, strays || g.strays)
      | none => .error mistake
    | .dashes => .error mistake
    | .unknown => takeMain { g with strays := true } rest
    | .option o attached =>
      match takeOption mainOptions g o attached [] with
      | .ok (g, _) => takeMain g rest
      | .error e => .error e

/-- What a command line asks for. -/
def Order.ofArguments (args : List String) : Except UsageExit Order := do
  let words ← classifyAll mainOptions args
  let (order, strays) ← takeMain {} words
  if strays then throw mistake
  return order

end Montage.Cli
