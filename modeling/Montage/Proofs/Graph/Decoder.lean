import Mathlib.Data.List.TakeWhile
import Montage.Graph.Printer

/-!
# Reading a graph back

The reader that the printer writes for, in its two levels. At the level of the graph a text in
single quotes is literal, a backslash makes the next character literal, and brackets, commas and
semicolons are marks. At the level of a filter's options a colon separates options, the first
equals sign of an option stands between its name and its value, and again a backslash makes the
next character literal. Both levels are one small machine (`lex`) with different marks.

`decode_print`: reading a printed graph gives back its filters, in order, with every value of an
option character for character. Values may hold anything; only names and labels must be free of
the characters with a meaning. The proof goes level by level: `lexes_quoteGraph` and
`lexes_escapeOption` say that each level's quoting is undone by that level's reader and leaks
nothing into what follows, and `readFilter_tokens` and `readOptions_print` take the marks apart.
-/
namespace Montage.Graph

/-! ## Tokens -/

/-- A character as a reader sees it: literal, or one of the marks of its level. -/
inductive Token where
  | plain (c : Char)
  | mark (c : Char)
deriving DecidableEq, Repr

namespace Token

def char : Token → Char
  | plain c => c
  | mark c => c

/-- A literal character; a mark is none. -/
def plain? : Token → Option Char
  | plain c => some c
  | mark _ => none

end Token

/-- What a level of reading gives a meaning to. -/
structure Level where
  marks : List Char
  /-- whether single quotes make a text literal -/
  quotes : Bool

def Level.graph : Level := ⟨['[', ']', ',', ';'], true⟩

def Level.option : Level := ⟨[':', '='], false⟩

@[simp] theorem Level.quotes_graph : Level.graph.quotes = true := rfl

@[simp] theorem Level.quotes_option : Level.option.quotes = false := rfl

/-- Where a reader is: in open text, in quoted text, or after a backslash. -/
inductive Mode where
  | open
  | quoted
  | escaped

/-- The tokens of a text. Quotes that are not closed and a backslash at the end are refused. -/
def lex (L : Level) : Mode → List Char → Option (List Token)
  | .open, [] => some []
  | .quoted, [] => none
  | .escaped, [] => none
  | .quoted, c :: cs => if c = '\'' then lex L .open cs else (lex L .quoted cs).map (.plain c :: ·)
  | .escaped, c :: cs => (lex L .open cs).map (.plain c :: ·)
  | .open, c :: cs =>
    if L.quotes ∧ c = '\'' then lex L .quoted cs
    else if c = '\\' then lex L .escaped cs
    else (lex L .open cs).map ((if c ∈ L.marks then .mark c else .plain c) :: ·)

/-! ## Reading -/

/-- A filter as it is read: labels, operation, options by name, and the label of its stream. -/
structure ReadFilter where
  inputs : List String
  operation : String
  options : List (String × String)
  output : String
deriving DecidableEq, Repr

/-- A text without marks. -/
def word (ts : List Token) : Option String := (ts.mapM Token.plain?).map String.ofList

/-- A name, an equals sign, and a value in which further equals signs mean nothing. -/
def readOption (ts : List Token) : Option (String × String) :=
  match ts.dropWhile (· ≠ .mark '=') with
  | [] => none
  | _ :: value => (word (ts.takeWhile (· ≠ .mark '='))).map
      (·, String.ofList (value.map Token.char))

/-- Options between colons. -/
def readOptions (cs : List Char) : Option (List (String × String)) := do
  let ts ← lex .option .open cs
  (ts.splitOn (.mark ':')).mapM readOption

/-- An operation, with its options after an equals sign if it has some. -/
def readBody (cs : List Char) : Option (String × List (String × String)) :=
  let operation := String.ofList (cs.takeWhile (· ≠ '='))
  match cs.dropWhile (· ≠ '=') with
  | [] => some (operation, [])
  | _ :: options => (readOptions options).map (operation, ·)

/-- Text and then a label that opens here. -/
def readLabel (ts : List Token) : Option (String × String) :=
  match ts.splitOn (.mark '[') with
  | [before, label] => do return (← word before, ← word label)
  | _ => none

/-- A label with nothing before it. -/
def readInput (ts : List Token) : Option String := do
  let (before, label) ← readLabel ts
  if before.isEmpty then some label else none

/-- A filter: input labels, a body and an output label; each label ends in a closing bracket, and
nothing follows the last. -/
def readFilter (ts : List Token) : Option ReadFilter :=
  match (ts.splitOn (.mark ']')).reverse with
  | [] :: last :: inputs => do
    let (body, output) ← readLabel last
    let (operation, options) ← readBody body.toList
    return ⟨← inputs.reverse.mapM readInput, operation, options, output⟩
  | _ => none

/-- The filters of a graph's text. -/
def decode (s : String) : Option (List ReadFilter) :=
  if s.isEmpty then some []
  else do
    let ts ← lex .graph .open s.toList
    (ts.splitOn (.mark ';')).mapM readFilter

/-- A filter as it should be read. -/
def readable (f : Filter) : ReadFilter where
  inputs := f.inputs
  operation := f.operation
  options := f.options.map fun o => (o.1, plainText o.2)
  output := f.output

/-! ## What the lexer does to a prefix -/

/-- Reading `cs` in open text gives `ts`, whatever follows. -/
def Lexes (L : Level) (cs : List Char) (ts : List Token) : Prop :=
  ∀ rest, lex L .open (cs ++ rest) = (lex L .open rest).map (ts ++ ·)

/-- A character without a meaning at its level. -/
def Literal (L : Level) (c : Char) : Prop := c ≠ '\\' ∧ c ≠ '\'' ∧ c ∉ L.marks

instance (L : Level) (c : Char) : Decidable (Literal L c) :=
  inferInstanceAs (Decidable (_ ∧ _ ∧ _))

namespace Lexes

variable {L : Level} {cs ds : List Char} {ts us : List Token}

theorem nil (L : Level) : Lexes L [] [] := by
  intro rest
  simp

theorem append (h : Lexes L cs ts) (h' : Lexes L ds us) : Lexes L (cs ++ ds) (ts ++ us) := by
  intro rest
  rw [List.append_assoc, h, h', Option.map_map]
  simp [Function.comp_def]

/-- A text that is read as a whole. -/
theorem lex_eq (h : Lexes L cs ts) : lex L .open cs = some ts := by
  have := h []
  simpa [lex] using this

theorem plain {c : Char} (h : Literal L c) : Lexes L [c] [.plain c] := by
  intro rest
  obtain ⟨hb, hq, hm⟩ := h
  simp [lex, hb, hq, hm]

theorem mark {c : Char} (hb : c ≠ '\\') (hq : c ≠ '\'') (hm : c ∈ L.marks) :
    Lexes L [c] [.mark c] := by
  intro rest
  simp [lex, hb, hq, hm]

theorem word (h : ∀ c ∈ cs, Literal L c) : Lexes L cs (cs.map .plain) := by
  induction cs with
  | nil => exact nil L
  | cons c cs ih =>
    exact (plain (h c List.mem_cons_self)).append (ih fun d hd => h d (List.mem_cons_of_mem _ hd))

/-- Texts with one character between them. -/
theorem intercalate {ι : Type} {c : Char} {t : Token} (hc : Lexes L [c] [t]) {f : ι → List Char}
    {g : ι → List Token} {xs : List ι} (h : ∀ x ∈ xs, Lexes L (f x) (g x)) :
    Lexes L ([c].intercalate (xs.map f)) ([t].intercalate (xs.map g)) := by
  induction xs with
  | nil => exact nil L
  | cons x xs ih =>
    have hx := h x List.mem_cons_self
    have hxs := ih fun y hy => h y (List.mem_cons_of_mem _ hy)
    cases xs with
    | nil => simpa using hx
    | cons y ys =>
      simp only [List.map_cons, List.intercalate_cons_cons] at hxs ⊢
      exact (hx.append hc).append hxs

/-- Texts one after another. -/
theorem flatMap {ι : Type} {f : ι → List Char} {g : ι → List Token} {xs : List ι}
    (h : ∀ x ∈ xs, Lexes L (f x) (g x)) : Lexes L (xs.flatMap f) (xs.flatMap g) := by
  induction xs with
  | nil => exact nil L
  | cons x xs ih =>
    exact (h x List.mem_cons_self).append (ih fun y hy => h y (List.mem_cons_of_mem _ hy))

end Lexes

/-! ## The two levels of quoting -/

/-- In quotes, each character comes out as it went in, and the closing quote ends them. -/
theorem lex_quoteInside (cs rest : List Char) :
    lex .graph .quoted (quoteInside cs ++ '\'' :: rest) =
      (lex .graph .open rest).map (cs.map Token.plain ++ ·) := by
  induction cs with
  | nil => simp [quoteInside, lex]
  | cons c cs ih =>
    unfold quoteInside at ih ⊢
    by_cases hc : c = '\''
    · subst hc
      -- the quote leaves the quoted text, stands after a backslash, and enters it again
      simp [lex, ih, Function.comp_def]
    · simp [lex, ih, hc, Function.comp_def]

theorem lexes_quoteGraph (cs : List Char) : Lexes .graph (quoteGraph cs) (cs.map .plain) := by
  unfold quoteGraph
  split
  · intro rest
    rw [List.append_assoc]
    simp only [List.cons_append, lex, Level.quotes_graph, and_self, ↓reduceIte]
    exact lex_quoteInside cs rest
  · rename_i hplain
    refine Lexes.word fun c hc => ?_
    have : isGraphSpecial c = false := by
      simp only [List.any_eq_true, not_exists, not_and, Bool.not_eq_true] at hplain
      exact hplain c hc
    simp only [isGraphSpecial, isOptionSpecial, Bool.or_eq_false_iff, beq_eq_false_iff_ne,
      List.contains_eq_mem, decide_eq_false_iff_not, List.mem_cons, List.not_mem_nil, or_false,
      not_or] at this
    obtain ⟨⟨⟨⟨hb, hq⟩, -⟩, hcomma, hsemi, hopen, hclose, -⟩, -⟩ := this
    exact ⟨hb, hq, by simp [Level.graph, hcomma, hsemi, hopen, hclose]⟩

/-- A character of a value, as the reader of options sees it. -/
def valueToken (c : Char) : Token := if c = '=' then .mark c else .plain c

theorem char_valueToken (c : Char) : (valueToken c).char = c := by
  unfold valueToken
  split <;> rfl

theorem lexes_escapeOption (cs : List Char) :
    Lexes .option (escapeOption cs) (cs.map valueToken) := by
  rw [List.map_eq_flatMap]
  refine Lexes.flatMap fun c _ rest => ?_
  by_cases hc : isOptionSpecial c
  · have : valueToken c = .plain c := by
      unfold valueToken
      split
      · rename_i h; subst h; cases hc
      · rfl
    simp [hc, lex, this]
  · simp only [isOptionSpecial, Bool.not_eq_true, Bool.or_eq_false_iff, beq_eq_false_iff_ne] at hc
    obtain ⟨⟨hb, hq⟩, hcolon⟩ := hc
    simp [lex, isOptionSpecial, hb, hq, hcolon, valueToken, Level.option]

/-! ## Names -/

/-- A character of a name: a letter or a digit of any script, or an underscore. All that is not
ASCII counts as one. -/
def isNameChar (c : Char) : Bool := c.isAlphanum || c == '_' || 128 ≤ c.toNat

/-- A text of such characters. -/
def IsName (s : String) : Prop := ∀ c ∈ s.toList, isNameChar c

/-- A text of such characters and colons. -/
def IsLabel (s : String) : Prop := ∀ c ∈ s.toList, isNameChar c ∨ c = ':'

/-- The operation and the options of a filter have names, and its streams labels. The values of
the options are free. -/
structure Named (f : Filter) : Prop where
  operation : IsName f.operation
  options : ∀ o ∈ f.options, IsName o.1
  inputs : ∀ l ∈ f.inputs, IsLabel l
  output : IsLabel f.output

instance (s : String) : Decidable (IsName s) :=
  List.decidableBAll (p := fun c => isNameChar c = true) s.toList

instance (s : String) : Decidable (IsLabel s) :=
  List.decidableBAll (p := fun c => isNameChar c = true ∨ c = ':') s.toList

instance (f : Filter) : Decidable (Named f) :=
  decidable_of_iff (IsName f.operation ∧ (∀ o ∈ f.options, IsName o.1) ∧
      (∀ l ∈ f.inputs, IsLabel l) ∧ IsLabel f.output)
    ⟨fun ⟨op, os, is, o⟩ => ⟨op, os, is, o⟩, fun ⟨op, os, is, o⟩ => ⟨op, os, is, o⟩⟩

theorem isNameChar_special {c : Char} (h : isNameChar c = true) :
    c ∉ ['\\', '\'', '[', ']', ',', ';', ':', '='] := by
  intro hc
  simp only [List.mem_cons, List.not_mem_nil, or_false] at hc
  rcases hc with rfl | rfl | rfl | rfl | rfl | rfl | rfl | rfl <;> cases h

theorem literal_graph_of_isNameChar {c : Char} (h : isNameChar c = true) : Literal .graph c := by
  have := isNameChar_special h
  simp only [List.mem_cons, List.not_mem_nil, or_false, not_or] at this
  obtain ⟨hb, hq, h1, h2, h3, h4, -, -⟩ := this
  exact ⟨hb, hq, by simp [Level.graph, h1, h2, h3, h4]⟩

theorem literal_option_of_isNameChar {c : Char} (h : isNameChar c = true) :
    Literal .option c := by
  have := isNameChar_special h
  simp only [List.mem_cons, List.not_mem_nil, or_false, not_or] at this
  obtain ⟨hb, hq, -, -, -, -, hcolon, hequals⟩ := this
  exact ⟨hb, hq, by simp [Level.option, hcolon, hequals]⟩

theorem IsLabel.literal {s : String} (h : IsLabel s) : ∀ c ∈ s.toList, Literal .graph c := by
  intro c hc
  rcases h c hc with h | rfl
  · exact literal_graph_of_isNameChar h
  · decide

/-! ## A filter's text as tokens -/

/-- An option as the reader of options is given it. -/
def optionChars (o : String × OptionValue) : List Char :=
  o.1.toList ++ '=' :: escapeOption (plainText o.2).toList

/-- What stands between the labels of a filter, as it is once the graph's reader has taken the
quotes away. -/
def bodyChars (f : Filter) : List Char :=
  f.operation.toList ++
    if f.options = [] then [] else '=' :: [':'].intercalate (f.options.map optionChars)

def labelTokens (l : String) : List Token :=
  .mark '[' :: l.toList.map .plain ++ [.mark ']']

def filterTokens (f : Filter) : List Token :=
  f.inputs.flatMap labelTokens ++ (bodyChars f).map .plain ++ labelTokens f.output

theorem lexes_bracket {l : String} (h : IsLabel l) :
    Lexes .graph (bracket l).toList (labelTokens l) := by
  have hopen : Lexes .graph ['['] [.mark '['] := Lexes.mark (by decide) (by decide) (by decide)
  have hclose : Lexes .graph [']'] [.mark ']'] := Lexes.mark (by decide) (by decide) (by decide)
  have := (hopen.append (Lexes.word h.literal)).append hclose
  simpa [bracket, labelTokens] using this

theorem lexes_option {o : String × OptionValue} (h : IsName o.1) :
    Lexes .graph (o.1 ++ "=" ++ escape o.2).toList ((optionChars o).map .plain) := by
  have name := Lexes.word fun c hc => literal_graph_of_isNameChar (h c hc)
  have equals : Lexes .graph ['='] [.plain '='] := Lexes.plain (by decide)
  have := (name.append equals).append (lexes_quoteGraph (escapeOption (plainText o.2).toList))
  simpa [optionChars, escape] using this

theorem printOptions_isEmpty (options : List (String × OptionValue)) :
    (printOptions options).isEmpty = decide (options = []) := by
  cases options with
  | nil => rfl
  | cons o os =>
    have : printOptions (o :: os) ≠ "" := by
      intro e
      have := congrArg String.toList e
      cases os <;> simp [printOptions] at this
    simpa using this

theorem map_intercalate {α β : Type} (f : α → β) (sep : List α) (xss : List (List α)) :
    (sep.intercalate xss).map f = (sep.map f).intercalate (xss.map (·.map f)) := by
  induction xss with
  | nil => rfl
  | cons xs xss ih => cases xss <;> simp_all

theorem lexes_printFilter {f : Filter} (h : Named f) :
    Lexes .graph (printFilter f).toList (filterTokens f) := by
  have operation := Lexes.word fun c hc => literal_graph_of_isNameChar (h.operation c hc)
  have body : Lexes .graph
      (if (printOptions f.options).isEmpty then f.operation
        else f.operation ++ "=" ++ printOptions f.options).toList
      ((bodyChars f).map .plain) := by
    rw [printOptions_isEmpty]
    by_cases hnone : f.options = []
    · simpa [bodyChars, hnone] using operation
    · have equals : Lexes .graph ['='] [.plain '='] := Lexes.plain (by decide)
      have colon : Lexes .graph [':'] [.plain ':'] := Lexes.plain (by decide)
      have options := Lexes.intercalate colon fun o ho => lexes_option (h.options o ho)
      have := (operation.append equals).append options
      simpa [bodyChars, hnone, printOptions, map_intercalate, Function.comp_def] using this
  have inputs : Lexes .graph (f.inputs.flatMap fun l => (bracket l).toList)
      (f.inputs.flatMap labelTokens) :=
    Lexes.flatMap fun l hl => lexes_bracket (h.inputs l hl)
  have := (inputs.append body).append (lexes_bracket h.output)
  simpa [printFilter, filterTokens, List.flatMap_map] using this

/-! ## Taking the marks apart -/

theorem mapM_map_eq_some {α β γ : Type} {f : β → Option γ} {g : α → β} {h : α → γ} {xs : List α}
    (H : ∀ x ∈ xs, f (g x) = some (h x)) : (xs.map g).mapM f = some (xs.map h) := by
  induction xs with
  | nil => rfl
  | cons x xs ih =>
    have hxs := ih fun y hy => H y (List.mem_cons_of_mem _ hy)
    simp [H x List.mem_cons_self, hxs]

theorem mark_not_mem_plain (c : Char) (cs : List Char) : Token.mark c ∉ cs.map Token.plain := by
  simp

theorem word_plain (cs : List Char) : word (cs.map .plain) = some (String.ofList cs) := by
  have : (cs.map Token.plain).mapM Token.plain? = some (cs.map id) :=
    mapM_map_eq_some fun _ _ => rfl
  rw [word, this, List.map_id]
  rfl

section

variable {α : Type} {p : α → Bool} {xs ys : List α} {y : α}

theorem takeWhile_append_cons (hxs : ∀ x ∈ xs, p x = true) (hy : p y = false) :
    (xs ++ y :: ys).takeWhile p = xs := by
  rw [List.takeWhile_append_of_pos hxs, List.takeWhile_cons_of_neg (by simp [hy]),
    List.append_nil]

theorem dropWhile_append_cons (hxs : ∀ x ∈ xs, p x = true) (hy : p y = false) :
    (xs ++ y :: ys).dropWhile p = y :: ys := by
  rw [List.dropWhile_append_of_pos hxs, List.dropWhile_cons_of_neg (by simp [hy])]

end

/-- An option as its reader sees it. -/
def optionTokens (o : String × OptionValue) : List Token :=
  o.1.toList.map .plain ++ .mark '=' :: (plainText o.2).toList.map valueToken

theorem readOption_tokens (o : String × OptionValue) :
    readOption (optionTokens o) = some (o.1, plainText o.2) := by
  have name : ∀ t ∈ o.1.toList.map Token.plain, decide (t ≠ .mark '=') = true := by simp
  unfold readOption optionTokens
  rw [takeWhile_append_cons name (by simp), dropWhile_append_cons name (by simp)]
  simp [word_plain, Function.comp_def, char_valueToken]

theorem colon_not_mem_optionTokens (o : String × OptionValue) :
    Token.mark ':' ∉ optionTokens o := by
  intro h
  rcases List.mem_append.1 h with h | h
  · exact mark_not_mem_plain _ _ h
  · rcases List.mem_cons.1 h with h | h
    · cases h
    · obtain ⟨c, -, e⟩ := List.mem_map.1 h
      unfold valueToken at e
      split at e
      · rename_i hc
        subst hc
        cases e
      · cases e

theorem lexes_optionChars {o : String × OptionValue} (h : IsName o.1) :
    Lexes .option (optionChars o) (optionTokens o) := by
  have name := Lexes.word fun c hc => literal_option_of_isNameChar (h c hc)
  have equals : Lexes .option ['='] [.mark '='] := Lexes.mark (by decide) (by decide) (by decide)
  have := (name.append equals).append (lexes_escapeOption (plainText o.2).toList)
  simpa [optionChars, optionTokens] using this

theorem readOptions_print {options : List (String × OptionValue)} (hne : options ≠ [])
    (h : ∀ o ∈ options, IsName o.1) :
    readOptions ([':'].intercalate (options.map optionChars)) =
      some (options.map fun o => (o.1, plainText o.2)) := by
  have colon : Lexes .option [':'] [.mark ':'] := Lexes.mark (by decide) (by decide) (by decide)
  have hlex := (Lexes.intercalate colon fun o ho => lexes_optionChars (h o ho)).lex_eq
  have hsplit : ([Token.mark ':'].intercalate (options.map optionTokens)).splitOn (.mark ':') =
      options.map optionTokens := by
    refine List.splitOn_intercalate _ ?_ (by simpa using hne)
    intro ts hts
    obtain ⟨o, -, rfl⟩ := List.mem_map.1 hts
    exact colon_not_mem_optionTokens o
  have hread : (options.map optionTokens).mapM readOption =
      some (options.map fun o => (o.1, plainText o.2)) :=
    mapM_map_eq_some fun o _ => readOption_tokens o
  simp only [readOptions, hlex, Option.bind_eq_bind, Option.bind_some, hsplit, hread]

theorem readBody_bodyChars {f : Filter} (h : Named f) :
    readBody (bodyChars f) = some (f.operation, f.options.map fun o => (o.1, plainText o.2)) := by
  have operation : ∀ c ∈ f.operation.toList, decide (c ≠ '=') = true := by
    intro c hc
    have := isNameChar_special (h.operation c hc)
    simp only [List.mem_cons, not_or] at this
    simpa using this.2.2.2.2.2.2.2.1
  unfold readBody bodyChars
  by_cases hnone : f.options = []
  · rw [if_pos hnone, List.append_nil, List.takeWhile_eq_self_iff.2 operation,
      List.dropWhile_eq_nil_iff.2 operation]
    simp [hnone]
  · rw [if_neg hnone, takeWhile_append_cons operation (by simp),
      dropWhile_append_cons operation (by simp)]
    simp [readOptions_print hnone h.options]

/-- A label and what stands before it, up to the bracket that closes the label. -/
def openTokens (before label : List Char) : List Token :=
  before.map .plain ++ .mark '[' :: label.map .plain

theorem readLabel_tokens (before label : List Char) :
    readLabel (openTokens before label) = some (String.ofList before, String.ofList label) := by
  have hsplit : (openTokens before label).splitOn (.mark '[') =
      [before.map .plain, label.map .plain] := by
    unfold openTokens
    rw [List.splitOn_append_cons_self_of_not_mem (mark_not_mem_plain _ _),
      List.splitOn_eq_singleton (mark_not_mem_plain _ _)]
  unfold readLabel
  rw [hsplit]
  simp [word_plain]

theorem readInput_tokens (l : String) : readInput (openTokens [] l.toList) = some l := by
  unfold readInput
  rw [readLabel_tokens]
  simp

/-- The text of a filter as what stands before each closing bracket. -/
theorem filterTokens_eq (f : Filter) :
    filterTokens f = [Token.mark ']'].intercalate
      (f.inputs.map (fun l => openTokens [] l.toList) ++
        [openTokens (bodyChars f) f.output.toList, []]) := by
  unfold filterTokens
  induction f.inputs with
  | nil => simp [openTokens, labelTokens]
  | cons l ls ih =>
    rw [List.map_cons, List.cons_append, List.intercalate_cons_of_ne_nil (by simp), ← ih]
    simp [openTokens, labelTokens]

theorem close_not_mem_openTokens (before label : List Char) :
    Token.mark ']' ∉ openTokens before label := by
  simp [openTokens]

theorem readFilter_tokens {f : Filter} (h : Named f) :
    readFilter (filterTokens f) = some (readable f) := by
  have hsplit : (filterTokens f).splitOn (.mark ']') =
      f.inputs.map (fun l => openTokens [] l.toList) ++
        [openTokens (bodyChars f) f.output.toList, []] := by
    rw [filterTokens_eq]
    refine List.splitOn_intercalate _ ?_ (by simp)
    intro ts hts
    simp only [List.mem_append, List.mem_map, List.mem_cons, List.not_mem_nil, or_false] at hts
    rcases hts with ⟨l, -, rfl⟩ | rfl | rfl
    · exact close_not_mem_openTokens _ _
    · exact close_not_mem_openTokens _ _
    · simp
  have hinputs : (f.inputs.map fun l => openTokens [] l.toList).mapM readInput =
      some (f.inputs.map id) :=
    mapM_map_eq_some fun l _ => readInput_tokens l
  unfold readFilter
  rw [hsplit, List.reverse_append]
  simp only [List.reverse_cons, List.reverse_nil, List.nil_append, List.cons_append,
    List.reverse_reverse]
  rw [readLabel_tokens, hinputs]
  simp [readBody_bodyChars h, readable]

/-! ## The whole graph -/

theorem semicolon_not_mem_filterTokens (f : Filter) : Token.mark ';' ∉ filterTokens f := by
  simp [filterTokens, labelTokens]

theorem print_ne_empty {g : Graph} (h : g.filters ≠ []) : print g ≠ "" := by
  intro e
  obtain ⟨f, fs, hf⟩ := List.exists_cons_of_ne_nil h
  have := congrArg String.toList e
  -- the brackets of the first filter's label are there in any case
  cases fs <;> simp [print, hf, printFilter, bracket] at this

/-- **Round trip.** A printed graph is read back filter by filter, in the order in which the nodes
are flattened: the labels, the operation, and each option with its name and the plain text of its
value, whatever characters that text is made of. -/
theorem decode_print {g : Graph} (h : ∀ f ∈ g.filters, Named f) :
    decode (print g) = some (g.filters.map readable) := by
  by_cases hnone : g.filters = []
  · have : print g = "" := by simp [print, hnone]
    simp [decode, this, hnone]
  have semicolon : Lexes .graph [';'] [.mark ';'] := Lexes.mark (by decide) (by decide) (by decide)
  have hlex := (Lexes.intercalate semicolon fun f hf => lexes_printFilter (h f hf)).lex_eq
  have hsplit : ([Token.mark ';'].intercalate (g.filters.map filterTokens)).splitOn (.mark ';') =
      g.filters.map filterTokens := by
    refine List.splitOn_intercalate _ ?_ (by simpa using hnone)
    intro ts hts
    obtain ⟨f, -, rfl⟩ := List.mem_map.1 hts
    exact semicolon_not_mem_filterTokens f
  have hread := mapM_map_eq_some fun f hf => readFilter_tokens (h f hf)
  have hprint : (print g).toList =
      [';'].intercalate (g.filters.map fun f => (printFilter f).toList) := by
    simp [print, Function.comp_def]
  have hempty : (print g).isEmpty = false := by simpa using print_ne_empty hnone
  unfold decode
  simp only [hempty, Bool.false_eq_true, ↓reduceIte, hprint, hlex, Option.bind_eq_bind,
    Option.bind_some, hsplit, hread]

/-- A caption under a fade that a second fade prepares, with all kinds of values: quotes,
backslashes, marks of both levels, a line break, a number and a flag. -/
def captioned : Graph :=
  [.mk ⟨"drawtext", [("text", .text "it's [0:v]; a\\b,\n'=\\''"), ("reload", .flag true)],
      ["fade_1"], "final", .video, none⟩
    [.mk ⟨"fade", [("st", .int (-3)), ("alpha", .flag false)], ["fade_0"], "fade_1", .video, none⟩
      [.single ⟨"fade", [], ["0:v"], "fade_0", .video, none⟩]]]

theorem decode_print_captioned :
    (∀ f ∈ captioned.filters, Named f) ∧
      decode (print captioned) = some (captioned.filters.map readable) := by
  have named : ∀ f ∈ captioned.filters, Named f := by decide
  exact ⟨named, decode_print named⟩

end Montage.Graph
