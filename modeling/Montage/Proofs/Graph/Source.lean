import Montage.Proofs.Graph.Decoder

/-!
# Filters without quoting

An input can be a filter of its own, with no stream before or after it. `readSource` reads its
description with the two levels of a graph, and `splice` puts one together from texts as they are.

`readSource_splice_iff`: what was put together is what is read exactly if no value holds a reserved
character, that is one of those that either level gives a meaning to. Without them there is nothing
to quote, so the description is the printed one. Conversely, a reader only leaves characters out
(`lex_sublist`). One that gives back all that was put in has left out none, so it met neither a
backslash nor a quote, and all marks were marks to it (`lex_faithful`).
-/
namespace Montage.Graph

/-- The operation and the options of a text that is one filter and no graph. -/
def readSource (s : String) : Option (String × List (String × String)) := do
  let ts ← lex .graph .open s.toList
  readBody (← word ts).toList

/-- An operation with options, each value as it is. -/
def splice (operation : String) (options : List (String × String)) : String :=
  operation ++ "=" ++ ":".intercalate (options.map fun o => o.1 ++ "=" ++ o.2)

/-- The characters with a meaning, other than the equals sign, which is one only before a value. -/
def reserved : List Char := ['\\', '\'', ':', ',', ';', '[', ']']

/-- A text without reserved characters. -/
def Free (s : String) : Prop := ∀ c ∈ s.toList, c ∉ reserved

instance (s : String) : Decidable (Free s) :=
  List.decidableBAll (p := fun c => c ∉ reserved) s.toList

theorem Free.append {s t : String} (hs : Free s) (ht : Free t) : Free (s ++ t) := by
  intro c hc
  rw [String.toList_append, List.mem_append] at hc
  exact hc.elim (hs c) (ht c)

/-- An option as it is. -/
def spliceChars (o : String × String) : List Char := o.1.toList ++ '=' :: o.2.toList

theorem toList_splice (operation : String) (options : List (String × String)) :
    (splice operation options).toList =
      operation.toList ++ '=' :: [':'].intercalate (options.map spliceChars) := by
  simp [splice, Function.comp_def]
  rfl

/-! ## Values without reserved characters -/

/-- The filter that has the options as texts. -/
def sourceFilter (operation : String) (options : List (String × String)) : Filter where
  operation := operation
  options := options.map fun o => (o.1, .text o.2)
  inputs := []
  output := ""
  media := .video
  ref := none

theorem escapeOption_of_free {s : String} (h : Free s) : escapeOption s.toList = s.toList := by
  have same : s.toList.map (fun c => if isOptionSpecial c then ['\\', c] else [c]) =
      s.toList.map ([·]) := List.map_congr_left fun c hc => by
    have := h c hc
    simp only [reserved, List.mem_cons, not_or] at this
    simp [isOptionSpecial, this]
  rw [escapeOption, List.flatMap_def, same, ← List.flatMap_def, List.flatMap_singleton']

theorem bodyChars_sourceFilter {operation : String} {options : List (String × String)}
    (hne : options ≠ []) (free : ∀ o ∈ options, Free o.2) :
    bodyChars (sourceFilter operation options) = (splice operation options).toList := by
  have same : options.map (optionChars ∘ fun o => (o.1, .text o.2)) = options.map spliceChars :=
    List.map_congr_left fun o ho => by
      simp [optionChars, spliceChars, plainText, escapeOption_of_free (free o ho)]
  rw [bodyChars, toList_splice, sourceFilter, if_neg (by simpa using hne), List.map_map, same]

theorem mem_intercalate {α : Type} {x y : α} {xss : List (List α)}
    (h : x ∈ [y].intercalate xss) : x = y ∨ ∃ xs ∈ xss, x ∈ xs := by
  induction xss with
  | nil => simp at h
  | cons xs xss ih =>
    cases xss with
    | nil => exact .inr ⟨xs, List.mem_cons_self, by simpa using h⟩
    | cons ys xss =>
      rw [List.intercalate_cons_cons, List.mem_append, List.mem_append, List.mem_singleton] at h
      rcases h with (own | sep) | later
      · exact .inr ⟨xs, List.mem_cons_self, own⟩
      · exact .inl sep
      · rcases ih later with sep | ⟨zs, hz, hx⟩
        · exact .inl sep
        · exact .inr ⟨zs, List.mem_cons_of_mem _ hz, hx⟩

section

variable {operation : String} {options : List (String × String)}

theorem literal_splice (named : IsName operation) (names : ∀ o ∈ options, IsName o.1)
    (free : ∀ o ∈ options, Free o.2) :
    ∀ c ∈ (splice operation options).toList, Literal .graph c := by
  intro c hc
  rw [toList_splice, List.mem_append, List.mem_cons] at hc
  rcases hc with name | rfl | rest
  · exact literal_graph_of_isNameChar (named c name)
  · decide
  · rcases mem_intercalate rest with rfl | ⟨cs, hcs, hc⟩
    · decide
    · obtain ⟨o, ho, rfl⟩ := List.mem_map.1 hcs
      rw [spliceChars, List.mem_append, List.mem_cons] at hc
      rcases hc with name | rfl | value
      · exact literal_graph_of_isNameChar (names o ho c name)
      · decide
      · have := free o ho c value
        simp only [reserved, List.mem_cons, not_or] at this
        simp [Literal, Level.graph, this]

theorem readSource_splice (hne : options ≠ []) (named : IsName operation)
    (names : ∀ o ∈ options, IsName o.1) (free : ∀ o ∈ options, Free o.2) :
    readSource (splice operation options) = some (operation, options) := by
  have lexed := (Lexes.word (literal_splice named names free)).lex_eq
  have read := readBody_bodyChars (f := sourceFilter operation options) {
    operation := named
    options := List.forall_mem_map.2 names
    inputs := by simp [sourceFilter]
    output := by simp [sourceFilter, IsLabel] }
  rw [bodyChars_sourceFilter hne free] at read
  simp only [readSource, lexed, Option.bind_eq_bind, Option.bind_some, word_plain,
    String.toList_ofList, read]
  simp [sourceFilter, plainText, Function.comp_def]

end

/-! ## What a reader leaves out -/

/-- A character in open text that is no backslash and no quote. -/
def Level.token (L : Level) (c : Char) : Token := if c ∈ L.marks then .mark c else .plain c

theorem Level.char_token (L : Level) (c : Char) : (L.token c).char = c := by
  unfold Level.token
  split <;> rfl

/-- A reader leaves characters out and adds none. -/
theorem lex_sublist {L : Level} {m : Mode} {cs : List Char} {ts : List Token}
    (h : lex L m cs = some ts) : (ts.map Token.char).Sublist cs := by
  have kept {c : Char} {cs : List Char} {t : Token} (own : t.char = c)
      {m : Mode} (ih : ∀ {ts}, lex L m cs = some ts → (ts.map Token.char).Sublist cs)
      {ts : List Token} (h : (lex L m cs).map (t :: ·) = some ts) :
      (ts.map Token.char).Sublist (c :: cs) := by
    obtain ⟨us, hus, rfl⟩ := Option.map_eq_some_iff.1 h
    rw [List.map_cons, own]
    exact (ih hus).cons_cons c
  fun_induction lex L m cs generalizing ts with
  | case1 => cases h; exact .slnil
  | case2 => cases h
  | case3 => cases h
  | case4 cs ih => exact (ih h).cons _
  | case5 c cs _ ih => exact kept rfl ih h
  | case6 c cs ih => exact kept rfl ih h
  | case7 c cs _ ih => exact (ih h).cons _
  | case8 cs _ ih => exact (ih h).cons _
  | case9 c cs _ _ ih => exact kept (by split <;> rfl) ih h

/-- A reader that leaves nothing out has met no backslash and no quote, and all marks are marks. -/
theorem lex_faithful {L : Level} {cs : List Char} {ts : List Token}
    (h : lex L .open cs = some ts) (same : ts.map Token.char = cs) :
    ts = cs.map L.token ∧ '\\' ∉ cs ∧ (L.quotes = true → '\'' ∉ cs) := by
  induction cs generalizing ts with
  | nil => cases h; simp
  | cons c cs ih =>
    -- a character that is left out is one too many
    have shorter {m : Mode} (h : lex L m cs = some ts) : False := by
      have := (lex_sublist h).length_le
      rw [same, List.length_cons] at this
      omega
    rw [lex] at h
    split at h
    · exact (shorter h).elim
    split at h
    · exact (shorter h).elim
    obtain ⟨us, hus, rfl⟩ := Option.map_eq_some_iff.1 h
    obtain ⟨-, rest⟩ := List.cons.inj same
    obtain ⟨rfl, noBackslash, noQuote⟩ := ih hus rest
    rename_i quote backslash
    refine ⟨rfl, by simp [noBackslash, Ne.symm backslash], fun quotes => ?_⟩
    have : c ≠ '\'' := fun e => quote ⟨quotes, e⟩
    simp [noQuote quotes, Ne.symm this]

/-! ## What was read -/

/-- What is true of each element that was read is true of the lists. -/
theorem map_eq_map_of_mapM {α β γ : Type} {f : α → Option β} {g : α → γ} {k : β → γ}
    (H : ∀ {x y}, f x = some y → g x = k y) {xs : List α} {ys : List β}
    (h : xs.mapM f = some ys) : xs.map g = ys.map k := by
  induction xs generalizing ys with
  | nil => cases h; rfl
  | cons x xs ih =>
    simp only [List.mapM_cons, Option.bind_eq_bind, Option.bind_eq_some_iff] at h
    obtain ⟨y, hy, ys, hys, h⟩ := h
    cases h
    rw [List.map_cons, List.map_cons, H hy, ih hys]

/-- A list around the first place where it has an element. -/
theorem eq_append_of_dropWhile {α : Type} [DecidableEq α] {a b : α} {xs ys : List α}
    (h : xs.dropWhile (· ≠ a) = b :: ys) : xs = xs.takeWhile (· ≠ a) ++ a :: ys := by
  have first := List.head?_dropWhile_not (· ≠ a) xs
  rw [h, List.head?_cons] at first
  have same : b = a := by simpa using first
  have whole := List.takeWhile_append_dropWhile (p := (· ≠ a)) (l := xs)
  rw [h, same] at whole
  exact whole.symm

/-- A text without marks is made of plain characters. -/
theorem of_word {ts : List Token} {s : String} (h : word ts = some s) :
    ts = s.toList.map .plain := by
  obtain ⟨cs, hcs, rfl⟩ := Option.map_eq_some_iff.1 h
  have plain {t : Token} {c : Char} (h : t.plain? = some c) : id t = .plain c := by
    cases t <;> cases h
    rfl
  simpa using map_eq_map_of_mapM plain hcs

/-- The characters of an option, marks or not. -/
theorem readOption_chars {ts : List Token} {o : String × String} (h : readOption ts = some o) :
    ts.map Token.char = spliceChars o := by
  unfold readOption at h
  split at h
  · cases h
  · rename_i mark value split
    obtain ⟨name, hname, rfl⟩ := Option.map_eq_some_iff.1 h
    rw [eq_append_of_dropWhile split, of_word hname]
    simp [spliceChars, Token.char, Function.comp_def]

/-- A part between separators holds no separator, and nothing that was not there before. -/
theorem of_mem_splitOn {α : Type} [BEq α] [LawfulBEq α] {a : α} {xs ys : List α}
    (h : ys ∈ xs.splitOn a) : a ∉ ys ∧ ys ⊆ xs := by
  induction xs generalizing ys with
  | nil =>
    rw [List.splitOn_nil, List.mem_singleton] at h
    subst h
    exact ⟨List.not_mem_nil, List.Subset.refl _⟩
  | cons x xs ih =>
    have later {zs : List α} (h : zs ∈ xs.splitOn a) : a ∉ zs ∧ zs ⊆ x :: xs :=
      ⟨(ih h).1, List.subset_cons_of_subset _ (ih h).2⟩
    rw [List.splitOn_cons_eq_if_modifyHead] at h
    split at h
    · rcases List.mem_cons.1 h with rfl | h
      · exact ⟨List.not_mem_nil, List.nil_subset _⟩
      · exact later h
    · rename_i other
      obtain ⟨first, rest, parts⟩ := List.exists_cons_of_ne_nil (List.splitOn_ne_nil a xs)
      rw [parts] at ih later
      rw [parts, List.modifyHead_cons, List.mem_cons] at h
      rcases h with rfl | h
      · obtain ⟨free, within⟩ := ih List.mem_cons_self
        have : a ≠ x := fun e => other (beq_iff_eq.2 e.symm)
        exact ⟨by simp [this, free], List.cons_subset_cons _ within⟩
      · exact later (List.mem_cons_of_mem _ h)

/-- What was read as options, and that no colon stood in one as a mark. -/
theorem of_readOptions {cs : List Char} {options : List (String × String)}
    (h : readOptions cs = some options) :
    ∃ us, lex .option .open cs = some us ∧
      us.map Token.char = [':'].intercalate (options.map spliceChars) ∧
      ∀ o ∈ options, ∃ ts, .mark ':' ∉ ts ∧ ts ⊆ us ∧ ts.map Token.char = spliceChars o := by
  simp only [readOptions, Option.bind_eq_bind, Option.bind_eq_some_iff] at h
  obtain ⟨us, lexed, read⟩ := h
  refine ⟨us, lexed, ?_, fun o ho => ?_⟩
  · have whole : ([Token.mark ':'].intercalate (us.splitOn (.mark ':'))).map Token.char =
        us.map Token.char := by rw [List.intercalate_splitOn]
    rw [map_intercalate, map_eq_map_of_mapM readOption_chars read] at whole
    exact whole.symm
  · have all := map_eq_map_of_mapM (g := readOption) (k := some) (fun h => h) read
    obtain ⟨ts, mem, hts⟩ := List.mem_map.1 (all ▸ List.mem_map_of_mem ho)
    obtain ⟨free, within⟩ := of_mem_splitOn mem
    exact ⟨ts, free, within, readOption_chars hts⟩

theorem of_readBody {cs : List Char} {operation : String} {options : List (String × String)}
    (hne : options ≠ []) (h : readBody cs = some (operation, options)) :
    ∃ rest, cs = operation.toList ++ '=' :: rest ∧ readOptions rest = some options := by
  simp only [readBody] at h
  split at h
  · cases h
    exact absurd rfl hne
  · rename_i rest split
    obtain ⟨options', read, same⟩ := Option.map_eq_some_iff.1 h
    cases same
    exact ⟨rest, by rw [String.toList_ofList]; exact eq_append_of_dropWhile split, read⟩

/-- What is read back as it was put together holds no reserved characters in its values. -/
theorem free_of_readSource {operation : String} {options : List (String × String)}
    (hne : options ≠ [])
    (h : readSource (splice operation options) = some (operation, options)) :
    ∀ o ∈ options, Free o.2 := by
  simp only [readSource, Option.bind_eq_bind, Option.bind_eq_some_iff] at h
  obtain ⟨ts, lexed, body, worded, read⟩ := h
  obtain ⟨rest, bodyText, readRest⟩ := of_readBody hne read
  obtain ⟨us, lexedRest, usText, parts⟩ := of_readOptions readRest
  have plain := of_word worded
  have tsText : ts.map Token.char = body.toList := by simp [plain, Function.comp_def, Token.char]
  -- both readers left out nothing, as all of the text came out
  have outer := lex_sublist lexed
  have inner := lex_sublist lexedRest
  have restText : us.map Token.char = rest := inner.eq_of_length_le (by
    have := outer.length_le
    rw [tsText, bodyText, toList_splice, ← usText] at this
    simp only [List.length_append, List.length_cons] at this
    omega)
  have text : (splice operation options).toList = operation.toList ++ '=' :: rest := by
    rw [toList_splice, ← usText, restText]
  obtain ⟨asMarks, noBackslash, noQuote⟩ := lex_faithful lexed (by rw [tsText, bodyText, text])
  obtain ⟨asColons, -, -⟩ := lex_faithful lexedRest restText
  intro o ho c hc
  obtain ⟨part, noColon, within, partText⟩ := parts o ho
  obtain ⟨t, ht, rfl⟩ : ∃ t ∈ part, t.char = c := by
    rw [← List.mem_map, partText, spliceChars]
    exact List.mem_append_right _ (List.mem_cons_of_mem _ hc)
  obtain ⟨c, mem, rfl⟩ := List.mem_map.1 (asColons ▸ within ht)
  rw [Level.char_token]
  have inText : c ∈ (splice operation options).toList := by
    rw [text]
    exact List.mem_append_right _ (List.mem_cons_of_mem _ mem)
  have colon : c ≠ ':' := by
    rintro rfl
    exact noColon ht
  have backslash : c ≠ '\\' := by
    rintro rfl
    exact noBackslash inText
  have quote : c ≠ '\'' := by
    rintro rfl
    exact noQuote rfl inText
  have unmarked : c ∉ Level.graph.marks := by
    intro mark
    have isMark : Level.graph.token c = .mark c := if_pos mark
    have := asMarks ▸ List.mem_map_of_mem (f := Level.graph.token) inText
    rw [isMark, plain] at this
    exact mark_not_mem_plain _ _ this
  simp only [Level.graph, List.mem_cons, List.not_mem_nil, or_false, not_or] at unmarked
  simp [reserved, colon, backslash, quote, unmarked]

theorem readSource_splice_iff {operation : String} {options : List (String × String)}
    (hne : options ≠ []) (named : IsName operation) (names : ∀ o ∈ options, IsName o.1) :
    readSource (splice operation options) = some (operation, options) ↔
      ∀ o ∈ options, Free o.2 :=
  ⟨free_of_readSource hne, readSource_splice hne named names⟩

end Montage.Graph
