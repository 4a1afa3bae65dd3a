import Mathlib.Data.List.Find
import Mathlib.Data.List.MinMax
import Montage.Merge

/-!
# Placeholders one after another

What a reader of the rules of merge fields expects (`expected`): at each place the first pair of
delimiters counts between which a field's name stands there, of this pair the longest such name,
and the value of the field with that name is put in.

Replacing goes by these rules in what it takes for a placeholder, always (`find?_table`). In what
it puts in it does not: it looks the placeholder up by its text, and where two fields have the
same placeholder, each with delimiters of its own, it takes the value of the first field, whichever
of them was found. `substitute_eq_expected_iff` says when this makes no difference: if and only
if each placeholder that can be found at all stands for the value of its own field first. With
names in which no character of a delimiter occurs this is so (`unambiguous_of_clean`).
-/
namespace Montage.Merge

/-! ## The rules -/

/-- The names of fields that stand at the front of a text between the delimiters of a pair. An
empty name stands nowhere. -/
def fitting (fields : Fields) (pair : String × String) (cs : List Char) : List String :=
  (fields.map (·.1)).filter fun name =>
    !name.isEmpty && (placeholder pair name).toList.isPrefixOf cs

/-- The placeholder at the front of a text: the first pair of delimiters that has one, and the
longest name for it. -/
def choice? (ds : Delimiters) (fields : Fields) (cs : List Char) :
    Option ((String × String) × String) :=
  ds.pairs.findSome? fun pair => ((fitting fields pair cs).argmax String.length).map (pair, ·)

/-- Reads a text from left to right. The placeholder at the front is replaced, what was put in is
not read again, and without a placeholder one character is copied. -/
def reading (ds : Delimiters) (fields : Fields) (insert : String × String → String → String) :
    List Char → List Char
  | [] => []
  | c :: rest =>
    match choice? ds fields (c :: rest) with
    | some (pair, name) =>
      (insert pair name).toList ++
        reading ds fields insert (rest.drop ((placeholder pair name).toList.length - 1))
    | none => c :: reading ds fields insert rest
termination_by cs => cs.length
decreasing_by all_goals simp only [List.length_cons, List.length_drop]; omega

/-- The text of the field with a name. -/
def textOf (fields : Fields) (name : String) : String :=
  ((Json.lookup name fields).map (·.text)).getD ""

/-- The text that the rules give. -/
def expected (ds : Delimiters) (fields : Fields) (s : String) : String :=
  String.ofList (reading ds fields (fun _ name => textOf fields name) s.toList)

/-- The text of the first field that has the placeholder of a pair and a name, with whatever
delimiters. -/
def inserted (ds : Delimiters) (fields : Fields) (pair : String × String) (name : String) :
    String :=
  let first := fields.find? fun f =>
    ds.pairs.any fun other => placeholder other f.1 == placeholder pair name
  (first.map (·.2.text)).getD ""

/-- Each placeholder that is found where it stands alone stands for its own field first. -/
def Unambiguous (ds : Delimiters) (fields : Fields) : Prop :=
  ∀ pair name, choice? ds fields (placeholder pair name).toList = some (pair, name) →
    inserted ds fields pair name = textOf fields name

/-! ## The longest name -/

/-- A name that stands at the front of a text, and none that does is longer. -/
structure IsLongest (fields : Fields) (pair : String × String) (cs : List Char) (name : String) :
    Prop where
  mem : name ∈ fitting fields pair cs
  le : ∀ other ∈ fitting fields pair cs, other.length ≤ name.length

variable {ds : Delimiters} {fields : Fields} {pair : String × String} {name : String}
  {cs : List Char}

theorem mem_fitting : name ∈ fitting fields pair cs ↔
    name ∈ fields.map (·.1) ∧ name ≠ "" ∧ (placeholder pair name).toList <+: cs := by
  unfold fitting
  rw [List.mem_filter, Bool.and_eq_true, List.isPrefixOf_iff_prefix]
  simp

theorem toList_placeholder (pair : String × String) (name : String) :
    (placeholder pair name).toList = pair.1.toList ++ name.toList ++ pair.2.toList := by
  simp [placeholder]

theorem placeholder_inj {a b : String} (h : placeholder pair a = placeholder pair b) : a = b := by
  unfold placeholder at h
  rwa [String.append_left_inj, String.append_right_inj] at h

/-- Of one length there is only one name. -/
theorem eq_of_mem_fitting {a b : String} (ha : a ∈ fitting fields pair cs)
    (hb : b ∈ fitting fields pair cs) (h : a.length = b.length) : a = b := by
  obtain ⟨-, -, ha⟩ := mem_fitting.1 ha
  obtain ⟨-, -, hb⟩ := mem_fitting.1 hb
  have hlen : (placeholder pair a).toList.length = (placeholder pair b).toList.length := by
    rw [← String.length_toList, ← String.length_toList] at h
    simp only [toList_placeholder, List.length_append, h]
  have := (List.prefix_of_prefix_length_le ha hb hlen.le).eq_of_length hlen
  exact placeholder_inj (String.toList_inj.1 this)

theorem IsLongest.unique {a b : String} (ha : IsLongest fields pair cs a)
    (hb : IsLongest fields pair cs b) : a = b :=
  eq_of_mem_fitting ha.mem hb.mem (Nat.le_antisymm (hb.le a ha.mem) (ha.le b hb.mem))

theorem argmax_fitting :
    (fitting fields pair cs).argmax String.length = some name ↔ IsLongest fields pair cs name := by
  have sound {m : String} (h : (fitting fields pair cs).argmax String.length = some m) :
      IsLongest fields pair cs m :=
    ⟨List.argmax_mem h, fun other ho => List.le_of_mem_argmax ho h⟩
  constructor
  · exact sound
  · intro h
    cases hm : (fitting fields pair cs).argmax String.length with
    | none =>
      have := h.mem
      rw [List.argmax_eq_none.1 hm] at this
      cases this
    | some m => rw [(sound hm).unique h]

theorem pairwise_names (fields : Fields) :
    (names fields).Pairwise fun a b => b.length ≤ a.length := by
  have sorted : (names fields).Pairwise fun a b => decide (b.length ≤ a.length) = true := by
    refine List.pairwise_mergeSort ?_ ?_ _
    · intro a b c hab hbc
      simp only [decide_eq_true_eq] at hab hbc ⊢
      omega
    · intro a b
      simp only [Bool.or_eq_true, decide_eq_true_eq]
      omega
  exact sorted.imp of_decide_eq_true

/-- The first name that fits in the order of trying is the longest. -/
theorem find?_names (fields : Fields) (pair : String × String) (cs : List Char) :
    (names fields).find? (fun name => (placeholder pair name).toList.isPrefixOf cs) =
      (fitting fields pair cs).argmax String.length := by
  have mem {x : String} : x ∈ fitting fields pair cs ↔
      x ∈ names fields ∧ (placeholder pair x).toList.isPrefixOf cs = true := by
    unfold fitting names
    rw [List.mem_mergeSort, List.mem_filter, List.mem_filter, Bool.and_eq_true, and_assoc]
  have sorted := pairwise_names fields
  cases hfind : (names fields).find? fun name => (placeholder pair name).toList.isPrefixOf cs with
  | none =>
    rw [eq_comm, List.argmax_eq_none, List.eq_nil_iff_forall_not_mem]
    intro x hx
    obtain ⟨hx, hp⟩ := mem.1 hx
    exact List.find?_eq_none.1 hfind x hx hp
  | some name =>
    rw [eq_comm, argmax_fitting]
    obtain ⟨hp, before, after, hnames, hbefore⟩ := List.find?_eq_some_iff_append.1 hfind
    refine ⟨mem.2 ⟨List.mem_of_find?_eq_some hfind, hp⟩, fun other ho => ?_⟩
    obtain ⟨ho, hop⟩ := mem.1 ho
    rw [hnames] at ho sorted
    rcases List.mem_append.1 ho with ho | ho
    · have := hbefore other ho
      rw [hop] at this
      cases this
    · rcases List.mem_cons.1 ho with rfl | ho
      · exact Nat.le_refl _
      · exact List.rel_of_pairwise_cons (List.pairwise_append.1 sorted).2.1 ho

/-! ## What is found -/

theorem choice?_eq_some : choice? ds fields cs = some (pair, name) ↔
    IsLongest fields pair cs name ∧ ∃ before after, ds.pairs = before ++ pair :: after ∧
      ∀ other ∈ before, fitting fields other cs = [] := by
  unfold choice?
  rw [List.findSome?_eq_some_iff]
  simp only [Option.map_eq_some_iff, Prod.mk.injEq, Option.map_eq_none_iff, List.argmax_eq_none]
  constructor
  · rintro ⟨before, q, after, hpairs, ⟨n, hn, rfl, rfl⟩, hbefore⟩
    exact ⟨argmax_fitting.1 hn, before, after, hpairs, hbefore⟩
  · rintro ⟨hlongest, before, after, hpairs, hbefore⟩
    exact ⟨before, pair, after, hpairs, ⟨name, argmax_fitting.2 hlongest, rfl, rfl⟩, hbefore⟩

/-- What is found at the front of a text is found where it stands alone. -/
theorem choice?_placeholder (h : choice? ds fields cs = some (pair, name)) :
    choice? ds fields (placeholder pair name).toList = some (pair, name) := by
  obtain ⟨⟨hmem, hle⟩, before, after, hpairs, hbefore⟩ := choice?_eq_some.1 h
  obtain ⟨hname, hne, hprefix⟩ := mem_fitting.1 hmem
  -- what fits in front of the placeholder alone fits in front of the whole text
  have widen {q : String × String} {n : String}
      (hn : n ∈ fitting fields q (placeholder pair name).toList) : n ∈ fitting fields q cs := by
    obtain ⟨hfield, hn, hp⟩ := mem_fitting.1 hn
    exact mem_fitting.2 ⟨hfield, hn, hp.trans hprefix⟩
  refine choice?_eq_some.2 ⟨⟨mem_fitting.2 ⟨hname, hne, List.prefix_rfl⟩, fun n hn => ?_⟩,
    before, after, hpairs, fun q hq => ?_⟩
  · exact hle n (widen hn)
  · refine List.eq_nil_iff_forall_not_mem.2 fun n hn => ?_
    have := widen hn
    rw [hbefore q hq] at this
    cases this

/-- The text that is looked up for a placeholder. -/
theorem find?_replacements (ds : Delimiters) (fields : Fields) (pair : String × String)
    (name : String) :
    (((replacements ds fields).find? fun t => t.1 == placeholder pair name).map (·.2)).getD "" =
      inserted ds fields pair name := by
  unfold inserted replacements
  congr 1
  induction fields with
  | nil => rfl
  | cons f fields ih =>
    rw [List.flatMap_cons, List.find?_append, List.find?_cons, List.find?_map]
    cases hf : ds.pairs.any fun other => placeholder other f.1 == placeholder pair name with
    | true =>
      obtain ⟨other, hother, he⟩ := List.any_eq_true.1 hf
      cases hfind : ds.pairs.find? _ with
      | none => exact absurd he (List.find?_eq_none.1 hfind other hother)
      | some q => rfl
    | false =>
      have hnone : ds.pairs.find? ((fun t : String × String => t.1 == placeholder pair name) ∘
          fun q => (placeholder q f.1, f.2.text)) = none := by
        refine List.find?_eq_none.2 fun other hother he => ?_
        rw [List.any_eq_false] at hf
        exact hf other hother he
      rw [hnone]
      exact ih

/-- The alternatives are tried in the order of the rules. -/
theorem find?_table (ds : Delimiters) (fields : Fields) (cs : List Char) :
    (table ds fields).find? (fun entry => entry.1.isPrefixOf cs) =
      (choice? ds fields cs).map fun c =>
        ((placeholder c.1 c.2).toList, (inserted ds fields c.1 c.2).toList) := by
  unfold table placeholders choice?
  rw [List.find?_map, List.find?_flatMap, List.map_findSome?, List.map_findSome?]
  congr 1
  funext pair
  simp only [Function.comp_apply]
  rw [List.find?_map]
  change Option.map _ (Option.map (placeholder pair)
    ((names fields).find? fun name => (placeholder pair name).toList.isPrefixOf cs)) = _
  rw [find?_names]
  cases (fitting fields pair cs).argmax String.length with
  | none => rfl
  | some name =>
    simp only [Option.map_some, Option.some.injEq, Prod.mk.injEq, true_and]
    rw [find?_replacements]

/-! ## What is put in -/

/-- Replacing follows the rules in all but the texts that are put in. -/
theorem scan_table (ds : Delimiters) (fields : Fields) (cs : List Char) :
    scan (table ds fields) cs = reading ds fields (inserted ds fields) cs := by
  induction cs using reading.induct ds fields with
  | case1 => rw [scan, reading]
  | case2 c rest pair name h ih =>
    rw [scan, reading, find?_table, h, Option.map_some]
    simp only
    rw [ih]
  | case3 c rest h ih => rw [scan, reading, find?_table, h, Option.map_none, ih]

theorem substitute_eq (ds : Delimiters) (fields : Fields) (s : String) :
    substitute ds fields s = String.ofList (reading ds fields (inserted ds fields) s.toList) := by
  unfold substitute substituteBy
  rw [scan_table]

/-- Two ways to put texts in that agree on what is found give the same text. -/
theorem reading_congr {f g : String × String → String → String}
    (h : ∀ pair name, choice? ds fields (placeholder pair name).toList = some (pair, name) →
      f pair name = g pair name) (cs : List Char) :
    reading ds fields f cs = reading ds fields g cs := by
  induction cs using reading.induct ds fields with
  | case1 => rw [reading, reading]
  | case2 c rest pair name hc ih =>
    rw [reading, reading, hc]
    simp only
    rw [h pair name (choice?_placeholder hc), ih]
  | case3 c rest hc ih =>
    rw [reading, reading, hc]
    simp only
    rw [ih]

/-- A placeholder that stands alone is replaced as a whole. -/
theorem reading_placeholder {f : String × String → String → String}
    (h : choice? ds fields (placeholder pair name).toList = some (pair, name)) :
    reading ds fields f (placeholder pair name).toList = (f pair name).toList := by
  obtain ⟨-, hne, -⟩ := mem_fitting.1 (choice?_eq_some.1 h).1.mem
  have hchars : (placeholder pair name).toList ≠ [] := by
    simpa [toList_placeholder] using fun _ hname => absurd hname hne
  obtain ⟨c, rest, hp⟩ := List.exists_cons_of_ne_nil hchars
  rw [hp] at h ⊢
  rw [reading, h]
  simp only
  rw [hp, List.length_cons, Nat.add_sub_cancel, List.drop_length, reading, List.append_nil]

/-- **When replacing keeps the rules.** It does for all texts if and only if no placeholder that can
be found is taken by another field first. -/
theorem substitute_eq_expected_iff (ds : Delimiters) (fields : Fields) :
    (∀ s, substitute ds fields s = expected ds fields s) ↔ Unambiguous ds fields := by
  constructor
  · intro h pair name hc
    have := congrArg String.toList (h (placeholder pair name))
    rw [substitute_eq, expected, String.toList_ofList, String.toList_ofList,
      reading_placeholder hc, reading_placeholder hc] at this
    exact String.toList_inj.1 this
  · intro h s
    rw [substitute_eq, expected]
    exact congrArg String.ofList (reading_congr h s.toList)

/-- A field whose name is another one's name in delimiters. -/
def nested : Fields := [("\x7bx\x7d", .string "1"), ("x", .string "2")]

/-- The placeholder is that of `x` in double braces, but what is put in is the text of the field
before it, which has the same placeholder in single braces. -/
theorem substitute_nested :
    substitute .standard nested "\x7b\x7bx\x7d\x7d" = "1" ∧
      expected .standard nested "\x7b\x7bx\x7d\x7d" = "2" := by
  have found : choice? .standard nested (placeholder ("\x7b\x7b", "\x7d\x7d") "x").toList =
      some (("\x7b\x7b", "\x7d\x7d"), "x") := by decide +kernel
  have text : "\x7b\x7bx\x7d\x7d" = placeholder ("\x7b\x7b", "\x7d\x7d") "x" := by decide
  rw [text]
  unfold expected
  rw [substitute_eq, reading_placeholder found, reading_placeholder found]
  constructor
  · decide +kernel
  · decide +kernel

/-! ## Names without delimiters -/

/-- No character of a field's name is one of a delimiter. -/
def Clean (ds : Delimiters) (fields : Fields) : Prop :=
  ∀ f ∈ fields, ∀ c ∈ f.1.toList, ∀ pair ∈ ds.pairs, c ∉ pair.1.toList ∧ c ∉ pair.2.toList

/-- Whether a character is one of a delimiter. -/
def isDelimiting (ds : Delimiters) (c : Char) : Bool :=
  ds.pairs.any fun pair => c ∈ pair.1.toList ∨ c ∈ pair.2.toList

/-- A name can be read off its placeholder. -/
theorem filter_placeholder (h : Clean ds fields) {f : String × Json} (hf : f ∈ fields)
    (hpair : pair ∈ ds.pairs) :
    (placeholder pair f.1).toList.filter (!isDelimiting ds ·) = f.1.toList := by
  have delimiting {c : Char} (hc : c ∈ pair.1.toList ∨ c ∈ pair.2.toList) :
      isDelimiting ds c = true :=
    List.any_eq_true.2 ⟨pair, hpair, by simpa using hc⟩
  have before : pair.1.toList.filter (!isDelimiting ds ·) = [] :=
    List.filter_eq_nil_iff.2 fun c hc => by simp [delimiting (Or.inl hc)]
  have after : pair.2.toList.filter (!isDelimiting ds ·) = [] :=
    List.filter_eq_nil_iff.2 fun c hc => by simp [delimiting (Or.inr hc)]
  have inside : f.1.toList.filter (!isDelimiting ds ·) = f.1.toList := by
    refine List.filter_eq_self.2 fun c hc => ?_
    rw [Bool.not_eq_true', isDelimiting, List.any_eq_false]
    intro q hq
    obtain ⟨h1, h2⟩ := h f hf c hc q hq
    simp [h1, h2]
  rw [toList_placeholder, List.filter_append, List.filter_append, before, after, inside,
    List.nil_append, List.append_nil]

/-- With such names replacing keeps the rules. -/
theorem unambiguous_of_clean (h : Clean ds fields) : Unambiguous ds fields := by
  intro pair name hc
  obtain ⟨hlongest, before, after, hpairs, -⟩ := choice?_eq_some.1 hc
  have hpair : pair ∈ ds.pairs := by
    rw [hpairs]
    exact List.mem_append_right _ List.mem_cons_self
  obtain ⟨hname, -, -⟩ := mem_fitting.1 hlongest.mem
  obtain ⟨own, hown, rfl⟩ := List.mem_map.1 hname
  have same : fields.find? (fun f =>
      ds.pairs.any fun other => placeholder other f.1 == placeholder pair own.1) =
      fields.find? (·.1 == own.1) := by
    refine List.find?_congr fun f hf => ?_
    rw [Bool.eq_iff_iff, List.any_eq_true, beq_iff_eq]
    constructor
    · rintro ⟨q, hq, he⟩
      rw [beq_iff_eq] at he
      have := filter_placeholder h hf hq
      rw [he, filter_placeholder h hown hpair] at this
      exact String.toList_inj.1 this.symm
    · intro he
      exact ⟨pair, hpair, by simp [he]⟩
  unfold inserted textOf Json.lookup
  rw [same, Option.map_map]
  rfl

end Montage.Merge
