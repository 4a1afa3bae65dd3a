import Montage.Path

/-!
# Spellings of a place

A place has many spellings. `absolute` brings almost all of them to one: what it keeps of a
spelling is the place and whether the path starts with exactly two slashes (`absolute_eq_iff`,
`slashes_eq_two_iff`). So `/work/out` and `//work/out` name one directory and are two paths from
the root, and no other difference between spellings is left.
-/
namespace Montage.Path

/-- A part that names a file or directory in the one before it. -/
structure IsName (part : String) : Prop where
  filled : part ≠ ""
  notHere : part ≠ "."
  notUp : part ≠ ".."
  whole : '/' ∉ part.toList

/-- How many slashes the path from the root starts with. -/
def slashes (p : String) : Nat := leadingSlashes (join workingDir p)

/-! ## Parts -/

theorem not_mem_of_mem_splitOn {a : Char} {cs part : List Char} (h : part ∈ cs.splitOn a) :
    a ∉ part := by
  induction cs generalizing part with
  | nil => simp_all
  | cons c cs ih =>
    rw [List.splitOn_cons_eq_if_modifyHead] at h
    split at h
    · rcases List.mem_cons.1 h with rfl | h
      · exact List.not_mem_nil
      · exact ih h
    · next ne =>
      obtain ⟨first, rest, split⟩ := List.exists_cons_of_ne_nil (List.splitOn_ne_nil a cs)
      rw [split] at ih h
      rcases List.mem_cons.1 h with rfl | h
      · simpa [Ne.symm (ne_of_beq_false (Bool.eq_false_iff.2 ne))] using ih List.mem_cons_self
      · exact ih (List.mem_cons_of_mem _ h)

theorem whole_of_mem_parts {p part : String} (h : part ∈ parts p) : '/' ∉ part.toList := by
  obtain ⟨cs, mem, rfl⟩ := List.mem_map.1 h
  rw [String.toList_ofList]
  exact not_mem_of_mem_splitOn mem

theorem parts_slash (p : String) : parts ("/" ++ p) = "" :: parts p := by
  unfold parts
  rw [String.toList_append]
  have cut : ('/' :: p.toList).splitOn '/' = [] :: p.toList.splitOn '/' :=
    List.splitOn_append_cons_self_of_not_mem List.not_mem_nil p.toList
  exact congrArg _ cut

theorem parts_intercalate {names : List String} (h : ∀ part ∈ names, IsName part)
    (ne : names ≠ []) : parts ("/".intercalate names) = names := by
  have whole : ∀ cs ∈ names.map String.toList, '/' ∉ cs := by
    intro cs mem
    obtain ⟨part, named, rfl⟩ := List.mem_map.1 mem
    exact (h part named).whole
  unfold parts
  rw [String.toList_intercalate]
  have split := List.splitOn_intercalate '/' whole (by simpa using ne)
  rw [show "/".toList = ['/'] from rfl, split, List.map_map]
  simp

/-! ## The place of a path -/

theorem addPart_names {done : List String} (h : ∀ part ∈ done, IsName part) {part : String}
    (whole : '/' ∉ part.toList) : ∀ p ∈ addPart true done part, IsName p := by
  unfold addPart
  by_cases kept : part = "" ∨ part = "."
  · rwa [if_pos kept]
  rw [if_neg kept]
  by_cases up : part = ".."
  · rw [if_neg (Decidable.not_not.2 up)]
    cases done with
    | nil => exact h
    | cons last before =>
      obtain ⟨name, h⟩ := List.forall_mem_cons.1 h
      simpa [name.notUp] using h
  · rw [if_pos up]
    obtain ⟨filled, notHere⟩ := not_or.1 kept
    exact List.forall_mem_cons.2 ⟨⟨filled, notHere, up, whole⟩, h⟩

theorem foldl_addPart_names {ps done : List String} (whole : ∀ part ∈ ps, '/' ∉ part.toList)
    (h : ∀ part ∈ done, IsName part) : ∀ part ∈ ps.foldl (addPart true) done, IsName part := by
  induction ps generalizing done with
  | nil => exact h
  | cons part ps ih =>
    obtain ⟨first, rest⟩ := List.forall_mem_cons.1 whole
    exact ih rest (addPart_names h first)

/-- A place is made of names. -/
theorem place_names (p : String) : ∀ part ∈ place p, IsName part := by
  intro part mem
  exact foldl_addPart_names (fun _ => whole_of_mem_parts) (by simp) part (List.mem_reverse.1 mem)

theorem addPart_name {part : String} (h : IsName part) (done : List String) :
    addPart true done part = part :: done := by
  simp [addPart, h.filled, h.notHere, h.notUp]

/-- Names are all kept. -/
theorem foldl_addPart {names : List String} (h : ∀ part ∈ names, IsName part)
    (done : List String) : names.foldl (addPart true) done = names.reverse ++ done := by
  induction names generalizing done with
  | nil => rfl
  | cons name names ih =>
    obtain ⟨first, rest⟩ := List.forall_mem_cons.1 h
    rw [List.foldl_cons, addPart_name first, ih rest, List.reverse_cons, List.append_assoc]
    rfl

/-! ## The path from the root -/

/-- A path from the root starts with a slash. -/
theorem head_join (p : String) : (join workingDir p).toList.head? = some '/' := by
  unfold join
  split
  · next h => exact eq_of_beq h
  · split <;> simp [workingDir]

theorem slashes_eq (p : String) : slashes p = 1 ∨ slashes p = 2 := by
  have head := head_join p
  unfold slashes leadingSlashes
  split
  · exact .inl rfl
  · exact .inr rfl
  · exact .inl rfl
  · next none =>
    obtain ⟨rest, split⟩ := List.head?_eq_some_iff.1 head
    exact absurd split (none rest)

/-- Only a path that starts with exactly two slashes keeps two. -/
theorem slashes_eq_two_iff (p : String) : slashes p = 2 ↔
    ∃ rest, p.toList = '/' :: '/' :: rest ∧ rest.head? ≠ some '/' := by
  by_cases rooted : isAbsolute p
  · rw [slashes, join, if_pos rooted, leadingSlashes]
    split
    · next three => simp [three]
    · next rest other two =>
      have plain : rest.head? ≠ some '/' := by
        intro third
        obtain ⟨rest', rfl⟩ := List.head?_eq_some_iff.1 third
        exact other rest' rfl
      simp [two, plain]
    · next rest _ other one =>
      refine iff_of_false (by decide) ?_
      rintro ⟨rest', two, -⟩
      exact other rest' (List.cons.inj (one.symm.trans two)).2
    · next none =>
      refine iff_of_false (by decide) ?_
      rintro ⟨rest', two, -⟩
      exact none _ two
  · have one : slashes p = 1 := by
      simp [slashes, join, rooted, workingDir, leadingSlashes]
    refine iff_of_false (by simp [one]) ?_
    rintro ⟨rest, two, -⟩
    exact rooted (by simp [isAbsolute, two])

/-- A path with slashes before its names. -/
def spell (n : Nat) (names : List String) : String :=
  String.ofList (List.replicate n '/') ++ "/".intercalate names

/-- What the path from the root keeps of a spelling. -/
theorem absolute_eq (p : String) : absolute p = spell (slashes p) (place p) := by
  have rooted : 0 < slashes p := by rcases slashes_eq p with h | h <;> omega
  have filled : (spell (slashes p) (place p)).isEmpty = false := by
    simp [spell, Nat.ne_of_gt rooted]
  have normal_eq : absolute p =
      if (spell (slashes p) (place p)).isEmpty then "." else spell (slashes p) (place p) := by
    unfold absolute normal spell place
    rw [← decide_eq_true rooted]
    rfl
  rw [normal_eq, filled]
  rfl

variable {n : Nat} {names : List String}

theorem join_spell (rooted : n = 1 ∨ n = 2) (names : List String) :
    join workingDir (spell n names) = spell n names := by
  refine if_pos ?_
  rcases rooted with rfl | rfl <;> simp [isAbsolute, spell]

/-- Slashes before names add no parts to the place. -/
theorem foldl_parts_spell (rooted : n = 1 ∨ n = 2) (names : List String) :
    (parts (spell n names)).foldl (addPart true) [] =
      (parts ("/".intercalate names)).foldl (addPart true) [] := by
  have skip (done : List String) : addPart true done "" = done := if_pos (.inl rfl)
  rcases rooted with rfl | rfl
  · rw [spell, show String.ofList (List.replicate 1 '/') = "/" from rfl, parts_slash,
      List.foldl_cons, skip]
  · rw [spell, show String.ofList (List.replicate 2 '/') = "/" ++ "/" from rfl,
      String.append_assoc, parts_slash, parts_slash, List.foldl_cons, List.foldl_cons, skip, skip]

/-- Reading names after slashes gives the names. -/
theorem place_spell (rooted : n = 1 ∨ n = 2) (h : ∀ part ∈ names, IsName part) :
    place (spell n names) = names := by
  unfold place
  rw [join_spell rooted, foldl_parts_spell rooted]
  by_cases none : names = []
  · subst none
    rfl
  · rw [parts_intercalate h none, foldl_addPart h, List.append_nil, List.reverse_reverse]

theorem head_intercalate (h : ∀ part ∈ names, IsName part) :
    ("/".intercalate names).toList.head? ≠ some '/' := by
  cases names with
  | nil => simp
  | cons name names =>
    obtain ⟨first, -⟩ := List.forall_mem_cons.1 h
    have filled : name.toList ≠ [] := fun none => first.filled (String.toList_eq_nil_iff.1 none)
    obtain ⟨c, cs, split⟩ := List.exists_cons_of_ne_nil filled
    have other : c ≠ '/' := fun same => first.whole (by rw [split, same]; exact List.mem_cons_self)
    cases names <;> simp [String.toList_intercalate, split, other]

/-- Names do not add to the slashes before them. -/
theorem slashes_spell (rooted : n = 1 ∨ n = 2) (h : ∀ part ∈ names, IsName part) :
    slashes (spell n names) = n := by
  have plain := head_intercalate h
  rw [slashes, join_spell rooted, spell, leadingSlashes, String.toList_append,
    String.toList_ofList]
  generalize ("/".intercalate names).toList = cs at plain
  rcases rooted with rfl | rfl <;> cases cs <;> simp_all [List.replicate]

@[simp]
theorem place_absolute (p : String) : place (absolute p) = place p := by
  rw [absolute_eq, place_spell (slashes_eq p) (place_names p)]

@[simp]
theorem slashes_absolute (p : String) : slashes (absolute p) = slashes p := by
  rw [absolute_eq, slashes_spell (slashes_eq p) (place_names p)]

/-- Two paths are one path from the root if they name one place and start alike, and only
then. -/
theorem absolute_eq_iff (p q : String) :
    absolute p = absolute q ↔ place p = place q ∧ slashes p = slashes q := by
  constructor
  · intro same
    rw [← place_absolute p, ← slashes_absolute p, same, place_absolute, slashes_absolute]
    exact ⟨rfl, rfl⟩
  · rintro ⟨place, slashes⟩
    rw [absolute_eq, absolute_eq, place, slashes]

end Montage.Path
