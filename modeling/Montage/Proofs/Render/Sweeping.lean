import Montage.Proofs.Path.Spelling
import Montage.Proofs.Render.Disk

/-!
# How often a directory is swept

Callers prepare directories and create files in them, in any order. A file that was created in a
prepared directory should stay. It does, except for one thing: two leading slashes make another
path from the root than one does, so the first preparation of a directory under a spelling of the
other kind sweeps it a second time (`created_gone_iff`).
-/
namespace Montage

/-- What a caller does to directories and files. -/
inductive Deed where
  | prepare (dir : String)
  | create (path : String) (file : StoredFile)

/-- No deed creates a file at a place. -/
def Deed.Spares (ds : List Deed) (p : Place) : Prop :=
  ∀ path file, .create path file ∈ ds → Path.place path ≠ p

namespace Disk

/-- The disk after a deed. A preparation that fails leaves it as it is. -/
def act (d : Disk) : Deed → Disk
  | .prepare dir =>
    match d.sweeper.prepare d.files dir with
    | .error _ => d
    | .ok (sweeper, files, _) => { d with sweeper, files }
  | .create path file => { d with files := d.files.put (Path.place path) file }

/-- The disk after deeds in turn. -/
def after (d : Disk) (ds : List Deed) : Disk := ds.foldl act d

/-- The preparation of a directory succeeds. -/
def Prepares (d : Disk) (dir : String) : Prop :=
  ∃ done, d.sweeper.prepare d.files dir = .ok done

/-- One of the deeds prepares a place, by a path from the root with so many leading slashes. -/
def Prepared (d : Disk) (ds : List Deed) (place : Place) (slashes : Nat) : Prop :=
  ∃ xs dir ys, ds = xs ++ .prepare dir :: ys ∧ (d.after xs).Prepares dir ∧
    Path.place dir = place ∧ Path.slashes dir = slashes

/-- The deeds sweep a file away that was at a place, and do not put one there again. -/
def Loses (d : Disk) (ds : List Deed) (p : Place) : Prop :=
  ∃ xs dir ys, ds = xs ++ .prepare dir :: ys ∧ (d.after xs).Prepares dir ∧
    p ∈ (d.after xs).leftovers dir ∧ Deed.Spares ys p

/-- There is at most one file at a place. -/
def Settled (d : Disk) (p : Place) : Prop :=
  ∀ file, (p, file) ∈ d.files.entries → d.files.at? p = some file

variable {d : Disk} {dir : String} {p : Place}

/-! ## One deed -/

/-- A preparation that succeeds makes the directory, and sweeps it unless that has been done. -/
theorem act_of_prepares (h : d.Prepares dir) : d.act (.prepare dir) =
    { d with
      sweeper := { d.sweeper with
        swept := if d.sweeper.hasSwept dir then d.sweeper.swept
          else Path.absolute dir :: d.sweeper.swept }
      files := (d.leftovers dir).foldl Files.remove (d.files.addDirectory (Path.place dir)) } := by
  obtain ⟨⟨sweeper, files, n⟩, done⟩ := h
  have act_eq : d.act (.prepare dir) = { d with sweeper, files } := by simp only [act, done]
  rw [act_eq]
  unfold Sweeper.prepare at done
  obtain ⟨made, hmade, done⟩ := Graph.except_bind_ok.1 done
  have made_eq : made = d.files.addDirectory (Path.place dir) := by
    unfold Files.makeDirectory at hmade
    rw [Path.place_absolute] at hmade
    split at hmade <;> cases hmade
    rfl
  subst made_eq
  unfold leftovers
  by_cases swept : d.sweeper.hasSwept dir
  · rw [if_pos swept, if_pos swept]
    rw [if_pos (show d.sweeper.swept.contains (Path.absolute dir) from swept)] at done
    cases done
    rfl
  · rw [if_neg swept, if_neg swept]
    rw [if_neg (show ¬d.sweeper.swept.contains (Path.absolute dir) from swept)] at done
    cases done
    rfl

theorem act_of_not_prepares (h : ¬d.Prepares dir) : d.act (.prepare dir) = d := by
  cases done : d.sweeper.prepare d.files dir with
  | error => simp only [act, done]
  | ok made => exact absurd ⟨made, done⟩ h

/-- A deed sweeps what it prepares. -/
theorem hasSwept_act (d : Disk) (deed : Deed) (q : String) :
    (d.act deed).sweeper.hasSwept q ↔ d.sweeper.hasSwept q ∨
      ∃ dir, deed = .prepare dir ∧ d.Prepares dir ∧ Path.absolute dir = Path.absolute q := by
  cases deed with
  | create path file => simp [act]
  | prepare dir =>
    by_cases h : d.Prepares dir
    · rw [act_of_prepares h]
      by_cases swept : d.sweeper.hasSwept dir
      · have known (same : Path.absolute dir = Path.absolute q) : d.sweeper.hasSwept q := by
          rwa [Sweeper.hasSwept, ← same]
        simpa [swept, h] using known
      · rw [if_neg swept]
        show List.contains (Path.absolute dir :: d.sweeper.swept) (Path.absolute q) ↔ _
        rw [List.contains_cons, Bool.or_eq_true, beq_iff_eq, or_comm,
          eq_comm (a := Path.absolute q)]
        simp [Sweeper.hasSwept, h]
    · rw [act_of_not_prepares h]
      simp [h]

/-- No file is at a place after a deed: there was none before, or it was swept away. -/
theorem at?_act (d : Disk) (deed : Deed) (p : Place) :
    (d.act deed).files.at? p = none ↔
      (d.files.at? p = none ∧ Deed.Spares [deed] p) ∨
        ∃ dir, deed = .prepare dir ∧ d.Prepares dir ∧ p ∈ d.leftovers dir := by
  cases deed with
  | create path file =>
    rw [act, Files.at?_put]
    by_cases here : p = Path.place path <;> simp [here, Deed.Spares, eq_comm]
  | prepare dir =>
    by_cases h : d.Prepares dir
    · rw [act_of_prepares h, Files.at?_foldl_remove, Files.at?_addDirectory]
      by_cases left : p ∈ d.leftovers dir <;> simp [left, h, Deed.Spares]
    · rw [act_of_not_prepares h]
      simp [h, Deed.Spares]

theorem takes_act (d : Disk) (deed : Deed) (name : String) :
    (d.act deed).sweeper.takes name = d.sweeper.takes name := by
  cases deed with
  | create path file => rfl
  | prepare dir =>
    by_cases h : d.Prepares dir
    · rw [act_of_prepares h]
      rfl
    · rw [act_of_not_prepares h]

theorem entries_foldl_remove (files : Files) (gone : List Place) :
    (gone.foldl Files.remove files).entries = files.entries.filter (·.1 ∉ gone) := by
  induction gone generalizing files with
  | nil => simp
  | cons q gone ih =>
    rw [List.foldl_cons, ih, Files.remove, List.filter_filter]
    congr 1
    funext e
    by_cases now : e.1 = q <;> by_cases later : e.1 ∈ gone <;> simp [now, later]

/-- What is created is alone at its place. -/
theorem settled_create (d : Disk) (path : String) (file : StoredFile) :
    (d.act (.create path file)).Settled (Path.place path) := by
  intro other mem
  rw [act, Files.at?_put, if_pos rfl]
  simp only [act, Files.put, List.mem_append, List.mem_filter] at mem
  simp_all

theorem Settled.act (settled : d.Settled p) (deed : Deed) : (d.act deed).Settled p := by
  intro file mem
  cases deed with
  | create path new =>
    by_cases here : p = Path.place path
    · subst here
      exact settled_create d path new file mem
    · rw [Disk.act, Files.at?_put, if_neg here]
      refine settled file ?_
      simpa [Disk.act, Files.put, here] using mem
  | prepare dir =>
    by_cases h : d.Prepares dir
    · rw [act_of_prepares h] at mem ⊢
      rw [entries_foldl_remove, List.mem_filter, decide_eq_true_eq] at mem
      rw [Files.at?_foldl_remove, if_neg mem.2]
      exact settled file mem.1
    · rw [act_of_not_prepares h] at mem ⊢
      exact settled file mem

/-! ## Deeds in turn -/

/-- A preparation among deeds is the first of them or a later one. -/
theorem split_cons {deed : Deed} {ds : List Deed} {P : List Deed → String → List Deed → Prop} :
    (∃ xs dir ys, deed :: ds = xs ++ .prepare dir :: ys ∧ P xs dir ys) ↔
      (∃ dir, deed = .prepare dir ∧ P [] dir ds) ∨
        ∃ xs dir ys, ds = xs ++ .prepare dir :: ys ∧ P (deed :: xs) dir ys := by
  constructor
  · rintro ⟨xs, dir, ys, split, holds⟩
    cases xs with
    | nil =>
      obtain ⟨rfl, rfl⟩ := List.cons.inj split
      exact .inl ⟨dir, rfl, holds⟩
    | cons x xs =>
      obtain ⟨rfl, rfl⟩ := List.cons.inj split
      exact .inr ⟨xs, dir, ys, rfl, holds⟩
  · rintro (⟨dir, rfl, holds⟩ | ⟨xs, dir, ys, rfl, holds⟩)
    · exact ⟨[], dir, ds, rfl, holds⟩
    · exact ⟨deed :: xs, dir, ys, rfl, holds⟩

/-- A directory has been swept if a preparation of its place was spelled like it. -/
theorem hasSwept_after (d : Disk) (ds : List Deed) (q : String) :
    (d.after ds).sweeper.hasSwept q ↔ d.sweeper.hasSwept q ∨
      d.Prepared ds (Path.place q) (Path.slashes q) := by
  induction ds generalizing d with
  | nil => simp [after, Prepared]
  | cons deed ds ih =>
    have later := ih (d.act deed)
    rw [hasSwept_act] at later
    simp only [Path.absolute_eq_iff] at later
    rw [Prepared, split_cons]
    exact later.trans (or_assoc.trans Iff.rfl)

/-- No file is at a place in the end: none was put there, or it was swept away. -/
theorem at?_after (d : Disk) (ds : List Deed) (p : Place) :
    (d.after ds).files.at? p = none ↔
      (d.files.at? p = none ∧ Deed.Spares ds p) ∨ d.Loses ds p := by
  induction ds generalizing d with
  | nil => simp [after, Loses, Deed.Spares]
  | cons deed ds ih =>
    have later : (d.after (deed :: ds)).files.at? p = none ↔ _ := ih (d.act deed)
    rw [at?_act] at later
    have spares : Deed.Spares (deed :: ds) p ↔ Deed.Spares [deed] p ∧ Deed.Spares ds p := by
      simp [Deed.Spares, or_imp, forall_and]
    have loses : d.Loses (deed :: ds) p ↔
        (∃ dir, deed = .prepare dir ∧ d.Prepares dir ∧ p ∈ d.leftovers dir ∧ Deed.Spares ds p) ∨
          (d.act deed).Loses ds p := by
      rw [Loses, split_cons]
      rfl
    rw [spares, loses]
    simpa only [or_and_right, ← exists_and_right, and_assoc, or_assoc] using later

theorem takes_after (d : Disk) (ds : List Deed) (name : String) :
    (d.after ds).sweeper.takes name = d.sweeper.takes name := by
  induction ds generalizing d with
  | nil => rfl
  | cons deed ds ih => exact (ih (d.act deed)).trans (takes_act d deed name)

theorem Settled.after (settled : d.Settled p) (ds : List Deed) : (d.after ds).Settled p := by
  induction ds generalizing d with
  | nil => exact settled
  | cons deed ds ih => exact ih (settled.act deed)

theorem after_append (d : Disk) (xs ys : List Deed) : d.after (xs ++ ys) = (d.after xs).after ys :=
  List.foldl_append

/-- The files that a preparation deletes. -/
theorem mem_leftovers {place : Place} {name : String} (settled : d.Settled (place ++ [name])) :
    place ++ [name] ∈ d.leftovers dir ↔ ¬d.sweeper.hasSwept dir ∧ Path.place dir = place ∧
      d.sweeper.takes name ∧
      ∃ file, d.files.at? (place ++ [name]) = some file ∧ file.isLocked = false := by
  have found (file : StoredFile) : (place ++ [name], file) ∈ d.files.entries ↔
      d.files.at? (place ++ [name]) = some file := by
    refine ⟨settled file, fun here => ?_⟩
    obtain ⟨⟨p, _⟩, hit, rfl⟩ := Option.map_eq_some_iff.1 here
    have same : p = place ++ [name] := eq_of_beq (List.find?_some hit :)
    exact same ▸ List.mem_of_find?_eq_some hit
  unfold leftovers
  by_cases swept : d.sweeper.hasSwept dir
  · simp [swept]
  · rw [if_neg swept, Path.place_absolute]
    simp only [Sweeper.targets, List.mem_filterMap, Prod.exists, ← found]
    constructor
    · rintro ⟨p, file, mem, taken⟩
      split at taken
      · next all =>
        cases taken
        simp_all
      · cases taken
    · rintro ⟨-, rfl, taken, file, mem, loose⟩
      exact ⟨_, file, mem, by simp [taken, loose]⟩

theorem Prepared.append {ds : List Deed} {place : Place} {n : Nat} (h : d.Prepared ds place n)
    (more : List Deed) : d.Prepared (ds ++ more) place n := by
  obtain ⟨xs, dir, ys, rfl, prepares⟩ := h
  exact ⟨xs, dir, ys ++ more, by rw [List.append_assoc, List.cons_append], prepares⟩

theorem hasSwept_iff_prepared (fresh : d.sweeper.swept = []) (ds : List Deed) (q : String) :
    (d.after ds).sweeper.hasSwept q ↔ d.Prepared ds (Path.place q) (Path.slashes q) := by
  have unswept : ¬d.sweeper.hasSwept q := by simp [Sweeper.hasSwept, fresh]
  rw [hasSwept_after, or_iff_right unswept]

/-! ## Files that are created -/

/-- After the deeds, a preparation deletes the file of a name in a place: it is the first one of
that spelling, and the file is of a kind that is swept and not locked. -/
structure Deletes (start : Disk) (ds : List Deed) (dir : String) (place : Place) (name : String) :
    Prop where
  prepares : (start.after ds).Prepares dir
  same : Path.place dir = place
  first : ¬start.Prepared ds place (Path.slashes dir)
  taken : start.sweeper.takes name = true
  loose : ∃ file, (start.after ds).files.at? (place ++ [name]) = some file ∧ file.isLocked = false

variable {start : Disk} {before later : List Deed} {path : String} {file : StoredFile}
  {place : Place} {name : String} {n : Nat}

/-- A file that is created is gone in the end if a preparation deleted it and it was not made
anew, and only then. -/
theorem gone_iff (fresh : start.sweeper.swept = []) (inside : Path.place path = place ++ [name]) :
    (start.after (before ++ .create path file :: later)).files.at? (place ++ [name]) = none ↔
      ∃ xs dir ys, later = xs ++ .prepare dir :: ys ∧
        start.Deletes (before ++ .create path file :: xs) dir place name ∧
        Deed.Spares ys (place ++ [name]) := by
  have after_create (ds : List Deed) : start.after (before ++ .create path file :: ds) =
      ((start.after before).act (.create path file)).after ds := after_append _ _ _
  have settled : ((start.after before).act (.create path file)).Settled (place ++ [name]) :=
    inside ▸ settled_create _ path file
  have there : ((start.after before).act (.create path file)).files.at? (place ++ [name]) ≠ none :=
    by simp [act, Files.at?_put, inside]
  rw [after_create, at?_after]
  simp only [there, false_and, false_or, Loses, ← after_create]
  refine exists_congr fun xs => exists_congr fun dir => exists_congr fun ys => and_congr_right ?_
  rintro rfl
  rw [mem_leftovers (after_create xs ▸ settled.after xs), hasSwept_iff_prepared fresh, takes_after]
  constructor
  · rintro ⟨ready, ⟨first, rfl, taken, loose⟩, spared⟩
    exact ⟨⟨ready, rfl, first, taken, loose⟩, spared⟩
  · rintro ⟨⟨ready, rfl, first, taken, loose⟩, spared⟩
    exact ⟨ready, ⟨first, rfl, taken, loose⟩, spared⟩

/-- What deletes a file in a directory that has been prepared is spelled with another number of
leading slashes. -/
theorem Deletes.respelled {ds : List Deed} (h : start.Deletes (before ++ ds) dir place name)
    (prepared : start.Prepared before place n) : Path.slashes dir ≠ n := by
  rintro rfl
  exact h.first (prepared.append ds)

/-- A file that is created in a directory after that was prepared is gone in the end for one
reason only: the first preparation of the directory with another number of leading slashes deleted
it, and it was not made anew. -/
theorem created_gone_iff (fresh : start.sweeper.swept = [])
    (inside : Path.place path = place ++ [name]) (prepared : start.Prepared before place n) :
    (start.after (before ++ .create path file :: later)).files.at? (place ++ [name]) = none ↔
      ∃ xs dir ys, later = xs ++ .prepare dir :: ys ∧ Path.slashes dir ≠ n ∧
        start.Deletes (before ++ .create path file :: xs) dir place name ∧
        Deed.Spares ys (place ++ [name]) := by
  rw [gone_iff fresh inside]
  refine exists_congr fun xs => exists_congr fun dir => exists_congr fun ys =>
    and_congr_right fun _ => ⟨fun ⟨deletes, spared⟩ => ?_, And.right⟩
  exact ⟨deletes.respelled prepared, deletes, spared⟩

/-- The first preparation of a directory with two leading slashes sweeps it again. -/
theorem created_gone_respelled :
    let start : Disk := ⟨Sweeper.fresh [".mp4"], .empty, []⟩
    start.sweeper.swept = [] ∧ Path.place "out/a.mp4" = ["work", "out"] ++ ["a.mp4"] ∧
      start.Prepared [.prepare "/work/out"] ["work", "out"] 1 ∧
      (start.after ([.prepare "/work/out"] ++ .create "out/a.mp4" {} ::
        [.prepare "//work/out"])).files.at? (["work", "out"] ++ ["a.mp4"]) = none := by
  intro start
  have inside : Path.place "out/a.mp4" = ["work", "out"] ++ ["a.mp4"] := by decide +kernel
  have prepared : start.Prepared [.prepare "/work/out"] ["work", "out"] 1 :=
    ⟨[], "/work/out", [], rfl, ⟨_, rfl⟩, by decide +kernel, by decide +kernel⟩
  have same : Path.place "//work/out" = ["work", "out"] := by decide +kernel
  have first : ¬start.Prepared ([.prepare "/work/out"] ++ [.create "out/a.mp4" {}])
      ["work", "out"] (Path.slashes "//work/out") := by
    rw [← same, ← hasSwept_iff_prepared rfl]
    decide +kernel
  refine ⟨rfl, inside, prepared, (created_gone_iff rfl inside prepared).2
    ⟨[], "//work/out", [], rfl, by decide +kernel, ⟨⟨_, rfl⟩, same, first, ?_, ⟨_, rfl, rfl⟩⟩, ?_⟩⟩
  · decide +kernel
  · simp [Deed.Spares]

/-- A prepared directory can lose a file that was created in it. -/
theorem created_lost : ¬∀ (start : Disk) (before later : List Deed) (path : String)
    (file : StoredFile) (place : Place) (name : String) (n : Nat), start.sweeper.swept = [] →
      Path.place path = place ++ [name] → start.Prepared before place n →
      ((start.after (before ++ .create path file :: later)).files.at?
        (place ++ [name])).isSome := by
  intro kept
  have prepared : Prepared ⟨Sweeper.fresh [".mp4"], .empty, []⟩ [.prepare "/work/out"]
      ["work", "out"] 1 :=
    ⟨[], "/work/out", [], rfl, ⟨_, rfl⟩, by decide +kernel, by decide +kernel⟩
  exact absurd (kept _ _ [.prepare "//work/out"] "/work/out/a.mp4" {} _ "a.mp4" 1 rfl
    (by decide +kernel) prepared) (by decide +kernel)

/-- A file stays if its directory is prepared with the same number of leading slashes each time. -/
theorem created_stays (fresh : start.sweeper.swept = [])
    (inside : Path.place path = place ++ [name]) (prepared : start.Prepared before place n)
    (alike : ∀ dir, .prepare dir ∈ later → Path.place dir = place → Path.slashes dir = n) :
    ((start.after (before ++ .create path file :: later)).files.at? (place ++ [name])).isSome := by
  rw [Option.isSome_iff_ne_none, ne_eq, gone_iff fresh inside]
  rintro ⟨xs, dir, ys, rfl, deletes, -⟩
  exact deletes.respelled prepared (alike dir (by simp) deletes.same)

end Disk
end Montage
