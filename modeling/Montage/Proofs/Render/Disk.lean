import Mathlib.Logic.Relation
import Montage.Proofs.Command.Paths
import Montage.Render.Run

/-!
# What becomes of files

`Disk` is the part of what all runs share that bears on files, and `Disk.Step` lists what a service
does to it: the output directory is prepared, an encoder is started, an encoder writes its output.
Files vanish in one step only, the first preparation, and only the `leftovers` of the directory do.
As no encoder starts before (`Disk.Ordered`), the leftovers are known from the beginning: any other
file stays (`isSome_of_steps`), and each of them is gone after the preparation unless an encoder
was told to write to its place (`at?_of_leftover`).
-/
namespace Montage

/-- What bears on files: which directories were swept, what files there are, and which encoders
were started. -/
structure Disk where
  sweeper : Sweeper
  files : Files
  started : List (List String)

def Shared.disk (w : Shared) : Disk := ⟨w.sweeper, w.files, w.started⟩

namespace Disk

/-- The places whose files the next preparation of a directory deletes. -/
def leftovers (d : Disk) (dir : String) : List Place :=
  if d.sweeper.hasSwept dir then []
  else d.sweeper.targets d.files (Path.place (Path.absolute dir))

/-- An encoder was told to write its output to a path. -/
def Told (d : Disk) (path : String) : Prop := ∃ argv ∈ d.started, argv.getLast? = some path

/-- An encoder writes its output. -/
inductive Write (path : String) (d : Disk) : Disk → Prop
  | intro (size : Int) : Write path d { d with files := d.files.put (Path.place path) { size } }

/-- What a service does to the disk: its output directory is prepared; an encoder is started, but
not before that; an encoder writes its output. -/
inductive Step (dir : String) (d : Disk) : Disk → Prop
  | prepare {sweeper files n} (done : d.sweeper.prepare d.files dir = .ok (sweeper, files, n)) :
      Step dir d { d with sweeper, files }
  | start (argv : List String) (swept : d.sweeper.hasSwept dir = true) :
      Step dir d { d with started := d.started ++ [argv] }
  | write {path d'} (told : d.Told path) (write : Write path d d') : Step dir d d'

abbrev Writes (path : String) : Disk → Disk → Prop := Relation.ReflTransGen (Write path)

abbrev Steps (dir : String) : Disk → Disk → Prop := Relation.ReflTransGen (Step dir)

/-- No encoder starts before the directory is swept. -/
def Ordered (d : Disk) (dir : String) : Prop := d.sweeper.hasSwept dir = true ∨ d.started = []

end Disk

/-! ## Sweeping -/

theorem Files.at?_foldl_remove (files : Files) (gone : List Place) (p : Place) :
    (gone.foldl Files.remove files).at? p = if p ∈ gone then none else files.at? p := by
  induction gone generalizing files with
  | nil => rfl
  | cons q gone ih =>
    rw [List.foldl_cons, ih, Files.at?_remove]
    by_cases now : p = q <;> by_cases later : p ∈ gone <;> simp [now, later]

/-- A directory that has been prepared is swept, and its leftovers are gone. -/
theorem Sweeper.prepare_ok {d : Disk} {dir : String} {sweeper : Sweeper} {files : Files} {n : Nat}
    (h : d.sweeper.prepare d.files dir = .ok (sweeper, files, n)) :
    sweeper.hasSwept dir = true ∧
      ∀ p, files.at? p = if p ∈ d.leftovers dir then none else d.files.at? p := by
  unfold Sweeper.prepare at h
  obtain ⟨made, hmade, h⟩ := Graph.except_bind_ok.1 h
  have made_eq : made = d.files.addDirectory (Path.place (Path.absolute dir)) := by
    unfold Files.makeDirectory at hmade
    split at hmade <;> cases hmade
    rfl
  subst made_eq
  unfold Disk.leftovers
  split at h
  · next swept =>
    cases h
    exact ⟨swept, fun p => by rw [hasSwept, if_pos swept]; rfl⟩
  · next swept =>
    cases h
    refine ⟨by simp [hasSwept], fun p => ?_⟩
    rw [hasSwept, if_neg swept, Files.at?_foldl_remove]
    rfl

namespace Disk

variable {dir : String} {d d' : Disk} {path : String} {p : Place}

/-! ## Steps -/

theorem leftovers_of_swept (swept : d.sweeper.hasSwept dir = true) : d.leftovers dir = [] :=
  if_pos swept

theorem Write.at? (h : Write path d d') (p : Place) : (d'.files.at? p).isSome =
    (p = Path.place path || (d.files.at? p).isSome) := by
  obtain ⟨size⟩ := h
  rw [Files.at?_put]
  by_cases here : p = Path.place path <;> simp [here]

theorem Write.sweeper (h : Write path d d') : d'.sweeper = d.sweeper := by
  cases h
  rfl

theorem Write.started (h : Write path d d') : d'.started = d.started := by
  cases h
  rfl

theorem Writes.started (h : Writes path d d') : d'.started = d.started := by
  induction h with
  | refl => rfl
  | tail _ write ih => exact write.started.trans ih

/-- What an encoder writes, where it was told to. -/
theorem Writes.steps (h : Writes path d d') (told : d.Told path) : Steps dir d d' := by
  induction h with
  | refl => exact .refl
  | tail before write ih =>
    refine ih.tail (.write ?_ write)
    rwa [Told, Writes.started before]

theorem Step.swept (h : Step dir d d') (swept : d.sweeper.hasSwept dir = true) :
    d'.sweeper.hasSwept dir = true := by
  cases h with
  | prepare done => exact (Sweeper.prepare_ok done).1
  | start => exact swept
  | write _ write => exact write.sweeper ▸ swept

/-- After any step the directory is swept. -/
theorem Step.sweeps (h : Step dir d d') (ordered : d.Ordered dir) :
    d'.sweeper.hasSwept dir = true := by
  refine ordered.elim h.swept fun none => ?_
  cases h with
  | prepare done => exact (Sweeper.prepare_ok done).1
  | start argv swept => exact swept
  | write told =>
    obtain ⟨argv, mem, -⟩ := told
    rw [none] at mem
    cases mem

theorem Step.told (h : Step dir d d') (told : d.Told path) : d'.Told path := by
  obtain ⟨argv, mem, last⟩ := told
  refine ⟨argv, ?_, last⟩
  cases h with
  | prepare => exact mem
  | start => exact List.mem_append_left _ mem
  | write _ write => exact write.started ▸ mem

theorem Steps.swept (h : Steps dir d d') (swept : d.sweeper.hasSwept dir = true) :
    d'.sweeper.hasSwept dir = true := by
  induction h with
  | refl => exact swept
  | tail _ step ih => exact step.swept ih

theorem Steps.told (h : Steps dir d d') (told : d.Told path) : d'.Told path := by
  induction h with
  | refl => exact told
  | tail _ step ih => exact step.told ih

theorem Steps.ordered (h : Steps dir d d') (ordered : d.Ordered dir) : d'.Ordered dir := by
  induction h with
  | refl => exact ordered
  | tail _ step ih => exact .inl (step.sweeps ih)

/-- No step leaves other leftovers. -/
theorem Steps.leftovers (h : Steps dir d d') (ordered : d.Ordered dir)
    (left : p ∈ d'.leftovers dir) : p ∈ d.leftovers dir := by
  cases Relation.ReflTransGen.cases_tail h with
  | inl same => exact same ▸ left
  | inr last =>
    obtain ⟨m, before, step⟩ := last
    rw [leftovers_of_swept (step.sweeps (Steps.ordered before ordered))] at left
    cases left

/-! ## Which files stay -/

theorem Step.isSome (h : Step dir d d') (there : (d.files.at? p).isSome)
    (stays : p ∉ d.leftovers dir) : (d'.files.at? p).isSome := by
  cases h with
  | prepare done =>
    show (Files.at? _ p).isSome
    rw [(Sweeper.prepare_ok done).2, if_neg stays]
    exact there
  | start => exact there
  | write _ write => simp [write.at?, there]

/-- A file that is not one of the leftovers stays. -/
theorem isSome_of_steps (h : Steps dir d d') (ordered : d.Ordered dir)
    (there : (d.files.at? p).isSome) (stays : p ∉ d.leftovers dir) : (d'.files.at? p).isSome := by
  induction h with
  | refl => exact there
  | tail before step ih =>
    exact step.isSome ih fun left => stays (Steps.leftovers before ordered left)

/-- A file that comes was written by an encoder. -/
theorem told_of_isSome (h : Steps dir d d') (absent : d.files.at? p = none)
    (there : (d'.files.at? p).isSome) : ∃ path, d'.Told path ∧ Path.place path = p := by
  induction h with
  | refl => simp [absent] at there
  | tail before step ih =>
    have old (there : (Files.at? _ p).isSome) : ∃ path, Told _ path ∧ Path.place path = p :=
      (ih there).imp fun path ⟨told, here⟩ => ⟨step.told told, here⟩
    cases step with
    | prepare done =>
      refine old ?_
      have there : (Files.at? _ p).isSome := there
      rw [(Sweeper.prepare_ok done).2] at there
      split at there
      · cases there
      · exact there
    | start => exact old there
    | write told write =>
      rw [write.at?, Bool.or_eq_true, decide_eq_true_eq] at there
      rcases there with here | there
      · exact ⟨_, by rwa [Told, write.started], here.symm⟩
      · exact old there

/-- A leftover is gone after the preparation, unless an encoder was told to write to its place. -/
theorem at?_of_leftover (h : Steps dir d d') (ordered : d.Ordered dir)
    (left : p ∈ d.leftovers dir) (swept : d'.sweeper.hasSwept dir = true)
    (untold : ∀ path, d'.Told path → Path.place path ≠ p) : d'.files.at? p = none := by
  have unswept : ¬d.sweeper.hasSwept dir = true := fun swept => by
    rw [leftovers_of_swept swept] at left
    cases left
  rcases Relation.ReflTransGen.cases_head h with rfl | ⟨m, first, later⟩
  · exact absurd swept unswept
  -- nothing else can happen before the preparation
  have gone : m.files.at? p = none := by
    cases first with
    | prepare done => exact ((Sweeper.prepare_ok done).2 p).trans (if_pos left)
    | start argv swept => exact absurd swept unswept
    | write told =>
      obtain ⟨argv, mem, -⟩ := told
      rw [ordered.resolve_left unswept] at mem
      cases mem
  cases there : d'.files.at? p with
  | none => rfl
  | some file =>
    obtain ⟨path, told, here⟩ := told_of_isSome later gone (by rw [there]; rfl)
    exact absurd here (untold path told)

end Disk
end Montage
