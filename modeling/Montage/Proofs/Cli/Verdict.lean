import Montage.Proofs.Cli.Rendering
import Montage.Proofs.Service.Refused

/-!
# What the commands say of a timeline

The `validate` command only checks a document, whereas the job of the `render` command reads it as
well. So the two agree on a document unless it passes the check although it has the wrong types
(`Mistyped`), and unless the check breaks off, which ends neither command with a verdict. A job
whose time is up before it has begun has no verdict either.
-/
namespace Montage.Cli

open Service

variable {w : Surroundings} {o : Order} {data : Json} {fields : Fields} {q : RenderRequest}
  {j : Job}

/-- A command comes to its end with a code. -/
def Ends (outcome : Except Break Report) (code : Nat) : Prop := ∃ r, outcome = .ok r ∧ r.exit = code

/-- A document passes the check although its types are not those of a timeline. -/
def Mistyped (canvas : Canvas) (data : Json) : Prop :=
  ∃ report ms, check data = .ok report ∧ report.isValid = true ∧
    Timeline.ofJson (.ok canvas) data = .error ms

instance (canvas : Canvas) (data : Json) : Decidable (Mistyped canvas data) :=
  match checked : check data, read : Timeline.ofJson (.ok canvas) data with
  | .ok report, .error ms =>
    if valid : report.isValid then .isTrue ⟨report, ms, checked, valid, read⟩
    else .isFalse fun ⟨_, _, checked', valid', _⟩ => by
      cases checked.symm.trans checked'
      exact valid valid'
  | .error _, _ => .isFalse fun ⟨_, _, checked', _, _⟩ => by cases checked.symm.trans checked'
  | _, .ok _ => .isFalse fun ⟨_, _, _, _, read'⟩ => by cases read.symm.trans read'

/-- Such a document is refused. -/
theorem Mistyped.refused {canvas : Canvas} (h : Mistyped canvas data) :
    ∃ list, Timeline.accept (.ok canvas) data = .error (.issues list) := by
  obtain ⟨report, ms, checked, valid, read⟩ := h
  rw [Timeline.accept, checked]
  dsimp only
  rw [if_pos valid, read]
  exact ⟨_, rfl⟩

/-! ## The `validate` command -/

theorem validate_ends (loaded : load w.files o.timeline = .ok (.ok data)) :
    Ends (validate w o) 0 ↔ ∃ report, check data = .ok report ∧ report.isValid = true := by
  unfold Ends validate
  rw [loaded]
  dsimp only [bind, Except.bind]
  cases checked : check data with
  | error f => simp [Except.mapError]
  | ok report =>
    dsimp only [Except.mapError]
    cases valid : report.isValid <;> simp [valid, pure, Except.pure]

/-- A document that passes the check is accepted unless it has the wrong types. -/
theorem passes_iff (canvas : Canvas) (data : Json) :
    (∃ report, check data = .ok report ∧ report.isValid = true) ↔
      (∃ t, Timeline.accept (.ok canvas) data = .ok t) ∨ Mistyped canvas data := by
  unfold Timeline.accept Mistyped
  cases checked : check data with
  | error f => simp
  | ok report =>
    cases valid : report.isValid with
    | false => simp [valid]
    | true => cases read : Timeline.ofJson (.ok canvas) data <;> simp [valid]

/-! ## The `render` command -/

theorem exitOf_eq_one : exitOf j = 1 ↔
    j.state ≠ .completed ∧ j.error.map (·.code) = some Failure.timelineCode := by
  unfold exitOf
  split
  · simp_all
  · split <;> simp_all

/-- The job is to blame for the end of the command just if its timeline is refused in time. -/
theorem render_ends (loaded : inputs w o = .ok (.ok (data, fields)))
    (made : RenderRequest.make data fields o.output = .ok q) :
    Ends (render w o) 1 ↔ (setupFor w o).expires = false ∧
      ∃ list, Timeline.accept (.ok w.settings.canvas) data = .error (.issues list) := by
  obtain ⟨timeline, -⟩ := RenderRequest.make_ok made
  have refusal {list : List Issue} (refused : Timeline.accept (.ok w.settings.canvas) data =
      .error (.issues list)) : ∃ j, (rendering w o q).1 = .ok j ∧ j.state = .failed ∧
        j.error.map (·.code) = some ((setupFor w o).refusal list).code :=
    wait_refused _ _ _ (submit_eq w o q) (by rw [timeline]; exact refused)
  rw [Ends, render_made loaded made]
  constructor
  · rintro ⟨r, reported, exit⟩
    cases waited : (rendering w o q).1 with
    | error f =>
      rw [waited] at reported
      cases reported
    | ok j =>
      rw [waited] at reported
      cases reported
      obtain ⟨-, blamed⟩ := exitOf_eq_one.1 exit
      obtain ⟨list, refused⟩ := refused_of_blamed waited blamed
      rw [timeline] at refused
      refine ⟨?_, list, refused⟩
      -- a job that ran out of time would have been cancelled, and so not be to blame
      obtain ⟨i, waited', -, code⟩ := refusal refused
      cases waited.symm.trans waited'
      rw [blamed, Setup.refusal] at code
      by_contra expires
      rw [if_pos (Bool.eq_true_of_not_eq_false expires)] at code
      exact absurd code (by decide)
  · rintro ⟨ahead, list, refused⟩
    obtain ⟨j, waited, failed, code⟩ := refusal refused
    rw [waited]
    refine ⟨_, rfl, exitOf_eq_one.2 ⟨by rw [failed]; decide, ?_⟩⟩
    rw [code, Setup.refusal, ahead]
    rfl

/-! ## Both -/

/-- What the commands say of a document, and that they agree on it just if it is not one with the
wrong types and the check does not break off. -/
theorem verdicts (loaded : load w.files o.timeline = .ok (.ok data)) :
    (Ends (validate w o) 0 ↔ (∃ t, Timeline.accept (.ok w.settings.canvas) data = .ok t) ∨
      Mistyped w.settings.canvas data) ∧
    ∀ fields q, inputs w o = .ok (.ok (data, fields)) →
      RenderRequest.make data fields o.output = .ok q →
      (Ends (render w o) 1 ↔ (setupFor w o).expires = false ∧
        ∃ list, Timeline.accept (.ok w.settings.canvas) data = .error (.issues list)) ∧
      ((setupFor w o).expires = false →
        ((Ends (validate w o) 0 ↔ ¬Ends (render w o) 1) ↔
          ¬Mistyped w.settings.canvas data ∧ ∀ f, check data ≠ .error f)) := by
  have passes := validate_ends loaded
  refine ⟨passes.trans (passes_iff _ data), fun fields q found made => ?_⟩
  have rendered := render_ends found made
  refine ⟨rendered, fun ahead => ?_⟩
  rw [passes, rendered, ahead, Timeline.accept, Mistyped]
  cases checked : check data with
  | error f => simp
  | ok report =>
    cases valid : report.isValid with
    | false => simp [valid]
    | true => cases read : Timeline.ofJson (.ok w.settings.canvas) data <;> simp [valid]

/-- The text of a timeline with a title in letters of some size. -/
def titleText (size : String) : String :=
  "\x7b\"tracks\": [\x7b\"clips\": [\x7b\"type\": \"text\", \"text\": \"Hello\", " ++
    "\"duration\": 5, \"style\": \x7b\"fontSize\": " ++ size ++ "\x7d\x7d]\x7d]\x7d"

/-- A place with this timeline. -/
def titled (size : String) : Surroundings where
  settings := .standard
  files := Files.empty.put (Path.place "t.json") (fileOf (titleText size))
  encoder := {}

/-- What is asked of that file. -/
def order : Order where
  verb := .render
  verbose := false
  timeline := "t.json"
  fields := none
  output := {}
  assetsDir := none
  outputDir := none

/-- A timeline that is accepted is valid and not to blame. -/
theorem verdicts_hello :
    Ends (validate (titled "48") order) 0 ∧ ¬Ends (render (titled "48") order) 1 := by
  obtain ⟨data, fields, found, facts⟩ := of_inputs (w := titled "48") (o := order)
    (p := fun data fields => fields.isEmpty &&
      (Timeline.accept (.ok Settings.standard.canvas) data).isOk)
    (by decide +kernel)
  rw [Bool.and_eq_true, List.isEmpty_iff] at facts
  obtain ⟨rfl, accepted⟩ := facts
  obtain ⟨valid, both⟩ := verdicts (load_of_inputs found)
  cases read : Timeline.accept (.ok Settings.standard.canvas) data with
  | error e =>
    rw [read] at accepted
    cases accepted
  | ok t =>
    refine ⟨valid.2 (.inl ⟨t, read⟩), fun blamed => ?_⟩
    obtain ⟨-, list, refused⟩ := (both [] _ found rfl).1.1 blamed
    cases read.symm.trans refused

/-- One that passes the check with the wrong types is valid and to blame. -/
theorem verdicts_mistyped : ∃ data, load (titled "\"abc\"").files order.timeline = .ok (.ok data) ∧
    Ends (validate (titled "\"abc\"") order) 0 ∧
    (¬∃ t, Timeline.accept (.ok (titled "\"abc\"").settings.canvas) data = .ok t) ∧
    Ends (render (titled "\"abc\"") order) 1 := by
  obtain ⟨data, fields, found, facts⟩ := of_inputs (w := titled "\"abc\"") (o := order)
    (p := fun data fields => fields.isEmpty && decide (Mistyped Settings.standard.canvas data))
    (by decide +kernel)
  rw [Bool.and_eq_true, List.isEmpty_iff, decide_eq_true_eq] at facts
  obtain ⟨rfl, mistyped⟩ := facts
  have loaded := load_of_inputs found
  obtain ⟨list, refused⟩ := mistyped.refused
  refine ⟨data, loaded, (validate_ends loaded).2 ((passes_iff _ data).2 (.inr mistyped)), ?_,
    (render_ends found rfl).2 ⟨by decide +kernel, list, refused⟩⟩
  rintro ⟨t, accepted⟩
  cases accepted.symm.trans refused

end Montage.Cli
