import Montage.Cli
import Montage.Proofs.Render.Plan
import Montage.Proofs.Service.Alone

/-!
# The job of the `render` command

The command submits one job to a service of its own and waits for it (`render_made`). Nobody else
works on the disk of that service, so the job goes by the plan of its request: what is started was
planned (`started_planned`), and only a timeline that is refused is blamed (`refused_of_blamed`).
-/
namespace Montage

/-! ## The fields of a request -/

namespace RenderRequest

/-- The value of a field in a request: truth values have become numbers. -/
def fieldOf : Json → Json
  | .bool b => .int (if b then 1 else 0)
  | v => v

theorem memberValues_ok {fields read : Fields} (h : memberValues fieldValue fields = .ok read) :
    read = fields.map fun v => (v.1, fieldOf v.2) := by
  induction fields generalizing read with
  | nil =>
    cases h
    rfl
  | cons field rest ih =>
    obtain ⟨name, v⟩ := field
    unfold memberValues at h
    cases others : memberValues fieldValue rest with
    | bad ms =>
      rw [others] at h
      cases v <;> cases h
    | ok values =>
      rw [others] at h
      cases v <;> cases h <;> rw [ih others] <;> rfl

/-- What a request is made of. -/
theorem make_ok {data : Json} {fields : Fields} {output : OutputOptions} {q : RenderRequest}
    (h : make data fields output = .ok q) :
    q.timeline = data ∧ q.output = output ∧ q.fields = fields.map fun v => (v.1, fieldOf v.2) := by
  unfold make at h
  cases read : memberValues fieldValue fields with
  | bad ms =>
    rw [read] at h
    cases h
  | ok values =>
    rw [read] at h
    cases h
    exact ⟨rfl, rfl, memberValues_ok read⟩

end RenderRequest

namespace Cli

open Service

variable {w : Surroundings} {o : Order} {data : Json} {fields : Fields} {q : RenderRequest}
  {j : Job}

/-- A file with a text. -/
def fileOf (text : String) : StoredFile := { content := Text.encode text }

theorem of_inputs {p : Json → Fields → Bool}
    (h : (match inputs w o with
      | .ok (.ok (data, fields)) => p data fields
      | _ => false) = true) :
    ∃ data fields, inputs w o = .ok (.ok (data, fields)) ∧ p data fields = true := by
  split at h
  · next data fields found => exact ⟨data, fields, found, h⟩
  · cases h

theorem load_of_inputs (found : inputs w o = .ok (.ok (data, fields))) :
    load w.files o.timeline = .ok (.ok data) := by
  unfold inputs at found
  rcases loaded : load w.files o.timeline with b | r | v <;> rw [loaded] at found
  · cases found
  · cases found
  · dsimp only [bind, Except.bind] at found
    rcases read : loadFields w.files o.fields with b | r | members <;> rw [read] at found <;>
      cases found
    rfl

/-- The setup of the service that the command uses. -/
def setupFor (w : Surroundings) (o : Order) : Setup :=
  Setup.make w.settings (libraryFor w o) o.outputDir none

/-- The disk on which the command begins. -/
def diskFor (w : Surroundings) : Disk := ⟨Sweeper.fresh w.settings.sweptExtensions, w.files, []⟩

/-- The service with the job of a request. -/
def submitted (w : Surroundings) (o : Order) (q : RenderRequest) : Service :=
  ((Service.fresh (setupFor w o) (diskFor w).sweeper w.files).submit q w.encoder false).2

/-- What comes of the job of a request: its record, and the service in the end. -/
def rendering (w : Surroundings) (o : Order) (q : RenderRequest) : Except Failure Job × Service :=
  (submitted w o q).wait (Registry.idOf 1)

theorem submit_eq (w : Surroundings) (o : Order) (q : RenderRequest) :
    (fresh (setupFor w o) (diskFor w).sweeper w.files).submit q w.encoder false =
      (.ok (Registry.idOf 1), submitted w o q) := by
  obtain ⟨_, submits, -⟩ := submit_fresh (setupFor w o) (diskFor w).sweeper w.files q w.encoder
    false fun _ => false
  rw [submitted, submits]

/-- The command reports the record of its job. -/
theorem render_made (loaded : inputs w o = .ok (.ok (data, fields)))
    (made : RenderRequest.make data fields o.output = .ok q) :
    render w o = match (rendering w o q).1 with
      | .ok j => .ok { exit := exitOf j, printed := line (Json.print j.toJson) }
      | .error f => .error (.failure f) := by
  have submits : (fresh (Setup.make w.settings (libraryFor w o) o.outputDir none)
    (Sweeper.fresh w.settings.sweptExtensions) w.files).submit q w.encoder false =
      (.ok (Registry.idOf 1), submitted w o q) := submit_eq w o q
  rw [render, loaded, rendering]
  dsimp only [bind, Except.bind]
  rw [made]
  dsimp only [Parsed.toExcept, Except.mapError]
  rw [submits]
  dsimp only
  cases ((submitted w o q).wait (Registry.idOf 1)).1 <;> rfl

/-- The job is alone, and goes by its plan. -/
theorem alone_submitted (w : Surroundings) (o : Order) (q : RenderRequest) :
    (submitted w o q).Alone (setupFor w o) (Registry.idOf 1)
      (Scene.Charted (setupFor w o) (diskFor w) q) := by
  refine alone_submit (setupFor w o) (diskFor w).sweeper w.files q w.encoder false _
    fun w' j disk known none => ?_
  refine ⟨rfl, disk, j, known, fun e is_error => ?_⟩
  cases none.symm.trans is_error

/-- No step of a run departs from its plan, nor does the clock matter. -/
theorem lasting_charted (setup : Setup) (d : Disk) (q : RenderRequest) :
    Scene.Lasting setup (Scene.Charted setup d q) where
  step h step := step.charted h
  later now h := h.later now

/-- Every encoder that the command starts gets arguments that were planned. -/
theorem started_planned {argv : List String}
    (started : argv ∈ (rendering w o q).2.shared.started) :
    (setupFor w o).Plans (diskFor w) q argv := by
  unfold rendering at started
  have waited := ((alone_submitted w o q).wait (lasting_charted _ _ _)).1
  generalize (submitted w o q).wait (Registry.idOf 1) = outcome at started waited
  obtain ⟨r, -, charted⟩ := waited.run
  rcases charted.charts.follows argv started with before | planned
  · cases before
  · exact planned

/-- A timeline that is blamed is refused. -/
theorem refused_of_blamed (waited : (rendering w o q).1 = .ok j)
    (blamed : j.error.map (·.code) = some Failure.timelineCode) : (setupFor w o).Refuses q := by
  unfold rendering at waited
  obtain ⟨-, told⟩ := (alone_submitted w o q).wait (lasting_charted _ _ _)
  obtain ⟨m, charted, job⟩ := told j waited
  obtain ⟨i, known, error⟩ := charted.job
  cases job.symm.trans known
  obtain ⟨e, is_error, code⟩ := Option.map_eq_some_iff.1 blamed
  exact error e is_error code

end Cli
end Montage
