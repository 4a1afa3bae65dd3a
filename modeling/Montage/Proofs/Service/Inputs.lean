import Montage.Proofs.Render.Inputs
import Montage.Proofs.Service.Moves

/-!
# Inputs of encoders

What a service does to files, whatever happens, is a chain of steps on its disk, and whatever its
jobs have looked up was there at some point of the chain (`Service.Tends`). Most of what happens is
`Calm`: it leaves the disk alone and nobody looks anything up. Only a turn can do more, and only one
that is the next stage of a job (`serve_tends`).

So a file that a job has found is still there when its encoder starts, unless it was one of the
leftovers of the output directory, which are swept between the two (`started_inputs`).
-/
namespace Montage

/-- A phase in which nothing is known that was not known before. -/
def Phase.Rests (p p' : Phase) : Prop :=
  (∀ dir d, p.Backed dir d → p'.Backed dir d) ∧ p'.files ⊆ p.files

namespace Phase.Rests

variable {p p' p'' : Phase}

theorem refl (p : Phase) : p.Rests p := ⟨fun _ _ => id, fun _ => id⟩

theorem trans (h : p.Rests p') (h' : p'.Rests p'') : p.Rests p'' :=
  ⟨fun dir d backed => h'.1 dir d (h.1 dir d backed), fun _ known => h.2 (h'.2 known)⟩

/-- A phase in which nothing is known. -/
theorem of_idle (backed : ∀ dir d, p'.Backed dir d) (none : p'.files = []) : p.Rests p' :=
  ⟨fun dir d _ => backed dir d, by simp [none]⟩

/-- An encoder may be waited for or not. -/
theorem encoding (t : Timeline) (c : Command) (pause pause' : Pause) :
    (Phase.encoding t c pause).Rests (.encoding t c pause') := ⟨fun _ _ => id, fun _ => id⟩

end Phase.Rests

theorem Run.id_of_noted {r q : Run} (h : q = r.noted q) : q.id = r.id := by
  rw [h]
  rfl

theorem Run.phase_of_noted {r q : Run} (h : q = r.noted q) : q.phase = r.phase := by
  rw [h]
  rfl

/-- A file was there at some point of a chain of steps. -/
def Disk.Seen (dir : String) (d d' : Disk) (path : String) : Prop :=
  ∃ m, Disk.Steps dir d m ∧ Disk.Steps dir m d' ∧ m.files.isFile path = true

namespace Service

/-- How far a job is. One that is not there has not begun. -/
def phase (s : Service) (id : String) : Phase := ((s.run? id).map (·.phase)).getD .unstarted

theorem phase_of_run? {s : Service} {id : String} {r : Run} (h : s.run? id = some r) :
    s.phase id = r.phase := by
  rw [phase, h]
  rfl

theorem phase_putRun (s : Service) (r : Run) (id : String) : (s.putRun r).phase id =
    if id = r.id ∧ (s.run? id).isSome then r.phase else s.phase id := by
  have find : (s.putRun r).run? id =
      (s.run? id).map fun old => if old.id == r.id then r else old := by
    simp only [run?, putRun, List.find?_map]
    congr 2
    funext old
    by_cases h : old.id = r.id <;> simp [h]
  rw [phase, find, phase]
  cases run : s.run? id with
  | none => simp
  | some old => by_cases own : id = r.id <;> simp [id_of_run? run, own]

/-! ## Calm -/

/-- Nothing happens to the disk, and nobody looks anything up. -/
structure Calm (s s' : Service) : Prop where
  setup : s'.setup = s.setup
  disk : s'.shared.disk = s.shared.disk
  phases : ∀ id, (s.phase id).Rests (s'.phase id)

namespace Calm

variable {s s' s'' : Service}

theorem refl (s : Service) : s.Calm s := ⟨rfl, rfl, fun _ => .refl _⟩

theorem trans (h : s.Calm s') (h' : s'.Calm s'') : s.Calm s'' :=
  ⟨h'.setup.trans h.setup, h'.disk.trans h.disk, fun id => (h.phases id).trans (h'.phases id)⟩

/-- The line is nobody's knowledge. -/
theorem ready (h : s.Calm s') (ready : List Turn) : s.Calm { s' with ready } :=
  ⟨h.setup, h.disk, h.phases⟩

/-- Something that bears neither on runs nor on the disk. -/
theorem aside (setup : s'.setup = s.setup) (disk : s'.shared.disk = s.shared.disk)
    (runs : s'.runs = s.runs) : s.Calm s' := by
  refine ⟨setup, disk, fun id => ?_⟩
  have same : s'.phase id = s.phase id := by
    rw [phase, run?, runs]
    rfl
  exact same ▸ .refl _

theorem putRun {r : Run} (rests : (s.phase r.id).Rests r.phase) : s.Calm (s.putRun r) := by
  refine ⟨rfl, rfl, fun id => ?_⟩
  rw [phase_putRun]
  split
  · next own => exact own.1 ▸ rests
  · exact .refl _

/-- A new run does not bear on the others. -/
theorem enrol {r : Run} {w : Shared} (disk : w.disk = s.shared.disk)
    (rests : Phase.unstarted.Rests r.phase) :
    s.Calm { s with shared := w, runs := s.runs ++ [r] } := by
  refine ⟨rfl, disk, fun id => ?_⟩
  have find : Service.run? { s with shared := w, runs := s.runs ++ [r] } id =
      (s.run? id).or (if id = r.id then some r else none) := run?_enrol rfl id
  rw [phase, phase, find]
  cases s.run? id with
  | some old => exact .refl _
  | none =>
    rw [Option.none_or]
    split
    · exact rests
    · exact .refl _

end Calm

section

variable {s : Service} {r : Run}

/-- A part of a stage that leaves the disk alone. -/
theorem calm_perform {α : Type} {act : Act α} (via : Act.Via Eq act) (r : Run) :
    s.Calm (s.perform r act).2.1 := .aside rfl (via ⟨s.shared, r⟩).1.symm rfl

theorem calm_retire (r : Run) : s.Calm (s.retire r) := by
  refine (Calm.putRun ?_).ready _
  exact .of_idle (fun _ _ => trivial) rfl

theorem calm_conclude (r : Run) (failure : Option Failure) : s.Calm (s.conclude r failure) := by
  cases failure with
  | none => exact calm_retire _
  | some f => exact (calm_perform (Act.via_failJob f) r).trans (calm_retire _)

theorem calm_finish (r : Run) (outcome : Outcome) : s.Calm (s.finish r outcome) := by
  unfold finish
  split
  · exact calm_conclude r _
  · refine (Calm.putRun ?_).ready _
    exact .of_idle (fun _ _ => trivial) rfl

theorem calm_stopStages (here : s.phase r.id = r.phase) : s.Calm (s.stopStages r) := by
  unfold stopStages
  dsimp only
  split
  · next phase =>
    refine (Calm.putRun ?_).ready _
    rw [here, phase]
    exact .encoding _ _ _ _
  · next phase =>
    refine (Calm.putRun ?_).ready _
    rw [here, phase]
    exact .encoding _ _ _ _
  · exact .putRun (here ▸ .refl _)

theorem calm_stop (here : s.phase r.id = r.phase) : s.Calm (s.stop r) := by
  unfold stop
  split
  · exact .putRun (here ▸ .refl _)
  · exact .putRun (here ▸ .refl _)
  · split
    · exact (Calm.putRun (here ▸ .refl _)).ready _
    · exact calm_stopStages here

theorem calm_hearLimit (here : s.phase r.id = r.phase) : s.Calm (s.hearLimit r) := by
  unfold hearLimit
  split
  · exact .refl s
  · exact calm_conclude _ _
  · exact .refl s
  · exact calm_stopStages (r := { r with stopCause := some .timeout }) here
  · exact .refl s

theorem calm_hearCancel (here : s.phase r.id = r.phase) : s.Calm (s.hearCancel r) := by
  unfold hearCancel
  split
  · exact .refl s
  · exact calm_conclude _ _
  · exact calm_conclude _ _
  · exact calm_stopStages (r := { r with stopCause := some .cancel, limitAt := none }) here

theorem calm_hearEnd (r : Run) : s.Calm (s.hearEnd r) := by
  unfold hearEnd
  split
  · split <;> exact calm_conclude _ _
  · exact .refl s

theorem calm_close (here : s.phase r.id = r.phase) (reason : String) :
    s.Calm (s.close r reason) := by
  have via : Act.Via Eq (Act.failJob (.cancelled reason)) := Act.via_failJob _
  obtain ⟨-, notes⟩ := via ⟨s.shared, r⟩
  have id := Run.id_of_noted notes
  have phase := Run.phase_of_noted notes
  refine (calm_perform via r).trans (.putRun ?_)
  show (s.phase (s.perform r (Act.failJob (.cancelled reason))).2.2.id).Rests
    (s.perform r (Act.failJob (.cancelled reason))).2.2.phase
  exact phase ▸ id ▸ here ▸ .refl _

theorem calm_ringLimit (here : s.phase r.id = r.phase) : s.Calm (s.ringLimit r) := by
  unfold ringLimit
  split
  · split
    · exact (Calm.putRun (r := { r with limitAt := none }) (here ▸ .refl _)).ready _
    · exact .refl s
  · exact .refl s

theorem calm_ringWake (here : s.phase r.id = r.phase) : s.Calm (s.ringWake r) := by
  unfold ringWake
  split
  · next phase =>
    split
    · refine (Calm.putRun ?_).ready _
      rw [here, phase]
      exact .encoding _ _ _ _
    · exact .refl s
  · exact .refl s

theorem calm_onRun {f : Service → Run → Service}
    (h : ∀ r, s.phase r.id = r.phase → s.Calm (f s r)) (id : String) : s.Calm (s.onRun id f) := by
  unfold onRun
  split
  · next r run =>
    obtain rfl := id_of_run? run
    exact h r (phase_of_run? run)
  · exact .refl s

theorem calm_attend (c : Caller) : s.Calm (s.attend c) := by
  refine calm_onRun (fun r here => ?_) c.job
  split
  · exact (Calm.refl s).ready _
  · exact .putRun (r := { r with callers := r.callers ++ [c] }) (here ▸ .refl _)

theorem calm_answer (c : Caller) (reply : Reply) : s.Calm (s.answer c reply) := .aside rfl rfl rfl

theorem calm_resume (c : Caller) : s.Calm (s.resume c) := by
  unfold resume
  split
  · exact calm_answer c _
  · exact (calm_onRun (fun r here => calm_close here _) c.job).trans (calm_answer c _)

theorem calm_submit (request : RenderRequest) (script : EncoderScript) (observes : Bool)
    (objects : Float → Bool) : s.Calm (s.submit request script observes objects).2 := by
  unfold submit
  dsimp only
  split
  · exact .aside rfl rfl rfl
  · next j _ =>
    refine (Calm.enrol ?_ ?_).ready _
    · rfl
    · exact .refl _

theorem calm_call (id : String) (aim : Aim) : s.Calm (s.call id aim) := by
  have counted : s.Calm { s with calls := s.calls + 1 } := .aside rfl rfl rfl
  unfold call
  dsimp only
  split
  · exact counted.trans (calm_answer _ _)
  · exact counted.trans (calm_attend _)
  · refine counted.trans (.trans (calm_onRun (fun r here => ?_) id) (calm_attend _))
    exact calm_stop (r := { r with cancelReason := _ }) here

end

end Service

/-- Whether a move leaves the files to the service. -/
def Move.isOwn : Move → Bool
  | files _ => false
  | _ => true

namespace Service

variable {s : Service}

/-- Whatever is not a turn is calm. -/
theorem calm_act {m : Move} (own : m.isOwn = true) (idle : m ≠ .turn) : s.Calm (m.act s) := by
  cases m with
  | submit request script observes objects => exact calm_submit request script observes objects
  | call id aim => exact calm_call id aim
  | render request script observes objects =>
    have submitted := calm_submit (s := s) request script observes objects
    show s.Calm (s.render request script observes objects)
    unfold render
    generalize s.submit request script observes objects = result at submitted
    obtain ⟨failure | id, s'⟩ := result
    · exact submitted
    · exact submitted.trans (calm_call id .wait)
  | interrupt id => exact calm_onRun (fun r here => calm_stop here) id
  | turn => exact absurd rfl idle
  | ring id =>
    exact (calm_onRun (fun r here => calm_ringLimit here) id).trans
      (calm_onRun (fun r here => calm_ringWake here) id)
  | clock moment =>
    show s.Calm (if s.shared.now < moment then s.moveTo moment else s)
    split
    · exact .aside rfl rfl rfl
    · exact .refl s
  | follow id =>
    obtain ⟨bus, same, -⟩ := follow_shared s id
    show s.Calm (s.follow id).2
    rw [same]
    exact .aside rfl rfl rfl
  | listen id => exact .aside rfl rfl rfl
  | look id queue =>
    obtain ⟨bus, same, -⟩ := look_shared s id queue
    show s.Calm (s.look id queue).2
    rw [same]
    exact .aside rfl rfl rfl
  | read queue => exact .aside rfl rfl rfl
  | leave job queue => exact .aside rfl rfl rfl
  | elsewhere c =>
    show s.Calm (s.elsewhere c)
    unfold elsewhere
    split
    · exact .refl s
    · exact .aside rfl rfl rfl
  | files fs => cases own

/-! ## Turns -/

/-- What the phases of all jobs rest on. -/
structure Backed (s : Service) : Prop where
  ordered : s.shared.disk.Ordered s.setup.outputDir
  phases : ∀ id, (s.phase id).Backed s.setup.outputDir s.shared.disk

/-- What becomes of files, whatever happens: the disk takes steps, and what a job has looked up was
there at some point of them. -/
structure Tends (s s' : Service) : Prop where
  setup : s'.setup = s.setup
  backed : s'.Backed
  steps : Disk.Steps s.setup.outputDir s.shared.disk s'.shared.disk
  found : ∀ id, ∀ path ∈ (s'.phase id).files, path ∈ (s.phase id).files ∨
    Disk.Seen s.setup.outputDir s.shared.disk s'.shared.disk path

variable {s s' s'' : Service} {r : Run} {id : String}

theorem Tends.refl (backed : s.Backed) : s.Tends s := ⟨rfl, backed, .refl, fun _ _ => .inl⟩

theorem Tends.trans (h : s.Tends s') (h' : s'.Tends s'') : s.Tends s'' where
  setup := h'.setup.trans h.setup
  backed := h'.backed
  steps := h.steps.trans (h.setup ▸ h'.steps)
  found id path hpath := by
    have later : Disk.Steps s.setup.outputDir s'.shared.disk s''.shared.disk := h.setup ▸ h'.steps
    rcases h'.found id path hpath with known | ⟨m, before, after, there⟩
    · refine (h.found id path known).imp_right fun ⟨m, before, after, there⟩ => ?_
      exact ⟨m, before, after.trans later, there⟩
    · rw [h.setup] at before after
      exact .inr ⟨m, h.steps.trans before, after, there⟩

theorem Calm.tends (h : s.Calm s') (backed : s.Backed) : s.Tends s' where
  setup := h.setup
  backed := by
    refine ⟨?_, fun id => ?_⟩
    · rw [h.setup, h.disk]
      exact backed.ordered
    · rw [h.setup, h.disk]
      exact (h.phases id).1 _ _ (backed.phases id)
  steps := h.disk ▸ .refl
  found id path hpath := .inl ((h.phases id).2 hpath)

/-- An encoder that starts is told to read what its job has looked up, and not before the directory
has been swept. -/
def Starts (s : Service) (id : String) (s' : Service) : Prop :=
  s'.shared.started = s.shared.started ∨
    ∃ argv, s'.shared.started = s.shared.started ++ [argv] ∧
      s.shared.sweeper.hasSwept s.setup.outputDir = true ∧
      ∀ path ∈ Command.filesOf false argv.tail, path ∈ (s.phase id).files

theorem Calm.starts (h : s.Calm s') : s.Starts id s' := .inl (congrArg Disk.started h.disk)

/-- A stage has come to its end. -/
theorem arrive_cases (s : Service) (r : Run) (phase : Phase) :
    (∃ outcome, s.arrive r phase = s.finish r outcome) ∨
      ∃ ready, s.arrive r phase = { s.putRun { r with phase := phase } with ready } := by
  cases phase with
  | finished outcome => exact .inl ⟨outcome, rfl⟩
  | encoding t c pause => exact .inr ⟨_, rfl⟩
  | _ => exact .inr ⟨_, rfl⟩

/-- The disk takes steps. -/
theorem tends_shared {w : Shared} (backed : s.Backed)
    (steps : Disk.Steps s.setup.outputDir s.shared.disk w.disk) :
    s.Tends { s with shared := w } where
  setup := rfl
  backed := ⟨steps.ordered backed.ordered, fun id => (backed.phases id).steps steps⟩
  steps := steps
  found _ _ hpath := .inl hpath

/-- The disk takes steps, and a run comes to a phase with files that are there. -/
theorem tends_put {w : Shared} {q : Run} (backed : s.Backed)
    (steps : Disk.Steps s.setup.outputDir s.shared.disk w.disk)
    (own : q.phase.Backed s.setup.outputDir w.disk)
    (found : ∀ path ∈ q.phase.files,
      path ∈ (s.phase q.id).files ∨ s.shared.files.isFile path = true) (ready : List Turn) :
    s.Tends { { s with shared := w }.putRun q with ready } := by
  have phases (id : String) : Service.phase { { s with shared := w }.putRun q with ready } id =
      if id = q.id ∧ (s.run? id).isSome then q.phase else s.phase id :=
    phase_putRun { s with shared := w } q id
  refine ⟨rfl, ⟨Disk.Steps.ordered steps backed.ordered, fun id => ?_⟩, steps, fun id path => ?_⟩
  · rw [phases]
    split
    · exact own
    · exact (backed.phases id).steps steps
  · rw [phases]
    split
    · next here =>
      exact fun hpath => (here.1 ▸ found path hpath).imp_right fun there => ⟨_, .refl, steps, there⟩
    · exact .inl

/-- The next stage of a run, or its stop. -/
theorem work_tends (backed : s.Backed) (here : s.phase r.id = r.phase) :
    s.Tends (s.work r) ∧ s.Starts r.id (s.work r) := by
  unfold work
  split
  · have calm := calm_finish (s := s) { r with process := r.process.map Process.kill } .stopped
    exact ⟨calm.tends backed, calm.starts⟩
  · have stage := stage_advances s.setup (s := ⟨s.shared, r⟩) (here ▸ backed.phases r.id)
    have perform : s.perform r (Act.stage s.setup r.phase) =
        (((Act.stage s.setup r.phase).result ⟨s.shared, r⟩).1,
          { s with shared := ((Act.stage s.setup r.phase).result ⟨s.shared, r⟩).2.shared },
          ((Act.stage s.setup r.phase).result ⟨s.shared, r⟩).2.run) := rfl
    rw [perform]
    generalize (Act.stage s.setup r.phase).result ⟨s.shared, r⟩ = result at stage
    obtain ⟨answer, scene⟩ := result
    have id : scene.run.id = r.id := Run.id_of_noted stage.notes
    have worked : s.Tends { s with shared := scene.shared } := tends_shared backed stage.steps
    have starts : s.Starts r.id { s with shared := scene.shared } := by
      unfold Starts
      rw [here]
      exact stage.starts
    have ended (outcome : Outcome) :
        s.Tends ({ s with shared := scene.shared }.finish scene.run outcome) ∧
          s.Starts r.id ({ s with shared := scene.shared }.finish scene.run outcome) := by
      have calm := calm_finish (s := { s with shared := scene.shared }) scene.run outcome
      refine ⟨worked.trans (calm.tends worked.backed), ?_⟩
      rw [Starts, show Shared.started _ = _ from congrArg Disk.started calm.disk]
      exact starts
    cases answer with
    | error f => exact ended (.failed f)
    | ok phase =>
      obtain ⟨own, found⟩ := stage.ends phase rfl
      rcases arrive_cases { s with shared := scene.shared } scene.run phase with
        ⟨outcome, arrived⟩ | ⟨ready, arrived⟩
      · simp only [arrived]
        exact ended outcome
      · simp only [arrived]
        refine ⟨tends_put backed stage.steps own ?_ ready, starts⟩
        show ∀ path ∈ phase.files, path ∈ (s.phase scene.run.id).files ∨ _
        rw [id, here]
        exact found

/-- A job begins. -/
theorem start_tends (backed : s.Backed) (here : s.phase r.id = r.phase) :
    s.Tends (s.start r) ∧ s.Starts r.id (s.start r) := by
  have of_calm {s' : Service} (calm : s.Calm s') : s.Tends s' ∧ s.Starts r.id s' :=
    ⟨calm.tends backed, calm.starts⟩
  unfold start
  split
  · exact of_calm (calm_retire r)
  · split
    · exact work_tends backed here
    · refine of_calm ((Calm.putRun ?_).ready _)
      split <;> exact .of_idle (fun _ _ => trivial) rfl

/-- A turn. -/
theorem serve_tends (backed : s.Backed) (t : Turn) :
    s.Tends (s.serve t) ∧ s.Starts t.job (s.serve t) := by
  have of_calm {s' : Service} (calm : s.Calm s') : s.Tends s' ∧ s.Starts t.job s' :=
    ⟨calm.tends backed, calm.starts⟩
  have on {f : Service → Run → Service} (h : ∀ r, s.phase r.id = r.phase →
      s.Tends (f s r) ∧ s.Starts r.id (f s r)) (id : String) :
      s.Tends (s.onRun id f) ∧ s.Starts id (s.onRun id f) := by
    unfold onRun
    split
    · next r run =>
      obtain rfl := id_of_run? run
      exact h r (phase_of_run? run)
    · exact ⟨.refl backed, .inl rfl⟩
  cases t with
  | start id => exact on (fun r here => start_tends backed here) id
  | work id => exact on (fun r here => work_tends backed here) id
  | limit id => exact of_calm (calm_onRun (fun r here => calm_hearLimit here) id)
  | cancel id => exact of_calm (calm_onRun (fun r here => calm_hearCancel here) id)
  | settle id => exact of_calm (calm_onRun (fun r _ => calm_hearEnd r) id)
  | resume c => exact of_calm (calm_resume c)

/-! ## Histories -/

theorem act_tends (backed : s.Backed) {m : Move} (own : m.isOwn = true) : s.Tends (m.act s) := by
  by_cases turn : m = .turn
  · rw [turn]
    cases front : s.ready with
    | nil => exact (act_turn_nil front).symm ▸ .refl backed
    | cons t rest =>
      have popped := ((Calm.refl s).ready rest).tends backed
      exact (act_turn front).symm ▸ popped.trans (serve_tends popped.backed t).1
  · exact (calm_act own turn).tends backed

/-- What the phases rest on is there, whatever happens to the files. -/
theorem act_backed (backed : s.Backed) (m : Move) : (m.act s).Backed := by
  cases own : m.isOwn with
  | true => exact (act_tends backed own).backed
  | false =>
    cases m with
    | files fs =>
      refine ⟨backed.ordered, fun id => ?_⟩
      have same := backed.phases id
      show (s.phase id).Backed s.setup.outputDir _
      cases phase : s.phase id with
      | prepared => rw [phase] at same; exact same
      | encoding => rw [phase] at same; exact same
      | _ => trivial
    | _ => cases own

theorem after_backed (backed : s.Backed) (moves : List Move) : (s.after moves).Backed := by
  induction moves generalizing s with
  | nil => exact backed
  | cons m rest ih => exact ih (act_backed backed m)

theorem backed_fresh (setup : Setup) (sweeper : Sweeper) (files : Files) :
    (fresh setup sweeper files).Backed := ⟨.inr rfl, fun _ => trivial⟩

theorem Reachable.backed (h : s.Reachable) : s.Backed := by
  obtain ⟨setup, sweeper, files, moves, rfl⟩ := h
  exact after_backed (backed_fresh setup sweeper files) moves

theorem after_tends (backed : s.Backed) {moves : List Move}
    (own : ∀ m ∈ moves, m.isOwn = true) : s.Tends (s.after moves) := by
  induction moves generalizing s with
  | nil => exact .refl backed
  | cons m rest ih =>
    have first := act_tends backed (own m List.mem_cons_self)
    exact first.trans (ih first.backed fun n hn => own n (List.mem_cons_of_mem m hn))

/-! ## Inputs -/

/-- The places of the files that will be deleted before the first encoder starts. -/
def leftovers (s : Service) : List Place := s.shared.disk.leftovers s.setup.outputDir

theorem isSome_of_isFile {files : Files} {path : String} (h : files.isFile path = true) :
    (files.at? (Path.place path)).isSome := by
  unfold Files.isFile Files.find? at h
  split at h
  · cases h
  · exact h

/-- A path names a file where the files have one in its place, if it names one at all. -/
theorem isFile_congr {files files' : Files} {path : String} (h : files.isFile path = true) :
    files'.isFile path = (files'.at? (Path.place path)).isSome := by
  unfold Files.isFile Files.find? at h ⊢
  split at h
  · cases h
  · next named => rw [if_neg named]

/-- **Inputs stay.** Take any point of any history at which a job has not looked anything up yet,
and let nobody but the service change files from then on. When an encoder is going to start for
this job, each of its input files is there, unless it was one of the leftovers that are swept in
the meantime; these are not, unless an encoder was told to write to their places. -/
theorem started_inputs {s₀ : Service} (reach : s₀.Reachable) {moves : List Move}
    (own : ∀ m ∈ moves, m.isOwn = true) {t : Turn} {rest : List Turn}
    (front : (s₀.after moves).ready = t :: rest) (new : (s₀.phase t.job).files = [])
    {argv : List String}
    (starts : (Move.turn.act (s₀.after moves)).shared.started =
      (s₀.after moves).shared.started ++ [argv]) :
    ∀ path ∈ Command.filesOf false argv.tail,
      (Path.place path ∉ s₀.leftovers → (s₀.after moves).shared.files.isFile path = true) ∧
      (Path.place path ∈ s₀.leftovers →
        (∀ output, (s₀.after moves).shared.disk.Told output →
          Path.place output ≠ Path.place path) →
        (s₀.after moves).shared.files.isFile path = false) := by
  have tends := after_tends reach.backed own
  generalize s₀.after moves = s at front starts tends ⊢
  have popped := ((Calm.refl s).ready rest).tends tends.backed
  rw [act_turn front] at starts
  obtain same | ⟨told, more, swept, known⟩ := (serve_tends popped.backed t).2
  · rw [same] at starts
    exact absurd starts (by simp)
  have told_eq : argv = told := by
    rw [more] at starts
    simpa using starts.symm
  subst told_eq
  have swept : s.shared.disk.sweeper.hasSwept s₀.setup.outputDir = true := tends.setup ▸ swept
  intro path hpath
  rcases tends.found t.job path (known path hpath) with old | ⟨m, before, after, there⟩
  · rw [new] at old
    cases old
  · rw [isFile_congr there]
    refine ⟨fun stays => ?_, fun left untold => ?_⟩
    · refine Disk.isSome_of_steps after (before.ordered reach.backed.ordered)
        (isSome_of_isFile there) fun left => stays ?_
      exact before.leftovers reach.backed.ordered left
    · have gone := Disk.at?_of_leftover tends.steps reach.backed.ordered left swept untold
      exact congrArg Option.isSome gone

/-- A timeline that shows a video. -/
def videoDocument (source : String) : Json :=
  .object [("tracks", .array [.object [("clips", .array [
    .object [("type", .string "video"), ("source", .string source), ("duration", .float 5)]])]])]

/-- A service with a single file. -/
def holding (path : String) : Service :=
  fresh { settings := .standard, library := ⟨"/assets", "ffprobe", false⟩,
          compiler := .make .standard none none, outputDir := "/work/output", timeout := none }
    (.fresh [".mp4"]) ⟨[(Path.place path, {})], []⟩

/-- A job that shows a file comes to the point at which its encoder starts. -/
def showing (path : String) : List Move :=
  [.submit { timeline := videoDocument path } {} true, .turn, .turn, .turn]

/-- The encoder that starts then. -/
def showingArguments (path : String) : List String :=
  (Move.turn.act ((holding path).after (showing path))).shared.started.getLast?.getD []

theorem started_inputs_asset :
    "/assets/a.mp4" ∈ Command.filesOf false (showingArguments "/assets/a.mp4").tail ∧
      ((holding "/assets/a.mp4").after (showing "/assets/a.mp4")).shared.files.isFile
        "/assets/a.mp4" = true := by
  have input : "/assets/a.mp4" ∈ Command.filesOf false (showingArguments "/assets/a.mp4").tail := by
    decide +kernel
  have front : ((holding "/assets/a.mp4").after (showing "/assets/a.mp4")).ready =
      [.work (Registry.idOf 1)] := by decide +kernel
  have starts : (Move.turn.act ((holding "/assets/a.mp4").after
      (showing "/assets/a.mp4"))).shared.started =
        ((holding "/assets/a.mp4").after (showing "/assets/a.mp4")).shared.started ++
          [showingArguments "/assets/a.mp4"] := by decide +kernel
  refine ⟨input, (started_inputs ⟨_, _, _, [], rfl⟩ ?_ front rfl starts _ input).1 ?_⟩
  · decide
  · decide +kernel

/-- A leftover of the output directory is looked up, swept, and then read. -/
theorem started_input_swept :
    (holding "/work/output/a.mp4").shared.files.isFile "/work/output/a.mp4" = true ∧
      (Move.turn.act ((holding "/work/output/a.mp4").after
        (showing "/work/output/a.mp4"))).shared.started = [showingArguments "/work/output/a.mp4"] ∧
      "/work/output/a.mp4" ∈ Command.filesOf false (showingArguments "/work/output/a.mp4").tail ∧
      ((holding "/work/output/a.mp4").after (showing "/work/output/a.mp4")).shared.files.isFile
        "/work/output/a.mp4" = false := by
  decide +kernel

end Service
end Montage
