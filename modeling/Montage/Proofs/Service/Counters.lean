import Montage.Proofs.Render.Counters
import Montage.Proofs.Service.Progress

/-!
# What counts as a render

A service whose registry nobody else calls keeps its counts by the encoders: in any history, of the
jobs that have ended those whose encoder was started are the renders, those of them that were not
completed are the errors, and all others are rejected (`balanced_after`). A turn keeps it by the
steps that it takes the run through (`Service.Balanced.turned`); whatever else happens starts no
encoder and ends no job (`Service.Balanced.steered`).

`renders_counted` reads it off a service all of whose jobs have ended, be it in success, by a
timeline or a command that is refused, an encoder that does not start, exits with an error or leaves
no file, or because their time was up or someone stopped them.
-/
namespace Montage.Service

variable {s s' : Service} {id : String} {r : Run}

/-- Whether the encoder of a job has been started. -/
def hasStarted (s : Service) (id : String) : Bool := (s.run? id).any (·.process.isSome)

theorem hasStarted_of_run? (run : s.run? id = some r) : s.hasStarted id = r.process.isSome := by
  rw [hasStarted, run]
  rfl

/-- The counts of the registry are the numbers of jobs by whose encoder was started. -/
def Balanced (s : Service) : Prop := s.shared.registry.Balanced s.hasStarted

/-! ## Turns -/

/-- A turn of a run bears on no encoder but its own. -/
theorem hasStarted_turned {r' : Run} (run' : s'.run? id = some r')
    (others : ∀ id', id' ≠ id → s.Unmoved id' s') :
    s'.hasStarted = Function.update s.hasStarted id r'.process.isSome := by
  funext id'
  by_cases same : id' = id
  · rw [same, Function.update_self, hasStarted_of_run? run']
  · rw [Function.update_of_ne same, hasStarted, (others id' same).run]
    rfl

theorem Balanced.turned (h : s.Balanced) {t : Turn} {files : Files} {r r' : Run}
    (run : s.run? t.job = some r) (run' : s'.run? t.job = some r')
    (others : ∀ id, id ≠ t.job → s.Unmoved id s')
    (known : Scene.Known s.setup files ⟨s.shared, r⟩)
    (steps : Scene.Steps s.setup ⟨s.shared, r⟩ ⟨s'.shared, r'⟩) : s'.Balanced := by
  have before : Scene.Balanced s.hasStarted ⟨s.shared, r⟩ := by
    have own : Function.update s.hasStarted t.job r.process.isSome = s.hasStarted := by
      rw [← hasStarted_of_run? run, Function.update_eq_self]
    rw [Scene.Balanced, id_of_run? run, own]
    exact h
  have after := steps.balanced known before
  rw [Scene.Balanced, id_of_run? run', ← hasStarted_turned run' others] at after
  exact after

/-! ## Everything else -/

theorem registry_submit (s : Service) (request : RenderRequest) (script : EncoderScript)
    (observes : Bool) (objects : Float → Bool) :
    (s.submit request script observes objects).2.shared.registry =
      (Registry.Call.create none).apply s.shared.registry s.shared.now := by
  show _ = (s.shared.registry.create none s.shared.now).1
  unfold submit
  generalize s.shared.registry.create none s.shared.now = result
  obtain ⟨registry, failure | j⟩ := result <;> rfl

/-- Whatever is not a turn, and no call of someone else, does nothing to the registry but to create
a job. -/
theorem act_registry {m : Move} (still : m ≠ .turn) (own : ∀ c, m ≠ .elsewhere c) :
    (m.act s).shared.registry = s.shared.registry ∨
      (m.act s).shared.registry =
        (Registry.Call.create none).apply s.shared.registry s.shared.now := by
  cases m with
  | submit request script observes objects =>
    exact .inr (registry_submit s request script observes objects)
  | call id aim => exact .inl (congrArg (·.registry) (shared_call s id aim))
  | render request script observes objects =>
    have submitted := registry_submit s request script observes objects
    refine .inr ?_
    show (s.render request script observes objects).shared.registry = _
    unfold render
    generalize s.submit request script observes objects = result at submitted
    obtain ⟨failure | id, s'⟩ := result
    · exact submitted
    · exact (congrArg (·.registry) (shared_call s' id .wait)).trans submitted
  | interrupt id =>
    exact .inl (congrArg (·.registry) (lines_onRun (lines_stop s) id).shared)
  | turn => exact absurd rfl still
  | ring id => exact .inl (congrArg (·.registry) (lines_ringFor s id).shared)
  | clock moment =>
    refine .inl ?_
    show (if s.shared.now < moment then s.moveTo moment else s).shared.registry = _
    split <;> rfl
  | follow id =>
    obtain ⟨bus, same, -⟩ := follow_shared s id
    exact .inl (congrArg (·.shared.registry) same)
  | listen id => exact .inl rfl
  | look id queue =>
    obtain ⟨bus, same, -⟩ := look_shared s id queue
    exact .inl (congrArg (·.shared.registry) same)
  | read queue => exact .inl rfl
  | leave job queue => exact .inl rfl
  | elsewhere c => exact absurd rfl (own c)
  | files fs => exact .inl rfl

theorem Balanced.steered (h : s.Balanced) (steered : s.Steered s')
    (registry : s'.shared.registry = s.shared.registry ∨ s'.shared.registry =
      (Registry.Call.create none).apply s.shared.registry s.shared.now) : s'.Balanced := by
  have before : s'.shared.registry.Balanced s.hasStarted := by
    rcases registry with same | created
    · rw [same]
      exact h
    · rw [created]
      exact Registry.balanced_apply (c := .create none) h trivial _
  refine before.congr fun id j job terminal => ?_
  cases run : s.run? id with
  | some r =>
    obtain ⟨r', run', steers, -⟩ := steered.runs id r run
    rw [hasStarted_of_run? run, hasStarted_of_run? run', steers.same]
    rfl
  | none =>
    cases run' : s'.run? id with
    | none => rw [hasStarted, hasStarted, run, run']
    | some r' =>
      -- a new job has not ended
      obtain ⟨-, works, knows⟩ := steered.fresh id r' run run'
      obtain ⟨i, found, live, -⟩ := (knows s.shared.files).live works
      rw [Scene.job?, id_of_run? run'] at found
      cases job.symm.trans found
      cases live.symm.trans terminal

/-! ## Histories -/

/-- In any history the jobs that have ended are counted by whose encoder was started, as long as
nobody else calls the registry. -/
theorem balanced_after (setup : Setup) (sweeper : Sweeper) (files : Files) (moves : List Move)
    (own : ∀ c, .elsewhere c ∉ moves) : ((fresh setup sweeper files).after moves).Balanced := by
  induction moves using List.reverseRecOn with
  | nil => exact Registry.balanced_fresh setup.settings (some setup.settings.tailLength)
  | append_singleton moves m ih =>
    have balanced := ih fun c mem => own c (List.mem_append_left _ mem)
    have reach : ((fresh setup sweeper files).after moves).Reachable := ⟨_, _, _, _, rfl⟩
    rw [after_append]
    generalize (fresh setup sweeper files).after moves = s at balanced reach
    show (m.act s).Balanced
    by_cases turn : m = .turn
    · subst turn
      cases front : s.ready with
      | nil => exact (act_turn_nil front).symm ▸ balanced
      | cons t rest =>
        obtain ⟨-, ⟨r, r', run, run', steps⟩, others⟩ := reach.accounted.sound.turned front
        obtain ⟨_, known⟩ := reach.known run
        exact balanced.turned run run' others known steps
    · have foreign (c : Registry.Call) : m ≠ .elsewhere c := fun e =>
        own c (e ▸ List.mem_append_right _ List.mem_cons_self)
      exact balanced.steered (act_steered turn) (act_registry turn foreign)

/-- When all jobs have ended, whose encoder was started counts as a render, and as an error unless it
was completed, and every other one is rejected. -/
theorem renders_counted (setup : Setup) (sweeper : Sweeper) (files : Files) {moves : List Move}
    (own : ∀ c, .elsewhere c ∉ moves) {s : Service} (after : (fresh setup sweeper files).after moves = s)
    (ended : ∀ j ∈ s.shared.registry.jobs, j.state.isTerminal = true) :
    s.shared.registry.stats.count = s.shared.registry.jobs.countP (s.hasStarted ·.id) ∧
      s.shared.registry.stats.errors = s.shared.registry.jobs.countP
        (fun j => s.hasStarted j.id && j.state ≠ .completed) ∧
      s.shared.registry.stats.rejected = s.shared.registry.jobs.countP
        (fun j => !s.hasStarted j.id) := by
  have balanced := balanced_after setup sweeper files moves own
  rw [after] at balanced
  exact Registry.Balanced.ended balanced ended

/-- Four jobs side by side: an encoder that leaves its file, one that exits with an error, one that
does not start, and a timeline that is refused. -/
def fourJobs : List Move :=
  [.submit { timeline := titleDocument 5 } { steps := [.write 15] } true,
    .submit { timeline := titleDocument 5 } { exit := 1 } true,
    .submit { timeline := titleDocument 5 } { spawnError := some (2, "No such file") } true,
    .submit { timeline := .object [] } {} true] ++ List.replicate 13 .turn

/-- What has become of the jobs, and whose encoders were started. -/
def fates (s : Service) : List (JobState × Bool) :=
  s.shared.registry.jobs.map fun j => (j.state, s.hasStarted j.id)

theorem countP_fates (s : Service) (p : JobState → Bool → Bool) :
    s.shared.registry.jobs.countP (fun j => p j.state (s.hasStarted j.id)) =
      s.fates.countP fun fate => p fate.1 fate.2 := by
  rw [fates, List.countP_map]
  rfl

theorem renders_counted_four : ∃ s, (plain none).after fourJobs = s ∧
    s.fates = [(.completed, true), (.failed, true), (.failed, false), (.failed, false)] ∧
    s.shared.registry.stats.count = 2 ∧ s.shared.registry.stats.errors = 1 ∧
    s.shared.registry.stats.rejected = 2 := by
  obtain ⟨s, after⟩ : ∃ s, (plain none).after fourJobs = s := ⟨_, rfl⟩
  have fates : s.fates =
      [(.completed, true), (.failed, true), (.failed, false), (.failed, false)] := by
    rw [← after]
    decide +kernel
  have ended : ∀ j ∈ s.shared.registry.jobs, j.state.isTerminal = true := fun j hj => by
    have fate : (j.state, s.hasStarted j.id) ∈ s.fates := List.mem_map_of_mem hj
    rw [fates] at fate
    have all : ∀ fate ∈ [(JobState.completed, true), (.failed, true), (.failed, false),
        (.failed, false)], fate.1.isTerminal = true := by decide
    exact all _ fate
  obtain ⟨count, errors, rejected⟩ :=
    renders_counted (plain none).setup (.fresh []) .empty (by simp [fourJobs]) after ended
  refine ⟨s, after, fates, count.trans ?_, errors.trans ?_, rejected.trans ?_⟩
  · rw [countP_fates s fun _ started => started, fates]
    rfl
  · rw [countP_fates s fun state started => started && state ≠ .completed, fates]
    rfl
  · rw [countP_fates s fun _ started => !started, fates]
    rfl

end Montage.Service
