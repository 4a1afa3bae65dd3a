import Montage.Proofs.Service.Follow
import Montage.Proofs.Service.Waiting

/-!
# The life of a job in a service

Whoever follows a job before its first step is told its whole life (`follow_lifecycle`): after any
history, what has come to the queue is the story of the record that the job has then. And a job
whose encoder comes to an end gets to its own end, so the story does too.
-/
namespace Montage.Service

variable {s : Service} {id : String} {r : Run} {j : Job}

/-- What is true of a run, the record of its job and what a queue has got that was there before
the first step. -/
structure Lifecycle (s : Service) (r : Run) (j : Job) (events : List Event) : Prop where
  /-- the events and the record tell the same -/
  story : j.Story events
  /-- a job whose run is over has ended, unless it was stopped before its first step and nobody
  has been told yet that it is cancelled -/
  ended : r.phase = .over → (j.state.isTerminal = true ↔ r.stopsEarly = false ∨ s.Confirmed r.id)
  /-- if its encoder comes to an end, a run is over when nothing happens any more -/
  ends : r.script.ends = true → s.GoesOn (s.waitUntil none fun _ => false) ∧
    ∃ r', (s.waitUntil none fun _ => false).run? r.id = some r' ∧ r'.phase = .over

/-- A run is over when nothing happens any more, if its encoder comes to an end. -/
theorem over_of_waiting (h : s.Sound) (run : s.run? id = some r) (ends : r.script.ends = true) :
    s.GoesOn (s.waitUntil none fun _ => false) ∧
      ∃ r', (s.waitUntil none fun _ => false).run? id = some r' ∧ r'.phase = .over := by
  obtain ⟨on, never | still⟩ := waitUntil_ends h none fun _ => false
  · cases never
  · refine ⟨on, ?_⟩
    obtain ⟨r', run', script⟩ := stirs_run h (on.stirs h) run
    exact ⟨r', run', over_of_still (on.sound h) run' (script ▸ ends) still⟩

/-- Whoever follows a job of the service that has not ended gets a queue that listens to it, and
nothing else changes. -/
theorem follow_hears (numbered : s.shared.bus.Numbered) (job : s.job? id = some j)
    (live : j.state.isTerminal = false) :
    ∃ q, (s.follow id).1 = .waits id q ∧ (s.follow id).2.shared.bus.Hears q id ∧
      (s.follow id).2.shared.bus.waiting q = [] ∧ (s.follow id).2.job? id = some j ∧
      (s.follow id).2.run? id = s.run? id := by
  have found : s.shared.registry.get id = .ok j := by
    rw [Registry.get, show s.shared.registry.find? id = some j from job]
  obtain ⟨hears, waiting⟩ := numbered.hears id
  unfold follow look listen
  simp only [found, live]
  exact ⟨_, rfl, hears, waiting, job, rfl⟩

/-- Whoever follows a job before its first step is told its whole life, whatever happens, as long
as the queue is not taken out. -/
theorem follow_lifecycle (reach : s.Reachable) (run : s.run? id = some r)
    (unstarted : r.phase = .unstarted) :
    ∃ q, (s.follow id).1 = .waits id q ∧ ∀ moves, .leave id q ∉ moves →
      ∃ r' j, ((s.follow id).2.after moves).run? id = some r' ∧
        ((s.follow id).2.after moves).job? id = some j ∧ r'.script = r.script ∧
        ((s.follow id).2.after moves).Lifecycle r' j
          (received q (s.follow id).2 moves ++
            ((s.follow id).2.after moves).shared.bus.waiting q) := by
  obtain ⟨-, i, new, stands⟩ := reach.accounted.sound.stands id r run
  have created : i.state = .created := by
    have fits := stands.fits
    rw [unstarted] at fits
    exact fits.1
  obtain ⟨q, waits, hears, waiting, kept, same⟩ :=
    follow_hears reach.numbered new (by rw [created]; rfl)
  refine ⟨q, waits, fun moves stays => ?_⟩
  have follows : (s.follow id).2 = s.after [.follow id] := rfl
  have known : (s.follow id).2.run? id = some r := same.trans run
  have start : (s.follow id).2.Accounted := follows ▸ (reach.after _).accounted
  obtain ⟨-, es, told, lives⟩ := after_tells start.sound (by rw [known]; rfl) hears moves stays
  obtain ⟨j, job, life⟩ := lives i kept
  obtain ⟨r', run', script⟩ := stirs_run start.sound (stirs_after start.sound moves) known
  have account := accounted_after start moves
  refine ⟨r', j, run', job, script, ?_⟩
  obtain rfl := id_of_run? run'
  rw [told, waiting, List.nil_append]
  exact ⟨life.story created, account.terminal_iff run' job, over_of_waiting account.sound run'⟩

/-- A job that is followed and then rejected by its first stage. -/
theorem follow_lifecycle_rejected : ∃ q j,
    (((plain none).after [.submit { timeline := .null } {} true]).follow (Registry.idOf 1)).1 =
      .waits (Registry.idOf 1) q ∧
    ((plain none).after [.submit { timeline := .null } {} true, .follow (Registry.idOf 1),
      .turn]).job? (Registry.idOf 1) = some j ∧
    j.state.isTerminal = true ∧
    j.Story (((plain none).after [.submit { timeline := .null } {} true,
      .follow (Registry.idOf 1), .turn]).shared.bus.waiting q) := by
  have reach := (reachable_plain none).after [.submit { timeline := .null } {} true]
  obtain ⟨q, waits, all⟩ := @follow_lifecycle _ (Registry.idOf 1) _ reach rfl rfl
  obtain ⟨r, j, run, job, -, life⟩ := all [.turn] (by simp)
  have ended : r.phase = .over := by
    cases run
    rfl
  have began : r.stopsEarly = false := by
    cases run
    rfl
  exact ⟨q, j, waits, job, (life.ended ended).2 (.inl began), life.story⟩

end Montage.Service
