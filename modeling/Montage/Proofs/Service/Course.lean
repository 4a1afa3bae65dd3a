import Montage.Proofs.Registry.Records
import Montage.Proofs.Render.Course
import Montage.Proofs.Service.Follow

/-!
# Turns as steps of runs

A turn takes the run that it is about through steps of its own (`Sound.courses`), and leaves all
other runs alone. Whatever is not a turn only steers runs and lets new ones in (`act_steered`). So
what is known of a run in its steps is known after any history: `Tracked` says so of all runs of a
service, with the files that there were when the stages of each came to an end.
-/
namespace Montage

/-- The record of a job is found by the id of the run alone. -/
theorem Scene.Fails.phase {w w' : Shared} {r : Run} {f : Failure} (h : Scene.Fails ⟨w, r⟩ f w')
    (phase : Phase) : Scene.Fails ⟨w, { r with phase }⟩ f w' := by
  cases h with
  | ended known terminal => exact .ended known terminal
  | live known live new jobs limit same call => exact .live known live new jobs limit same call

namespace Run.Steers

variable {r r' r'' : Run}

theorem refl (r : Run) : r.Steers r := ⟨rfl, .same _, fun stop => stop, fun heeds => heeds⟩

theorem trans (h : r.Steers r') (h' : r'.Steers r'') : r.Steers r'' where
  same := by rw [h'.same, h.same]; rfl
  phase := by
    have first := h.phase
    have second := h'.phase
    generalize r.phase = p at first
    generalize r'.phase = p' at first second
    generalize r''.phase = p'' at second
    cases first with
    | same => exact second
    | woken => cases second <;> exact .woken _ _ _
    | entered => cases second; exact .entered
    | retired => cases second; exact .retired
    | closed => cases second; exact .closed
  stop stop := h'.stop (h.stop stop)
  heeds heeds := h'.heeds (h.heeds heeds)

theorem id_eq (h : r.Steers r') : r'.id = r.id := by
  rw [h.same]
  rfl

end Run.Steers

namespace Service

variable {s s' : Service} {r q : Run} {j : Job} {id : String}

/-! ## Parts of a turn -/

/-- A run, from some scene of it on, has taken steps of its own. -/
structure Courses (s : Service) (r : Run) (s' : Service) : Prop where
  setup : s'.setup = s.setup
  steps : ∃ r', s'.run? r.id = some r' ∧ Scene.Steps s.setup ⟨s.shared, r⟩ ⟨s'.shared, r'⟩

/-- A run has been steered, or left alone. -/
structure Nudges (s : Service) (r : Run) (s' : Service) : Prop where
  setup : s'.setup = s.setup
  shared : s'.shared = s.shared
  runs : s'.runs = s.runs ∨
    ∃ q, s'.runs = (s.putRun q).runs ∧ r.Steers q ∧ (r.phase.Works → q.phase.Works)

theorem nudges_still (s : Service) (r : Run) : s.Nudges r s := ⟨rfl, rfl, .inl rfl⟩

theorem nudges_put (steers : r.Steers q) (works : r.phase.Works → q.phase.Works)
    (ready : List Turn) : s.Nudges r { s.putRun q with ready } :=
  ⟨rfl, rfl, .inr ⟨q, rfl, steers, works⟩⟩

/-- What becomes of a run that has been steered. -/
theorem Nudges.run (h : s.Nudges r s') (stored : s.run? r.id = some r) :
    ∃ q, s'.run? r.id = some q ∧ r.Steers q ∧ (r.phase.Works → q.phase.Works) := by
  rcases h.runs with same | ⟨q, runs, steers, works⟩
  · exact ⟨r, by rw [run?, same]; exact stored, .refl r, fun works => works⟩
  · refine ⟨q, ?_, steers, works⟩
    rw [run?, runs, ← run?, run?_putRun, if_pos steers.id_eq.symm]
    rw [steers.id_eq, stored]
    rfl

/-- The other runs are left alone. -/
theorem Nudges.others (h : s.Nudges r s') (stored : s.run? r.id = some r) (ne : id ≠ r.id) :
    s'.run? id = s.run? id := by
  rcases h.runs with same | ⟨q, runs, steers, -⟩
  · rw [run?, same]
    rfl
  · rw [run?, runs, ← run?, run?_putRun (by rw [steers.id_eq, stored]; rfl), steers.id_eq, if_neg ne]

theorem Nudges.courses (h : s.Nudges r s') (stored : s.run? r.id = some r) : s.Courses r s' := by
  obtain ⟨q, run, steers, -⟩ := h.run stored
  exact ⟨h.setup, q, run, h.shared ▸ .single (.steered steers)⟩

theorem Courses.head {w : Shared} (step : Scene.Step s.setup ⟨s.shared, r⟩ ⟨w, q⟩) (same : q.id = r.id)
    (h : Courses { s with shared := w } q s') : s.Courses r s' := by
  obtain ⟨setup, r', run, steps⟩ := h
  exact ⟨setup, r', same ▸ run, .head step steps⟩

theorem courses_put (known : (s.run? r.id).isSome) (steers : r.Steers q) (ready : List Turn) :
    s.Courses r { s.putRun q with ready } := by
  refine ⟨rfl, q, ?_, .single (.steered steers)⟩
  show (s.putRun q).run? r.id = some q
  rw [run?_putRun (steers.id_eq ▸ known), if_pos steers.id_eq.symm]

theorem conclude_courses {phase : Phase} (known : (s.run? r.id).isSome)
    (job : s.job? r.id = some j) (failure : Option Failure)
    (may : ∀ f, failure = some f → Run.MayFail { r with phase } f)
    (none : failure = none → phase = .finished .done) :
    s.Courses { r with phase } (s.conclude r failure) := by
  cases failure with
  | none =>
    have turns : phase.Turns .over := none rfl ▸ .closed
    exact courses_put (r := { r with phase }) known
      (q := Run.retired { r with isActive := false })
      ⟨rfl, turns, fun stop => stop, fun heeds => heeds.of_phase rfl rfl (by simp [Run.retired])⟩ _
  | some f =>
    obtain ⟨w, fails, result⟩ := result_failJob (s := ⟨s.shared, r⟩) job f
    have retired : s.conclude r (some f) =
        ({ s with shared := ((Act.failJob f).result ⟨s.shared, r⟩).2.shared }).retire
          { ((Act.failJob f).result ⟨s.shared, r⟩).2.run with isActive := false } := rfl
    rw [retired, result]
    refine ⟨rfl, Run.retired { r with isActive := false }, ?_,
      .single (.failed (may f rfl) (fails.phase phase) rfl rfl rfl rfl)⟩
    exact (run?_putRun (s := s) (r := Run.retired { r with isActive := false }) known r.id).trans
      (if_pos rfl)

/-- The end of a run by its outcome alone. -/
theorem outcome_courses (known : (s.run? r.id).isSome) (job : s.job? r.id = some j)
    (outcome : Outcome) : s.Courses { r with phase := .finished outcome }
      (s.conclude r (outcomeFailure r outcome)) := by
  refine conclude_courses known job _ (fun f failure => ?_) fun none => ?_
  · cases outcome with
    | done => cases failure
    | failed f' => cases failure; exact .own rfl
    | stopped => cases failure; exact .stopped rfl
  · cases outcome with
    | done => rfl
    | failed => cases none
    | stopped => cases none

/-- The stages of a run have come to an end. -/
theorem finish_courses (known : (s.run? r.id).isSome) (job : s.job? r.id = some j)
    (outcome : Outcome) :
    s.Courses { r with phase := .finished outcome } (s.finish r outcome) := by
  unfold finish
  split
  · exact outcome_courses known job outcome
  · exact courses_put (r := { r with phase := .finished outcome }) known (.refl _) _

theorem arrive_courses (known : (s.run? r.id).isSome) (job : s.job? r.id = some j)
    (phase : Phase) : s.Courses { r with phase } (s.arrive r phase) := by
  have put (ready : List Turn) :
      s.Courses { r with phase } { s.putRun { r with phase } with ready } :=
    courses_put (r := { r with phase }) known (.refl _) ready
  cases phase with
  | finished outcome => exact finish_courses known job outcome
  | encoding => exact put _
  | _ => exact put _

/-- The next stage of a run, or its stop. -/
theorem work_courses (known : (s.run? r.id).isSome) (job : s.job? r.id = some j)
    (fits : r.Fits j r.phase) (works : r.phase.Works) (time : s.shared.now.isNaN = false) :
    s.Courses r (s.work r) := by
  unfold work
  split
  · next stop =>
    exact .head (.stopped works stop) rfl
      (finish_courses (r := { r with process := r.process.map Process.kill }) known job .stopped)
  · next goes =>
    rw [Bool.not_eq_true] at goes
    obtain ⟨onward, ends⟩ := stage_fits s.setup (s := ⟨s.shared, r⟩) ⟨j, job, fits⟩ works time
    have perform : s.perform r (Act.stage s.setup r.phase) =
        (((Act.stage s.setup r.phase).result ⟨s.shared, r⟩).1,
          { s with shared := ((Act.stage s.setup r.phase).result ⟨s.shared, r⟩).2.shared },
          ((Act.stage s.setup r.phase).result ⟨s.shared, r⟩).2.run) := rfl
    rw [perform]
    generalize result : (Act.stage s.setup r.phase).result ⟨s.shared, r⟩ = answer at onward ends
    obtain ⟨answer, m⟩ := answer
    have id : m.run.id = r.id := onward.id_eq
    obtain ⟨_, -, -, lives⟩ := onward.told
    obtain ⟨j', job', -⟩ := lives j job
    have known' : (Service.run? { s with shared := m.shared } m.run.id).isSome := id ▸ known
    cases answer with
    | error f =>
      exact .head (.broken works goes result) id (finish_courses known' job' (.failed f))
    | ok phase =>
      exact .head (.staged works goes ends.2.1 result) id (arrive_courses known' job' phase)

/-- A job begins. -/
theorem start_courses (known : (s.run? r.id).isSome) (job : s.job? r.id = some j)
    (fits : r.Fits j r.phase) (phase : r.phase = .unstarted)
    (time : s.shared.now.isNaN = false) : s.Courses r (s.start r) := by
  unfold start
  split
  · exact courses_put known (q := r.retired)
      ⟨rfl, by rw [phase]; exact .retired, fun stop => stop,
        fun heeds => heeds.of_phase rfl rfl (by simp [Run.retired])⟩ _
  · split
    · exact work_courses known job fits (by rw [phase]; trivial) time
    · refine courses_put known ?_ _
      split
      · exact ⟨rfl, by rw [phase]; exact .entered, fun _ => rfl, fun _ _ => ⟨rfl, by simp⟩⟩
      · exact ⟨rfl, by rw [phase]; exact .entered, fun stop => stop,
          fun heeds => heeds.of_phase rfl rfl (by simp)⟩

/-- The stages of a run are told to stop. It may hear so for the first time if none has failed. -/
theorem stopStages_nudges (same : q = r.steered q) (phase : q.phase = r.phase)
    (cause : q.stopCause = r.stopCause ∨ ∀ f, r.phase ≠ .finished (.failed f)) :
    s.Nudges r (s.stopStages q) := by
  have woken {t : Timeline} {c : Command} {pause : Pause} (here : q.phase = .encoding t c pause)
      (ready : List Turn) : s.Nudges r { s.putRun { q with
        mustStop := true, phase := .encoding t c .awake } with ready } := by
    rw [phase] at here
    refine nudges_put ⟨?_, here ▸ .woken t c pause, fun _ => rfl, fun _ _ => ⟨rfl, by simp⟩⟩ ?_
      ready
    · rw [same]
      rfl
    · exact fun _ => trivial
  unfold stopStages
  dsimp only
  split
  · next here => exact woken here _
  · next here => exact woken here _
  · refine nudges_put (q := { q with mustStop := true })
      ⟨?_, phase ▸ .same _, fun _ => rfl, fun heeds told => ⟨rfl, ?_⟩⟩ ?_ _
    · rw [same]
      rfl
    · rcases cause with cause | unbroken
      · exact phase ▸ (heeds (cause ▸ told)).2
      · exact phase ▸ unbroken
    · exact fun works => phase ▸ works

/-! ## What a job hears -/

/-- A job whose stages have ended ends by their outcome. -/
theorem ended_courses (known : (s.run? r.id).isSome) (job : s.job? r.id = some j)
    {outcome : Outcome} (phase : r.phase = .finished outcome) :
    s.Courses r (s.conclude r (outcomeFailure r outcome)) := by
  have courses := outcome_courses known job outcome
  rwa [← phase] at courses

/-- It is cancelled if it was told to stop. -/
theorem told_courses (known : (s.run? r.id).isSome) (job : s.job? r.id = some j)
    {outcome : Outcome} (phase : r.phase = .finished outcome) (cause : r.stopCause.isSome)
    (byLimit : Bool) : s.Courses r (s.conclude r (some (stopFailure r byLimit))) := by
  show s.Courses { r with phase := r.phase } (s.conclude r (some (stopFailure r byLimit)))
  refine conclude_courses known job _ (fun _ e => ?_) fun none => by cases none
  cases e
  cases byLimit <;> exact .told phase cause

theorem hearLimit_courses (stored : s.run? r.id = some r) (job : s.job? r.id = some j) :
    s.Courses r (s.hearLimit r) := by
  have known : (s.run? r.id).isSome := by rw [stored]; rfl
  unfold hearLimit
  split
  · exact (nudges_still s r).courses stored
  · next phase _ => exact ended_courses known job phase
  · exact (nudges_still s r).courses stored
  · next unended =>
    exact (stopStages_nudges (q := { r with stopCause := some .timeout }) rfl rfl
      (.inr fun f phase => unended _ phase)).courses stored
  · exact (nudges_still s r).courses stored

theorem hearCancel_courses (stored : s.run? r.id = some r) (job : s.job? r.id = some j) :
    s.Courses r (s.hearCancel r) := by
  have known : (s.run? r.id).isSome := by rw [stored]; rfl
  unfold hearCancel
  split
  · exact (nudges_still s r).courses stored
  · next phase _ => exact ended_courses known job phase
  · next phase cause => exact told_courses known job phase (by rw [cause]; rfl) _
  · next unheard unended =>
    refine (stopStages_nudges (q := { r with stopCause := some .cancel, limitAt := none }) rfl rfl
      (.inr fun f phase => ?_)).courses stored
    cases cause : r.stopCause with
    | none => exact unheard _ phase cause
    | some cause' => exact unended _ cause' phase cause

theorem hearEnd_courses (stored : s.run? r.id = some r) (job : s.job? r.id = some j) :
    s.Courses r (s.hearEnd r) := by
  have known : (s.run? r.id).isSome := by rw [stored]; rfl
  unfold hearEnd
  split
  · next phase =>
    split
    · next cause => exact told_courses known job phase (by rw [cause]; rfl) _
    · next cause => exact told_courses known job phase (by rw [cause]; rfl) _
    · exact ended_courses known job phase
  · exact (nudges_still s r).courses stored

/-- A caller takes a job out of the service. -/
theorem close_courses (known : (s.run? r.id).isSome) (job : s.job? r.id = some j)
    (ended : r.phase = .over) (reason : String) : s.Courses r (s.close r reason) := by
  obtain ⟨w, fails, result⟩ := result_failJob (s := ⟨s.shared, r⟩) job (.cancelled reason)
  have closed : s.close r reason =
      ({ s with
        shared := ((Act.failJob (.cancelled reason)).result ⟨s.shared, r⟩).2.shared }).putRun
          { ((Act.failJob (.cancelled reason)).result ⟨s.shared, r⟩).2.run with
            isActive := false } := rfl
  rw [closed, result]
  refine ⟨rfl, { r with isActive := false }, ?_,
    .single (.failed (.closed ended) fails rfl ended rfl rfl)⟩
  exact (run?_putRun (s := s) (r := { r with isActive := false }) known r.id).trans (if_pos rfl)

/-! ## Turns -/

/-- A turn takes the run that it is about through steps of its own. -/
theorem Sound.courses (h : s.Sound) {t : Turn} {rest : List Turn} (front : s.ready = t :: rest) :
    ∃ r, s.run? t.job = some r ∧
      Courses { s with ready := rest } r ({ s with ready := rest }.serve t) := by
  obtain ⟨r, j, run, job, stands⟩ := h.front front
  have id : r.id = t.job := id_of_run? run
  have stored : Service.run? { s with ready := rest } r.id = some r := id ▸ run
  have known : (Service.run? { s with ready := rest } r.id).isSome := by rw [stored]; rfl
  have there : Service.job? { s with ready := rest } r.id = some j := id ▸ job
  have fits := stands.fits
  have on {f : Service → Run → Service}
      (courses : Courses { s with ready := rest } r (f { s with ready := rest } r)) :
      Courses { s with ready := rest } r (onRun { s with ready := rest } t.job f) := by
    rw [onRun, ← id, stored]
    exact courses
  have begun {id : String} (start : t = .start id ∨ t = .work id) : r.phase ≠ .over :=
    fun ended => by rcases start with rfl | rfl <;> cases stands.stale ended _ List.mem_cons_self rfl
  refine ⟨r, run, ?_⟩
  cases t with
  | start id =>
    obtain ⟨due, -⟩ := stands.next rfl (begun (.inl rfl))
    exact on (start_courses known there fits (Run.unstarted_of_due due) h.time)
  | work id =>
    obtain ⟨due, -⟩ := stands.next rfl (begun (.inr rfl))
    exact on (work_courses known there fits (Run.works_of_due due).1 h.time)
  | limit id => exact on (hearLimit_courses stored there)
  | cancel id => exact on (hearCancel_courses stored there)
  | settle id => exact on (hearEnd_courses stored there)
  | resume c =>
    cases aim : c.aim with
    | wait =>
      simp only [serve, resume, aim]
      exact ⟨rfl, r, stored, .refl⟩
    | cancel reason =>
      obtain ⟨q, _, run', -, ended, -⟩ := h.over front
      cases run.symm.trans run'
      have closed := on (f := (close · · reason)) (close_courses known there ended reason)
      simp only [serve, resume, aim]
      exact ⟨closed.setup, closed.steps⟩

/-! ## Everything else -/

/-- Runs have been steered, and new ones have come in of which nothing is known but that. -/
structure Steered (s s' : Service) : Prop where
  setup : s'.setup = s.setup
  limit : s'.shared.registry.detailLimit = s.shared.registry.detailLimit
  jobs : ∀ id j, (s.run? id).isSome → s.job? id = some j → s'.job? id = some j
  runs : ∀ id r, s.run? id = some r →
    ∃ r', s'.run? id = some r' ∧ r.Steers r' ∧ (r.phase.Works → r'.phase.Works)
  fresh : ∀ id r', s.run? id = none → s'.run? id = some r' →
    r'.Heeds ∧ r'.phase.Works ∧ ∀ files, Scene.Knows s.setup files ⟨s'.shared, r'⟩ r'.phase

/-- What is known of a run is known after it has been steered. -/
theorem knows_steered {setup : Setup} {files : Files} {w w' : Shared} {r r' : Run}
    (knows : Scene.Knows setup files ⟨w, r⟩ r.phase) (steers : r.Steers r')
    (jobs : ∀ j, w.registry.find? r.id = some j → w'.registry.find? r.id = some j) :
    Scene.Knows setup files ⟨w', r'⟩ r'.phase := by
  refine (knows.turns steers.phase).stays ⟨steers.same, steers.stop, fun j hj => ?_⟩
  rw [Scene.job?, steers.id_eq]
  exact jobs j hj

namespace Steered

theorem refl (s : Service) : s.Steered s where
  setup := rfl
  limit := rfl
  jobs _ _ _ hj := hj
  runs _ r run := ⟨r, run, .refl r, fun works => works⟩
  fresh _ _ none run := by cases none.symm.trans run

theorem trans {s'' : Service} (h : s.Steered s') (h' : s'.Steered s'') : s.Steered s'' where
  setup := h'.setup.trans h.setup
  limit := h'.limit.trans h.limit
  jobs id j known hj := by
    obtain ⟨r, run⟩ := Option.isSome_iff_exists.1 known
    obtain ⟨r', run', -⟩ := h.runs id r run
    exact h'.jobs id j (by rw [run']; rfl) (h.jobs id j known hj)
  runs id r run := by
    obtain ⟨r', run', steers, works⟩ := h.runs id r run
    obtain ⟨r'', run'', steers', works'⟩ := h'.runs id r' run'
    exact ⟨r'', run'', steers.trans steers', fun on => works' (works on)⟩
  fresh id r'' none run := by
    cases between : s'.run? id with
    | none => exact h.setup ▸ h'.fresh id r'' between run
    | some r' =>
      obtain ⟨heeds, works, knows⟩ := h.fresh id r' none between
      obtain ⟨q, run', steers, works'⟩ := h'.runs id r' between
      cases run.symm.trans run'
      refine ⟨steers.heeds heeds, works' works, fun files => ?_⟩
      refine knows_steered (knows files) steers fun j hj => ?_
      rw [id_of_run? between] at hj ⊢
      exact h'.jobs id j (by rw [between]; rfl) hj

/-- Nothing has happened to runs, and to no jobs of theirs. -/
theorem aside (runs : s'.runs = s.runs) (setup : s'.setup = s.setup)
    (limit : s'.shared.registry.detailLimit = s.shared.registry.detailLimit)
    (jobs : ∀ id j, (s.run? id).isSome → s.job? id = some j → s'.job? id = some j) :
    s.Steered s' where
  setup := setup
  limit := limit
  jobs := jobs
  runs id r run := ⟨r, by rw [run?, runs]; exact run, .refl r, fun works => works⟩
  fresh id r' none run := by
    rw [run?, runs] at run
    cases none.symm.trans run

/-- A new run has come in, of which nothing is known but its record. -/
theorem enrol (runs : s'.runs = s.runs ++ [q]) (setup : s'.setup = s.setup)
    (limit : s'.shared.registry.detailLimit = s.shared.registry.detailLimit)
    (jobs : ∀ id j, s.job? id = some j → s'.job? id = some j) (phase : q.phase = .unstarted)
    (cause : q.stopCause = none) (unread : Scene.Unread .created ⟨s'.shared, q⟩) :
    s.Steered s' where
  setup := setup
  limit := limit
  jobs id j _ hj := jobs id j hj
  runs id r run := ⟨r, by rw [run?_enrol runs, run]; rfl, .refl r, fun works => works⟩
  fresh id r' none run := by
    rw [run?_enrol runs, none, Option.none_or] at run
    split at run <;> cases run
    refine ⟨fun told => ?_, by rw [phase]; trivial, fun _ => by rw [phase]; exact unread⟩
    rw [cause] at told
    cases told

/-- Neither has anything happened to the registry. -/
theorem still (runs : s'.runs = s.runs) (setup : s'.setup = s.setup)
    (registry : s'.shared.registry = s.shared.registry) : s.Steered s' :=
  .aside runs setup (by rw [registry]) fun id j _ hj => by rw [job?, registry]; exact hj

end Steered

theorem Nudges.steered (h : s.Nudges r s') (stored : s.run? r.id = some r) : s.Steered s' where
  setup := h.setup
  limit := by rw [h.shared]
  jobs id j _ hj := by rw [job?, h.shared]; exact hj
  runs id q run := by
    by_cases own : id = r.id
    · subst own
      cases stored.symm.trans run
      exact h.run stored
    · exact ⟨q, (h.others stored own).trans run, .refl q, fun works => works⟩
  fresh id r' none run := by
    have ids : s'.runs.map (·.id) = s.runs.map (·.id) := by
      rcases h.runs with same | ⟨q, runs, -⟩
      · rw [same]
      · rw [runs, ids_putRun]
    rw [run?_eq_none_iff, ← ids, ← run?_eq_none_iff] at none
    cases none.symm.trans run

theorem steered_onRun {f : Service → Run → Service}
    (h : ∀ r, s.run? r.id = some r → s.Nudges r (f s r)) (id : String) :
    s.Steered (s.onRun id f) := by
  unfold onRun
  split
  · next r run =>
    have stored : s.run? r.id = some r := id_of_run? run ▸ run
    exact (h r stored).steered stored
  · exact .refl s

theorem stop_nudges (s : Service) (r : Run) (reason : Option String) :
    s.Nudges r (s.stop { r with cancelReason := reason }) := by
  unfold stop
  split
  · exact nudges_put (q := { r with cancelReason := reason, stopsEarly := true })
      ⟨rfl, .same _, fun stop => stop, fun heeds => heeds⟩ (fun works => works) _
  · exact nudges_put (q := { r with cancelReason := reason })
      ⟨rfl, .same _, fun stop => stop, fun heeds => heeds⟩ (fun works => works) _
  · split
    · exact nudges_put (q := { r with cancelReason := reason })
        ⟨rfl, .same _, fun stop => stop, fun heeds => heeds⟩ (fun works => works) _
    · exact stopStages_nudges (q := { r with cancelReason := reason }) rfl rfl (.inl rfl)

theorem ringLimit_nudges (s : Service) (r : Run) : s.Nudges r (s.ringLimit r) := by
  unfold ringLimit
  split
  · split
    · exact nudges_put (q := { r with limitAt := none })
        ⟨rfl, .same _, fun stop => stop, fun heeds => heeds⟩ (fun works => works) _
    · exact nudges_still s r
  · exact nudges_still s r

theorem ringWake_nudges (s : Service) (r : Run) : s.Nudges r (s.ringWake r) := by
  unfold ringWake
  split
  · next phase =>
    split
    · exact nudges_put (q := { r with phase := .encoding _ _ .awake })
        ⟨rfl, phase ▸ .woken _ _ _, fun stop => stop, fun heeds => heeds.of_phase rfl rfl (by simp)⟩
        (fun _ => trivial) _
    · exact nudges_still s r
  · exact nudges_still s r

theorem attend_nudges (s : Service) (r : Run) (c : Caller) : s.Nudges r (match r.phase with
    | .over => s.enqueue (.resume c)
    | _ => s.putRun { r with callers := r.callers ++ [c] }) := by
  split
  · exact ⟨rfl, rfl, .inl rfl⟩
  · exact nudges_put (q := { r with callers := r.callers ++ [c] })
      ⟨rfl, .same _, fun stop => stop, fun heeds => heeds⟩ (fun works => works) _

theorem steered_attend (s : Service) (c : Caller) : s.Steered (s.attend c) :=
  steered_onRun (fun r _ => attend_nudges s r c) c.job

theorem steered_call (s : Service) (id : String) (aim : Aim) : s.Steered (s.call id aim) := by
  have counted : s.Steered { s with calls := s.calls + 1 } := .still rfl rfl rfl
  unfold call
  dsimp only
  split
  · exact counted.trans (.still rfl rfl rfl)
  · exact counted.trans (steered_attend _ _)
  · refine counted.trans (.trans (steered_onRun (fun r _ => ?_) id) (steered_attend _ _))
    exact stop_nudges _ r _

/-- A new job has just been created, and its run knows of nothing else. -/
theorem steered_submit (s : Service) (request : RenderRequest) (script : EncoderScript)
    (observes : Bool) (objects : Float → Bool) :
    s.Steered (s.submit request script observes objects).2 := by
  have kept := (submit_shared s request script observes objects).2
  have limit := Registry.detailLimit_apply (.create none) s.shared.registry s.shared.now
  unfold submit at kept ⊢
  simp only [Registry.Call.apply] at limit
  generalize made : s.shared.registry.create none s.shared.now = result at kept limit ⊢
  obtain ⟨registry, failure | i⟩ := result
  · exact .aside rfl rfl limit fun id j _ hj => kept id j hj
  · obtain ⟨unknown, created, jobs⟩ := Registry.create_ok made
    have made : (s.shared.registry.create none s.shared.now).1.jobs =
        s.shared.registry.jobs ++ [i] := by rw [made]; exact jobs
    obtain ⟨state, progress, -⟩ := Registry.isNew_of_create made
    have found : registry.find? i.id = some i :=
      (Registry.find?_enrolled jobs unknown i.id).trans (if_pos rfl)
    exact .enrol rfl rfl limit kept rfl rfl
      ⟨⟨i, found, state, progress, fun e => by cases e⟩, rfl, rfl, rfl, rfl, rfl⟩

/-- Whatever is not a turn only steers runs and lets new ones in. -/
theorem act_steered {m : Move} (still : m ≠ .turn) : s.Steered (m.act s) := by
  cases m with
  | submit request script observes objects => exact steered_submit s request script observes objects
  | call id aim => exact steered_call s id aim
  | render request script observes objects =>
    have submitted := steered_submit s request script observes objects
    show s.Steered (s.render request script observes objects)
    unfold render
    generalize s.submit request script observes objects = result at submitted
    obtain ⟨failure | id, s'⟩ := result
    · exact submitted
    · exact submitted.trans (steered_call s' id .wait)
  | interrupt id => exact steered_onRun (fun r _ => stop_nudges s r r.cancelReason) id
  | turn => exact absurd rfl still
  | ring id =>
    exact (steered_onRun (fun r _ => ringLimit_nudges s r) id).trans
      (steered_onRun (fun r _ => ringWake_nudges _ r) id)
  | clock moment =>
    show s.Steered (if s.shared.now < moment then s.moveTo moment else s)
    split
    · exact .still rfl rfl rfl
    · exact .refl s
  | follow id =>
    obtain ⟨bus, same, -⟩ := follow_shared s id
    show s.Steered (s.follow id).2
    rw [same]
    exact .still rfl rfl rfl
  | listen id => exact .still rfl rfl rfl
  | look id queue =>
    obtain ⟨bus, same, -⟩ := look_shared s id queue
    show s.Steered (s.look id queue).2
    rw [same]
    exact .still rfl rfl rfl
  | read queue => exact .still rfl rfl rfl
  | leave job queue => exact .still rfl rfl rfl
  | elsewhere c =>
    show s.Steered (s.elsewhere c)
    unfold elsewhere
    split
    · exact .refl s
    · next foreign =>
      refine .aside rfl rfl (Registry.detailLimit_apply c _ _) fun id j known hj => ?_
      refine Registry.find?_apply hj (fun own => foreign ?_) _
      rw [own]
      exact known
  | files fs => exact .still rfl rfl rfl

/-! ## What is known after a history -/

/-- A turn is one of the run at the front, and no other one's. -/
theorem Sound.turned (h : s.Sound) {t : Turn} {rest : List Turn} (front : s.ready = t :: rest) :
    (Move.turn.act s).setup = s.setup ∧ (∃ r r', s.run? t.job = some r ∧
      (Move.turn.act s).run? t.job = some r' ∧
      Scene.Steps s.setup ⟨s.shared, r⟩ ⟨(Move.turn.act s).shared, r'⟩) ∧
    ∀ id, id ≠ t.job → s.Unmoved id (Move.turn.act s) := by
  obtain ⟨r, run, setup, r', run', steps⟩ := h.courses front
  rw [act_turn front]
  exact ⟨setup, ⟨r, r', run, id_of_run? run ▸ run', steps⟩, fun _ ne => h.served_others front ne⟩

/-- The stages of a run are not over. -/
def Working (s : Service) (id : String) : Prop := ∃ r, s.run? id = some r ∧ r.phase.Works

/-- The files that there were when the stages of a run came to an end: in a history, after the turn
with which they did. -/
def Filed (s : Service) (moves : List Move) (id : String) (files : Files) : Prop :=
  ∃ before rest, moves = before ++ .turn :: rest ∧ (s.after before).Working id ∧
    ¬(s.after (before ++ [.turn])).Working id ∧
    files = (s.after (before ++ [.turn])).shared.files

theorem Filed.more {moves : List Move} {files : Files} (h : s.Filed moves id files)
    (later : List Move) : s.Filed (moves ++ later) id files := by
  obtain ⟨before, rest, rfl, working, ended⟩ := h
  exact ⟨before, rest ++ later, by simp, working, ended⟩

/-- What is known of all runs after a history. -/
structure Tracked (s : Service) (moves : List Move) : Prop where
  setup : (s.after moves).setup = s.setup
  limit : (s.after moves).shared.registry.detailLimit = s.setup.settings.tailLength
  runs : ∀ id r, (s.after moves).run? id = some r →
    ∃ files, Scene.Known s.setup files ⟨(s.after moves).shared, r⟩ ∧
      (r.phase.Works ∨ s.Filed moves id files)

/-- What is known of a run after a turn of its own. -/
theorem known_turned {moves : List Move} {files : Files} {r r' : Run} {w : Shared}
    (run : (s.after moves).run? id = some r)
    (run' : (s.after (moves ++ [.turn])).run? id = some r')
    (shared : (s.after (moves ++ [.turn])).shared = w)
    (steps : Scene.Steps s.setup ⟨(s.after moves).shared, r⟩ ⟨w, r'⟩)
    (known : Scene.Known s.setup files ⟨(s.after moves).shared, r⟩)
    (which : r.phase.Works ∨ s.Filed moves id files) :
    ∃ files, Scene.Known s.setup files ⟨w, r'⟩ ∧
      (r'.phase.Works ∨ s.Filed (moves ++ [.turn]) id files) := by
  by_cases works : r.phase.Works
  · refine ⟨_, steps.known (known.of_works works _), or_iff_not_imp_left.2 fun ended => ?_⟩
    refine ⟨moves, [], rfl, ⟨r, run, works⟩, fun ⟨q, found, on⟩ => ended ?_, by rw [shared]⟩
    rwa [Option.some.inj (run'.symm.trans found)]
  · exact ⟨files, steps.settled known works, .inr ((which.resolve_left works).more _)⟩

theorem Tracked.turned {moves : List Move} (tracked : s.Tracked moves)
    (h : (s.after moves).Sound) : s.Tracked (moves ++ [.turn]) := by
  have last : s.after (moves ++ [.turn]) = Move.turn.act (s.after moves) := after_append ..
  cases front : (s.after moves).ready with
  | nil =>
    rw [act_turn_nil front] at last
    refine ⟨last ▸ tracked.setup, last ▸ tracked.limit, fun id r run => ?_⟩
    rw [last] at run ⊢
    obtain ⟨files, known, which⟩ := tracked.runs id r run
    exact ⟨files, known, which.imp_right (.more · _)⟩
  | cons t rest =>
    obtain ⟨setup, ⟨r, r', run, run', steps⟩, others⟩ := h.turned front
    rw [← last] at setup run' steps others
    rw [tracked.setup] at setup steps
    obtain ⟨files, known, which⟩ := tracked.runs t.job r run
    obtain ⟨files', known', which'⟩ := known_turned run run' rfl steps known which
    refine ⟨setup, known'.limit, fun id q hq => ?_⟩
    by_cases same : id = t.job
    · subst same
      cases run'.symm.trans hq
      exact ⟨files', known', which'⟩
    · have unmoved := others id same
      rw [unmoved.run] at hq
      obtain ⟨files, known, which⟩ := tracked.runs id q hq
      refine ⟨files, ⟨?_, known.heeds, known'.limit⟩, which.imp_right (.more · _)⟩
      refine knows_steered known.knows (.refl q) fun j hj => ?_
      rw [id_of_run? hq] at hj ⊢
      exact unmoved.job j (by rw [hq]; rfl) hj

theorem Tracked.steered {moves : List Move} (tracked : s.Tracked moves) {m : Move}
    (still : m ≠ .turn) : s.Tracked (moves ++ [m]) := by
  have steered := act_steered (s := s.after moves) still
  have last : s.after (moves ++ [m]) = m.act (s.after moves) := after_append ..
  rw [← last] at steered
  have limit := steered.limit.trans tracked.limit
  refine ⟨steered.setup.trans tracked.setup, limit, fun id r' run' => ?_⟩
  cases run : (s.after moves).run? id with
  | none =>
    obtain ⟨heeds, works, knows⟩ := steered.fresh id r' run run'
    rw [tracked.setup] at knows
    exact ⟨s.shared.files, ⟨knows _, heeds, limit⟩, .inl works⟩
  | some r =>
    obtain ⟨files, known, which⟩ := tracked.runs id r run
    obtain ⟨q, found, steers, works⟩ := steered.runs id r run
    cases run'.symm.trans found
    refine ⟨files, ⟨?_, steers.heeds known.heeds, limit⟩, which.imp works (.more · _)⟩
    refine knows_steered known.knows steers fun j hj => ?_
    rw [id_of_run? run] at hj ⊢
    exact steered.jobs id j (by rw [run]; rfl) hj

/-- All runs of a service that began with none are known. -/
theorem tracked_after (setup : Setup) (sweeper : Sweeper) (files : Files) (moves : List Move) :
    (fresh setup sweeper files).Tracked moves := by
  induction moves using List.reverseRecOn with
  | nil =>
    refine ⟨rfl, ?_, fun id r run => by cases run⟩
    show (if _ = 0 then _ else _) = _
    split <;> rfl
  | append_singleton moves m ih =>
    by_cases turn : m = .turn
    · exact turn ▸ ih.turned (sound_after (sound_fresh setup sweeper files) moves)
    · exact ih.steered turn

end Service
end Montage
