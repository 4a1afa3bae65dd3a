import Mathlib.Logic.Relation
import Montage.Proofs.Render.Knowledge

/-!
# The course of a run

Between its stages a run is steered by the service: it is told to stop, wakes, is given up or fails.
`Scene.Step` lists the single steps of a run, its stages among them. What is known of a run is known
after each of them, and all that happens to its job is told of (`Step.known`); the files that matter
are those at the end of its last stage. A run may also wait while others change what is shared
(`Knows.stays`).
-/
namespace Montage

/-- A run for which the service has decided what it has for another one. -/
def Run.steered (r c : Run) : Run :=
  { r with
    phase := c.phase
    isActive := c.isActive
    cancelReason := c.cancelReason
    stopsEarly := c.stopsEarly
    mustStop := c.mustStop
    stopCause := c.stopCause
    limitAt := c.limitAt
    callers := c.callers }

/-- The phases that a run can be brought to without a stage and without a failure. -/
inductive Phase.Turns : Phase → Phase → Prop
  | same (p : Phase) : Turns p p
  | woken (t : Timeline) (c : Command) (pause : Pause) :
      Turns (.encoding t c pause) (.encoding t c .awake)
  | entered : Turns .unstarted .entering
  | retired : Turns .unstarted .over
  | closed : Turns (.finished .done) .over

theorem Phase.Turns.works {p q : Phase} (h : p.Turns q) (works : q.Works) : p.Works := by
  cases h with
  | same => exact works
  | woken => exact works
  | entered => trivial
  | retired => trivial
  | closed => exact works.elim

/-- A run that has heard that it is to stop does not go on to another stage, so none of its stages
fails any more. -/
def Run.Heeds (r : Run) : Prop :=
  r.stopCause.isSome → r.mustStop = true ∧ ∀ f, r.phase ≠ .finished (.failed f)

/-- One that is brought to a phase in which no stage has failed heeds what it did. -/
theorem Run.Heeds.of_phase {r q : Run} (h : r.Heeds) (cause : q.stopCause = r.stopCause)
    (stop : q.mustStop = r.mustStop) (phase : ∀ f, q.phase ≠ .finished (.failed f)) : q.Heeds :=
  fun told => ⟨stop.trans (h (cause ▸ told)).1, phase⟩

/-- A run is steered. -/
structure Run.Steers (r r' : Run) : Prop where
  same : r' = r.steered r'
  phase : r.phase.Turns r'.phase
  stop : r.mustStop = true → r'.mustStop = true
  heeds : r.Heeds → r'.Heeds

/-- The failures that a run can be given when its stages have ended: its own, or that it has been
cancelled if it was told to stop. One that is over can be cancelled for any reason. -/
inductive Run.MayFail (r : Run) : Failure → Prop
  | own {f : Failure} (phase : r.phase = .finished (.failed f)) : MayFail r f
  | stopped {reason : String} (phase : r.phase = .finished .stopped) :
      MayFail r (.cancelled reason)
  | told {outcome : Outcome} {reason : String} (phase : r.phase = .finished outcome)
      (cause : r.stopCause.isSome) : MayFail r (.cancelled reason)
  | closed {reason : String} (phase : r.phase = .over) : MayFail r (.cancelled reason)

namespace Scene

variable {setup : Setup} {a b : Scene}

/-! ## Waiting -/

/-- A run is left with its notes, and its job with its record. -/
structure Stays (a b : Scene) : Prop where
  run : b.run = a.run.steered b.run
  stop : a.run.mustStop = true → b.run.mustStop = true
  job : ∀ j, a.job? = some j → b.job? = some j

namespace Stays

theorem script (h : a.Stays b) : b.run.script = a.run.script := by rw [h.run]; rfl

theorem process (h : a.Stays b) : b.run.process = a.run.process := by rw [h.run]; rfl

theorem last (h : a.Stays b) : b.run.lastReported = a.run.lastReported := by rw [h.run]; rfl

theorem observed (h : a.Stays b) : b.run.observed = a.run.observed := by rw [h.run]; rfl

theorem tail (h : a.Stays b) : b.run.tail = a.run.tail := by rw [h.run]; rfl

theorem pending (h : a.Stays b) : b.run.pending = a.run.pending := by rw [h.run]; rfl

theorem outputPath (h : a.Stays b) (time : Float) :
    Act.outputPath setup b.run time = Act.outputPath setup a.run time :=
  Act.outputPath_congr setup (by rw [h.run]; rfl) (by rw [h.run]; rfl) time

end Stays

variable {path : String} {script : EncoderScript} {done rest : List EncoderStep} {files : Files}
  {st : JobState} {phase : Phase}

theorem Unread.stays (h : a.Unread st) (stays : a.Stays b) (before : st ≠ .rendering) :
    b.Unread st where
  job := by
    obtain ⟨j, known, state, progress, -⟩ := h.job
    exact ⟨j, stays.job j known, state, progress, fun e => absurd e before⟩
  last := stays.last.trans h.last
  observed := stays.observed.trans h.observed
  tail := stays.tail.trans h.tail
  pending := stays.pending.trans h.pending
  process := stays.process.trans h.process

theorem Encodes.stays (h : a.Encodes setup path script) (stays : a.Stays b) :
    b.Encodes setup path script where
  same := stays.script.trans h.same
  renders := by
    obtain ⟨j, known, state, level⟩ := h.renders
    refine ⟨j, stays.job j known, state, ?_⟩
    rw [Run.Level, stays.last]
    exact level
  places := by
    obtain ⟨j, t, known, since, placed⟩ := h.places
    exact ⟨j, t, stays.job j known, since, placed.trans (stays.outputPath t).symm⟩
  started := stays.process ▸ h.started

theorem Reads.stays (h : a.Reads setup path script done rest) (stays : a.Stays b) :
    b.Reads setup path script done rest where
  encodes := h.encodes.stays stays
  process := stays.process.trans h.process
  tail := stays.tail.trans h.tail
  pending := stays.pending.trans h.pending
  legible := h.legible

theorem Completed.stays (h : a.Completed setup files) (stays : a.Stays b) :
    b.Completed setup files where
  last := stays.last.trans h.last
  started := stays.process ▸ h.started
  job := by
    obtain ⟨j, t, known, state, progress, since, succeeds⟩ := h.job
    refine ⟨j, t, stays.job j known, state, progress, since, ?_⟩
    rw [stays.script, stays.outputPath]
    exact succeeds

theorem Early.stays {f : Failure} (h : a.Early f) (stays : a.Stays b) : b.Early f := by
  obtain ⟨⟨j, known, fails⟩, none⟩ := h
  exact ⟨⟨j, stays.job j known, fails⟩, stays.process.trans none⟩

theorem Underway.stays (h : a.Underway) (stays : a.Stays b) : b.Underway := by
  obtain ⟨j, known, live, renders⟩ := h
  exact ⟨j, stays.job j known, live, stays.process ▸ renders⟩

theorem Broken.stays {f : Failure} (h : a.Broken setup files f) (stays : a.Stays b) :
    b.Broken setup files f where
  started := stays.process ▸ h.started
  job := by
    obtain ⟨j, t, known, state, since, breaks⟩ := h.job
    refine ⟨j, t, stays.job j known, state, since, ?_⟩
    rw [stays.script, stays.outputPath]
    exact breaks

theorem Failed.stays {j : Job} (h : a.Failed setup files j) (stays : a.Stays b) :
    b.Failed setup files j where
  started := stays.process ▸ h.started
  state := h.state
  why := by
    obtain ⟨t, f, since, breaks, error⟩ := h.why
    refine ⟨t, f, since, ?_, error⟩
    rw [stays.script, stays.outputPath]
    exact breaks

/-- What is known of a run is known as long as it waits. -/
theorem Knows.stays (h : a.Knows setup files phase) (stays : a.Stays b) :
    b.Knows setup files phase := by
  cases phase with
  | unstarted => exact Unread.stays h stays (by simp)
  | entering => exact Unread.stays h stays (by simp)
  | located => exact Unread.stays h stays (by simp)
  | grounded => exact Unread.stays h stays (by simp)
  | prepared => exact Unread.stays h stays (by simp)
  | encoding t command pause =>
    obtain ⟨timed, done, rest, whole, reads⟩ := h
    rw [Knows, stays.script]
    exact ⟨timed, done, rest, whole, reads.stays stays⟩
  | finished outcome =>
    cases outcome with
    | done => exact Completed.stays h stays
    | failed f => exact Or.imp (Early.stays · stays) (Broken.stays · stays) h
    | stopped => exact ⟨stays.stop h.1, h.2.stays stays⟩
  | «over» =>
    refine Or.imp (Completed.stays · stays) (fun ⟨j, known, state, why⟩ => ?_) h
    refine ⟨j, stays.job j known, state, ?_⟩
    rcases why with ⟨none, other⟩ | failed | ⟨stop, code⟩
    · exact .inl ⟨stays.process.trans none, other⟩
    · exact .inr (.inl (failed.stays stays))
    · exact .inr (.inr ⟨stays.stop stop, code⟩)

/-- Before the end of the stages, no files matter yet. -/
theorem Knows.of_works (h : a.Knows setup files phase) (works : phase.Works) (files' : Files) :
    a.Knows setup files' phase := by
  cases phase with
  | finished => exact works.elim
  | «over» => exact works.elim
  | _ => exact h

/-! ## Steps -/

/-- One step of a run. -/
inductive Step (setup : Setup) (a : Scene) : Scene → Prop
  | steered {r : Run} (steers : a.run.Steers r) : Step setup a { a with run := r }
  | staged {phase : Phase} {m : Scene} (works : a.run.phase.Works) (goes : a.run.mustStop = false)
      (follows : phase.Follows) (result : (Act.stage setup a.run.phase).result a = (.ok phase, m)) :
      Step setup a { m with run := { m.run with phase := phase } }
  | broken {f : Failure} {m : Scene} (works : a.run.phase.Works) (goes : a.run.mustStop = false)
      (result : (Act.stage setup a.run.phase).result a = (.error f, m)) :
      Step setup a { m with run := { m.run with phase := .finished (.failed f) } }
  | stopped (works : a.run.phase.Works) (stop : a.run.mustStop = true) :
      Step setup a { a with run := { a.run with
        process := a.run.process.map Process.kill, phase := .finished .stopped } }
  | failed {f : Failure} {w : Shared} {r : Run} (may : a.run.MayFail f) (fails : a.Fails f w)
      (same : r = a.run.steered r) (ended : r.phase = .over)
      (stop : r.mustStop = a.run.mustStop) (cause : r.stopCause = a.run.stopCause) :
      Step setup a ⟨w, r⟩

/-- All that is known of a run in the phase that it is in. -/
structure Known (setup : Setup) (files : Files) (s : Scene) : Prop where
  knows : s.Knows setup files s.run.phase
  heeds : s.run.Heeds
  limit : s.shared.registry.detailLimit = setup.settings.tailLength

theorem Known.of_works (h : a.Known setup files) (works : a.run.phase.Works) (files' : Files) :
    a.Known setup files' := ⟨h.knows.of_works works files', h.heeds, h.limit⟩

theorem Unread.underway (h : a.Unread st) (early : st.isEarly = true) : a.Underway := by
  obtain ⟨j, known, rfl, -⟩ := h.job
  refine ⟨j, known, JobState.live_of_isEarly early, ?_⟩
  rw [h.process]
  refine ⟨fun rendering => ?_, fun none => by cases none⟩
  rw [rendering] at early
  cases early

/-- The job of a run whose stages go on has not ended. -/
theorem Knows.live (h : a.Knows setup files phase) (works : phase.Works) : a.Underway := by
  cases phase with
  | unstarted => exact Unread.underway h rfl
  | entering => exact Unread.underway h rfl
  | located => exact Unread.underway h rfl
  | grounded => exact Unread.underway h rfl
  | prepared => exact Unread.underway h rfl
  | encoding =>
    obtain ⟨-, _, _, -, reads⟩ := h
    obtain ⟨j, known, rendering, -⟩ := reads.encodes.renders
    exact ⟨j, known, by rw [rendering]; rfl, fun _ => reads.encodes.started, fun _ => rendering⟩
  | finished => exact works.elim
  | «over» => exact works.elim

/-- A job has been completed by its stages, or it has ended when its run came to its end. -/
theorem Knows.ended {j : Job} (h : a.Knows setup files phase) (known : a.job? = some j)
    (terminal : j.state.isTerminal = true) :
    a.Completed setup files ∨ phase = .over ∧ j.state ≠ .completed := by
  have not_live {i : Job} (known' : a.job? = some i) (live : i.state.isTerminal = false) : False := by
    rw [← Option.some.inj (known.symm.trans known'), terminal] at live
    cases live
  cases phase with
  | «over» =>
    refine Or.imp_right (fun ⟨i, known', other, _⟩ => ⟨rfl, ?_⟩) h
    rwa [Option.some.inj (known.symm.trans known')]
  | finished outcome =>
    cases outcome with
    | done => exact .inl h
    | failed f =>
      rcases h with ⟨⟨i, known', live, -⟩, -⟩ | broken
      · exact (not_live known' live).elim
      · obtain ⟨i, _, known', rendering, -⟩ := broken.job
        exact (not_live known' (by rw [rendering]; rfl)).elim
    | stopped =>
      obtain ⟨-, i, known', live, -⟩ := h
      exact (not_live known' live).elim
  | _ =>
    obtain ⟨i, known', live, -⟩ := Knows.live h trivial
    exact (not_live known' live).elim

/-- What is known of a run is known after a turn of its phase. -/
theorem Knows.turns {p q : Phase} (h : a.Knows setup files p) (turns : p.Turns q) :
    a.Knows setup files q := by
  cases turns with
  | same => exact h
  | woken => exact h
  | entered => exact h
  | retired =>
    obtain ⟨j, known, created, -⟩ := h.job
    exact .inr ⟨j, known, by rw [created]; simp, .inl ⟨h.process, by rw [created]; simp⟩⟩
  | closed => exact .inl h

theorem stays_steered {w : Shared} {r r' : Run} (h : r.Steers r') :
    Stays ⟨w, r⟩ ⟨w, r'⟩ where
  run := h.same
  stop := h.stop
  job j known := by
    have id : r'.id = r.id := by rw [h.same]; rfl
    rwa [job?, id]

/-- A run in another phase. -/
theorem stays_phase (s : Scene) (phase : Phase) :
    s.Stays { s with run := { s.run with phase } } := ⟨rfl, fun stop => stop, fun _ known => known⟩

/-- A job that has ended is left as it is by a failure, and any other one fails. -/
theorem Fails.cases {f : Failure} {w : Shared} {r : Run} (h : a.Fails f w)
    (same : r = a.run.steered r) (stop : r.mustStop = a.run.mustStop) :
    w.files = a.shared.files ∧ w.registry.detailLimit = a.shared.registry.detailLimit ∧
      (Stays a ⟨w, r⟩ ∧ (∃ j, a.job? = some j ∧ j.state.isTerminal = true) ∨
        ∃ j, a.job? = some j ∧ j.state.isTerminal = false ∧ Scene.job? ⟨w, r⟩ =
          some (j.failed f a.shared.registry.detailLimit a.shared.now)) := by
  have id : r.id = a.run.id := by rw [same]; rfl
  cases h with
  | ended known terminal =>
    refine ⟨rfl, rfl, .inl ⟨⟨same, fun on => stop.trans on, fun j hj => ?_⟩, _, known, terminal⟩⟩
    rwa [job?, id]
  | @live j j' reg known live new jobs limit own _ =>
    refine ⟨rfl, limit, .inr ⟨j, known, live, ?_⟩⟩
    rw [← new, job?, id]
    exact Onward.find?_put known own jobs

/-! ## What is known after a step -/

/-- A run whose stages have come to an end does not begin again. -/
theorem Step.works (h : Step setup a b) (again : b.run.phase.Works) : a.run.phase.Works := by
  cases h with
  | steered steers => exact steers.phase.works again
  | staged works => exact works
  | broken works => exact works
  | stopped works => exact works
  | failed _ _ _ ended =>
    rw [ended] at again
    exact again.elim

/-- What is known of a run in another phase after a stage. -/
theorem Known.staged {m : Scene} (h : a.Known setup files) (goes : a.run.mustStop = false)
    (leads : a.Leads setup m) (knows : Knows setup m.shared.files m phase) :
    Known setup m.shared.files { m with run := { m.run with phase } } where
  knows := knows.stays (stays_phase m phase)
  heeds told := by
    obtain ⟨notes, -⟩ := leads
    have told : m.run.stopCause.isSome := told
    rw [notes] at told
    cases (h.heeds told).1.symm.trans goes
  limit := by
    obtain ⟨-, -, _, told⟩ := leads
    exact told.limit.trans h.limit

/-- Why the job of a run fails: before its encoder was started, by its encoder, or because it was
told to stop. -/
inductive Known.Why (setup : Setup) (files : Files) (a : Scene) : Failure → Prop
  | early {f : Failure} (h : a.Early f) : Why setup files a f
  | broken {f : Failure} (h : a.Broken setup files f) : Why setup files a f
  | cancelled {reason : String} (stop : a.run.mustStop = true) (h : a.Underway) :
      Why setup files a (.cancelled reason)

/-- A run that may fail does so for a reason, unless what is known of one that is over is known of
it already. -/
theorem Known.mayFail {f : Failure} (h : a.Known setup files) (may : a.run.MayFail f) :
    a.Knows setup files .over ∨ Known.Why setup files a f := by
  have knows := h.knows
  cases may with
  | own phase =>
    rw [phase] at knows
    exact .inr (knows.elim .early .broken)
  | stopped phase =>
    rw [phase] at knows
    exact .inr (.cancelled knows.1 knows.2)
  | @told outcome _ phase cause =>
    obtain ⟨stop, unbroken⟩ := h.heeds cause
    rw [phase] at knows
    cases outcome with
    | done => exact .inl (.inl knows)
    | failed f => exact absurd phase (unbroken f)
    | stopped => exact .inr (.cancelled stop knows.2)
  | closed phase =>
    rw [phase] at knows
    exact .inl knows

/-- What is known of a run that a failure has ended. -/
theorem Known.failed {f : Failure} {w : Shared} {r : Run} (h : a.Known setup files)
    (may : a.run.MayFail f) (fails : a.Fails f w) (same : r = a.run.steered r)
    (stop : r.mustStop = a.run.mustStop) : Knows setup files ⟨w, r⟩ .over := by
  have script : r.script = a.run.script := by rw [same]; rfl
  have process : r.process = a.run.process := by rw [same]; rfl
  have path (t : Float) : Act.outputPath setup r t = Act.outputPath setup a.run t :=
    Act.outputPath_congr setup (by rw [same]; rfl) (by rw [same]; rfl) t
  obtain ⟨-, -, ⟨stays, j, known, terminal⟩ | ⟨j, known, live, new⟩⟩ := fails.cases same stop
  · -- the job has ended before, so what is known of it is what is known in the end
    have not_live {i : Job} (known' : a.job? = some i) : i.state.isTerminal = true := by
      rwa [← Option.some.inj (known.symm.trans known')]
    have over_or := h.mayFail may
    rcases over_or with final | ⟨⟨i, known', live, -⟩, -⟩ | ⟨-, i, t, known', rendering, -⟩ |
      ⟨-, i, known', live, -⟩
    · exact final.stays stays
    · cases live.symm.trans (not_live known')
    · have := not_live known'
      rw [rendering] at this
      cases this
    · cases live.symm.trans (not_live known')
  · refine .inr ⟨_, new, by simp [Job.failed], ?_⟩
    have is_live {i : Job} (known' : a.job? = some i) (state : i.state.isTerminal = true) : False := by
      rw [← Option.some.inj (known.symm.trans known'), live] at state
      cases state
    rcases h.mayFail may with final | early | broken | ⟨on, -⟩
    · rcases final with completed | ⟨i, known', -, ⟨none, -⟩ | failed | ⟨-, state, -⟩⟩
      · obtain ⟨i, t, known', state, -⟩ := completed.job
        exact (is_live known' (by rw [state]; rfl)).elim
      · exact .inl ⟨process.trans none, by simp [Job.failed]⟩
      · exact (is_live known' (by rw [failed.state]; rfl)).elim
      · exact (is_live known' (by rw [state]; rfl)).elim
    · exact .inl ⟨process.trans early.2, by simp [Job.failed]⟩
    · obtain ⟨i, t, known', -, since, breaks⟩ := broken.job
      cases known.symm.trans known'
      refine .inr (.inl ⟨process ▸ broken.started, rfl, t, f, since, ?_, ?_⟩)
      · rw [script, path]
        exact breaks
      · rw [← h.limit]
        rfl
    · exact .inr (.inr ⟨stop.trans on, rfl, rfl⟩)

/-- What is known of a run is known after each of its steps, by the files that there were when its
stages ended. -/
theorem Step.known (h : Step setup a b) (known : a.Known setup files) :
    b.Known setup files ∧ b.shared.files = a.shared.files ∨
      a.run.phase.Works ∧ b.Known setup b.shared.files := by
  cases h with
  | @steered r steers =>
    exact .inl ⟨⟨(known.knows.turns steers.phase).stays (stays_steered steers), steers.heeds known.heeds,
      known.limit⟩, rfl⟩
  | @staged phase m works goes _ result =>
    obtain ⟨leads, ends⟩ := stage_knows setup known.knows works
    rw [result] at leads ends
    exact .inr ⟨works, known.staged (m := m) goes leads ends⟩
  | @broken f m works goes result =>
    obtain ⟨leads, ends⟩ := stage_knows setup known.knows works
    rw [result] at leads ends
    exact .inr ⟨works, known.staged (m := m) goes leads ends⟩
  | stopped works stop =>
    obtain ⟨j, job, live, renders⟩ := known.knows.live works
    refine .inl ⟨⟨⟨stop, j, job, live, ?_⟩, ?_, known.limit⟩, rfl⟩
    · rw [renders, Option.isSome_map]
    · exact known.heeds.of_phase rfl rfl (by simp)
  | @failed f w r may fails same ended stop cause =>
    obtain ⟨files', limit, -⟩ := fails.cases same stop
    refine .inl ⟨⟨?_, ?_, limit.trans known.limit⟩, files'⟩
    · show Knows setup files ⟨w, r⟩ r.phase
      rw [ended]
      exact known.failed may fails same stop
    · exact known.heeds.of_phase cause stop (by simp [ended])

/-- What a step does to the job is told of. -/
theorem Step.told (h : Step setup a b) (known : a.Known setup files) :
    ∃ es, a.Told setup es b := by
  cases h with
  | steered steers =>
    refine ⟨[], .aside ?_ ?_ rfl rfl ?_ ?_⟩ <;> rw [steers.same] <;> rfl
  | staged works _ _ result =>
    obtain ⟨⟨-, -, es, told⟩, -⟩ := stage_knows setup known.knows works
    rw [result] at told
    exact ⟨_, told.trans (.aside rfl rfl rfl rfl rfl rfl)⟩
  | broken works _ result =>
    obtain ⟨⟨-, -, es, told⟩, -⟩ := stage_knows setup known.knows works
    rw [result] at told
    exact ⟨_, told.trans (.aside rfl rfl rfl rfl rfl rfl)⟩
  | stopped => exact ⟨[], .aside rfl rfl rfl rfl rfl rfl⟩
  | @failed f w r may fails same =>
    have aside : Told setup ⟨w, a.run⟩ [] ⟨w, r⟩ := by
      refine .aside ?_ ?_ rfl rfl ?_ ?_ <;> rw [same] <;> rfl
    cases fails with
    | ended => exact ⟨_, aside⟩
    | @live j j' reg job live new jobs limit own _ =>
      have quiet : Event.percents [a.failure j'] = [] := by
        simp [Event.percents, Event.percent?_eq_none, Scene.failure, Scene.news]
      have found : reg.find? a.run.id = some j' := Onward.find?_put job own jobs
      have change : Told setup a [a.failure j']
          ⟨{ a.shared with registry := reg, bus := a.shared.bus.tell [a.failure j'] }, a.run⟩ :=
        .change rfl limit job found rfl (by simp [Scene.failure, Scene.news])
          (Job.change_failed live new) quiet
      exact ⟨_, change.trans aside⟩

/-! ## All steps -/

/-- What happens to a run in a turn of its own. -/
abbrev Steps (setup : Setup) : Scene → Scene → Prop := Relation.ReflTransGen (Step setup)

/-- As long as the stages go on, what is known is known by the files that there are. -/
theorem Steps.known (h : Steps setup a b) (known : a.Known setup a.shared.files) :
    b.Known setup b.shared.files := by
  induction h with
  | refl => exact known
  | tail _ step ih =>
    rcases step.known ih with ⟨known, same⟩ | ⟨-, known⟩
    · exact same ▸ known
    · exact known

/-- When the stages have ended, the files may change. -/
theorem Steps.settled (h : Steps setup a b) (known : a.Known setup files)
    (ended : ¬a.run.phase.Works) : b.Known setup files := by
  suffices both : b.Known setup files ∧ ¬b.run.phase.Works from both.1
  induction h with
  | refl => exact ⟨known, ended⟩
  | tail _ step ih =>
    rcases step.known ih.1 with ⟨known, -⟩ | ⟨works, -⟩
    · exact ⟨known, fun works => ih.2 (step.works works)⟩
    · exact absurd works ih.2

/-- What is known of a run is known after its steps, by some files. -/
theorem Steps.reached (h : Steps setup a b) (known : a.Known setup files) :
    ∃ files, b.Known setup files := by
  by_cases works : a.run.phase.Works
  · exact ⟨_, h.known (known.of_works works _)⟩
  · exact ⟨files, h.settled known works⟩

/-- All that happens to the job is told of. -/
theorem Steps.told (h : Steps setup a b) (known : a.Known setup files) :
    ∃ es, a.Told setup es b := by
  induction h with
  | refl => exact ⟨[], .refl setup a⟩
  | tail steps step ih =>
    obtain ⟨es, first⟩ := ih
    obtain ⟨_, known⟩ := Steps.reached steps known
    obtain ⟨fs, second⟩ := step.told known
    exact ⟨es ++ fs, first.trans second⟩

end Scene
end Montage
