import Montage.Proofs.Service.Frame

/-!
# The state of a run

`Stands` is what is always true of a run, its job's record and its line: the record fits the
phase, there is exactly one turn in line that brings the run on (none while it waits for its
encoder), callers are in line only after the end, and a run is over for good when its job has
ended, unless it was stopped before it began. Each turn keeps it, and takes away from what there
is to do (`Serves`): one lemma for each kind of turn.
-/
namespace Montage

/-- The turns that bring a run on. -/
def Run.due (r : Run) : List Turn :=
  match r.phase with
  | .unstarted => [.start r.id]
  | .encoding _ _ .awake => [.work r.id]
  | .encoding .. => []
  | .finished _ => [.settle r.id]
  | .over => []
  | _ => [.work r.id]

/-- A run whose job was never begun, and that will not be: only a caller can end it. -/
def Run.Abandoned (r : Run) (j : Job) : Prop :=
  j.state = .created ∧ r.stopsEarly = true ∧ r.isActive = true

/-- What is true of a run, the record of its job and its line, with the turns in it that bring
the run on. -/
structure Stands (j : Job) (r : Run) (line steps : List Turn) : Prop where
  fits : r.Fits j r.phase
  steps : r.phase = .over ∨ line.filter Turn.isStep = steps
  /-- what is left in line of a run that is over is of no effect -/
  stale : r.phase = .over → ∀ t ∈ line, t.isStep = true → t = .settle r.id
  calm : r.phase = .over ∨ line.filter Turn.isResume = []
  early : r.stopsEarly = true → r.phase = .unstarted ∨ r.phase = .over
  owned : ∀ c ∈ r.callers, c.job = r.id
  ended : r.phase = .over → r.callers = [] ∧ (r.isActive = false ∨ r.Abandoned j)
  left : r.isActive = false → r.phase = .over ∧ j.state.isTerminal = true

theorem Run.unstarted_of_due {r : Run} {id : String} (h : r.due = [.start id]) :
    r.phase = .unstarted := by
  unfold due at h
  split at h <;> first | assumption | cases h

theorem Run.finished_of_due {r : Run} {id : String} (h : r.due = [.settle id]) :
    ∃ outcome, r.phase = .finished outcome := by
  unfold due at h
  split at h <;> first | exact ⟨_, ‹_›⟩ | cases h

theorem Run.works_of_due {r : Run} {id : String} (h : r.due = [.work id]) :
    r.phase.Works ∧ r.phase ≠ .unstarted := by
  unfold due at h
  cases phase : r.phase with
  | unstarted => rw [phase] at h; cases h
  | finished => rw [phase] at h; cases h
  | «over» => rw [phase] at h; cases h
  | _ => exact ⟨trivial, by simp⟩

/-- A run that has been told to stop, or that has come to its end: it does not wait for its
encoder. -/
def Run.Told (r : Run) : Prop :=
  match r.phase with
  | .unstarted => r.stopsEarly = true ∨ r.mustStop = true
  | .encoding _ _ pause => r.mustStop = true ∧ pause.isWaiting = false
  | .finished _ => True
  | .over => True
  | _ => r.mustStop = true

theorem Run.Told.isPaused {r : Run} (h : r.Told) : r.isPaused = false := by
  unfold Told at h
  unfold Run.isPaused
  split
  · next phase =>
    rw [phase] at h
    exact h.2
  · rfl

/-- A run is told to stop that does not wait for its encoder. -/
theorem Run.told_of_not_paused {r : Run} (h : r.isPaused = false) :
    Run.Told { r with mustStop := true } := by
  unfold Run.isPaused at h
  unfold Told
  cases phase : r.phase with
  | unstarted => exact .inr rfl
  | encoding => rw [phase] at h; exact ⟨rfl, h⟩
  | finished => trivial
  | «over» => trivial
  | _ => rfl

theorem Run.not_told {r : Run} (works : r.phase.Works) (began : r.stopsEarly = false)
    (on : r.mustStop = false) : ¬r.Told := by
  unfold Told
  cases phase : r.phase with
  | unstarted => simp [began, on]
  | finished => rw [phase] at works; exact works.elim
  | «over» => rw [phase] at works; exact works.elim
  | _ => simp [on]

/-- How a run goes on: only one that has begun leaves the service, none comes back, and one that
was told to stop does not go on without that. -/
structure Run.Ahead (r r' : Run) : Prop where
  script : r'.script = r.script
  gone : r.isActive = false → r'.isActive = false
  excused : r'.stopsEarly = true → r'.isActive = false → r.stopsEarly = true ∧ r.isActive = false
  told : r.Told → r'.Told

theorem Run.Ahead.refl (r : Run) : r.Ahead r :=
  ⟨rfl, fun gone => gone, And.intro, fun told => told⟩

theorem Run.Ahead.trans {r r' r'' : Run} (h : r.Ahead r') (h' : r'.Ahead r'') : r.Ahead r'' where
  script := h'.script.trans h.script
  gone gone := h'.gone (h.gone gone)
  excused early gone :=
    have first := h'.excused early gone
    h.excused first.1 first.2
  told told := h'.told (h.told told)

/-- A run goes on, and its callers wait on or come in line. -/
structure Run.Passes (r r' : Run) (added : List Turn) : Prop extends Run.Ahead r r' where
  callers : ∀ c ∈ r.callers, c ∈ r'.callers ∨ .resume c ∈ added

theorem Run.Passes.refl (r : Run) (added : List Turn) : r.Passes r added :=
  ⟨.refl r, fun _ hc => .inl hc⟩

namespace Stands

variable {r : Run} {j : Job} {line steps : List Turn}

/-- A run that has begun and goes on was not stopped before its beginning. -/
theorem began (h : Stands j r line steps) (begun : r.phase ≠ .unstarted) (on : r.phase ≠ .over) :
    r.stopsEarly = false := by
  cases early : r.stopsEarly with
  | false => rfl
  | true => exact ((h.early early).elim begun on).elim

theorem active (h : Stands j r line steps) (on : r.phase ≠ .over) : r.isActive = true := by
  cases active : r.isActive with
  | true => rfl
  | false => exact absurd (h.left active).1 on

/-- What is left in line of a run that has come to its end and has to hear of it. -/
theorem stale_of_finished (h : Stands j r line r.due) {outcome : Outcome}
    (phase : r.phase = .finished outcome) (t : Turn) (ht : t ∈ line) (step : t.isStep = true) :
    t = .settle r.id := by
  have steps := h.steps.resolve_left (by simp [phase])
  have mem := List.mem_filter.2 ⟨ht, step⟩
  rw [steps, Run.due, phase] at mem
  exact List.mem_singleton.1 mem

/-- Turns that do not bring the run on may come in line at any time, callers after the end. -/
theorem append (h : Stands j r line steps) {t : Turn} (idle : t.isStep = false)
    (calm : t.isResume = false ∨ r.phase = .over) : Stands j r (line ++ [t]) steps where
  fits := h.fits
  steps := h.steps.imp_right fun e => by simp [e, idle]
  stale ended u hu step := by
    rcases List.mem_append.1 hu with hu | hu
    · exact h.stale ended u hu step
    · rw [List.mem_singleton.1 hu, idle] at step
      cases step
  calm := by
    rcases calm with no | ended
    · exact h.calm.imp_right fun e => by simp [e, no]
    · exact .inl ended
  early := h.early
  owned := h.owned
  ended := h.ended
  left := h.left

/-- A turn that does not bring a run on may be left out. -/
theorem drop {t : Turn} (h : Stands j r (t :: line) steps)
    (idle : t.isStep = false) : Stands j r line steps where
  fits := h.fits
  steps := h.steps.imp_right fun e => by simpa [idle] using e
  stale ended u hu := h.stale ended u (List.mem_cons_of_mem t hu)
  calm := h.calm.imp_right fun e => by
    rw [List.filter_eq_nil_iff] at e ⊢
    exact fun u hu => e u (List.mem_cons_of_mem t hu)
  early := h.early
  owned := h.owned
  ended := h.ended
  left := h.left

/-- A turn that brings a run on is the only one. -/
theorem next {t : Turn} (h : Stands j r (t :: line) r.due) (step : t.isStep = true)
    (on : r.phase ≠ .over) : r.due = [t] ∧ Stands j r line [] := by
  have steps := h.steps.resolve_left on
  rw [List.filter_cons_of_pos step] at steps
  have short : r.due.length ≤ 1 := by
    unfold Run.due
    split <;> simp
  rw [← steps, List.length_cons] at short
  have none : line.filter Turn.isStep = [] := List.length_eq_zero_iff.1 (by omega)
  refine ⟨by rw [← steps, none], ?_⟩
  exact ⟨h.fits, .inr none, fun ended => absurd ended on, h.calm.imp_right fun e => by
    rw [List.filter_eq_nil_iff] at e ⊢
    exact fun u hu => e u (List.mem_cons_of_mem t hu), h.early, h.owned, h.ended, h.left⟩

end Stands

namespace Service

/-- A turn has led to a run that stands, with no more to do than so much. -/
def Serves (s : Service) (r : Run) (s' : Service) (most : Nat) : Prop :=
  ∃ r' j' added, s.Does r.id s' r' j' added ∧ Stands j' r' (s.line r.id ++ added) r'.due ∧
    added.length + effort s.shared.now r' ≤ most ∧ r.Passes r' added

variable {s : Service} {r : Run} {j : Job} {line steps : List Turn}

theorem Serves.mono {s' : Service} {most more : Nat} (h : s.Serves r s' most) (le : most ≤ more) :
    s.Serves r s' more := by
  obtain ⟨r', j', added, does, stands, less, passes⟩ := h
  exact ⟨r', j', added, does, stands, Nat.le_trans less le, passes⟩

/-- A run may be altered before it is served, if that does not bear on what is kept. -/
theorem Serves.of_altered {q : Run} {s' : Service} {most : Nat} (h : s.Serves q s' most)
    (id : q.id = r.id) (ahead : r.Ahead q) (callers : q.callers = r.callers) :
    s.Serves r s' most := by
  obtain ⟨r', j', added, does, stands, less, passes⟩ := h
  exact ⟨r', j', added, id ▸ does, id ▸ stands, less, ahead.trans passes.toAhead,
    callers ▸ passes.callers⟩

/-! ## Ends -/

theorem stands_over (terminal : j.state.isTerminal = true) (idle : Act.Idle r.script r.process)
    (stale : ∀ t ∈ line, t.isStep = true → t = .settle r.id) :
    Stands j { r with isActive := false }.retired line steps where
  fits := idle
  steps := .inl rfl
  stale _ := stale
  calm := .inl rfl
  early _ := .inr rfl
  owned _ h := by cases h
  ended _ := ⟨rfl, .inl rfl⟩
  left _ := ⟨rfl, terminal⟩

theorem conclude_serves (known : (s.run? r.id).isSome) (job : s.job? r.id = some j)
    (owned : ∀ c ∈ r.callers, c.job = r.id) (idle : Act.Idle r.script r.process)
    (stale : ∀ t ∈ s.line r.id, t.isStep = true → t = .settle r.id)
    (began : r.stopsEarly = false) {failure : Option Failure}
    (ends : ∀ j', Ends j failure j' → j'.state.isTerminal = true) {most : Nat} (enough : r.callers.length ≤ most) : s.Serves r (s.conclude r failure) most := by
  obtain ⟨j', hends, does⟩ := conclude_does known job owned failure
  refine ⟨_, j', _, does, stands_over (ends j' hends) idle fun t ht step => ?_, ?_,
    ⟨⟨rfl, fun _ => rfl, fun early => (by cases began.symm.trans early), fun _ => trivial⟩,
      fun c hc => .inr (List.mem_map_of_mem hc)⟩⟩
  · rcases List.mem_append.1 ht with ht | ht
    · exact stale t ht step
    · obtain ⟨c, -, rfl⟩ := List.mem_map.1 ht
      cases step
  · simpa [effort, stageEffort, Run.retired] using enough

/-- What a run ends with that has been finished so. -/
theorem ends_terminal {outcome : Outcome} (fits : r.Fits j (.finished outcome)) {j' : Job}
    (ends : Ends j (outcomeFailure r outcome) j') : j'.state.isTerminal = true := by
  cases outcome with
  | done =>
    cases ends
    rw [fits.1]
    rfl
  | failed f => exact ends.isTerminal
  | stopped => exact ends.isTerminal

theorem idle_of_finished {outcome : Outcome} (fits : r.Fits j (.finished outcome)) :
    Act.Idle r.script r.process := by
  cases outcome <;> exact fits.2

/-- What is true of a run whose turn has come. -/
structure Served (s : Service) (j : Job) (r : Run) : Prop where
  known : (s.run? r.id).isSome
  job : s.job? r.id = some j
  steps : (s.line r.id).filter Turn.isStep = []
  calm : (s.line r.id).filter Turn.isResume = []
  owned : ∀ c ∈ r.callers, c.job = r.id
  active : r.isActive = true

theorem Served.stale (h : Served s j r) (t : Turn) (ht : t ∈ s.line r.id)
    (step : t.isStep = true) : t = .settle r.id := by
  have := List.mem_filter.2 ⟨ht, step⟩
  rw [h.steps] at this
  cases this

/-- A run that goes on. -/
theorem Served.stands (h : Served s j r) (fits : r.Fits j r.phase) (on : r.phase ≠ .over)
    (began : r.stopsEarly = false) {added : List Turn}
    (due : added.filter Turn.isStep = r.due) (calm : added.filter Turn.isResume = []) :
    Stands j r (s.line r.id ++ added) r.due where
  fits := fits
  steps := .inr (by rw [List.filter_append, h.steps, due, List.nil_append])
  stale e := absurd e on
  calm := .inr (by rw [List.filter_append, h.calm, calm, List.nil_append])
  early e := by simp [began] at e
  owned := h.owned
  ended e := absurd e on
  left e := by simp [h.active] at e

theorem finish_serves (h : Served s j r) {outcome : Outcome} (fits : r.Fits j (.finished outcome))
    (began : r.stopsEarly = false) {most : Nat}
    (enough : (r.limitAt.map (weight s.shared.now)).getD 0 + r.callers.length < most) :
    s.Serves r (s.finish r outcome) most := by
  cases timeout : s.setup.timeout with
  | none =>
    rw [finish_eq timeout]
    exact conclude_serves h.known h.job h.owned (idle_of_finished fits) h.stale began
      (fun _ => ends_terminal fits) (by omega)
  | some seconds =>
    have served : Served s j { r with phase := .finished outcome } :=
      ⟨h.known, h.job, h.steps, h.calm, h.owned, h.active⟩
    refine ⟨_, j, _, finish_does h.known h.job (by rw [timeout]; rfl) outcome, ?_, ?_,
      ⟨⟨rfl, id, And.intro, fun _ => trivial⟩, fun _ hc => .inl hc⟩⟩
    · exact served.stands fits (by simp) began rfl rfl
    · simp only [effort, stageEffort, List.length_singleton]
      omega

/-! ## Stages -/

/-- A stage has come to a phase that follows. -/
theorem arrive_serves (h : Served s j r) {phase : Phase} (fits : r.Fits j phase)
    (follows : phase.Follows) (began : r.stopsEarly = false) (fresh : ¬r.Told) {most : Nat}
    (enough : (r.limitAt.map (weight s.shared.now)).getD 0 + r.callers.length +
      stageEffort s.shared.now r phase < most) : s.Serves r (s.arrive r phase) most := by
  have served : Served s j { r with phase := phase } :=
    ⟨h.known, h.job, h.steps, h.calm, h.owned, h.active⟩
  have put := Does.put { r with phase := phase } h.known h.job
  have comes (on : phase ≠ .over) (due : { r with phase := phase }.due = [.work r.id]) :
      s.Serves r ((s.putRun { r with phase := phase }).enqueue (.work r.id)) most := by
    refine ⟨_, j, _, put.append [.work r.id] (by simp [Turn.job]), ?_, ?_,
      ⟨⟨rfl, id, And.intro, fun told => absurd told fresh⟩, fun _ hc => .inl hc⟩⟩
    · exact served.stands fits on began due.symm rfl
    · exact Nat.le_trans (Nat.le_of_eq (Nat.add_comm _ _)) enough
  cases phase with
  | finished outcome => exact finish_serves h fits began (by omega)
  | encoding t c pause =>
    refine ⟨_, j, [], put, served.stands fits (by simp) began ?_ rfl, ?_,
      ⟨⟨rfl, id, And.intro, fun told => absurd told fresh⟩, fun _ hc => .inl hc⟩⟩
    · cases pause with
      | awake => exact absurd rfl follows
      | _ => rfl
    · exact Nat.le_trans (Nat.le_of_eq (Nat.zero_add _)) (Nat.le_of_lt enough)
  | unstarted => exact follows.elim
  | entering => exact follows.elim
  | «over» => exact follows.elim
  | located => exact comes (by simp) rfl
  | grounded => exact comes (by simp) rfl
  | prepared => exact comes (by simp) rfl

theorem live_of_works {phase : Phase} (fits : r.Fits j phase) (works : phase.Works) :
    j.state.isTerminal = false := by
  cases phase with
  | finished => exact works.elim
  | «over» => exact works.elim
  | _ => rw [fits.1]; rfl

theorem stageEffort_pos {phase : Phase} (fits : r.Fits j phase) (works : phase.Works)
    (now : Float) : 0 < stageEffort now r phase := by
  cases phase with
  | finished => exact works.elim
  | «over» => exact works.elim
  | encoding t c pause =>
    obtain ⟨-, p, hp, ne, -⟩ := fits
    exact Nat.lt_of_le_of_lt (Nat.zero_le _) (lt_stageEffort hp ne)
  | _ => simp only [stageEffort]; omega

theorem Serves.after {scene : Scene} {s' : Service} {most : Nat}
    (onward : Scene.Onward ⟨s.shared, r⟩ scene)
    (h : { s with shared := scene.shared }.Serves scene.run s' most) : s.Serves r s' most := by
  obtain ⟨r', j', added, does, stands, less, passes⟩ := h
  have notes : scene.run = r.noted scene.run := onward.notes
  have id : scene.run.id = r.id := onward.id_eq
  rw [id] at does stands
  refine ⟨r', j', added, .after onward does, stands, ?_, ?_⟩
  · rw [← onward.time]
    exact less
  · rw [notes] at passes
    exact ⟨⟨passes.script, passes.gone, passes.excused, passes.told⟩, passes.callers⟩

/-- A run whose turn is its next stage, or its stop. -/
theorem work_serves (h : Served s j r) (fits : r.Fits j r.phase) (works : r.phase.Works)
    (began : r.stopsEarly = false) (time : s.shared.now.isNaN = false) :
    s.Serves r (s.work r) (effort s.shared.now r) := by
  unfold work
  split
  · have killed : Served s j { r with process := r.process.map Process.kill } :=
      ⟨h.known, h.job, h.steps, h.calm, h.owned, h.active⟩
    have idle : Run.Fits { r with process := r.process.map Process.kill } j (.finished .stopped) :=
      ⟨live_of_works fits works, Act.idle_kill _ _⟩
    refine .of_altered (finish_serves killed idle began ?_) rfl ⟨rfl, id, And.intro, id⟩ rfl
    have := stageEffort_pos fits works s.shared.now
    simp only [effort]
    omega
  · next on =>
    obtain ⟨onward, ends⟩ := stage_fits s.setup (s := ⟨s.shared, r⟩) ⟨j, h.job, fits⟩ works time
    have perform : s.perform r (Act.stage s.setup r.phase) =
        (((Act.stage s.setup r.phase).result ⟨s.shared, r⟩).1,
          { s with shared := ((Act.stage s.setup r.phase).result ⟨s.shared, r⟩).2.shared },
          ((Act.stage s.setup r.phase).result ⟨s.shared, r⟩).2.run) := rfl
    rw [perform]
    generalize (Act.stage s.setup r.phase).result ⟨s.shared, r⟩ = result at onward ends
    obtain ⟨answer, scene⟩ := result
    have notes : scene.run = r.noted scene.run := onward.notes
    have id : scene.run.id = r.id := onward.id_eq
    have fresh : ¬scene.run.Told := by
      rw [notes]
      exact Run.not_told (r := r) works began (by simpa using on)
    have began : scene.run.stopsEarly = false := by rw [notes]; exact began
    have limit : (scene.run.limitAt.map (weight scene.shared.now)).getD 0 + scene.run.callers.length =
        (r.limitAt.map (weight s.shared.now)).getD 0 + r.callers.length := by
      rw [notes, onward.time]
      rfl
    have after {j' : Job} (hj' : scene.job? = some j') :
        Served { s with shared := scene.shared } j' scene.run := by
      refine ⟨id ▸ h.known, hj', id ▸ h.steps, id ▸ h.calm, ?_, ?_⟩
      · rw [notes]
        exact h.owned
      · rw [notes]
        exact h.active
    refine .after onward ?_
    cases answer with
    | error f =>
      obtain ⟨j', hj', fits'⟩ := ends
      refine finish_serves (after hj') fits' began ?_
      have pos := stageEffort_pos fits works s.shared.now
      rw [limit, effort]
      omega
    | ok phase =>
      obtain ⟨⟨j', hj', fits'⟩, follows, less⟩ := ends
      refine arrive_serves (after hj') fits' follows began fresh ?_
      rw [limit, effort]
      exact Nat.add_lt_add_left less _

/-! ## Beginnings -/

theorem served_of_stands (h : Stands j r (s.line r.id) []) (known : (s.run? r.id).isSome)
    (job : s.job? r.id = some j) (on : r.phase ≠ .over) : Served s j r where
  known := known
  job := job
  steps := h.steps.resolve_left on
  calm := h.calm.resolve_left on
  owned := h.owned
  active := h.active on

theorem idle_of_none (script : EncoderScript) {q : Option Process} (h : q = none) :
    Act.Idle script q := by
  intro p hp
  rw [h] at hp
  cases hp

/-- A run that has been stopped before it begins never does. -/
theorem retire_serves (h : Served s j r) (created : j.state = .created) (none : r.process = none)
    (early : r.stopsEarly = true) : s.Serves r (s.retire r) (effort s.shared.now r) := by
  refine ⟨_, j, _, retire_does h.known h.job h.owned, ?_, ?_,
    ⟨⟨rfl, id, And.intro, fun _ => trivial⟩, fun c hc => .inr (List.mem_map_of_mem hc)⟩⟩
  · exact {
      fits := idle_of_none r.script none
      steps := .inl rfl
      stale := fun _ t ht step => by
        rcases List.mem_append.1 ht with ht | ht
        · exact h.stale t ht step
        · obtain ⟨c, -, rfl⟩ := List.mem_map.1 ht
          cases step
      calm := .inl rfl
      early := fun _ => .inr rfl
      owned := fun _ hc => by cases hc
      ended := fun _ => ⟨rfl, .inr ⟨created, early, h.active⟩⟩
      left := fun e => by
        rw [show r.retired.isActive = r.isActive from rfl, h.active] at e
        cases e }
  · simp only [List.length_map, effort, Run.retired, stageEffort, Option.map_none,
      Option.getD_none, List.length_nil]
    omega

/-- A run whose turn is its beginning. -/
theorem start_serves (h : Served s j r) (fits : r.Fits j r.phase) (phase : r.phase = .unstarted)
    (time : s.shared.now.isNaN = false) : s.Serves r (s.start r) (effort s.shared.now r) := by
  have unstarted := fits
  rw [phase] at unstarted
  unfold start
  split
  · next early => exact retire_serves h unstarted.1 unstarted.2 early
  · next early' =>
    have began : r.stopsEarly = false := by simpa using early'
    split
    · exact work_serves h fits (by rw [phase]; trivial) began time
    · next seconds _ =>
      have less (limitAt : Option Float) : 1 + ((limitAt.map (weight s.shared.now)).getD 0 +
          r.callers.length + (4 * r.script.reads.length + 5)) ≤ effort s.shared.now r := by
        have : (limitAt.map (weight s.shared.now)).getD 0 ≤ 3 := by
          cases limitAt with
          | none => exact Nat.zero_le _
          | some t => simp only [Option.map_some, Option.getD_some, weight]; split <;> omega
        simp only [effort, phase, stageEffort]
        omega
      have enters (r' : Run) (id : r'.id = r.id) (entering : r'.phase = .entering)
          (process : r'.process = r.process) (callers : r'.callers = r.callers)
          (active : r'.isActive = r.isActive) (early : r'.stopsEarly = r.stopsEarly)
          (script : r'.script = r.script) (stop : r.mustStop = true → r'.mustStop = true) :
          s.Serves r ((s.putRun r').enqueue (.work r'.id)) (effort s.shared.now r) := by
        have put : s.Does r'.id ((s.putRun r').enqueue (.work r'.id)) r' j [.work r'.id] :=
          (Does.put r' (id ▸ h.known) (id ▸ h.job)).append _ (by simp [Turn.job])
        have served : Served s j r' := ⟨id ▸ h.known, id ▸ h.job, id ▸ h.steps, id ▸ h.calm,
          by rw [callers, id]; exact h.owned, active.trans h.active⟩
        refine ⟨r', j, [.work r'.id], ?_, ?_, ?_,
          ⟨⟨script, active.trans, fun e gone => ⟨early.symm.trans e, active.symm.trans gone⟩,
            fun told => ?_⟩, fun c hc => .inl (callers ▸ hc)⟩⟩
        · rw [← id]
          exact put
        · rw [← id]
          refine served.stands ?_ (by simp [entering]) (early.trans began) ?_ rfl
          · rw [entering]
            exact ⟨unstarted.1, process.trans unstarted.2⟩
          · rw [Run.due, entering]
            rfl
        · have := less r'.limitAt
          rw [effort, entering, callers, stageEffort, script]
          exact this
        · rw [Run.Told, phase] at told
          rw [Run.Told, entering]
          exact stop (told.resolve_left early')
      dsimp only
      split
      · exact enters _ rfl rfl rfl rfl rfl rfl rfl fun _ => rfl
      · exact enters _ rfl rfl rfl rfl rfl rfl rfl fun told => told

/-! ## What a run hears -/

/-- A run of which nothing becomes. -/
theorem same_serves (stored : s.run? r.id = some r) (job : s.job? r.id = some j)
    (h : Stands j r (s.line r.id) r.due) : s.Serves r s (effort s.shared.now r) := by
  refine ⟨r, j, [], ⟨.refl s r.id, stored, job, (List.append_nil _).symm, by simp⟩, ?_, ?_,
    .refl r []⟩
  · rwa [List.append_nil]
  · exact Nat.le_of_eq (Nat.zero_add _)

/-- A run that is not over and whose stages are told to stop. -/
theorem stopStages_serves (known : (s.run? r.id).isSome) (job : s.job? r.id = some j)
    (h : Stands j r (s.line r.id) r.due) : s.Serves r (s.stopStages r) (effort s.shared.now r) := by
  obtain ⟨t, c, pause, phase, waiting, does⟩ | ⟨-, does⟩ := stopStages_does known job
  · have on : r.phase ≠ .over := by simp [phase]
    have fits := h.fits
    have steps := h.steps.resolve_left on
    rw [phase] at fits
    have due : r.due = [] := by
      rw [Run.due, phase]
      cases pause <;> first | rfl | cases waiting
    rw [due] at steps
    refine ⟨_, j, _, does, ?_, ?_,
      ⟨⟨rfl, id, And.intro, fun _ => ⟨rfl, rfl⟩⟩, fun _ hc => .inl hc⟩⟩
    · obtain ⟨state, p, hp, -, ends⟩ := fits
      exact {
        fits := ⟨state, p, hp, by simp, fun e => ⟨(ends e).1, trivial⟩⟩
        steps := .inr (by rw [List.filter_append, steps]; rfl)
        stale := fun e => by cases e
        calm := .inr (by rw [List.filter_append, h.calm.resolve_left on]; rfl)
        early := fun e => absurd (h.early e) (by simp [phase])
        owned := h.owned
        ended := fun e => by cases e
        left := fun e => absurd (h.left e).1 on }
    · simp only [effort, phase, stageEffort, List.length_singleton]
      cases pause with
      | asleep wake => simp only [weight]; split <;> omega
      | hanging => dsimp only; omega
      | awake => cases waiting
      | ended => cases waiting
  · refine ⟨_, j, [], does, ?_, ?_,
      ⟨⟨rfl, id, And.intro, fun told => Run.told_of_not_paused told.isPaused⟩, fun _ hc => .inl hc⟩⟩
    · rw [List.append_nil]
      exact ⟨h.fits, h.steps, h.stale, h.calm, h.early, h.owned, h.ended, h.left⟩
    · exact Nat.le_of_eq (Nat.zero_add _)

/-- A run that has come to its end hears of it by whatever comes first. -/
theorem conclude_finished_serves (known : (s.run? r.id).isSome) (job : s.job? r.id = some j)
    (owned : ∀ c ∈ r.callers, c.job = r.id) {outcome : Outcome} (fits : r.Fits j (.finished outcome))
    (stale : ∀ t ∈ s.line r.id, t.isStep = true → t = .settle r.id)
    (began : r.stopsEarly = false) {failure : Option Failure}
    (which : failure = outcomeFailure r outcome ∨ failure.isSome) :
    s.Serves r (s.conclude r failure) (effort s.shared.now r) := by
  refine conclude_serves known job owned (idle_of_finished fits) stale began ?_ ?_
  · rcases which with rfl | some
    · exact fun _ => ends_terminal fits
    · obtain ⟨f, rfl⟩ := Option.isSome_iff_exists.1 some
      exact fun _ ends => ends.isTerminal
  · simp only [effort]
    omega

theorem hearLimit_serves (stored : s.run? r.id = some r) (job : s.job? r.id = some j)
    (h : Stands j r (s.line r.id) r.due) : s.Serves r (s.hearLimit r) (effort s.shared.now r) := by
  have known : (s.run? r.id).isSome := by rw [stored]; rfl
  have fits := h.fits
  unfold hearLimit
  split
  · exact same_serves stored job h
  · next phase _ =>
    rw [phase] at fits
    exact conclude_finished_serves known job h.owned fits (h.stale_of_finished phase)
      (h.began (by simp [phase]) (by simp [phase])) (.inl rfl)
  · exact same_serves stored job h
  · exact .of_altered (stopStages_serves (r := { r with stopCause := some .timeout }) known job
      ⟨h.fits, h.steps, h.stale, h.calm, h.early, h.owned, h.ended, h.left⟩) rfl
      ⟨rfl, id, And.intro, id⟩ rfl
  · exact same_serves stored job h

theorem hearCancel_serves (stored : s.run? r.id = some r) (job : s.job? r.id = some j)
    (h : Stands j r (s.line r.id) r.due) : s.Serves r (s.hearCancel r) (effort s.shared.now r) := by
  have known : (s.run? r.id).isSome := by rw [stored]; rfl
  have fits := h.fits
  unfold hearCancel
  split
  · exact same_serves stored job h
  · next phase _ =>
    rw [phase] at fits
    exact conclude_finished_serves known job h.owned fits (h.stale_of_finished phase)
      (h.began (by simp [phase]) (by simp [phase])) (.inl rfl)
  · next phase _ =>
    rw [phase] at fits
    exact conclude_finished_serves known job h.owned fits (h.stale_of_finished phase)
      (h.began (by simp [phase]) (by simp [phase])) (.inr rfl)
  · have told := stopStages_serves (r := { r with stopCause := some .cancel, limitAt := none })
      known job ⟨h.fits, h.steps, h.stale, h.calm, h.early, h.owned, h.ended, h.left⟩
    refine .mono (.of_altered told rfl ⟨rfl, id, And.intro, id⟩ rfl) ?_
    simp only [effort, Option.map_none, Option.getD_none]
    exact Nat.add_le_add_right (Nat.add_le_add_right (Nat.zero_le _) _) _

theorem hearEnd_serves (h : Served s j r) (fits : r.Fits j r.phase)
    (began : r.stopsEarly = false) {outcome : Outcome}
    (phase : r.phase = .finished outcome) : s.Serves r (s.hearEnd r) (effort s.shared.now r) := by
  rw [phase] at fits
  have ends {failure : Option Failure}
      (which : failure = outcomeFailure r outcome ∨ failure.isSome) :
      s.Serves r (s.conclude r failure) (effort s.shared.now r) :=
    conclude_finished_serves h.known h.job h.owned fits h.stale began which
  unfold hearEnd
  rw [phase]
  dsimp only
  split
  · exact ends (.inr rfl)
  · exact ends (.inr rfl)
  · exact ends (.inl rfl)

/-! ## Alarms -/

/-- An alarm has led to a run that stands; each turn that it put in line has taken two from what
there is to do. -/
def Rings (s : Service) (r : Run) (j : Job) (s' : Service) : Prop :=
  ∃ r' added, s.Does r.id s' r' j added ∧ Stands j r' (s.line r.id ++ added) r'.due ∧
    2 * added.length + effort s.shared.now r' ≤ effort s.shared.now r ∧ r.Passes r' added

theorem same_rings (stored : s.run? r.id = some r) (job : s.job? r.id = some j)
    (h : Stands j r (s.line r.id) r.due) : s.Rings r j s :=
  ⟨r, [], ⟨.refl s r.id, stored, job, (List.append_nil _).symm, by simp⟩,
    by rwa [List.append_nil], Nat.le_of_eq (Nat.zero_add _), .refl r []⟩

theorem ringLimit_rings (stored : s.run? r.id = some r) (job : s.job? r.id = some j)
    (h : Stands j r (s.line r.id) r.due) : s.Rings r j (s.ringLimit r) := by
  have known : (s.run? r.id).isSome := by rw [stored]; rfl
  unfold ringLimit
  split
  · next t limit =>
    split
    · next due =>
      have unset : Stands j { r with limitAt := none } (s.line r.id) r.due :=
        ⟨h.fits, h.steps, h.stale, h.calm, h.early, h.owned, h.ended, h.left⟩
      refine ⟨_, _, (Does.put { r with limitAt := none } known job).append [.limit r.id]
        (by simp [Turn.job]), unset.append rfl (.inl rfl), ?_,
        ⟨⟨rfl, id, And.intro, id⟩, fun _ hc => .inl hc⟩⟩
      have two : (r.limitAt.map (weight s.shared.now)).getD 0 = 2 := by
        simp [limit, weight, due]
      have less (n k : Nat) : 2 * 1 + (0 + n + k) ≤ 2 + n + k := by omega
      unfold effort
      rw [two]
      exact less _ _
    · exact same_rings stored job h
  · exact same_rings stored job h

theorem ringWake_rings (stored : s.run? r.id = some r) (job : s.job? r.id = some j)
    (h : Stands j r (s.line r.id) r.due) : s.Rings r j (s.ringWake r) := by
  have known : (s.run? r.id).isSome := by rw [stored]; rfl
  unfold ringWake
  split
  · next t c wake phase =>
    split
    · next due =>
      have on : r.phase ≠ .over := by simp [phase]
      have steps := h.steps.resolve_left on
      rw [Run.due, phase] at steps
      have served : Served s j { r with phase := .encoding t c .awake } :=
        ⟨known, job, steps, h.calm.resolve_left on, h.owned, h.active on⟩
      have fits := h.fits
      rw [phase] at fits
      obtain ⟨state, p, hp, -, ends⟩ := fits
      refine ⟨_, _, (Does.put { r with phase := .encoding t c .awake } known job).append [.work r.id]
        (by simp [Turn.job]), ?_, ?_,
        ⟨⟨rfl, id, And.intro, fun told => ?_⟩, fun _ hc => .inl hc⟩⟩
      · exact served.stands ⟨state, p, hp, by simp, fun e => ⟨(ends e).1, trivial⟩⟩ (by simp)
          (h.began (by simp [phase]) on) rfl rfl
      · simp only [effort, phase, stageEffort, weight, due, if_true, List.nil_append,
          List.length_singleton]
        omega
      · rw [Run.Told, phase] at told
        cases told.2
    · exact same_rings stored job h
  · exact same_rings stored job h

/-! ## From outside -/

/-- Something has led to a run that stands. -/
def Leads (s : Service) (r : Run) (s' : Service) : Prop :=
  ∃ r' j' added, s.Does r.id s' r' j' added ∧ Stands j' r' (s.line r.id ++ added) r'.due ∧
    r.Passes r' added

theorem Serves.leads {s' : Service} {most : Nat} (h : s.Serves r s' most) : s.Leads r s' := by
  obtain ⟨r', j', added, does, stands, -, passes⟩ := h
  exact ⟨r', j', added, does, stands, passes⟩

theorem Rings.leads {s' : Service} (h : s.Rings r j s') : s.Leads r s' := by
  obtain ⟨r', added, does, stands, -, passes⟩ := h
  exact ⟨r', j, added, does, stands, passes⟩

/-- A run is stopped from outside. -/
theorem stop_leads (known : (s.run? r.id).isSome) (job : s.job? r.id = some j)
    (h : Stands j r (s.line r.id) r.due) : s.Leads r (s.stop r) := by
  unfold stop
  split
  · next phase =>
    refine ⟨_, j, [], .put { r with stopsEarly := true } known job, ?_,
      ⟨⟨rfl, id, fun _ gone => ?_, fun _ => ?_⟩, fun _ hc => .inl hc⟩⟩
    · rw [List.append_nil]
      exact ⟨h.fits, h.steps, h.stale, h.calm, fun _ => .inl phase, h.owned,
        fun e => absurd (phase.symm.trans e) (by simp), h.left⟩
    · cases (h.active (by simp [phase])).symm.trans gone
    · rw [Run.Told, phase]
      exact .inl rfl
  · refine ⟨r, j, [], .put r known job, ?_, .refl r []⟩
    rwa [List.append_nil]
  · split
    · exact ⟨r, j, _, (Does.put r known job).append [.cancel r.id] (by simp [Turn.job]),
        h.append rfl (.inl rfl), .refl r _⟩
    · exact (stopStages_serves known job h).leads

/-- A caller comes to wait. -/
theorem attend_leads {c : Caller} (stored : s.run? c.job = some r) (job : s.job? c.job = some j)
    (h : Stands j r (s.line r.id) r.due) : s.Leads r (s.attend c) := by
  have id : r.id = c.job := id_of_run? stored
  have known : (s.run? r.id).isSome := by rw [id, stored]; rfl
  rw [← id] at job
  unfold attend onRun
  rw [stored]
  dsimp only
  split
  · next ended =>
    have same : s.Does r.id s r j [] :=
      ⟨.refl s r.id, id ▸ stored, job, (List.append_nil _).symm, by simp⟩
    exact ⟨r, j, _, same.append [.resume c] (by simp [Turn.job, id]), h.append rfl (.inr ended),
      .refl r _⟩
  · next on =>
    refine ⟨_, j, [], .put { r with callers := r.callers ++ [c] } known job, ?_,
      ⟨⟨rfl, fun gone => gone, And.intro, fun told => told⟩,
        fun _ hc => .inl (List.mem_append_left _ hc)⟩⟩
    rw [List.append_nil]
    refine ⟨h.fits, h.steps, h.stale, h.calm, h.early, fun d hd => ?_, fun e => absurd e on, h.left⟩
    rcases List.mem_append.1 hd with hd | hd
    · exact h.owned d hd
    · rw [List.mem_singleton.1 hd]
      exact id.symm

/-- A run that is over is left by the caller who cancelled it; its job has ended then. -/
theorem close_does (stored : s.run? r.id = some r) (job : s.job? r.id = some j)
    (h : Stands j r (s.line r.id) r.due) (ended : r.phase = .over) (reason : String) :
    ∃ j', s.Does r.id (s.close r reason) { r with isActive := false } j' [] ∧
      j.Fails (.cancelled reason) j' ∧
      Stands j' { r with isActive := false } (s.line r.id) r.due := by
  obtain ⟨onward, run, j', hj', fails⟩ :=
    failJob_fails (s := ⟨s.shared, r⟩) job (.cancelled reason)
  have closed : s.close r reason =
      { s with shared := ((Act.failJob (.cancelled reason)).result ⟨s.shared, r⟩).2.shared }.putRun
        { ((Act.failJob (.cancelled reason)).result ⟨s.shared, r⟩).2.run with isActive := false } :=
    rfl
  rw [closed, run]
  rw [Scene.job?, run] at hj'
  have fits := h.fits
  rw [ended] at fits
  have known : (s.run? r.id).isSome := by rw [stored]; rfl
  refine ⟨j', .after onward (.put { r with isActive := false } known hj'), fails, ?_⟩
  exact {
    fits := by rw [ended]; exact fits
    steps := .inl ended
    stale := h.stale
    calm := .inl ended
    early := fun _ => .inr ended
    owned := h.owned
    ended := fun _ => ⟨(h.ended ended).1, .inl rfl⟩
    left := fun _ => ⟨ended, fails.isTerminal⟩ }

end Service
end Montage
