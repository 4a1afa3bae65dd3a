import Montage.Proofs.Render.Stages

/-!
# What one run does to the service

`Service.Touches` bounds what any turn of a job does to the service: it changes the run, the
record, the line and the queues of that job and of no other. `Service.Does` adds what becomes of
them. Each part of the service that a turn is made of has one lemma of that form (`retire_does`,
`conclude_does`, `finish_does`, `stopStages_does`); no later proof opens these parts again.
-/
namespace Montage

namespace Turn

/-- Whether a turn brings a run on. -/
def isStep : Turn → Bool
  | start _ => true
  | work _ => true
  | settle _ => true
  | _ => false

/-- Whether a turn is that of a caller. -/
def isResume : Turn → Bool
  | resume _ => true
  | _ => false

end Turn

/-- Whether an encoder is waited for. -/
def Pause.isWaiting : Pause → Bool
  | asleep _ => true
  | hanging => true
  | _ => false

namespace Run

/-- A run that has come to its end. -/
def retired (r : Run) : Run := { r with phase := .over, limitAt := none, callers := [] }

/-- Whether a run waits for its encoder. -/
def isPaused (r : Run) : Bool :=
  match r.phase with
  | .encoding _ _ pause => pause.isWaiting
  | _ => false

end Run

namespace Service

/-- The record of a job. -/
def job? (s : Service) (id : String) : Option Job := s.shared.registry.find? id

/-- The turns about a job, in their order. -/
def line (s : Service) (id : String) : List Turn := s.ready.filter (·.job = id)

/-- What a turn about a job can do. -/
structure Touches (s : Service) (id : String) (s' : Service) : Prop where
  setup : s'.setup = s.setup
  time : s'.shared.now = s.shared.now
  calls : s'.calls = s.calls
  answers : s'.answers = s.answers
  ids : s'.runs.map (·.id) = s.runs.map (·.id)
  runs : ∀ id', id' ≠ id → s'.run? id' = s.run? id'
  jobs : ∀ id', id' ≠ id → s'.job? id' = s.job? id'
  lines : ∀ id', id' ≠ id → s'.line id' = s.line id'
  told : ∃ es, s'.shared.bus = s.shared.bus.tell es ∧ (∀ e ∈ es, e.job = id) ∧
    ∀ j, s.job? id = some j → ∃ j', s'.job? id = some j' ∧ j.Life es j'

namespace Touches

theorem refl (s : Service) (id : String) : s.Touches id s where
  setup := rfl
  time := rfl
  calls := rfl
  answers := rfl
  ids := rfl
  runs _ _ := rfl
  jobs _ _ := rfl
  lines _ _ := rfl
  told := ⟨[], rfl, by simp, fun j hj => ⟨j, hj, .refl j⟩⟩

theorem trans {s s' s'' : Service} {id : String} (h : s.Touches id s') (h' : s'.Touches id s'') :
    s.Touches id s'' where
  setup := h'.setup.trans h.setup
  time := h'.time.trans h.time
  calls := h'.calls.trans h.calls
  answers := h'.answers.trans h.answers
  ids := h'.ids.trans h.ids
  runs id' ne := (h'.runs id' ne).trans (h.runs id' ne)
  jobs id' ne := (h'.jobs id' ne).trans (h.jobs id' ne)
  lines id' ne := (h'.lines id' ne).trans (h.lines id' ne)
  told := by
    obtain ⟨es, bus, own, life⟩ := h.told
    obtain ⟨fs, bus', own', life'⟩ := h'.told
    refine ⟨es ++ fs, by rw [bus', bus, Bus.tell_append], ?_, fun j hj => ?_⟩
    · intro e he
      exact (List.mem_append.1 he).elim (own e) (own' e)
    · obtain ⟨j', hj', first⟩ := life j hj
      obtain ⟨j'', hj'', second⟩ := life' j' hj'
      exact ⟨j'', hj'', first.trans second⟩

end Touches

/-! ## Elementary changes -/

theorem id_of_run? {s : Service} {id : String} {r : Run} (h : s.run? id = some r) : r.id = id := by
  simpa using List.find?_some h

theorem run?_putRun {s : Service} {r : Run} (known : (s.run? r.id).isSome) (id : String) :
    (s.putRun r).run? id = if id = r.id then some r else s.run? id := by
  have map : (s.putRun r).run? id =
      (s.run? id).map fun old => if old.id == r.id then r else old := by
    simp only [run?, putRun, List.find?_map]
    congr 2
    funext old
    by_cases h : old.id = r.id <;> simp [h]
  rw [map]
  split
  · next e =>
    obtain ⟨old, hold⟩ := Option.isSome_iff_exists.1 known
    rw [e, hold, Option.map_some, id_of_run? hold, if_pos (by simp)]
  · next e =>
    cases h : s.run? id with
    | none => rfl
    | some old => rw [Option.map_some, id_of_run? h, if_neg (by simpa using e)]

theorem ids_putRun (s : Service) (r : Run) :
    (s.putRun r).runs.map (·.id) = s.runs.map (·.id) := by
  simp only [putRun, List.map_map]
  congr 1
  funext old
  by_cases h : old.id = r.id <;> simp [h]

theorem touches_putRun {s : Service} {r : Run} (known : (s.run? r.id).isSome) :
    s.Touches r.id (s.putRun r) where
  setup := rfl
  time := rfl
  calls := rfl
  answers := rfl
  ids := ids_putRun s r
  runs id' ne := by rw [run?_putRun known, if_neg ne]
  jobs _ _ := rfl
  lines _ _ := rfl
  told := ⟨[], rfl, by simp, fun j hj => ⟨j, hj, .refl j⟩⟩

theorem line_append (s : Service) {turns : List Turn} {id : String}
    (about : ∀ t ∈ turns, t.job = id) (id' : String) :
    { s with ready := s.ready ++ turns }.line id' =
      if id' = id then s.line id ++ turns else s.line id' := by
  simp only [line, List.filter_append]
  split
  · next e =>
    have all : turns.filter (·.job = id') = turns :=
      List.filter_eq_self.2 fun t ht => by simpa [e] using about t ht
    rw [all, e]
  · next e =>
    have none : turns.filter (·.job = id') = [] :=
      List.filter_eq_nil_iff.2 fun t ht => by simpa [about t ht] using Ne.symm e
    rw [none, List.append_nil]

theorem touches_append (s : Service) {turns : List Turn} {id : String}
    (about : ∀ t ∈ turns, t.job = id) : s.Touches id { s with ready := s.ready ++ turns } where
  setup := rfl
  time := rfl
  calls := rfl
  answers := rfl
  ids := rfl
  runs _ _ := rfl
  jobs _ _ := rfl
  lines id' ne := by rw [line_append s about, if_neg ne]
  told := ⟨[], rfl, by simp, fun j hj => ⟨j, hj, .refl j⟩⟩

/-- What a part of a stage leaves is shared by all, but only the own job is touched. -/
theorem touches_shared {s : Service} {r : Run} {scene : Scene}
    (onward : Scene.Onward ⟨s.shared, r⟩ scene) :
    s.Touches r.id { s with shared := scene.shared } where
  setup := rfl
  time := onward.time
  calls := rfl
  answers := rfl
  ids := rfl
  runs _ _ := rfl
  jobs id' ne := onward.others id' ne
  lines _ _ := rfl
  told := by
    obtain ⟨es, bus, own, life⟩ := onward.told
    refine ⟨es, bus, own, fun j hj => ?_⟩
    obtain ⟨j', hj', life⟩ := life j hj
    exact ⟨j', by rwa [Scene.job?, onward.id_eq] at hj', life⟩

/-! ## What becomes of a run -/

/-- A turn about a job has led to a state of its run and to a record of it, and has put some turns
in line. -/
structure Does (s : Service) (id : String) (s' : Service) (r' : Run) (j' : Job)
    (added : List Turn) : Prop where
  touches : s.Touches id s'
  run : s'.run? id = some r'
  job : s'.job? id = some j'
  ready : s'.ready = s.ready ++ added
  about : ∀ t ∈ added, t.job = id

namespace Does

variable {s s' : Service} {id : String} {r' : Run} {j j' : Job} {added : List Turn}

theorem line (h : s.Does id s' r' j' added) : s'.line id = s.line id ++ added := by
  have := line_append s h.about id
  rw [if_pos rfl] at this
  rw [← this]
  simp only [Service.line, h.ready]

theorem put (r' : Run) (known : (s.run? r'.id).isSome) (job : s.job? r'.id = some j) :
    s.Does r'.id (s.putRun r') r' j [] where
  touches := touches_putRun known
  run := by rw [run?_putRun known, if_pos rfl]
  job := job
  ready := (List.append_nil _).symm
  about := by simp

theorem append (h : s.Does id s' r' j' added) (turns : List Turn)
    (about : ∀ t ∈ turns, t.job = id) :
    s.Does id { s' with ready := s'.ready ++ turns } r' j' (added ++ turns) where
  touches := h.touches.trans (touches_append s' about)
  run := h.run
  job := h.job
  ready := by rw [h.ready, List.append_assoc]
  about t ht := (List.mem_append.1 ht).elim (h.about t) (about t)

/-- After something that only touches the shared things of a run. -/
theorem after {r : Run} {scene : Scene} (onward : Scene.Onward ⟨s.shared, r⟩ scene)
    (h : { s with shared := scene.shared }.Does r.id s' r' j' added) :
    s.Does r.id s' r' j' added where
  touches := (touches_shared onward).trans h.touches
  run := h.run
  job := h.job
  ready := h.ready
  about := h.about

end Does

/-! ## The parts of a turn -/

variable {s : Service} {r : Run} {j : Job}

/-- A failure, if there is one, is recorded in a job that has not ended. -/
def Ends (j : Job) (failure : Option Failure) (j' : Job) : Prop :=
  match failure with
  | some f => j.Fails f j'
  | none => j' = j

theorem retire_does (known : (s.run? r.id).isSome) (job : s.job? r.id = some j)
    (owned : ∀ c ∈ r.callers, c.job = r.id) :
    s.Does r.id (s.retire r) r.retired j (r.callers.map .resume) := by
  have put : s.Does r.retired.id (s.putRun r.retired) r.retired j [] := .put _ known job
  refine put.append _ fun t ht => ?_
  obtain ⟨c, hc, rfl⟩ := List.mem_map.1 ht
  exact owned c hc

theorem conclude_does (known : (s.run? r.id).isSome) (job : s.job? r.id = some j)
    (owned : ∀ c ∈ r.callers, c.job = r.id) (failure : Option Failure) :
    ∃ j', Ends j failure j' ∧ s.Does r.id (s.conclude r failure)
      { r with isActive := false }.retired j' (r.callers.map .resume) := by
  cases failure with
  | none => exact ⟨j, rfl, retire_does (r := { r with isActive := false }) known job owned⟩
  | some f =>
    obtain ⟨onward, run, j', hj', fails⟩ := failJob_fails (s := ⟨s.shared, r⟩) job f
    have retired : s.conclude r (some f) =
        ({ s with shared := ((Act.failJob f).result ⟨s.shared, r⟩).2.shared }).retire
          { ((Act.failJob f).result ⟨s.shared, r⟩).2.run with isActive := false } := rfl
    rw [retired, run]
    rw [Scene.job?, run] at hj'
    exact ⟨j', fails, .after onward
      (retire_does (r := { r with isActive := false }) known hj' owned)⟩

theorem finish_does (known : (s.run? r.id).isSome) (job : s.job? r.id = some j)
    (timeout : s.setup.timeout.isSome) (outcome : Outcome) :
    s.Does r.id (s.finish r outcome) { r with phase := .finished outcome } j [.settle r.id] := by
  obtain ⟨seconds, hseconds⟩ := Option.isSome_iff_exists.1 timeout
  rw [finish, hseconds]
  have put : s.Does r.id (s.putRun { r with phase := .finished outcome })
    { r with phase := .finished outcome } j [] := .put { r with phase := .finished outcome } known job
  exact put.append _ (by simp [Turn.job])

theorem finish_eq (timeout : s.setup.timeout = none) (outcome : Outcome) :
    s.finish r outcome = s.conclude r (outcomeFailure r outcome) := by
  rw [finish, timeout]

/-- The stages of a run are told to stop; if the run waits for its encoder, it gets a turn. -/
theorem stopStages_does (known : (s.run? r.id).isSome) (job : s.job? r.id = some j) :
    (∃ t c pause, r.phase = .encoding t c pause ∧ pause.isWaiting = true ∧
      s.Does r.id (s.stopStages r) { r with mustStop := true, phase := .encoding t c .awake } j
        [.work r.id]) ∨
      r.isPaused = false ∧ s.Does r.id (s.stopStages r) { r with mustStop := true } j [] := by
  have still : s.Does r.id (s.putRun { r with mustStop := true }) { r with mustStop := true } j [] :=
    .put { r with mustStop := true } known job
  have roused (t : Timeline) (c : Command) : s.Does r.id
      ((s.putRun { r with mustStop := true, phase := .encoding t c .awake }).enqueue (.work r.id))
      { r with mustStop := true, phase := .encoding t c .awake } j [.work r.id] :=
    (Does.put { r with mustStop := true, phase := .encoding t c .awake } known job).append _
      (by simp [Turn.job])
  unfold stopStages Run.isPaused
  cases hphase : r.phase with
  | encoding t c pause =>
    cases pause with
    | asleep wake => exact .inl ⟨t, c, _, rfl, rfl, roused t c⟩
    | hanging => exact .inl ⟨t, c, _, rfl, rfl, roused t c⟩
    | awake => exact .inr ⟨rfl, by simpa only [hphase] using still⟩
    | ended => exact .inr ⟨rfl, by simpa only [hphase] using still⟩
  | _ => exact .inr ⟨rfl, by simpa only [hphase] using still⟩

end Service
end Montage
