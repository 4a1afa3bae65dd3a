import Montage.Proofs.Service.Course
import Montage.Proofs.Timeline.Ranges

/-!
# What is told of a job's progress

The observer of a job, the queues that listen to it and its record in the registry get the same
percentages (`progress_told`). `Recounts` says so of any part of a history: the events that it tells
of a job reach all open queues, the record goes through the life that they tell of, and their
percentages are those that the run has reported. One move tells of nothing unless it is a turn of
the job's own run (`act_recounts`); there, it is what the steps of the run tell of.

Whether an observer fails when it gets a percentage plays no role: all this is true of any run.
-/
namespace Montage

open Event (percents)

theorem Run.Steers.reports {r r' : Run} (h : r.Steers r') (step : Float) : r.Reports step [] r' := by
  refine .none ?_ ?_ ?_ <;> rw [h.same] <;> rfl

namespace Service

variable {s s' : Service} {id : String} {r : Run} {i j : Job} {es fs : List Event}
  {moves later : List Move}

theorem received_append (q : Nat) (s : Service) (moves later : List Move) :
    received q s (moves ++ later) = received q s moves ++ received q (s.after moves) later := by
  induction moves generalizing s with
  | nil => rfl
  | cons m rest ih =>
    rw [List.cons_append, received, ih, received, List.append_assoc]
    rfl

/-- What some moves tell of a job, if its queues are not taken out. -/
structure Recounts (s : Service) (id : String) (moves : List Move) (es : List Event) : Prop where
  setup : (s.after moves).setup = s.setup
  heard : ∀ q, s.shared.bus.Hears q id → .leave id q ∉ moves →
    (s.after moves).shared.bus.Hears q id ∧
      received q s moves ++ (s.after moves).shared.bus.waiting q = s.shared.bus.waiting q ++ es
  life : ∀ j, s.job? id = some j → ∃ j', (s.after moves).job? id = some j' ∧ j.Life es j'
  reports : ∀ r, s.run? id = some r → ∃ r', (s.after moves).run? id = some r' ∧
    r.Reports s.setup.settings.progressStep (percents es) r'

namespace Recounts

theorem refl (s : Service) (id : String) : s.Recounts id [] [] where
  setup := rfl
  heard _ hears _ := ⟨hears, (List.append_nil _).symm⟩
  life j hj := ⟨j, hj, .refl j⟩
  reports r run := ⟨r, run, .none rfl rfl rfl⟩

theorem trans (h : s.Recounts id moves es) (h' : (s.after moves).Recounts id later fs) :
    s.Recounts id (moves ++ later) (es ++ fs) where
  setup := by rw [after_append, h'.setup, h.setup]
  heard q hears stays := by
    rw [List.mem_append, not_or] at stays
    obtain ⟨hears, told⟩ := h.heard q hears stays.1
    obtain ⟨hears', told'⟩ := h'.heard q hears stays.2
    rw [after_append, received_append]
    exact ⟨hears', by rw [List.append_assoc, told', ← List.append_assoc, told, List.append_assoc]⟩
  life j hj := by
    obtain ⟨j', hj', first⟩ := h.life j hj
    obtain ⟨j'', hj'', second⟩ := h'.life j' hj'
    exact ⟨j'', by rwa [after_append], first.trans second⟩
  reports r run := by
    obtain ⟨r', run', first⟩ := h.reports r run
    obtain ⟨r'', run'', second⟩ := h'.reports r' run'
    rw [h.setup] at second
    exact ⟨r'', by rwa [after_append], by rw [Event.percents_append]; exact first.trans second⟩

/-- A move that is silent to all queues, leaves the record and only steers the run. -/
theorem silent {m : Move} (setup : (m.act s).setup = s.setup)
    (silent : ∀ q, s.shared.bus.Hears q id → m ≠ .leave id q →
      s.Silent id q (m.takes s q) (m.act s))
    (job : ∀ j, s.job? id = some j → (m.act s).job? id = some j)
    (run : ∀ r, s.run? id = some r → ∃ r', (m.act s).run? id = some r' ∧ r.Steers r') :
    s.Recounts id [m] [] where
  setup := setup
  heard q hears stays := by
    obtain ⟨hears, told, -⟩ := silent q hears fun left => stays (List.mem_singleton.2 left.symm)
    refine ⟨hears, ?_⟩
    rw [received, received, List.append_nil, List.append_nil]
    exact told
  life j hj := ⟨j, job j hj, .refl j⟩
  reports r known := by
    obtain ⟨r', known', steers⟩ := run r known
    exact ⟨r', known', steers.reports _⟩

end Recounts

/-- A turn of a run tells of its job what its steps do. -/
theorem recounts_told {r' : Run} (setup : (Move.turn.act s).setup = s.setup)
    (run : s.run? id = some r) (run' : (Move.turn.act s).run? id = some r')
    (told : Scene.Told s.setup ⟨s.shared, r⟩ es ⟨(Move.turn.act s).shared, r'⟩) :
    s.Recounts id [.turn] es where
  setup := setup
  heard q hears _ := by
    obtain ⟨hears', waiting⟩ := Bus.hears_tell hears es
    rw [List.filter_eq_self.2 fun e he => by simp [told.own e he, id_of_run? run]] at waiting
    have bus : (s.after [.turn]).shared.bus = s.shared.bus.tell es := told.bus
    exact ⟨bus ▸ hears', by rw [bus, waiting]; rfl⟩
  life j hj := by
    obtain ⟨j', hj', life⟩ := told.life j (by rw [Scene.job?, id_of_run? run]; exact hj)
    rw [Scene.job?, id_of_run? run'] at hj'
    exact ⟨j', hj', life⟩
  reports q known := by
    cases run.symm.trans known
    exact ⟨r', run', told.reports⟩

/-- Every move tells of a job all that happens to it. -/
theorem act_recounts (h : s.Sound) (run : s.run? id = some r) {files : Files}
    (known : Scene.Known s.setup files ⟨s.shared, r⟩) (m : Move) :
    ∃ es, s.Recounts id [m] es := by
  have there : (s.run? id).isSome := by rw [run]; rfl
  by_cases turn : m = .turn
  · subst turn
    cases front : s.ready with
    | nil =>
      have same := act_turn_nil front
      refine ⟨[], .silent (by rw [same]) (fun q hears _ => ?_) (fun j hj => by rwa [same]) ?_⟩
      · rw [same]
        exact silent_same hears rfl fun j hj => hj
      · exact fun r run => ⟨r, by rwa [same], .refl r⟩
    | cons t rest =>
      obtain ⟨setup, ⟨q, q', runs, runs', steps⟩, others⟩ := h.turned front
      by_cases own : id = t.job
      · subst own
        cases run.symm.trans runs
        obtain ⟨es, told⟩ := steps.told known
        exact ⟨es, recounts_told setup run runs' told⟩
      · refine ⟨[], .silent setup (fun q hears _ => ?_) (fun j => (others id own).job j there) ?_⟩
        · rw [act_turn front]
          exact served_silent h front own hears
        · exact fun r run => ⟨r, (others id own).run.trans run, .refl r⟩
  · have steered := act_steered (s := s) turn
    refine ⟨[], .silent steered.setup (fun q hears stays => act_silent h turn there hears stays)
      (fun j => steered.jobs id j there) fun r run => ?_⟩
    obtain ⟨r', run', steers, -⟩ := steered.runs id r run
    exact ⟨r', run', steers⟩

/-- What is known of a run of a service that some history leads to. -/
theorem Reachable.known (h : s.Reachable) (run : s.run? id = some r) :
    ∃ files, Scene.Known s.setup files ⟨s.shared, r⟩ := by
  obtain ⟨setup, sweeper, files, moves, rfl⟩ := h
  have tracked := tracked_after setup sweeper files moves
  obtain ⟨files', known, -⟩ := tracked.runs id r run
  exact ⟨files', tracked.setup ▸ known⟩

theorem after_recounts (reach : s.Reachable) (run : (s.run? id).isSome) (moves : List Move) :
    ∃ es, s.Recounts id moves es := by
  induction moves generalizing s with
  | nil => exact ⟨[], .refl s id⟩
  | cons m rest ih =>
    obtain ⟨r, stored⟩ := Option.isSome_iff_exists.1 run
    obtain ⟨_, known⟩ := reach.known stored
    obtain ⟨es, first⟩ := act_recounts reach.accounted.sound stored known m
    obtain ⟨r', run', -⟩ := first.reports r stored
    obtain ⟨fs, second⟩ := ih (reach.after [m]) (by rw [run']; rfl)
    exact ⟨es ++ fs, first.trans second⟩

/-! ## From the first report to the last -/

/-- How a job that has begun with some record has told of its progress by its events. -/
structure TellsProgress (step : Float) (i : Job) (r : Run) (j : Job) (es : List Event) : Prop where
  /-- all reports of progress tell a percentage -/
  told : ∀ e ∈ es, e.kind = "progress" → e.percent?.isSome
  /-- the observer has got the same percentages -/
  observed : r.observed.reverse = if r.observes then percents es else []
  /-- the record has shown each of them when it was told -/
  recorded : ∀ front e back p, es = front ++ e :: back → e.percent? = some p →
    ∃ k, i.Life (front ++ [e]) k ∧ k.progress = p ∧ k.Life back j
  /-- and it still shows the last one -/
  last : j.progress = (percents es).getLastD 0
  increasing : (percents es).Pairwise (· < ·)
  range : ∀ p ∈ percents es, 0 ≤ p ∧ p ≤ 100
  far : (percents es).IsChain fun p q => step ≤ q - p ∨ q = 100
  completed : j.state = .completed → ∃ front, percents es = front ++ [100] ∧ 100 ∉ front

/-- The last report of a run whose job is completed is 100, and so is the progress of the job. -/
theorem Reachable.full (h : s.Reachable) (run : s.run? id = some r) (job : s.job? id = some j)
    (completed : j.state = .completed) : r.lastReported = 100 ∧ j.progress = 100 := by
  obtain ⟨_, known⟩ := h.known run
  have here : Scene.job? ⟨s.shared, r⟩ = some j := by rwa [Scene.job?, id_of_run? run]
  obtain done | ⟨-, other⟩ := known.knows.ended here (by rw [completed]; rfl)
  · obtain ⟨_, _, there, -, full, -⟩ := done.job
    cases here.symm.trans there
    exact ⟨done.last, full⟩
  · exact absurd completed other

/-- What a job tells of its progress from before its first step on, whatever happens and whatever
its observer does with a percentage. -/
theorem progress_told (reach : s.Reachable) (run : s.run? id = some r)
    (unstarted : r.phase = .unstarted) (job : s.job? id = some i)
    (positive : 0 ≤ s.setup.settings.progressStep) (moves : List Move) :
    ∃ r' j es, (s.after moves).run? id = some r' ∧ (s.after moves).job? id = some j ∧
      r'.observes = r.observes ∧
      (∀ q, s.shared.bus.Hears q id → .leave id q ∉ moves →
        received q s moves ++ (s.after moves).shared.bus.waiting q =
          s.shared.bus.waiting q ++ es) ∧
      TellsProgress s.setup.settings.progressStep i r' j es := by
  obtain ⟨_, known⟩ := reach.known run
  have unread := known.knows
  rw [unstarted] at unread
  obtain ⟨i', new, -, none, -⟩ := unread.job
  have new : s.job? id = some i' := by rwa [Scene.job?, id_of_run? run] at new
  cases job.symm.trans new
  have first : r.lastReported = -1 := unread.last
  have start : r.lastReported.isFinite = true := by
    rw [first]
    decide
  obtain ⟨es, recounts⟩ := after_recounts reach (by rw [run]; rfl) moves
  obtain ⟨j, final, life⟩ := recounts.life i job
  obtain ⟨r', run', reports⟩ := recounts.reports r run
  have completed (state : j.state = .completed) :
      j.progress = 100 ∧ ∃ front, percents es = front ++ [100] ∧ 100 ∉ front := by
    obtain ⟨last, full⟩ := (reach.after moves).full run' final state
    exact ⟨full, last ▸ reports.climbs.once start (by rw [first, last]; decide +kernel)⟩
  refine ⟨r', j, es, run', final, reports.observes,
    fun q hears stays => (recounts.heard q hears stays).2, {
      told := life.percents.1
      observed := ?_
      recorded := fun front e back p split told => Job.Life.recorded (split ▸ life) told
      last := ?_
      increasing := reports.climbs.increasing start
      range := fun p mem => (reports.climbs.isPercent p mem).range
      far := reports.climbs.far positive
      completed := fun state => (completed state).2 }⟩
  · rw [reports.observed, reports.observes, show r.observed = [] from unread.observed]
    split <;> simp
  · by_cases state : j.state = .completed
    · obtain ⟨full, front, all, -⟩ := completed state
      rw [all, List.getLastD_concat, full]
    · rw [life.percents.2 state, none]

/-- A job that shows a title for five seconds, with an observer that fails whatever it gets. Its
encoder says at two seconds how far it has come. -/
def titleObserved : Service :=
  (plain none).after [.submit { timeline := titleDocument 5 }
    { steps := [.write 15, .output "time=00:00:02.00\n".toUTF8.toList] } true fun _ => true,
    .follow (Registry.idOf 1)]

theorem progress_told_completed : ∃ r j es,
    (titleObserved.after [.turn, .turn, .turn, .turn]).run? (Registry.idOf 1) = some r ∧
      (titleObserved.after [.turn, .turn, .turn, .turn]).job? (Registry.idOf 1) = some j ∧
      j.state = .completed ∧ percents es = [20, 100] ∧ r.observed.reverse = [20, 100] ∧
      (titleObserved.after [.turn, .turn, .turn, .turn]).shared.bus.waiting 0 = es ∧
      ∃ i, TellsProgress 1 i r j es := by
  have reach : titleObserved.Reachable := (reachable_plain none).after _
  obtain ⟨r, run, begins⟩ : ∃ r, titleObserved.run? (Registry.idOf 1) = some r ∧ r.phase = .unstarted :=
    ⟨_, rfl, rfl⟩
  obtain ⟨i, job⟩ : ∃ i, titleObserved.job? (Registry.idOf 1) = some i := ⟨_, rfl⟩
  obtain ⟨r', j, es, run', job', observes, heard, tells⟩ := @progress_told titleObserved
    (Registry.idOf 1) r i reach run begins job (by decide +kernel) [.turn, .turn, .turn, .turn]
  have waiting := heard 0 ⟨_, rfl, rfl, rfl⟩ (by simp)
  rw [show received 0 titleObserved [.turn, .turn, .turn, .turn] = [] from rfl,
    show titleObserved.shared.bus.waiting 0 = [] from rfl, List.nil_append, List.nil_append] at waiting
  have completed : (titleObserved.after [.turn, .turn, .turn, .turn]).job? (Registry.idOf 1) |>.all
      (·.state = .completed) := by decide +kernel
  have percents : percents ((titleObserved.after [.turn, .turn, .turn, .turn]).shared.bus.waiting 0) =
      [20, 100] := by decide +kernel
  have watches : r.observes = true := by
    cases run
    rfl
  rw [job'] at completed
  rw [waiting] at percents
  have observed := tells.observed
  rw [observes, watches, if_pos rfl, percents] at observed
  exact ⟨r', j, es, run', job', by simpa using completed, percents, observed, waiting, i, tells⟩

end Service
end Montage
