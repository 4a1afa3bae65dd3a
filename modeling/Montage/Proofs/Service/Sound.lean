import Montage.Proofs.Service.Stands

/-!
# All runs of a service

A service is `Sound` if all its runs stand, each with its own record and line, and nobody else is
in line. Whatever happens to one run leaves the others as they are (`Unmoved`), so a service stays
sound if the run that something happens to still stands (`Sound.step`).

`Stir` lists the elementary things that happen to a service, and `stir_keeps` says what is true of
all runs after any of them.
-/
namespace Montage.Service

/-- A run stands in a service. -/
def Stood (s : Service) (id : String) (r : Run) : Prop :=
  s.run? id = some r ∧ ∃ j, s.job? id = some j ∧ Stands j r (s.line id) r.due

/-- Nothing has happened to a job. -/
structure Unmoved (s : Service) (id : String) (s' : Service) : Prop where
  run : s'.run? id = s.run? id
  job : ∀ j, (s.run? id).isSome → s.job? id = some j → s'.job? id = some j
  line : s'.line id = s.line id

namespace Unmoved

variable {s s' s'' : Service} {id : String} {r : Run}

theorem trans (h : s.Unmoved id s') (h' : s'.Unmoved id s'') : s.Unmoved id s'' :=
  ⟨h'.run.trans h.run, fun j known hj => h'.job j (h.run ▸ known) (h.job j known hj),
    h'.line.trans h.line⟩

theorem stood (h : s.Unmoved id s') (stood : s.Stood id r) : s'.Stood id r := by
  obtain ⟨run, j, job, stands⟩ := stood
  exact ⟨h.run.trans run, j, h.job j (by rw [run]; rfl) job, h.line ▸ stands⟩

end Unmoved

theorem Touches.unmoved {s s' : Service} {id id' : String} (h : s.Touches id s') (ne : id' ≠ id) :
    s.Unmoved id' s' :=
  ⟨h.runs id' ne, fun _ _ hj => (h.jobs id' ne).trans hj, h.lines id' ne⟩

/-- All runs stand. -/
structure Sound (s : Service) : Prop where
  nodup : (s.runs.map (·.id)).Nodup
  time : s.shared.now.isNaN = false
  stray : ∀ id, s.run? id = none → s.line id = []
  stands : ∀ id r, s.run? id = some r → s.Stood id r

theorem sound_fresh (setup : Setup) (sweeper : Sweeper) (files : Files) :
    (fresh setup sweeper files).Sound where
  nodup := List.nodup_nil
  time := (by decide +kernel : (0 : Float).isNaN = false)
  stray _ _ := rfl
  stands _ _ h := by cases h

variable {s s' : Service} {id : String} {r r' : Run} {j : Job} {t : Turn} {rest : List Turn}

/-- A service stays sound if every run has been left alone or still stands. -/
theorem Sound.step (h : s.Sound) (nodup : (s'.runs.map (·.id)).Nodup)
    (time : s'.shared.now.isNaN = false)
    (each : ∀ id, s.Unmoved id s' ∨ ∃ r, s'.Stood id r) : s'.Sound where
  nodup := nodup
  time := time
  stray id none := by
    rcases each id with same | ⟨r, run, -⟩
    · rw [same.line, h.stray id (same.run ▸ none)]
    · cases none.symm.trans run
  stands id r run := by
    rcases each id with same | ⟨r', stood⟩
    · exact same.stood (h.stands id r (same.run ▸ run))
    · cases run.symm.trans stood.1
      exact stood

/-- The callers of a run wait on or come in line. -/
def Waited (r r' : Run) (s' : Service) : Prop :=
  ∀ c ∈ r.callers, c ∈ r'.callers ∨ .resume c ∈ s'.ready

theorem waited_same (callers : r'.callers = r.callers) : Waited r r' s :=
  fun _ hc => .inl (callers ▸ hc)

theorem Leads.stood (h : s.Leads r s') :
    ∃ r', s'.Stood r.id r' ∧ r.Ahead r' ∧ Waited r r' s' := by
  obtain ⟨r', j', added, does, stands, passes⟩ := h
  refine ⟨r', ⟨does.run, j', does.job, does.line ▸ stands⟩, passes.toAhead, fun c hc => ?_⟩
  exact (passes.callers c hc).imp_right fun turn => does.ready ▸ List.mem_append_right _ turn

theorem Leads.touches (h : s.Leads r s') : s.Touches r.id s' := by
  obtain ⟨_, _, _, does, -⟩ := h
  exact does.touches

/-- A job that the registry does not know has no run. -/
theorem Sound.unknown (h : s.Sound) (new : s.job? id = none) : s.run? id = none := by
  cases run : s.run? id with
  | none => rfl
  | some r =>
    obtain ⟨-, j, job, -⟩ := h.stands id r run
    cases new.symm.trans job

/-! ## The first in line -/

theorem line_front (front : s.ready = t :: rest) :
    s.line t.job = t :: { s with ready := rest }.line t.job := by
  simp [line, front]

theorem unmoved_front (front : s.ready = t :: rest) (ne : id ≠ t.job) :
    s.Unmoved id { s with ready := rest } := by
  refine ⟨rfl, fun _ _ hj => hj, ?_⟩
  simp [line, front, Ne.symm ne]

/-- Someone is in line for a run of the service. -/
theorem Sound.front (h : s.Sound) (front : s.ready = t :: rest) : ∃ r j,
    s.run? t.job = some r ∧ s.job? t.job = some j ∧
      Stands j r (t :: { s with ready := rest }.line t.job) r.due := by
  cases run : s.run? t.job with
  | none =>
    have := h.stray t.job run
    rw [line_front front] at this
    cases this
  | some r =>
    obtain ⟨-, j, job, stands⟩ := h.stands t.job r run
    exact ⟨r, j, rfl, job, line_front front ▸ stands⟩

/-- A turn that is not a caller's is served when it is taken out of the line, and takes one from
what there is to do. -/
theorem serve_serves (run : s.run? r.id = some r) (job : s.job? r.id = some j)
    (stands : Stands j r (t :: s.line r.id) r.due) (about : t.job = r.id)
    (idle : t.isResume = false) (time : s.shared.now.isNaN = false) :
    s.Serves r (s.serve t) (effort s.shared.now r) := by
  have known : (s.run? r.id).isSome := by rw [run]; rfl
  have served (f : Service → Run → Service) (h : s.Serves r (f s r) (effort s.shared.now r)) :
      s.Serves r (s.onRun t.job f) (effort s.shared.now r) := by
    rw [onRun, about, run]
    exact h
  have on {id : String} (start : t = .start id ∨ t = .work id) : r.phase ≠ .over := fun ended => by
    rcases start with rfl | rfl <;> cases stands.stale ended _ List.mem_cons_self rfl
  cases t with
  | start id =>
    obtain ⟨due, rest⟩ := stands.next rfl (on (.inl rfl))
    exact served start (start_serves (served_of_stands rest known job (on (.inl rfl))) stands.fits
      (Run.unstarted_of_due due) time)
  | work id =>
    obtain ⟨due, rest⟩ := stands.next rfl (on (.inr rfl))
    obtain ⟨works, begun⟩ := Run.works_of_due due
    exact served work (work_serves (served_of_stands rest known job (on (.inr rfl))) stands.fits works
      (stands.began begun (on (.inr rfl))) time)
  | settle id =>
    refine served hearEnd ?_
    by_cases ended : r.phase = .over
    · have same : s.hearEnd r = s := by rw [hearEnd, ended]
      rw [same]
      refine same_serves run job ?_
      exact ⟨stands.fits, .inl ended, fun _ u hu => stands.stale ended u (List.mem_cons_of_mem _ hu),
        .inl ended, stands.early, stands.owned, stands.ended, stands.left⟩
    · obtain ⟨due, rest⟩ := stands.next rfl ended
      obtain ⟨outcome, phase⟩ := Run.finished_of_due due
      exact hearEnd_serves (served_of_stands rest known job ended) stands.fits
        (stands.began (by simp [phase]) ended) phase
  | limit id => exact served hearLimit (hearLimit_serves run job (stands.drop rfl))
  | cancel id => exact served hearCancel (hearCancel_serves run job (stands.drop rfl))
  | resume c => cases idle

/-- The first in line is served, unless it is a caller. -/
theorem Sound.turn (h : s.Sound) (front : s.ready = t :: rest) (idle : t.isResume = false) :
    ∃ r, s.run? t.job = some r ∧ { s with ready := rest }.Serves r
      ({ s with ready := rest }.serve t) (effort s.shared.now r) := by
  obtain ⟨r, j, run, job, stands⟩ := h.front front
  have id : r.id = t.job := id_of_run? run
  refine ⟨r, run, ?_⟩
  exact serve_serves (s := { s with ready := rest }) (id ▸ run) (id ▸ job) (id ▸ stands) id.symm
    idle h.time

/-- The first in line is a caller: the run that it called for is over. -/
theorem Sound.over (h : s.Sound) {c : Caller} (front : s.ready = .resume c :: rest) :
    ∃ r j, s.run? c.job = some r ∧ s.job? c.job = some j ∧ r.phase = .over ∧
      Stands j r ({ s with ready := rest }.line c.job) r.due := by
  obtain ⟨r, j, run, job, stands⟩ := h.front front
  refine ⟨r, j, run, job, stands.calm.resolve_right fun none => ?_, stands.drop rfl⟩
  rw [List.filter_eq_nil_iff] at none
  exact none _ List.mem_cons_self rfl

/-- A caller who cancelled a job takes it out of the service. -/
theorem Sound.closed (h : s.Sound) {c : Caller} (front : s.ready = .resume c :: rest)
    (reason : String) : ∃ r j j', s.run? c.job = some r ∧ s.job? c.job = some j ∧
      r.phase = .over ∧ j.Fails (.cancelled reason) j' ∧
      { s with ready := rest }.Does c.job ({ s with ready := rest }.onRun c.job (close · · reason))
        { r with isActive := false } j' [] ∧
      Stands j' { r with isActive := false } ({ s with ready := rest }.line c.job) r.due := by
  obtain ⟨r, j, run, job, ended, stands⟩ := h.over front
  have id : r.id = c.job := id_of_run? run
  obtain ⟨j', does, fails, stands'⟩ := close_does (s := { s with ready := rest })
    (id ▸ run) (id ▸ job) (id ▸ stands) ended reason
  refine ⟨r, j, j', run, job, ended, fails, ?_, id ▸ stands'⟩
  have same : { s with ready := rest }.onRun c.job (close · · reason) =
      close { s with ready := rest } r reason := by
    have run : { s with ready := rest }.run? c.job = some r := run
    rw [onRun, run]
  rw [same, ← id]
  exact does

/-! ## What becomes of runs -/

/-- Someone has been told that a job was cancelled. -/
def Confirmed (s : Service) (id : String) : Prop :=
  ∃ a ∈ s.answers, a.caller.job = id ∧ a.reply = .cancelled (.ok true)

/-- A run goes on, or a caller takes it out of the service when it is over and is told so. -/
def Goes (r : Run) (id : String) (s' : Service) : Prop :=
  ∃ r', s'.run? id = some r' ∧ Waited r r' s' ∧ (r.Ahead r' ∨
    r'.script = r.script ∧ r'.phase = .over ∧ r'.isActive = false ∧ s'.Confirmed id)

/-- A service has stayed sound, its runs have gone on, new ones are active, and whoever has been
told that a job was cancelled has taken it out of the service. -/
structure Keeps (s s' : Service) : Prop where
  sound : s'.Sound
  goes : ∀ id r, s.run? id = some r → Goes r id s'
  fresh : ∀ id, s.run? id = none → ∀ r', s'.run? id = some r' → r'.isActive = true
  answers : ∃ new, s'.answers = s.answers ++ new ∧
    ∀ a ∈ new, a.reply = .cancelled (.ok true) →
      ∃ r', s'.run? a.caller.job = some r' ∧ r'.isActive = false

theorem run?_eq_none_iff (s : Service) (id : String) :
    s.run? id = none ↔ id ∉ s.runs.map (·.id) := by
  rw [run?, List.find?_eq_none, List.mem_map]
  constructor
  · rintro h ⟨r, hr, e⟩
    exact h r hr (by simpa using e)
  · intro h r hr e
    exact h ⟨r, hr, by simpa using e⟩

theorem Unmoved.goes (h : s.Unmoved id s') (run : s.run? id = some r) : Goes r id s' :=
  ⟨r, h.run.trans run, waited_same rfl, .inl (.refl r)⟩

/-- No run comes in where the ids stay. -/
theorem fresh_of_ids (ids : s'.runs.map (·.id) = s.runs.map (·.id)) (id : String)
    (none : s.run? id = none) (r' : Run) (run : s'.run? id = some r') : r'.isActive = true := by
  rw [run?_eq_none_iff, ← ids, ← run?_eq_none_iff] at none
  cases none.symm.trans run

/-- Something has happened to one run. -/
theorem Sound.led (h : s.Sound) {q : Run} (leads : s.Leads q s')
    (own : ∀ r, s.run? q.id = some r → r.Ahead q ∧ r.callers = q.callers) : s.Keeps s' where
  sound := by
    refine h.step (leads.touches.ids ▸ h.nodup) (leads.touches.time ▸ h.time) fun id => ?_
    by_cases same : id = q.id
    · obtain ⟨r', stood, -⟩ := leads.stood
      exact .inr ⟨r', same ▸ stood⟩
    · exact .inl (leads.touches.unmoved same)
  goes id r run := by
    by_cases same : id = q.id
    · obtain ⟨r', stood, ahead, waited⟩ := leads.stood
      obtain ⟨before, callers⟩ := own r (same ▸ run)
      exact ⟨r', same ▸ stood.1, fun c hc => waited c (callers ▸ hc), .inl (before.trans ahead)⟩
    · exact (leads.touches.unmoved same).goes run
  fresh := fresh_of_ids leads.touches.ids
  answers := ⟨[], by rw [leads.touches.answers, List.append_nil], by simp⟩

/-- A turn leaves all jobs alone but its own. -/
theorem Sound.served_others (h : s.Sound) (front : s.ready = t :: rest) (ne : id ≠ t.job) :
    s.Unmoved id ({ s with ready := rest }.serve t) := by
  have popped := unmoved_front front ne
  cases idle : t.isResume with
  | false =>
    obtain ⟨q, run, serves⟩ := h.turn front idle
    exact popped.trans (serves.leads.touches.unmoved (id_of_run? run ▸ ne))
  | true =>
    cases t with
    | resume c =>
      rw [serve, resume]
      split
      · exact popped.trans ⟨rfl, fun _ _ hj => hj, rfl⟩
      · next reason _ =>
        obtain ⟨_, _, _, _, _, _, _, does, -⟩ := h.closed front reason
        have unmoved := popped.trans (does.touches.unmoved ne)
        exact ⟨unmoved.run, unmoved.job, unmoved.line⟩
    | _ => cases idle

/-- A turn has been served. -/
theorem Sound.served (h : s.Sound) (front : s.ready = t :: rest) :
    s.Keeps ({ s with ready := rest }.serve t) := by
  have others (id : String) (ne : id ≠ t.job) := h.served_others front ne
  cases idle : t.isResume with
  | false =>
    obtain ⟨q, run, serves⟩ := h.turn front idle
    have id : q.id = t.job := id_of_run? run
    have touches := serves.leads.touches
    obtain ⟨r', stood, ahead, waited⟩ := serves.leads.stood
    rw [id] at stood
    refine ⟨h.step (touches.ids ▸ h.nodup) (touches.time ▸ h.time) fun id' => ?_, fun id' r hr => ?_,
      fresh_of_ids touches.ids, [], ?_, by simp⟩
    · by_cases own : id' = t.job
      · exact .inr ⟨r', own ▸ stood⟩
      · exact .inl (others id' own)
    · by_cases own : id' = t.job
      · rw [own, run] at hr
        cases hr
        exact ⟨r', own ▸ stood.1, waited, .inl ahead⟩
      · exact (others id' own).goes hr
    · rw [touches.answers, List.append_nil]
  | true =>
    cases t with
    | resume c =>
      cases aim : c.aim with
      | wait =>
        simp only [serve, resume, aim] at others ⊢
        obtain ⟨q, j, run, job, -, stands⟩ := h.over front
        refine ⟨h.step h.nodup h.time fun id => ?_,
          fun id r hr => ⟨r, hr, waited_same rfl, .inl (.refl r)⟩,
          fresh_of_ids rfl, _, rfl, by simp⟩
        by_cases own : id = c.job
        · rw [own]
          exact .inr ⟨q, run, j, job, stands⟩
        · exact .inl (others id own)
      | cancel reason =>
        simp only [serve, resume, aim] at others ⊢
        obtain ⟨q, j, j', run, -, ended, -, does, stands⟩ := h.closed front reason
        have line := does.line
        rw [List.append_nil] at line
        refine ⟨h.step (does.touches.ids ▸ h.nodup) (does.touches.time ▸ h.time) fun id => ?_,
          fun id r hr => ?_, fresh_of_ids does.touches.ids, _,
          congrArg (· ++ _) does.touches.answers, ?_⟩
        · by_cases own : id = c.job
          · rw [own]
            exact .inr ⟨_, does.run, j', does.job, line.symm ▸ stands⟩
          · exact .inl (others id own)
        · by_cases own : id = c.job
          · rw [own, run] at hr
            cases hr
            rw [own]
            exact ⟨_, does.run, waited_same rfl, .inr ⟨rfl, ended, rfl, _,
              List.mem_append_right _ List.mem_cons_self, rfl, rfl⟩⟩
          · exact (others id own).goes hr
        · intro a ha _
          rw [List.mem_singleton.1 ha]
          exact ⟨_, does.run, rfl⟩
    | _ => cases idle

/-! ## Everything that happens -/

/-- The elementary things that happen to a service: a turn is served, an alarm rings, a run is
stopped from outside, a caller comes, a new run comes in, or something else that bears on no run. -/
inductive Stir (s : Service) : Service → Prop
  | turn {t : Turn} {rest} (front : s.ready = t :: rest) : Stir s ({ s with ready := rest }.serve t)
  | limit {r : Run} (stored : s.run? r.id = some r) : Stir s (s.ringLimit r)
  | wake {r : Run} (stored : s.run? r.id = some r) : Stir s (s.ringWake r)
  | stop {r : Run} (stored : s.run? r.id = some r) (reason : Option String) :
      Stir s (s.stop { r with cancelReason := reason })
  | attend {c r} (stored : s.run? c.job = some r) : Stir s (s.attend c)
  | enrol {id : String} {request script observes objects} {j : Job} {s' : Service}
      (new : s.run? id = none)
      (runs : s'.runs = s.runs ++ [({ id, request, script, observes, objects } : Run)])
      (ready : s'.ready = s.ready ++ [.start id])
      (job : s'.job? id = some j) (created : j.state = .created)
      (jobs : ∀ id j, s.job? id = some j → s'.job? id = some j)
      (time : s'.shared.now = s.shared.now) (setup : s'.setup = s.setup)
      (answers : s'.answers = s.answers) : Stir s s'
  | aside {s' : Service} (runs : s'.runs = s.runs) (ready : s'.ready = s.ready)
      (time : s'.shared.now.isNaN = false)
      (jobs : ∀ id j, (s.run? id).isSome → s.job? id = some j → s'.job? id = some j)
      (setup : s'.setup = s.setup)
      (answers : s'.answers = s.answers ∨
        ∃ a, s'.answers = s.answers ++ [a] ∧ a.reply ≠ .cancelled (.ok true)) : Stir s s'

theorem stands_new {request : RenderRequest} {script : EncoderScript} {observes : Bool}
    {objects : Float → Bool} (created : j.state = .created) :
    Stands j { id, request, script, observes, objects } [.start id] [.start id] where
  fits := ⟨created, rfl⟩
  steps := .inr rfl
  stale ended := by cases ended
  calm := .inr rfl
  early := fun _ => .inl rfl
  owned _ h := by cases h
  ended ended := by cases ended
  left gone := by cases gone

theorem run?_enrol {q : Run} (runs : s'.runs = s.runs ++ [q]) (id : String) :
    s'.run? id = (s.run? id).or (if id = q.id then some q else none) := by
  simp only [run?, runs, List.find?_append, List.find?_singleton, beq_iff_eq, eq_comm (a := q.id)]

/-- A new run bears on no other job. -/
theorem unmoved_enrol {q : Run} (runs : s'.runs = s.runs ++ [q])
    (ready : s'.ready = s.ready ++ [.start q.id])
    (jobs : ∀ id j, s.job? id = some j → s'.job? id = some j) (ne : id ≠ q.id) :
    s.Unmoved id s' where
  run := by rw [run?_enrol runs, if_neg ne, Option.or_none]
  job j _ := jobs id j
  line := by
    rw [line, ready, List.filter_append, ← line]
    simp [Turn.job, Ne.symm ne]

theorem unmoved_aside (runs : s'.runs = s.runs) (ready : s'.ready = s.ready)
    (jobs : ∀ id j, (s.run? id).isSome → s.job? id = some j → s'.job? id = some j) (id : String) :
    s.Unmoved id s' where
  run := by rw [run?, runs, ← run?]
  job := jobs id
  line := by rw [line, ready, ← line]

theorem Sound.limited (h : s.Sound) (stored : s.run? r.id = some r) :
    s.Leads r (s.ringLimit r) := by
  obtain ⟨-, j, job, stands⟩ := h.stands r.id r stored
  exact (ringLimit_rings stored job stands).leads

theorem Sound.woken (h : s.Sound) (stored : s.run? r.id = some r) : s.Leads r (s.ringWake r) := by
  obtain ⟨-, j, job, stands⟩ := h.stands r.id r stored
  exact (ringWake_rings stored job stands).leads

theorem Sound.stopped (h : s.Sound) (stored : s.run? r.id = some r) (reason : Option String) :
    s.Leads { r with cancelReason := reason } (s.stop { r with cancelReason := reason }) := by
  obtain ⟨-, j, job, stands⟩ := h.stands r.id r stored
  exact stop_leads (r := { r with cancelReason := reason }) (by rw [stored]; rfl) job
    ⟨stands.fits, stands.steps, stands.stale, stands.calm, stands.early, stands.owned, stands.ended,
      stands.left⟩

theorem Sound.attended (h : s.Sound) {c : Caller} (stored : s.run? c.job = some r) :
    s.Leads r (s.attend c) := by
  obtain ⟨-, j, job, stands⟩ := h.stands c.job r stored
  exact attend_leads stored job (id_of_run? stored ▸ stands)

/-- What is true of runs whatever happens. -/
theorem stir_keeps (h : s.Sound) (stir : s.Stir s') : s.Keeps s' := by
  have same {q : Run} (stored : s.run? q.id = some q) (r : Run) (run : s.run? q.id = some r) :
      r.Ahead q ∧ r.callers = q.callers := by
    cases stored.symm.trans run
    exact ⟨.refl q, rfl⟩
  cases stir with
  | turn front => exact h.served front
  | limit stored => exact h.led (h.limited stored) (same stored)
  | wake stored => exact h.led (h.woken stored) (same stored)
  | stop stored reason =>
    refine h.led (h.stopped stored reason) fun r run => ?_
    cases stored.symm.trans run
    exact ⟨⟨rfl, fun gone => gone, And.intro, fun told => told⟩, rfl⟩
  | attend stored => exact h.led (h.attended stored) (same (id_of_run? stored ▸ stored))
  | @enrol id request script observes objects j _ new runs ready job created jobs time _ answers =>
    refine ⟨h.step ?_ (time ▸ h.time) fun id' => ?_, fun id' r hr => ?_, fun id' none r' hr' => ?_,
      [], by rw [answers, List.append_nil], by simp⟩
    · rw [runs, List.map_append, List.map_singleton, List.nodup_append]
      refine ⟨h.nodup, List.nodup_singleton _, ?_⟩
      intro old hold new' hnew e
      rw [List.mem_singleton.1 hnew] at e
      exact (run?_eq_none_iff s id).1 new ((show old = id from e) ▸ hold)
    · by_cases own : id' = id
      · rw [own]
        refine .inr ⟨{ id, request, script, observes, objects }, ?_, j, job, ?_⟩
        · rw [run?_enrol runs, new, if_pos rfl]
          rfl
        · have line : s'.line id = s.line id ++ [.start id] := by
            simp [Service.line, ready, Turn.job]
          rw [line, h.stray id new]
          exact stands_new created
      · exact .inl (unmoved_enrol runs ready jobs own)
    · refine ⟨r, ?_, waited_same rfl, .inl (.refl r)⟩
      rw [run?_enrol runs, hr]
      rfl
    · rw [run?_enrol runs, none, Option.none_or] at hr'
      split at hr' <;> cases hr'
      rfl
  | aside runs ready time jobs _ answers =>
    have same := unmoved_aside runs ready jobs
    refine ⟨h.step (runs ▸ h.nodup) time fun id => .inl (same id),
      fun id r hr => (same id).goes hr, fresh_of_ids (by rw [runs]), ?_⟩
    rcases answers with same | ⟨a, more, no⟩
    · exact ⟨[], by rw [same, List.append_nil], by simp⟩
    · exact ⟨[a], more, fun b hb yes => absurd (List.mem_singleton.1 hb ▸ yes) no⟩

end Montage.Service
