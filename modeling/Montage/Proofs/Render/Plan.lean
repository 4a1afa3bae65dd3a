import Montage.Proofs.Asset.Resolved
import Montage.Proofs.Registry.Records
import Montage.Proofs.Render.Blame
import Montage.Proofs.Render.Course
import Montage.Proofs.Render.Inputs

/-!
# The plan of a job

Where nobody else touches the disk, a job goes by a plan that its request and the disk on which it
began have settled (`Scene.Charts`): in each phase it is known what has been found out, and an
encoder that is started gets the arguments of a command that was drafted from the request. If the
job fails because its timeline has defects, then it was not accepted. No step of a run departs from
the plan (`Step.charted`).
-/
namespace Montage

/-- A document and the values of its fields have come to a timeline with assets and a background. -/
structure Setup.Finds (setup : Setup) (files : Files) (document : Json) (fields : Fields)
    (t : Timeline) (assets : List Asset) (background : Option Asset) : Prop where
  resolved : ∃ t₀, Timeline.accept (.ok setup.settings.canvas) document = .ok t₀ ∧
    Merge.resolve .standard fields (.ok setup.settings.canvas) t₀ = .ok t
  assets : setup.library.assets files t = .ok assets
  background : setup.library.background files t = .ok background

/-- A command is drafted from what was found in some files, and compiled when there were others. -/
def Setup.Drafts (setup : Setup) (files later : Files) (document : Json) (fields : Fields)
    (path : String) (output : OutputOptions) (command : Command) : Prop :=
  ∃ t assets background, setup.Finds files document fields t assets background ∧
    setup.compiler.compile later t assets path output background = .ok command

/-- The arguments of a command that is drafted from a request on a disk: the output directory is
prepared before the command is compiled. -/
def Setup.Plans (setup : Setup) (d : Disk) (q : RenderRequest) (argv : List String) : Prop :=
  ∃ sweeper files n path command,
    d.sweeper.prepare d.files setup.outputDir = .ok (sweeper, files, n) ∧
    setup.Drafts d.files files q.timeline q.fields path q.output command ∧
    command.arguments setup.settings.encoderPath = .ok argv

/-- A request whose timeline is not accepted. -/
def Setup.Refuses (setup : Setup) (q : RenderRequest) : Prop :=
  ∃ list, Timeline.accept (.ok setup.settings.canvas) q.timeline = .error (.issues list)

/-- A call that does not let a job fail leaves all errors as they are. -/
theorem Registry.error_apply {r : Registry} {id : String} {j : Job} (known : r.find? id = some j)
    {c : Call} (good : c.isFail = false) (now : Float) :
    ∃ j', (c.apply r now).find? id = some j' ∧ j'.error = j.error := by
  have put {old new : Job} {r' : Registry} (hold : r.find? old.id = some old)
      (jobs : r'.jobs = (r.put new).jobs) (same : new.id = old.id) (error : new.error = old.error) :
      ∃ j', r'.find? id = some j' ∧ j'.error = j.error := by
    rw [find?_put_eq jobs hold same]
    split
    · next e =>
      subst e
      cases known.symm.trans hold
      exact ⟨new, rfl, error⟩
    · exact ⟨j, known, rfl⟩
  generalize hr : c.apply r now = r'
  have effect := hr ▸ effect_apply c r now
  cases effect with
  | refused jobs => exact ⟨j, by rw [find?_congr jobs, known], rfl⟩
  | enrolled new unknown _ jobs =>
    have ne : id ≠ new.id := fun e => Option.some_ne_none _ ((e ▸ known).symm.trans unknown)
    exact ⟨j, by rw [find?_enrolled jobs unknown, if_neg ne, known], rfl⟩
  | moved _ hold _ _ result => exact put hold (congrArg (·.jobs) result) (by rfl) (by rfl)
  | reported _ hold _ result => exact put hold (congrArg (·.jobs) result) (by rfl) (by rfl)
  | warned _ hold _ result => exact put hold (congrArg (·.jobs) result) (by rfl) (by rfl)
  | completed _ hold _ jobs => exact put hold jobs (by rfl) (by rfl)
  | failed => cases good

namespace Scene

variable {setup : Setup} {d : Disk} {q : RenderRequest} {a b m : Scene} {w : Shared}
  {phase phase' : Phase}

/-- The encoders that have been started since a disk got arguments that were planned on it. -/
def Follows (setup : Setup) (d : Disk) (q : RenderRequest) (w : Shared) : Prop :=
  ∀ argv ∈ w.started, argv ∈ d.started ∨ setup.Plans d q argv

/-- What is settled in a phase, by a request and the disk on which its job began. -/
def Charts (setup : Setup) (d : Disk) (q : RenderRequest) (w : Shared) : Phase → Prop
  | .unstarted => w.disk = d
  | .entering => w.disk = d
  | .located t assets => w.disk = d ∧
      (∃ t₀, Timeline.accept (.ok setup.settings.canvas) q.timeline = .ok t₀ ∧
        Merge.resolve .standard q.fields (.ok setup.settings.canvas) t₀ = .ok t) ∧
      setup.library.assets d.files t = .ok assets
  | .grounded t assets background => w.disk = d ∧
      setup.Finds d.files q.timeline q.fields t assets background
  | .prepared t assets background => w.started = d.started ∧
      setup.Finds d.files q.timeline q.fields t assets background ∧
      ∃ n, d.sweeper.prepare d.files setup.outputDir = .ok (w.sweeper, w.files, n)
  | .finished (.failed f) => Follows setup d q w ∧ (f.blames = true → setup.Refuses q)
  | _ => Follows setup d q w

theorem follows_of_started (h : w.started = d.started) : Follows setup d q w :=
  fun _ mem => .inl (h ▸ mem)

theorem Charts.follows (h : Charts setup d q w phase) : Follows setup d q w := by
  cases phase with
  | unstarted => exact follows_of_started (congrArg Disk.started h)
  | entering => exact follows_of_started (congrArg Disk.started h)
  | located => exact follows_of_started (congrArg Disk.started h.1)
  | grounded => exact follows_of_started (congrArg Disk.started h.1)
  | prepared => exact follows_of_started h.1
  | encoding => exact h
  | finished outcome =>
    cases outcome with
    | failed f => exact h.1
    | _ => exact h
  | «over» => exact h

/-- Only the disk matters. -/
theorem Charts.congr {w' : Shared} (h : Charts setup d q w phase) (disk : w'.disk = w.disk) :
    Charts setup d q w' phase := by
  have sweeper : w'.sweeper = w.sweeper := congrArg Disk.sweeper disk
  have files : w'.files = w.files := congrArg Disk.files disk
  have started : w'.started = w.started := congrArg Disk.started disk
  have same : Charts setup d q w' phase = Charts setup d q w phase := by
    cases phase with
    | finished outcome => cases outcome <;> simp only [Charts, Follows, started]
    | _ => simp only [Charts, Follows, disk, sweeper, files, started]
  exact same ▸ h

theorem Charts.turns (h : Charts setup d q w phase) (turns : phase.Turns phase') :
    Charts setup d q w phase' := by
  cases turns with
  | same => exact h
  | woken => exact h
  | entered => exact h
  | retired => exact h.follows
  | closed => exact h

/-! ## Stages -/

/-- What the end of a stage settles. -/
def ChartsEnd (setup : Setup) (d : Disk) (q : RenderRequest) (w : Shared) :
    Except Failure Phase → Prop
  | .ok phase => Charts setup d q w phase
  | .error f => Charts setup d q w (.finished (.failed f))

open Act

theorem locate_charts (request : a.run.request = q) (disk : a.shared.disk = d) :
    ChartsEnd setup d q ((locate setup).result a).2.shared ((locate setup).result a).1 := by
  obtain ⟨same, -⟩ := (within_locate allows_disks : Via Eq (locate setup)) a
  rcases result : (locate setup).result a with ⟨f | phase, m⟩ <;> rw [result] at same
  · have disk : m.shared.disk = d := same.symm.trans disk
    exact ⟨follows_of_started (congrArg Disk.started disk), fun blames =>
      request ▸ locate_error result blames⟩
  · obtain ⟨t₀, t, assets, rfl, accepted, resolved, found⟩ := locate_ok result
    subst request
    have files : d.files = a.shared.files := congrArg Disk.files disk.symm
    exact ⟨same.symm.trans disk, ⟨t₀, accepted, resolved⟩, files ▸ found⟩

variable {t : Timeline} {assets : List Asset} {background : Option Asset} {command : Command}

theorem ground_charts (charts : Charts setup d q a.shared (.located t assets)) :
    ChartsEnd setup d q ((ground setup t assets).result a).2.shared
      ((ground setup t assets).result a).1 := by
  obtain ⟨disk, resolved, located⟩ := charts
  obtain ⟨same, -⟩ := (within_ground : Via Eq (ground setup t assets)) a
  rcases result : (ground setup t assets).result a with ⟨f | phase, m⟩ <;> rw [result] at same
  · have disk : m.shared.disk = d := same.symm.trans disk
    refine ⟨follows_of_started (congrArg Disk.started disk), fun blames => ?_⟩
    cases blames.symm.trans (spares_ground.error result)
  · obtain ⟨background, rfl, found⟩ := ground_ok result
    have files : d.files = a.shared.files := congrArg Disk.files disk.symm
    exact ⟨same.symm.trans disk, resolved, located, files ▸ found⟩

theorem prepare_charts (charts : Charts setup d q a.shared (.grounded t assets background)) :
    ChartsEnd setup d q ((prepare setup t assets background).result a).2.shared
      ((prepare setup t assets background).result a).1 := by
  obtain ⟨rfl, finds⟩ := charts
  obtain ⟨m, disk, -, ⟨f, result⟩ | ⟨sweeper, files, n, done, result⟩⟩ :=
    prepare_result setup t assets background a
  · rw [result]
    refine ⟨follows_of_started (congrArg Disk.started disk), fun blames => ?_⟩
    cases blames.symm.trans (spares_prepare.error result)
  · rw [result]
    exact ⟨congrArg Disk.started disk, finds, n, done⟩

/-- While an encoder is read, no other one is started. -/
theorem readOn_charts (follows : Follows setup d q a.shared) :
    ChartsEnd setup d q ((readOn setup t command).result a).2.shared
      ((readOn setup t command).result a).1 := by
  have via : Via (Disk.Writes command.outputPath) (readOn setup t command) := via_readOn
  have started : ((readOn setup t command).result a).2.shared.started = a.shared.started :=
    Disk.Writes.started (via a).1
  rcases result : (readOn setup t command).result a with ⟨f | phase, m⟩ <;> rw [result] at started
  · refine ⟨fun argv mem => follows argv (started ▸ mem), fun blames => ?_⟩
    cases blames.symm.trans (spares_readOn.error result)
  · have follows : Follows setup d q m.shared := fun argv mem => follows argv (started ▸ mem)
    obtain rfl | ⟨pause, rfl⟩ := readOn_ok result
    · exact follows
    · exact follows

/-- An encoder that is launched gets the arguments that were planned. -/
theorem launch_charts (request : a.run.request = q)
    (charts : Charts setup d q a.shared (.prepared t assets background)) :
    ChartsEnd setup d q ((launch setup t assets background).result a).2.shared
      ((launch setup t assets background).result a).1 := by
  obtain ⟨none, finds, n, done⟩ := charts
  obtain ⟨inputs, numbered⟩ := Library.inputsFrom_resolved finds.assets
  have spares : Spares (launch setup t assets background) := spares_launch numbered
  -- the outcomes are settled by the shape of the stage; what is left is whom it has started
  suffices planned : Follows setup d q ((launch setup t assets background).result a).2.shared ∧
      ∀ phase, ((launch setup t assets background).result a).1 = .ok phase →
        phase = .finished .done ∨ ∃ command pause, phase = .encoding t command pause by
    obtain ⟨follows, ends⟩ := planned
    rcases result : (launch setup t assets background).result a with ⟨f | phase, m⟩ <;>
      rw [result] at follows ends
    · refine ⟨follows, fun blames => ?_⟩
      cases blames.symm.trans (spares.error result)
    · obtain rfl | ⟨command, pause, rfl⟩ := ends phase rfl
      · exact follows
      · exact follows
  rw [launch_eq, result_run_bind, result_bind]
  have via : Via Eq (arrange setup t assets background a.run) := within_arrange allows_disks a.run
  obtain ⟨same, -⟩ := via a
  rcases arranged : (arrange setup t assets background a.run).result a with
    ⟨f | ⟨command, argv⟩, m⟩ <;> rw [arranged] at same
  · exact ⟨follows_of_started ((congrArg Disk.started same).symm.trans none),
      fun phase ok => by cases ok⟩
  · obtain ⟨compiled, written⟩ := arrange_ok arranged
    obtain ⟨writes, -, ends⟩ := encode_result setup t a.run command argv m
    refine ⟨fun other mem => ?_, fun phase ok => ?_⟩
    · have started : ((encode setup t a.run command argv).result m).2.shared.started =
          d.started ++ [argv] := by
        rw [← none, show a.shared.started = m.shared.started from congrArg Disk.started same]
        exact Disk.Writes.started writes
      have mem : other ∈ ((encode setup t a.run command argv).result m).2.shared.started := mem
      rw [started, List.mem_append, List.mem_singleton] at mem
      refine mem.imp_right fun own => ?_
      rw [own]
      rw [← request] at finds ⊢
      exact ⟨a.shared.sweeper, a.shared.files, n, outputPath setup a.run a.shared.now, command,
        done, ⟨t, assets, background, finds, compiled⟩, written⟩
    · exact (ends phase ok).imp_right fun ⟨pause, encoding⟩ => ⟨command, pause, encoding⟩

theorem stage_charts (request : a.run.request = q)
    (charts : Charts setup d q a.shared a.run.phase) (works : a.run.phase.Works) :
    ChartsEnd setup d q ((stage setup a.run.phase).result a).2.shared
      ((stage setup a.run.phase).result a).1 := by
  cases phase : a.run.phase with
  | unstarted =>
    rw [phase] at charts
    exact locate_charts request charts
  | entering =>
    rw [phase] at charts
    exact locate_charts request charts
  | located t assets =>
    rw [phase] at charts
    exact ground_charts charts
  | grounded t assets background =>
    rw [phase] at charts
    exact prepare_charts charts
  | prepared t assets background =>
    rw [phase] at charts
    exact launch_charts request charts
  | encoding t command pause =>
    rw [phase] at charts
    exact readOn_charts charts
  | finished => rw [phase] at works; exact works.elim
  | «over» => rw [phase] at works; exact works.elim

/-! ## Steps -/

/-- The own job keeps its error, and its run keeps its request. -/
def Carries (a b : Scene) : Prop :=
  b.run.id = a.run.id ∧ b.run.request = a.run.request ∧
    ∀ j, a.job? = some j → ∃ j', b.job? = some j' ∧ j'.error = j.error

instance : IsPreorder Scene Carries where
  refl _ := ⟨rfl, rfl, fun j hj => ⟨j, hj, rfl⟩⟩
  trans _ _ _ h h' := by
    refine ⟨h'.1.trans h.1, h'.2.1.trans h.2.1, fun j hj => ?_⟩
    obtain ⟨i, hi, first⟩ := h.2.2 j hj
    obtain ⟨k, hk, second⟩ := h'.2.2 i hi
    exact ⟨k, hk, second.trans first⟩

theorem allows_carries : Allows Carries where
  notes s r noted := by
    have id : r.id = s.run.id := by rw [noted]; rfl
    refine ⟨id, by rw [noted]; rfl, fun j hj => ⟨j, ?_, rfl⟩⟩
    rw [job?, id]
    exact hj
  tell _ _ := ⟨rfl, rfl, fun j hj => ⟨j, hj, rfl⟩⟩
  call s c _ good := ⟨rfl, rfl, fun j hj => Registry.error_apply hj good s.shared.now⟩

theorem stage_carries (setup : Setup) (s : Scene) :
    s.Carries ((stage setup s.run.phase).result s).2 :=
  within_stage allows_carries
    (fun s w registry _ => ⟨rfl, rfl, fun j hj => ⟨j, by rw [job?, registry]; exact hj, rfl⟩⟩)
    s.run.phase s

/-- A job goes by the plan of its request. -/
structure Charted (setup : Setup) (d : Disk) (q : RenderRequest) (a : Scene) : Prop where
  request : a.run.request = q
  charts : Charts setup d q a.shared a.run.phase
  job : ∃ j, a.job? = some j ∧
    ∀ e, j.error = some e → e.code = Failure.timelineCode → setup.Refuses q

/-- What is settled at the end of a stage holds of the run in its new phase. -/
theorem Charted.staged (h : a.Charted setup d q) (carries : a.Carries m)
    (charts : Charts setup d q m.shared phase) :
    Charted setup d q { m with run := { m.run with phase } } := by
  obtain ⟨-, request, jobs⟩ := carries
  obtain ⟨j, job, error⟩ := h.job
  obtain ⟨j', job', same⟩ := jobs j job
  exact ⟨request.trans h.request, charts, j', job', same ▸ error⟩

theorem Fails.disk {f : Failure} (h : a.Fails f w) : w.disk = a.shared.disk := by
  cases h <;> rfl

/-- A run is failed with words about its timeline only if its stages have failed with them. -/
theorem Charted.mayFail {f : Failure} (h : a.Charted setup d q) (may : a.run.MayFail f)
    (blames : f.blames = true) : setup.Refuses q := by
  cases may with
  | own phase =>
    have charts := h.charts
    rw [phase] at charts
    exact charts.2 blames
  | stopped => cases blames
  | told => cases blames
  | closed => cases blames

/-- No step of a run departs from its plan. -/
theorem Step.charted (h : a.Charted setup d q) (step : Step setup a b) : b.Charted setup d q := by
  cases step with
  | @steered r steers =>
    obtain ⟨j, job, error⟩ := h.job
    refine ⟨?_, h.charts.turns steers.phase, j, (stays_steered steers).job j job, error⟩
    rw [steers.same]
    exact h.request
  | @staged phase m works _ _ result =>
    have charts := stage_charts h.request h.charts works
    have carries := stage_carries setup a
    rw [result] at charts carries
    exact h.staged carries charts
  | @broken f m works _ result =>
    have charts := stage_charts h.request h.charts works
    have carries := stage_carries setup a
    rw [result] at charts carries
    exact h.staged carries charts
  | stopped works => exact ⟨h.request, h.charts.follows, h.job⟩
  | @failed f w r may fails same ended stop cause =>
    refine ⟨?_, ?_, ?_⟩
    · rw [show r.request = a.run.request by rw [same]; rfl]
      exact h.request
    · have follows : Charts setup d q a.shared .over := h.charts.follows
      show Charts setup d q w r.phase
      rw [ended]
      exact follows.congr fails.disk
    · obtain ⟨j, job, error⟩ := h.job
      obtain ⟨-, -, ⟨stays, -⟩ | ⟨i, -, -, new⟩⟩ := fails.cases same stop
      · exact ⟨j, stays.job j job, error⟩
      · refine ⟨_, new, fun e is_error code => h.mayFail may (decide_eq_true ?_)⟩
        rw [← Option.some.inj is_error] at code
        exact code

/-- A job goes by its plan at another time, too. -/
theorem Charted.later (h : a.Charted setup d q) (now : Float) :
    Charted setup d q { a with shared := { a.shared with now } } :=
  ⟨h.request, h.charts.congr rfl, h.job⟩

end Scene
end Montage
