import Montage.Proofs.Render.Reading

/-!
# What is known of a run

`Scene.Knows` says what is known of a run in each of its phases beyond what its record fits: before
its encoder starts, nothing has been read or reported; while the encoder is read, how far it has
come; and in the end, that its script and the file that it has left are why the job has ended as it
has. `stage_knows` is kept by every stage.
-/
namespace Montage

open EncoderStep (outputs stateAfter)

namespace Scene

/-- The encoder of the own job has not been started, and nothing has been reported. -/
structure Unread (st : JobState) (s : Scene) : Prop where
  job : ∃ j, s.job? = some j ∧ j.state = st ∧ j.progress = 0 ∧
    (st = .rendering → j.renderingSince = some s.shared.now)
  last : s.run.lastReported = -1
  observed : s.run.observed = []
  tail : s.run.tail = ""
  pending : s.run.pending = ""
  process : s.run.process = none

/-- The job has not ended, its encoder has not been started, and its failure is none of a render. -/
def Early (f : Failure) (s : Scene) : Prop :=
  (∃ j, s.job? = some j ∧ j.state.isTerminal = false ∧ Registry.counts j.state f = false) ∧
    s.run.process = none

theorem Unread.early {st : JobState} {s : Scene} (h : s.Unread st) {f : Failure}
    (live : st.isTerminal = false) (slight : Registry.counts st f = false) : s.Early f := by
  obtain ⟨j, known, rfl, -⟩ := h.job
  exact ⟨⟨j, known, live, slight⟩, h.process⟩

theorem Unread.early_of_isEarly {st : JobState} {s : Scene} (h : s.Unread st)
    (early : st.isEarly = true) (f : Failure) : s.Early f :=
  h.early (JobState.live_of_isEarly early) (JobState.counts_of_isEarly early f)

variable {setup : Setup} {st target : JobState} {s : Scene}

/-- The own job changes, and nothing but that is told of. -/
theorem Unread.change {j j' : Job} {r : Registry} {es : List Event} (h : s.Unread st)
    (limit : r.detailLimit = s.shared.registry.detailLimit) (known : s.job? = some j)
    (jobs : r.jobs = (s.shared.registry.put j').jobs) (own : j'.id = s.run.id)
    (about : ∀ e ∈ es, e.job = s.run.id) (change : j.Change es j')
    (silent : Event.percents es = []) (state : j'.state = target) (progress : j'.progress = 0)
    (since : target = .rendering → j'.renderingSince = some s.shared.now) :
    s.Leads setup { s with shared := { s.shared with registry := r, bus := s.shared.bus.tell es } } ∧
      Unread target
        { s with shared := { s.shared with registry := r, bus := s.shared.bus.tell es } } := by
  have found : r.find? s.run.id = some j' := Onward.find?_put known own jobs
  exact ⟨⟨rfl, rfl, es, .change rfl limit known found rfl about change silent⟩,
    ⟨j', found, state, progress, since⟩, h.last, h.observed, h.tail, h.pending, h.process⟩

end Scene

namespace Act

variable {setup : Setup} {st target : JobState} {script : EncoderScript} {timeline : Timeline}
  {assets : List Asset} {background : Option Asset} {command : Command} {argv : List String}

/-! ## Before the encoder starts -/

theorem along_advance {E : Failure → Scene → Prop} (fails : ∀ f s, s.Unread st → E f s) :
    Along (Scene.Leads setup) (Scene.Unread st) (advance target) (fun _ => Scene.Unread target)
      E := by
  have told : Along (Scene.Leads setup) (Scene.Unread st)
      (announce (fun r id now => r.transition id target now) "state" fun _ =>
        .object [("state", .string target.word)])
      (fun _ => Scene.Unread target) E := by
    intro s h
    rcases result_announce (Registry.updates_transition target) "state"
        (fun _ => .object [("state", .string target.word)]) s with
      ⟨failure, -, hr⟩ | ⟨i, a, j', r, known, jobs, limit, own, ⟨rfl, next, live, new⟩, hr⟩
    · rw [hr]
      exact ⟨Std.Refl.refl s, fails _ s h⟩
    · rw [hr]
      obtain ⟨j, known', state, progress, -⟩ := h.job
      obtain rfl : i = j := Option.some.inj (known.symm.trans known')
      have content : (s.news "state" (.object [("state", .string target.word)])).content =
          a.state.news := by rw [new]; rfl
      refine h.change limit known jobs own (by simp [Scene.news])
        (.advanced (by rw [new]; exact next) (by rw [new]; exact live) content (by rw [new]))
        ?_ (by rw [new]) (by rw [new]; exact progress) fun rendering => ?_
      · simp [Event.percents, Event.percent?_eq_none, Scene.news]
      · rw [new]
        exact if_pos rendering
  exact told.bind fun _ => along_pure fun _ h => h

theorem along_warn {E : Failure → Scene → Prop} (message : String)
    (fails : ∀ f s, s.Unread st → E f s) :
    Along (Scene.Leads setup) (Scene.Unread st)
      (call fun reg id _ => reg.addWarning id message) (fun _ => Scene.Unread st) E := by
  intro s h
  rcases result_call (Registry.updates_addWarning message) s with
    ⟨failure, -, hr⟩ | ⟨i, a, j', r, known, jobs, limit, own, ⟨live, new⟩, hr⟩
  · rw [hr]
    exact ⟨Std.Refl.refl s, fails _ s h⟩
  · rw [hr]
    obtain ⟨j, known', state, progress, since⟩ := h.job
    obtain rfl : i = j := Option.some.inj (known.symm.trans known')
    have none : ∀ e ∈ ([] : List Event), e.job = s.run.id := by simp
    exact h.change limit known jobs own none
      (.warned live (by rw [new]) (by rw [new])) rfl (by rw [new]; exact state)
      (by rw [new]; exact progress) (by rw [new]; exact since)

/-- Nothing is reported before the encoder starts. -/
theorem leads_before : Before (Scene.Leads setup) Scene.Unread Scene.Early where
  advance _ _ early := along_advance fun f _ h => h.early_of_isEarly early f
  warn _ message early := along_warn message fun f _ h => h.early_of_isEarly early f
  aside _ _ keeps := along_setShared keeps fun s h => by
    obtain ⟨registry, -, now⟩ := keeps s.shared
    obtain ⟨j, known, state, progress, since⟩ := h.job
    refine ⟨⟨j, ?_, state, progress, fun e => now ▸ since e⟩, h.last, h.observed, h.tail, h.pending, h.process⟩
    rw [← known, Scene.job?, Scene.job?, registry]
  fails _ f _ early h := h.early_of_isEarly early f

/-! ## The start of the encoder -/

/-- A started encoder has not been read yet. -/
theorem reads_started {s : Scene} (h : s.Unread .rendering)
    (placed : command.outputPath = outputPath setup s.run s.shared.now) :
    Scene.Reads setup command.outputPath s.run.script [] s.run.script.reads
      { s with run := { s.run with process := some (Process.start s.run.script) } } := by
  obtain ⟨j, known, rendering, progress, since⟩ := h.job
  exact {
    encodes := {
      same := rfl
      renders := ⟨j, known, rendering, .inl ⟨h.last, progress⟩⟩
      places := ⟨j, s.shared.now, known, since rfl,
        placed.trans (outputPath_congr setup rfl rfl _).symm⟩
      started := rfl }
    process := rfl
    tail := h.tail
    pending := h.pending
    legible := by simp [outputs, Progress.intakes] }

theorem along_encode {r : Run} (timed : command.IsTimed) :
    Along (Scene.Leads setup) (fun s => s.Unread .rendering ∧ s.run.script = script ∧
        command.outputPath = outputPath setup s.run s.shared.now)
      (encode setup timeline r command argv) (Comes setup timeline command)
      (fun f s => s.Early f ∨ s.Broken setup s.shared.files f) := by
  refine Along.bind (M := fun _ s => s.Unread .rendering ∧ s.run.script = script ∧
    command.outputPath = outputPath setup s.run s.shared.now)
    (along_setShared (fun _ => ⟨rfl, rfl, rfl⟩) fun s h => ?_) fun _ => ?_
  · exact ⟨⟨h.1.job, h.1.last, h.1.observed, h.1.tail, h.1.pending, h.1.process⟩, h.2⟩
  · split
    · exact along_throw fun s h => .inl (h.1.early rfl rfl)
    · refine Along.bind (M := fun _ => Scene.Reads setup command.outputPath script [] script.reads)
        (along_setRun (fun _ => rfl) ?_) fun _ => ?_
      · rintro s ⟨h, rfl, placed⟩
        exact reads_started h placed
      · exact (along_readOn timed rfl).mono (fun _ h => h) (fun _ _ h => h) fun _ _ => .inr

theorem along_launch :
    Along (Scene.Leads setup) (Scene.Unread .compiling) (launch setup timeline assets background)
      (fun phase s => ∃ command : Command, command.IsTimed ∧ Comes setup timeline command phase s)
      (fun f s => s.Early f ∨ s.Broken setup s.shared.files f) := by
  intro s h
  have arranges := (leads_before.arrange : Along (Scene.Leads setup) (Scene.Unread .compiling)
    (arrange setup timeline assets background s.run) (fun _ => Scene.Unread .rendering)
    Scene.Early) s h
  rw [launch_eq, result_run_bind, result_bind]
  rcases arranged : (arrange setup timeline assets background s.run).result s with
    ⟨f | ⟨command, argv⟩, m⟩ <;> rw [arranged] at arranges
  · exact ⟨arranges.1, .inl arranges.2⟩
  · obtain ⟨leads, unread⟩ := arranges
    obtain ⟨compiled, written⟩ := arrange_ok arranged
    have timed := Command.isTimed_of_arguments written
    have id : m.run.id = s.run.id := by rw [leads.1]; rfl
    have request : m.run.request = s.run.request := by rw [leads.1]; rfl
    have placed : command.outputPath = outputPath setup m.run m.shared.now := by
      rw [Compiler.outputPath_compiled compiled, leads.2.1, outputPath_congr setup id request]
    obtain ⟨leads', ends⟩ := along_encode timed m ⟨unread, rfl, placed⟩
    refine ⟨Trans.trans leads leads', ?_⟩
    dsimp only
    generalize (encode setup timeline s.run command argv).result m = answer at ends
    obtain ⟨f | phase, m'⟩ := answer
    · exact ends
    · exact ⟨command, timed, ends⟩

end Act

/-! ## All phases -/

namespace Scene

/-- How the own job has failed by its encoder and the files that there were. -/
structure Failed (setup : Setup) (files : Files) (s : Scene) (j : Job) : Prop where
  started : s.run.process.isSome
  state : j.state = .failed
  why : ∃ t f, j.renderingSince = some t ∧
    s.run.script.Breaks setup.settings.tailLength (Act.outputPath setup s.run t)
      (files.find? (Act.outputPath setup s.run t)) f ∧
    j.error = some (f.info (some setup.settings.tailLength))

/-- The job has not ended, and it renders just if its encoder has been started. -/
def Underway (s : Scene) : Prop :=
  ∃ j, s.job? = some j ∧ j.state.isTerminal = false ∧
    (j.state = .rendering ↔ s.run.process.isSome)

/-- What is known of a run in a phase, by the files that there were when its stages ended. -/
def Knows (setup : Setup) (files : Files) (s : Scene) : Phase → Prop
  | .unstarted => s.Unread .created
  | .entering => s.Unread .created
  | .located .. => s.Unread .resolving
  | .grounded .. => s.Unread .resolving
  | .prepared .. => s.Unread .compiling
  | .encoding _ command _ => command.IsTimed ∧ ∃ done rest, done ++ rest = s.run.script.reads ∧
      s.Reads setup command.outputPath s.run.script done rest
  | .finished .done => s.Completed setup files
  | .finished (.failed f) => s.Early f ∨ s.Broken setup files f
  | .finished .stopped => s.run.mustStop = true ∧ s.Underway
  | .over => s.Completed setup files ∨ ∃ j, s.job? = some j ∧ j.state ≠ .completed ∧
      (s.run.process = none ∧ j.state ≠ .rendering ∨ s.Failed setup files j ∨
        s.run.mustStop = true ∧ j.state = .failed ∧ j.error.map (·.code) = some "RENDER_CANCELLED")

end Scene

section

open Act

theorem Act.Comes.knows {setup : Setup} {timeline : Timeline} {command : Command} {phase : Phase}
    {s : Scene} (h : Comes setup timeline command phase s) (timed : command.IsTimed) :
    s.Knows setup s.shared.files phase := by
  obtain ⟨rfl, completed⟩ | ⟨pause, rfl, reads⟩ := h
  · exact completed
  · exact ⟨timed, reads⟩

/-- What is known of a run is known after each of its stages. -/
theorem stage_knows (setup : Setup) {files : Files} {s : Scene}
    (knows : s.Knows setup files s.run.phase) (works : s.run.phase.Works) :
    s.Leads setup ((stage setup s.run.phase).result s).2 ∧
      match (stage setup s.run.phase).result s with
      | (.ok phase, m) => m.Knows setup m.shared.files phase
      | (.error f, m) => m.Knows setup m.shared.files (.finished (.failed f)) := by
  have stage {P : Scene → Prop} {act : Act Phase} {Q : Phase → Scene → Prop}
      {E : Failure → Scene → Prop} (h : Along (Scene.Leads setup) P act Q E) (hs : P s)
      (post : ∀ phase m, Q phase m → m.Knows setup m.shared.files phase)
      (fails : ∀ f m, E f m → m.Early f ∨ m.Broken setup m.shared.files f) :
      s.Leads setup (act.result s).2 ∧ match act.result s with
        | (.ok phase, m) => m.Knows setup m.shared.files phase
        | (.error f, m) => m.Knows setup m.shared.files (.finished (.failed f)) := by
    obtain ⟨leads, ends⟩ := h s hs
    generalize act.result s = r at leads ends
    obtain ⟨f | phase, m⟩ := r
    · exact ⟨leads, fails f m ends⟩
    · exact ⟨leads, post phase m ends⟩
  have early (f : Failure) (m : Scene) (h : m.Early f) :
      m.Early f ∨ m.Broken setup m.shared.files f := .inl h
  cases phase : s.run.phase with
  | unstarted =>
    rw [phase] at knows
    exact stage leads_before.locate knows (fun _ _ ⟨⟨_, _, e⟩, h⟩ => e ▸ h) early
  | entering =>
    rw [phase] at knows
    exact stage leads_before.locate knows (fun _ _ ⟨⟨_, _, e⟩, h⟩ => e ▸ h) early
  | located t assets =>
    rw [phase] at knows
    exact stage leads_before.ground knows (fun _ _ ⟨⟨_, e⟩, h⟩ => e ▸ h) early
  | grounded t assets background =>
    rw [phase] at knows
    exact stage leads_before.prepare knows (fun _ _ ⟨e, h⟩ => e ▸ h) early
  | prepared t assets background =>
    rw [phase] at knows
    exact stage along_launch knows (fun _ _ ⟨_, timed, h⟩ => h.knows timed) fun _ _ h => h
  | encoding t command pause =>
    rw [phase] at knows
    obtain ⟨timed, done, rest, whole, reads⟩ := knows
    exact stage (along_readOn timed whole) reads (fun _ _ h => h.knows timed) fun _ _ => .inr
  | finished => rw [phase] at works; exact works.elim
  | «over» => rw [phase] at works; exact works.elim

end

end Montage
