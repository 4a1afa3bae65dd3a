import Montage.Proofs.Render.Stages

/-!
# What holds of all that a stage does

A part of a stage is `Act.Within` a relation of scenes if the scenes before and after it are related,
whether it fails or not. For a preorder this is closed under sequence, so it is enough to know that
the relation allows the few things of which the parts are made (`Scene.Allows`): notes in the own
run, calls for the own job that do not fail it, and that these are told of. Files are written while
an encoder is read, and other things that are shared change when the directory is prepared and when
the encoder starts; where these matter, they are hypotheses of their own.
-/
namespace Montage

/-- Whether a call lets a job fail. -/
def Registry.Call.isFail : Registry.Call → Bool
  | fail .. => true
  | _ => false

/-- A call on a job that does not let it fail. -/
def Registry.CarriesOn {α : Type} (f : CallOn α) : Prop :=
  ∃ c : String → Call, ∀ id, (c id).job? = some id ∧ (c id).isFail = false ∧
    ∀ r now, (f r id now).1 = (c id).apply r now

namespace Registry

theorem carriesOn_transition (target : JobState) :
    CarriesOn fun r id now => r.transition id target now :=
  ⟨(.transition · target), fun _ => ⟨rfl, rfl, fun _ _ => rfl⟩⟩

theorem carriesOn_updateProgress (percent : Number) :
    CarriesOn fun r id now => r.updateProgress id percent now :=
  ⟨(.updateProgress · percent), fun _ => ⟨rfl, rfl, fun _ _ => rfl⟩⟩

theorem carriesOn_addWarning (message : String) :
    CarriesOn fun r id _ => r.addWarning id message :=
  ⟨(.addWarning · message), fun _ => ⟨rfl, rfl, fun _ _ => rfl⟩⟩

theorem carriesOn_complete (result : RenderResult) :
    CarriesOn fun r id now => r.complete id result now :=
  ⟨(.complete · result), fun _ => ⟨rfl, rfl, fun _ _ => rfl⟩⟩

end Registry

/-- A relation of scenes allows what parts of a stage are made of. -/
structure Scene.Allows (R : Scene → Scene → Prop) : Prop where
  notes : ∀ (s : Scene) (r : Run), r = s.run.noted r → R s { s with run := r }
  tell : ∀ (s : Scene) (bus : Bus), R s { s with shared := { s.shared with bus } }
  call : ∀ (s : Scene) (c : Registry.Call), c.job? = some s.run.id → c.isFail = false →
    R s { s with shared := { s.shared with registry := c.apply s.shared.registry s.shared.now } }

namespace Act

open Scene (Allows)

/-- Whatever an act does, the scenes before and after it are related. -/
def Within (R : Scene → Scene → Prop) {α : Type} (act : Act α) : Prop := ∀ s, R s (act.result s).2

variable {R : Scene → Scene → Prop} [IsPreorder Scene R] {α β : Type}

/-! ## Sequences -/

theorem Within.bind {x : Act α} {f : α → Act β} (hx : Within R x) (hf : ∀ a, Within R (f a)) :
    Within R (x >>= f) := by
  intro s
  have first := hx s
  rw [result_bind]
  generalize x.result s = r at first
  obtain ⟨_ | a, m⟩ := r
  · exact first
  · exact Trans.trans first (hf a m)

theorem Within.of_same {act : Act α} (h : ∀ s, (act.result s).2 = s) : Within R act :=
  fun s => (h s).symm ▸ Std.Refl.refl s

theorem within_pure (a : α) : Within R (pure a : Act α) := .of_same fun _ => rfl

theorem within_throw (f : Failure) : Within R (throw f : Act α) := .of_same fun _ => rfl

/-- Nothing comes after a failure. -/
theorem within_throw_bind (f : Failure) (g : α → Act β) : Within R (throw f >>= g) :=
  .of_same fun _ => rfl

theorem within_run : Within R run := .of_same fun _ => rfl

theorem within_shared : Within R shared := .of_same fun _ => rfl

theorem within_pureFault (x : Except Fault α) : Within R (pureFault x) := by
  cases x with
  | ok a => exact within_pure a
  | error f => exact within_throw _

theorem within_pureFailure (x : Except Failure α) : Within R (pureFailure x) := by
  cases x with
  | ok a => exact within_pure a
  | error f => exact within_throw _

theorem within_forM {f : α → Act Unit} (h : ∀ x, Within R (f x)) (xs : List α) :
    Within R (xs.forM f) := by
  induction xs with
  | nil => exact within_pure ()
  | cons x xs ih => exact (h x).bind fun _ => ih

/-! ## Notes and calls -/

variable {setup : Setup} {timeline : Timeline} {command : Command}

omit [IsPreorder Scene R] in
theorem within_setRun (h : Allows R) {f : Run → Run} (notes : ∀ r, f r = r.noted (f r)) :
    Within R (setRun f) := fun s => h.notes s (f s.run) (notes s.run)

omit [IsPreorder Scene R] in
theorem within_call (h : Allows R) {f : Registry.CallOn α} (on : Registry.CarriesOn f) :
    Within R (call f) := by
  intro s
  obtain ⟨c, is⟩ := on
  obtain ⟨own, good, same⟩ := is s.run.id
  rw [scene_call, same]
  exact h.call s _ own good

theorem within_announce (h : Allows R) {f : Registry.CallOn Job} (on : Registry.CarriesOn f)
    (kind : String) (data : Job → Json) : Within R (announce f kind data) := by
  intro s
  obtain ⟨bus, left⟩ := scene_announce f kind data s
  have called := within_call h on s
  rw [scene_call] at called
  rw [left]
  exact IsTrans.trans _ _ _ called (h.tell _ bus)

theorem within_advance (h : Allows R) (state : JobState) : Within R (advance state) :=
  (within_announce h (Registry.carriesOn_transition state) _ _).bind fun _ => within_pure ()

theorem within_guarded (h : Allows R) {act : Act α} (inner : Within R act) :
    Within R (guarded act) := by
  intro s
  have whole := inner s
  rcases answered : act.result s with ⟨f | a, m⟩
  · rw [answered] at whole
    rw [result_guarded_error answered]
    exact Trans.trans whole (h.notes m _ rfl)
  · rw [answered] at whole
    rw [result_guarded_ok answered]
    exact whole

omit [IsPreorder Scene R] in
theorem within_notify (h : Allows R) (percent : Float) : Within R (notify percent) := by
  intro s
  rw [result_notify]
  exact h.notes s _ (s.run.noted_noticed percent)

/-! ## Reading -/

theorem within_report (h : Allows R) (percent : Float) : Within R (report setup percent) := by
  rw [report_eq]
  refine within_run.bind fun r => ?_
  dsimp only
  split
  · exact within_pure ()
  split
  · exact within_pure ()
  exact (within_setRun h fun _ => rfl).bind fun _ =>
    (within_announce h (Registry.carriesOn_updateProgress _) _ _).bind fun job =>
      within_notify h job.progress

theorem within_readLine (h : Allows R) (duration : Number) (line : String) :
    Within R (readLine setup duration line) := by
  refine (within_pureFault _).bind fun time => ?_
  split
  · exact (within_pureFault _).bind fun _ => within_report h _
  · exact within_pure ()

theorem within_readPortion (h : Allows R) (duration : Number) (bytes : List UInt8) :
    Within R (readPortion setup duration bytes) :=
  (within_setRun h fun _ => rfl).bind fun _ => within_run.bind fun _ =>
    (within_setRun h fun _ => rfl).bind fun _ => within_forM (within_readLine h duration) _

/-- While an encoder is read, its output is written. -/
theorem within_readSteps (h : Allows R) (write : ∀ size, Within R (writeFile command.outputPath size))
    (steps : List EncoderStep) : Within R (readSteps setup command steps) := by
  induction steps with
  | nil => exact within_pure _
  | cons step rest ih =>
    refine (within_setRun h fun _ => rfl).bind fun _ => ?_
    cases step with
    | output bytes => exact (within_readPortion h _ bytes).bind fun _ => ih
    | sleep seconds => exact within_shared.bind fun _ => within_pure _
    | hang => exact within_pure _
    | write size => exact (write size).bind fun _ => ih
    | exited code => exact (within_setRun h fun _ => rfl).bind fun _ => ih
    | error message => exact within_throw _

theorem within_verify {output : OutputOptions} :
    Within R (verify setup timeline command output) := by
  refine within_shared.bind fun w => ?_
  split
  · exact within_throw _
  · split
    · exact within_throw _
    · exact (within_pureFault _).bind fun _ => (within_pureFault _).bind fun _ => within_pure _

theorem within_conclude (h : Allows R) : Within R (conclude setup timeline command) := by
  have last : Within R (do readLine setup command.duration (← run).pending) :=
    within_run.bind fun r => within_readLine h _ r.pending
  have exit : Within R exitCode :=
    (within_setRun h fun _ => rfl).bind fun _ => within_run.bind fun _ => within_pure _
  refine (within_guarded h last).bind fun _ => exit.bind fun code => ?_
  dsimp only
  split
  · exact within_run.bind fun _ => within_throw_bind _ _
  · exact within_run.bind fun _ => within_verify.bind fun result => (within_report h 100).bind
      fun _ => (within_announce h (Registry.carriesOn_complete result) _ _).bind fun _ => within_pure ()

theorem within_readOn (h : Allows R) (write : ∀ size, Within R (writeFile command.outputPath size)) :
    Within R (readOn setup timeline command) := by
  refine within_run.bind fun r => (within_guarded h (within_readSteps h write _)).bind fun pause => ?_
  split
  · exact (within_conclude h).bind fun _ => within_pure _
  · exact within_pure _

/-! ## Before the encoder starts -/

variable {assets : List Asset} {background : Option Asset}

theorem within_locate (h : Allows R) : Within R (locate setup) := by
  refine within_run.bind fun r => (within_advance h _).bind fun _ => ?_
  dsimp only
  split
  · refine (within_pure _).bind fun t => (within_advance h _).bind fun _ => ?_
    split
    · exact (within_pure _).bind fun t => (within_advance h _).bind fun _ => within_shared.bind
        fun w => (within_pureFault _).bind fun _ => within_pure _
    · exact within_throw_bind _ _
  · exact within_throw_bind _ _
  · exact within_throw_bind _ _

theorem within_ground : Within R (ground setup timeline assets) :=
  within_shared.bind fun _ => (within_pureFault _).bind fun _ => within_pure _

theorem within_arrange (h : Allows R) (r : Run) :
    Within R (arrange setup timeline assets background r) := by
  refine (within_shared.bind fun _ => within_pure _).bind fun name => within_shared.bind fun w => ?_
  refine (within_pureFailure _).bind fun command => ?_
  refine (within_forM (fun message => within_call h (Registry.carriesOn_addWarning message)) _).bind
    fun _ => (within_pureFault _).bind fun argv => ?_
  exact (within_advance h _).bind fun _ => within_pure _

/-! ## All stages -/

/-- A stage is within a relation that also allows other things than jobs, queues and the time to
change. -/
theorem within_stage (h : Allows R) (aside : ∀ (s : Scene) (w : Shared),
      w.registry = s.shared.registry → w.now = s.shared.now → R s { s with shared := w })
    (phase : Phase) : Within R (stage setup phase) := by
  have read (timeline : Timeline) (command : Command) : Within R (readOn setup timeline command) :=
    within_readOn h fun size s => aside s _ rfl rfl
  cases phase with
  | unstarted => exact within_locate h
  | entering => exact within_locate h
  | located => exact within_ground
  | grounded =>
    exact (within_advance h _).bind fun _ => within_shared.bind fun w => (within_pureFault _).bind
      fun swept => Within.bind (fun s => aside s _ rfl rfl) fun _ => within_pure _
  | prepared timeline assets background =>
    show Within R (launch setup timeline assets background)
    rw [launch_eq]
    refine within_run.bind fun r => (within_arrange h r).bind fun (command, argv) => ?_
    refine Within.bind (fun s => aside s _ rfl rfl) fun _ => ?_
    split
    · exact within_throw _
    · exact (within_setRun h fun _ => rfl).bind fun _ => read timeline command
  | encoding timeline command => exact read timeline command
  | finished => exact within_pure _
  | «over» => exact within_pure _

end Act
end Montage
