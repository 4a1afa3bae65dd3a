import Montage.Proofs.Compiler.Faults
import Montage.Proofs.Render.Within

/-!
# Who blames the timeline

Of all stages, only the first one fails because the timeline has defects, and only if the timeline
is not accepted (`locate_error`). All others spare the timeline (`Act.Spares`): what they fail with
has another code. For the launch this takes assets that are numbered as the library numbers them;
the compiler might fail in words of its own otherwise.
-/
namespace Montage

/-- Whether a failure says that the timeline has defects. -/
def Failure.blames (f : Failure) : Bool := f.code = timelineCode

/-- A call that does not say so, whatever it fails with. -/
def Registry.Spares {α : Type} (f : CallOn α) : Prop :=
  ∀ r id now failure, (f r id now).2 = .error failure → failure.blames = false

namespace Registry

/-- A call about a job fails since the job is not there, or as it does for the job. -/
theorem spares_withJob {α : Type} {k : String → Float → Registry → Job → Called α}
    (h : ∀ id now r j failure, (k id now r j).2 = .error failure → failure.blames = false) :
    Spares fun r id now => r.withJob id (k id now r) := by
  intro r id now failure failed
  dsimp only at failed
  unfold withJob get at failed
  cases known : r.find? id with
  | none =>
    rw [known] at failed
    cases failed
    rfl
  | some j =>
    rw [known] at failed
    exact h id now r j failure failed

theorem spares_transition (target : JobState) :
    Spares fun r id now => r.transition id target now := by
  refine spares_withJob fun id now r j failure failed => ?_
  split at failed <;> cases failed
  rfl

theorem spares_updateProgress (percent : Number) :
    Spares fun r id now => r.updateProgress id percent now := by
  refine spares_withJob fun id now r j failure failed => ?_
  split at failed <;> cases failed
  rfl

theorem spares_addWarning (message : String) :
    Spares fun r id _ => r.addWarning id message := by
  refine spares_withJob fun id now r j failure failed => ?_
  split at failed <;> cases failed
  rfl

theorem spares_complete (result : RenderResult) :
    Spares fun r id now => r.complete id result now := by
  refine spares_withJob fun id now r j failure failed => ?_
  split at failed <;> cases failed
  rfl

end Registry

namespace Act

instance : IsPreorder Scene fun _ _ => True where
  refl _ := trivial
  trans _ _ _ _ _ := trivial

/-- Whatever an act fails with, it does not say that the timeline has defects. -/
abbrev Spares {α : Type} (act : Act α) : Prop :=
  Along (fun _ _ => True) (fun _ => True) act (fun _ _ => True) fun f _ => f.blames = false

variable {setup : Setup} {timeline : Timeline} {assets : List Asset} {background : Option Asset}
  {command : Command} {α β : Type}

theorem Spares.error {act : Act α} (h : Spares act) {s s' : Scene} {f : Failure}
    (result : act.result s = (.error f, s')) : f.blames = false := by
  have ends := (h s trivial).2
  rw [result] at ends
  exact ends

theorem Spares.of_error {act : Act α}
    (h : ∀ s s' f, act.result s = (.error f, s') → f.blames = false) : Spares act := by
  refine fun s _ => ⟨trivial, ?_⟩
  rcases result : act.result s with ⟨f | a, s'⟩
  · exact h s s' f result
  · trivial

theorem spares_pure (a : α) : Spares (pure a : Act α) := along_pure fun _ _ => trivial

theorem spares_throw {f : Failure} (other : f.blames = false) : Spares (throw f : Act α) :=
  along_throw fun _ _ => other

theorem Spares.then {x : Act α} {f : α → Act β} (hx : Spares x) (hf : ∀ a, Spares (f a)) :
    Spares (x >>= f) := Along.bind hx hf

theorem spares_run : Spares run := along_run fun _ _ => trivial

theorem spares_shared : Spares shared := along_shared fun _ _ => trivial

theorem spares_setRun (f : Run → Run) : Spares (setRun f) := fun _ _ => ⟨trivial, trivial⟩

theorem spares_setShared (f : Shared → Shared) : Spares (setShared f) :=
  fun _ _ => ⟨trivial, trivial⟩

/-- A computation without a result is not the timeline's fault. -/
theorem spares_pureFault (x : Except Fault α) : Spares (pureFault x) :=
  along_pureFault (fun _ _ _ _ => trivial) fun _ _ _ _ => rfl

theorem spares_forM {f : α → Act Unit} (h : ∀ x, Spares (f x)) (xs : List α) :
    Spares (xs.forM f) := along_forM xs fun x _ => h x

/-! ## Calls -/

theorem spares_call {f : Registry.CallOn α} (h : Registry.Spares f) : Spares (call f) := by
  refine .of_error fun s s' failure failed => ?_
  have run : (call f).result s =
      (pureFailure (f s.shared.registry s.run.id s.shared.now).2).result
        { s with shared := { s.shared with
            registry := (f s.shared.registry s.run.id s.shared.now).1 } } := rfl
  rw [run] at failed
  cases answer : (f s.shared.registry s.run.id s.shared.now).2 with
  | ok a =>
    rw [answer] at failed
    cases failed
  | error e =>
    rw [answer] at failed
    cases failed
    exact h _ _ _ _ answer

theorem spares_announce {f : Registry.CallOn Job} (h : Registry.Spares f) (kind : String)
    (data : Job → Json) : Spares (announce f kind data) :=
  (spares_call h).then fun _ => .then (fun _ _ => ⟨trivial, trivial⟩) fun _ => spares_pure _

theorem spares_advance (state : JobState) : Spares (advance state) :=
  (spares_announce (Registry.spares_transition state) _ _).then fun _ => spares_pure _

theorem spares_guarded {act : Act α} (h : Spares act) : Spares (guarded act) := by
  refine .of_error fun s s' f failed => ?_
  rcases result : act.result s with ⟨e | a, m⟩
  · rw [result_guarded_error result] at failed
    cases failed
    exact h.error result
  · rw [result_guarded_ok result] at failed
    cases failed

/-! ## Reading -/

theorem spares_notify (percent : Float) : Spares (notify percent) := by
  refine .of_error fun s s' f failed => ?_
  rw [result_notify] at failed
  cases failed

theorem spares_report (percent : Float) : Spares (report setup percent) := by
  rw [report_eq]
  refine spares_run.then fun r => ?_
  dsimp only
  split
  · exact spares_pure _
  split
  · exact spares_pure _
  exact (spares_setRun _).then fun _ =>
    (spares_announce (Registry.spares_updateProgress _) _ _).then fun job => spares_notify _

theorem spares_readLine (duration : Number) (line : String) :
    Spares (readLine setup duration line) := by
  refine (spares_pureFault _).then fun time => ?_
  split
  · exact (spares_pureFault _).then fun _ => spares_report _
  · exact spares_pure _

theorem spares_readSteps (steps : List EncoderStep) : Spares (readSteps setup command steps) := by
  induction steps with
  | nil => exact spares_pure _
  | cons step rest ih =>
    refine (spares_setRun _).then fun _ => ?_
    cases step with
    | output bytes =>
      refine Spares.then ?_ fun _ => ih
      exact (spares_setRun _).then fun _ => spares_run.then fun r => (spares_setRun _).then fun _ =>
        spares_forM (spares_readLine command.duration) _
    | sleep seconds => exact spares_shared.then fun _ => spares_pure _
    | hang => exact spares_pure _
    | write size => exact (spares_setShared _).then fun _ => ih
    | exited code => exact (spares_setRun _).then fun _ => ih
    | error message => exact spares_throw rfl

theorem spares_verify {output : OutputOptions} :
    Spares (verify setup timeline command output) := by
  refine spares_shared.then fun w => ?_
  split
  · exact spares_throw rfl
  · split
    · exact spares_throw rfl
    · exact (spares_pureFault _).then fun _ => (spares_pureFault _).then fun _ => spares_pure _

theorem spares_conclude : Spares (conclude setup timeline command) := by
  have last : Spares (do readLine setup command.duration (← run).pending) :=
    spares_run.then fun r => spares_readLine _ r.pending
  have exit : Spares exitCode :=
    (spares_setRun _).then fun _ => spares_run.then fun _ => spares_pure _
  refine (spares_guarded last).then fun _ => exit.then fun code => ?_
  dsimp only
  split
  · exact spares_run.then fun _ => along_throw_bind fun _ _ => rfl
  · exact spares_run.then fun _ => spares_verify.then fun result =>
      (spares_report 100).then fun _ =>
        (spares_announce (Registry.spares_complete result) _ _).then fun _ => spares_pure _

theorem spares_readOn : Spares (readOn setup timeline command) := by
  refine spares_run.then fun r => (spares_guarded (spares_readSteps _)).then fun pause => ?_
  split
  · exact spares_conclude.then fun _ => spares_pure _
  · exact spares_pure _

/-! ## The stages -/

/-- The first stage blames the timeline only if it is not accepted. -/
theorem locate_error {s s' : Scene} {f : Failure}
    (failed : (locate setup).result s = (.error f, s')) (blames : f.blames = true) :
    ∃ list, Timeline.accept (.ok setup.settings.canvas) s.run.request.timeline =
      .error (.issues list) := by
  by_contra accepted
  have spares : f.blames = false := by
    unfold locate at failed
    rw [result_run_bind] at failed
    refine Spares.error ?_ failed
    -- every other part of the stage spares the timeline: its own refusal is excluded by assumption
    refine (spares_advance _).then fun _ => ?_
    dsimp only
    split
    · refine (spares_pure _).then fun t => (spares_advance _).then fun _ => ?_
      split
      · exact (spares_pure _).then fun t => (spares_advance _).then fun _ => spares_shared.then
          fun w => (spares_pureFault _).then fun _ => spares_pure _
      · exact along_throw_bind fun _ _ => rfl
    · next list refused => exact absurd ⟨list, refused⟩ accepted
    · exact along_throw_bind fun _ _ => rfl
  rw [blames] at spares
  cases spares

theorem spares_ground : Spares (ground setup timeline assets) :=
  spares_shared.then fun _ => (spares_pureFault _).then fun _ => spares_pure _

theorem spares_prepare : Spares (prepare setup timeline assets background) :=
  (spares_advance _).then fun _ => spares_shared.then fun _ => (spares_pureFault _).then fun _ =>
    (spares_setShared _).then fun _ => spares_pure _

theorem spares_launch {inputs : List Input}
    (numbered : Compiler.inputsFrom 1 (Compiler.found assets) = .ok inputs) :
    Spares (launch setup timeline assets background) := by
  refine spares_run.then fun r => (spares_shared.then fun _ => spares_pure _).then fun name =>
    spares_shared.then fun w => ?_
  refine (along_pureFailure (fun _ _ _ _ => trivial) fun e _ failed _ => ?_).bind fun command => ?_
  · obtain ⟨f, rfl⟩ := Compiler.compile_fault numbered failed
    rfl
  refine (spares_forM (fun _ => spares_call (Registry.spares_addWarning _)) _).then fun _ => ?_
  refine (spares_pureFault _).then fun argv => (spares_advance _).then fun _ =>
    (spares_setShared _).then fun _ => ?_
  split
  · exact spares_throw rfl
  · exact (spares_setRun _).then fun _ => spares_readOn

end Act
end Montage
