import Montage.Proofs.Registry.Counters
import Montage.Proofs.Render.Course
import Montage.Proofs.Render.Within

/-!
# Counts by the encoder of a run

A job comes to an end in one of two ways: its run completes it at the end of a stage, or it fails it
when the stages are over. Only a run whose encoder was started completes its job. And whatever a run
may fail its job with, that failure counts as a render just if the encoder was started
(`Known.counts`): the registry finds the job rendering then, and no encoder that was started leads to
a failure that does not count. So no step of a run brings the counts out of balance with the encoders
(`Step.balanced`).
-/
namespace Montage

theorem EncoderScript.Breaks.countsAsRender {s : EncoderScript} {n : Int} {path : String}
    {file : Option StoredFile} {f : Failure} (h : s.Breaks n path file f) :
    f.countsAsRender = true := by
  cases h <;> rfl

namespace Scene

variable {setup : Setup} {files : Files} {a b : Scene} {phase : Phase}

/-! ## Stages -/

/-- The counts stay balanced if the encoder of the own job counts as started. -/
def KeepsCounts (a b : Scene) : Prop :=
  b.run.id = a.run.id ∧ ∀ started : String → Bool, started a.run.id = true →
    a.shared.registry.Balanced started → b.shared.registry.Balanced started

instance : IsPreorder Scene KeepsCounts where
  refl _ := ⟨rfl, fun _ _ balanced => balanced⟩
  trans _ _ _ h h' := ⟨h'.1.trans h.1, fun started on balanced =>
    h'.2 started (h.1 ▸ on) (h.2 started on balanced)⟩

theorem allows_keepsCounts : Allows KeepsCounts where
  notes _ _ noted := ⟨by rw [noted]; rfl, fun _ _ balanced => balanced⟩
  tell _ _ := ⟨rfl, fun _ _ balanced => balanced⟩
  call s c own good := by
    refine ⟨rfl, fun started on balanced => Registry.balanced_apply balanced ?_ _⟩
    cases c with
    | complete id => exact Option.some.inj own ▸ on
    | fail => cases good
    | _ => trivial

theorem stage_keepsCounts (setup : Setup) (s : Scene) :
    s.KeepsCounts ((Act.stage setup s.run.phase).result s).2 :=
  Act.within_stage allows_keepsCounts
    (fun _ _ registry _ => ⟨rfl, fun _ _ balanced => registry ▸ balanced⟩) s.run.phase s

/-! ## Steps -/

/-- The counts are balanced by whose encoder was started, the own one among them. -/
def Balanced (others : String → Bool) (s : Scene) : Prop :=
  s.shared.registry.Balanced (Function.update others s.run.id s.run.process.isSome)

variable {others : String → Bool}

/-- Steering a run starts no encoder. -/
theorem balanced_steered {w : Shared} {r : Run} (same : r = a.run.steered r) :
    Scene.Balanced others ⟨w, r⟩ ↔
      w.registry.Balanced (Function.update others a.run.id a.run.process.isSome) := by
  rw [Balanced, same]
  rfl

/-- The counts are balanced after a stage, since a job that has not ended may be taken as one whose
encoder was started, and one that a stage has ended is. -/
theorem Balanced.staged {m : Scene} (h : a.Balanced others) (underway : a.Underway)
    (keeps : a.KeepsCounts m) (knows : m.Knows setup files phase) (on : phase ≠ .over) :
    m.Balanced others := by
  obtain ⟨own, balanced⟩ := keeps
  have before : a.shared.registry.Balanced (Function.update others a.run.id true) := by
    refine h.congr fun id j known terminal => ?_
    by_cases same : id = a.run.id
    · subst same
      obtain ⟨i, job, live, -⟩ := underway
      cases job.symm.trans known
      cases live.symm.trans terminal
    · rw [Function.update_of_ne same, Function.update_of_ne same]
  refine (balanced _ (Function.update_self ..) before).congr fun id j known terminal => ?_
  by_cases same : id = m.run.id
  · subst same
    rcases knows.ended known terminal with completed | ⟨ended, -⟩
    · rw [Function.update_self, own, Function.update_self]
      exact completed.started
    · exact absurd ended on
  · rw [Function.update_of_ne same, Function.update_of_ne (own ▸ same)]

/-- Whatever a job that has not ended may fail with, it counts as a render just if its encoder was
started. -/
theorem Known.counts {f : Failure} {j : Job} (h : a.Known setup files) (may : a.run.MayFail f)
    (job : a.job? = some j) (live : j.state.isTerminal = false) :
    Registry.counts j.state f = a.run.process.isSome := by
  have unended {i : Job} {st : JobState} (known : a.job? = some i) (state : i.state = st)
      (terminal : st.isTerminal = true) : False := by
    rw [← Option.some.inj (job.symm.trans known)] at state
    rw [← state, live] at terminal
    cases terminal
  rcases h.mayFail may with (completed | ⟨i, known, -, why⟩) | why
  · obtain ⟨i, _, known, state, -⟩ := completed.job
    exact (unended known state rfl).elim
  · rcases why with ⟨none, other⟩ | failed | ⟨-, state, -⟩
    · rw [← Option.some.inj (job.symm.trans known)] at other
      simp [Registry.counts, none, other]
    · exact (unended known failed.state rfl).elim
    · exact (unended known state rfl).elim
  · cases why with
    | early early =>
      obtain ⟨⟨i, known, -, slight⟩, none⟩ := early
      rw [Option.some.inj (job.symm.trans known), slight, none]
      rfl
    | broken broken =>
      obtain ⟨started, i, _, known, rendering, -, breaks⟩ := broken
      rw [Option.some.inj (job.symm.trans known), started, Registry.counts, rendering,
        breaks.countsAsRender]
      rfl
    | cancelled _ underway =>
      obtain ⟨i, known, -, renders⟩ := underway
      rw [← Option.some.inj (job.symm.trans known)] at renders
      simp [Registry.counts, Failure.countsAsRender, renders]

/-- The counts stay balanced when a run fails its job. -/
theorem Balanced.failed {f : Failure} {w : Shared} {r : Run} (h : a.Balanced others)
    (known : a.Known setup files) (may : a.run.MayFail f) (fails : a.Fails f w)
    (same : r = a.run.steered r) : Scene.Balanced others ⟨w, r⟩ := by
  rw [balanced_steered same]
  cases fails with
  | ended => exact h
  | live _ _ _ _ _ _ call =>
    have suits : (Registry.Call.fail a.run.id f).Suits
        (Function.update others a.run.id a.run.process.isSome) a.shared.registry := by
      intro j job live
      rw [Function.update_self]
      exact known.counts may job live
    have balanced := Registry.balanced_apply h suits a.shared.now
    rwa [← call] at balanced

/-- No step of a run brings the counts out of balance. -/
theorem Step.balanced (h : Step setup a b) (known : a.Known setup files)
    (balanced : a.Balanced others) : b.Balanced others := by
  cases h with
  | steered steers => exact (balanced_steered steers.same).2 balanced
  | @staged phase m works _ follows result =>
    have keeps := stage_keepsCounts setup a
    obtain ⟨-, ends⟩ := stage_knows setup known.knows works
    rw [result] at keeps ends
    have on : phase ≠ .over := fun ended => by
      rw [ended] at follows
      exact follows
    exact balanced.staged (m := m) (known.knows.live works) keeps ends on
  | @broken f m works _ result =>
    have keeps := stage_keepsCounts setup a
    obtain ⟨-, ends⟩ := stage_knows setup known.knows works
    rw [result] at keeps ends
    have ends : m.Knows setup m.shared.files (.finished (.failed f)) := ends
    exact balanced.staged (m := m) (known.knows.live works) keeps ends (by simp)
  | stopped =>
    show Registry.Balanced (Function.update others a.run.id (a.run.process.map Process.kill).isSome) _
    rw [Option.isSome_map]
    exact balanced
  | failed may fails same => exact balanced.failed known may fails same

theorem Steps.balanced (h : Steps setup a b) (known : a.Known setup files)
    (balanced : a.Balanced others) : b.Balanced others := by
  induction h with
  | refl => exact balanced
  | tail steps step ih =>
    obtain ⟨_, known⟩ := Steps.reached steps known
    exact step.balanced known ih

end Scene
end Montage
