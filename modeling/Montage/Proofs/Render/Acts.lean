import Mathlib.Order.Defs.Unbundled
import Montage.Proofs.Registry.Effects
import Montage.Proofs.Render.Life

/-!
# What the parts of a stage can do

`Scene.Onward` bounds what any part of a stage does: it takes notes in its own run, it changes no
job but its own, and every change of that job is told of as `Job.Life` says. `Act.Spec` is a
triple over it, with one assertion for the end of a part and one for its failure; it is closed
under sequence, so a stage is specified line by line.

Registry calls come in by `Registry.Updates`, one lemma for each call, and `spec_announce` turns a
call with its event into a triple.
-/
namespace Montage

/-! ## Calls on the own job -/

namespace Registry

/-- Calls on a job of an id at a time. -/
abbrev CallOn (α : Type) := Registry → String → Float → Called α

/-- A call on a job either fails, and then nothing changes, or replaces the record of the job by
another one. The registry before it, the time, the old record, the answer and the new one are
related. -/
def Updates {α : Type} (f : CallOn α) (rel : Registry → Float → Job → α → Job → Prop) : Prop :=
  ∀ r id now, (∃ failure, f r id now = (r, .error failure)) ∨
    ∃ j a j', r.find? id = some j ∧ (f r id now).1.jobs = (r.put j').jobs ∧
      (f r id now).1.detailLimit = r.detailLimit ∧ (f r id now).2 = .ok a ∧ j'.id = id ∧
      rel r now j a j'

/-- The cases of a call on a job: it is not there, or the call goes on with its record. -/
theorem withJob_call {α : Type} (r : Registry) (id : String) (k : Job → Called α) :
    (∃ failure, r.withJob id k = (r, .error failure)) ∨
      ∃ j, r.find? id = some j ∧ j.id = id ∧ r.withJob id k = k j := by
  unfold withJob get
  cases h : r.find? id with
  | none => exact .inl ⟨_, rfl⟩
  | some j => exact .inr ⟨j, rfl, id_of_find? h, rfl⟩

theorem updates_transition (target : JobState) :
    Updates (fun r id now => r.transition id target now) fun _ now j a j' =>
      a = j' ∧ j.state.next? = some target ∧ target.isTerminal = false ∧
        j' = { j with
          state := target
          updatedAt := Instant.ofSeconds now
          renderingSince := if target = .rendering then some now else j.renderingSince } := by
  intro r id now
  simp only [transition]
  rcases withJob_call r id _ with ⟨failure, h⟩ | ⟨j, hj, rfl, h⟩ <;> rw [h]
  · exact .inl ⟨failure, rfl⟩
  · split
    · exact .inl ⟨_, rfl⟩
    · next hc =>
      simp only [Bool.or_eq_true, bne_iff_ne, ne_eq, not_or, Bool.not_eq_true, not_not] at hc
      exact .inr ⟨j, _, _, hj, rfl, rfl, rfl, rfl, rfl, hc.2, hc.1, rfl⟩

theorem updates_updateProgress (percent : Number) :
    Updates (fun r id now => r.updateProgress id percent now) fun _ now j a j' =>
      a = j' ∧ j.state = .rendering ∧
        j' = { j with
          progress := if j.progress < clampPercent percent then clampPercent percent else j.progress
          updatedAt := Instant.ofSeconds now } := by
  intro r id now
  simp only [updateProgress]
  rcases withJob_call r id _ with ⟨failure, h⟩ | ⟨j, hj, rfl, h⟩ <;> rw [h]
  · exact .inl ⟨failure, rfl⟩
  · split
    · exact .inl ⟨_, rfl⟩
    · next hc => exact .inr ⟨j, _, _, hj, rfl, rfl, rfl, rfl, rfl, not_not.1 hc, rfl⟩

theorem updates_addWarning (message : String) :
    Updates (fun r id _ => r.addWarning id message) fun _ _ j _ j' =>
      j.state.isTerminal = false ∧ j' = { j with warnings := j.warnings ++ [message] } := by
  intro r id now
  simp only [addWarning]
  rcases withJob_call r id _ with ⟨failure, h⟩ | ⟨j, hj, rfl, h⟩ <;> rw [h]
  · exact .inl ⟨failure, rfl⟩
  · split
    · exact .inl ⟨_, rfl⟩
    · next hc => exact .inr ⟨j, _, _, hj, rfl, rfl, rfl, rfl, by simpa using hc, rfl⟩

theorem updates_complete (result : RenderResult) :
    Updates (fun r id now => r.complete id result now) fun _ now j a j' =>
      a = j' ∧ j.state = .rendering ∧
        j' = { j with
          state := .completed
          progress := 100
          result := some result
          updatedAt := Instant.ofSeconds now } := by
  intro r id now
  simp only [complete]
  rcases withJob_call r id _ with ⟨failure, h⟩ | ⟨j, hj, rfl, h⟩ <;> rw [h]
  · exact .inl ⟨failure, rfl⟩
  · split
    · exact .inl ⟨_, rfl⟩
    · next hc => exact .inr ⟨j, _, _, hj, rfl, rfl, rfl, rfl, rfl, not_not.1 hc, rfl⟩

theorem updates_fail (failure : Failure) :
    Updates (fun r id now => r.fail id failure now) fun r now j a j' =>
      a = j' ∧ j.state.isTerminal = false ∧
        j' = { j with
          state := .failed
          error := some (failure.info (some r.detailLimit))
          updatedAt := Instant.ofSeconds now } := by
  intro r id now
  simp only [fail]
  rcases withJob_call r id _ with ⟨failure, h⟩ | ⟨j, hj, rfl, h⟩ <;> rw [h]
  · exact .inl ⟨failure, rfl⟩
  · split
    · exact .inl ⟨_, rfl⟩
    · next hc => exact .inr ⟨j, _, _, hj, rfl, rfl, rfl, rfl, rfl, by simpa using hc, rfl⟩

end Registry

/-! ## Onward -/

/-- The bus after some events. -/
def Bus.tell (b : Bus) (es : List Event) : Bus := es.foldl (fun b e => (b.publish e).2) b

theorem Bus.tell_append (b : Bus) (es fs : List Event) : b.tell (es ++ fs) = (b.tell es).tell fs :=
  List.foldl_append

/-- The run with the notes of another one. -/
def Run.noted (r notes : Run) : Run :=
  { r with
    lastReported := notes.lastReported
    observed := notes.observed
    tail := notes.tail
    pending := notes.pending
    process := notes.process }

namespace Scene

/-- The run's own job. -/
def job? (s : Scene) : Option Job := s.shared.registry.find? s.run.id

/-- What any part of a stage can do. -/
structure Onward (a b : Scene) : Prop where
  notes : b.run = a.run.noted b.run
  time : b.shared.now = a.shared.now
  others : ∀ id, id ≠ a.run.id → b.shared.registry.find? id = a.shared.registry.find? id
  told : ∃ es, b.shared.bus = a.shared.bus.tell es ∧ (∀ e ∈ es, e.job = a.run.id) ∧
    ∀ j, a.job? = some j → ∃ j', b.job? = some j' ∧ j.Life es j'

namespace Onward

theorem id_eq {a b : Scene} (h : a.Onward b) : b.run.id = a.run.id := by
  rw [h.notes]
  rfl

theorem refl (s : Scene) : s.Onward s where
  notes := rfl
  time := rfl
  others _ _ := rfl
  told := ⟨[], rfl, by simp, fun j hj => ⟨j, hj, .refl j⟩⟩

theorem trans {a b c : Scene} (h : a.Onward b) (h' : b.Onward c) : a.Onward c where
  notes := by rw [h'.notes, h.notes]; rfl
  time := h'.time.trans h.time
  others id ne := (h'.others id (h.id_eq ▸ ne)).trans (h.others id ne)
  told := by
    obtain ⟨es, bus, own, life⟩ := h.told
    obtain ⟨fs, bus', own', life'⟩ := h'.told
    refine ⟨es ++ fs, by rw [bus', bus, Bus.tell_append], ?_, fun j hj => ?_⟩
    · intro e he
      rcases List.mem_append.1 he with he | he
      · exact own e he
      · exact (own' e he).trans h.id_eq
    · obtain ⟨j', hj', first⟩ := life j hj
      obtain ⟨j'', hj'', second⟩ := life' j' hj'
      exact ⟨j'', hj'', first.trans second⟩

/-- Notes and things other than jobs, queues and the time are free to change. -/
theorem aside {a b : Scene} (notes : b.run = a.run.noted b.run)
    (time : b.shared.now = a.shared.now) (registry : b.shared.registry = a.shared.registry)
    (bus : b.shared.bus = a.shared.bus) : a.Onward b where
  notes := notes
  time := time
  others _ _ := by rw [registry]
  told := by
    refine ⟨[], bus, by simp, fun j hj => ⟨j, ?_, .refl j⟩⟩
    rwa [job?, registry, notes]

/-- A record that is put in the place of the own job's is found there. -/
theorem find?_put {s : Scene} {r : Registry} {j j' : Job} (known : s.job? = some j)
    (same : j'.id = s.run.id) (jobs : r.jobs = (s.shared.registry.put j').jobs) :
    r.find? s.run.id = some j' := by
  have id := Registry.id_of_find? known
  rw [Registry.find?_put_eq jobs (id ▸ known) (same.trans id.symm), if_pos id.symm]

/-- The own job changes, and that is told of. -/
theorem change (a b : Scene) (es : List Event) {j j' : Job} (run : b.run = a.run)
    (time : b.shared.now = a.shared.now) (known : a.job? = some j) (same : j'.id = a.run.id)
    (registry : b.shared.registry.jobs = (a.shared.registry.put j').jobs)
    (bus : b.shared.bus = a.shared.bus.tell es) (own : ∀ e ∈ es, e.job = a.run.id)
    (change : j.Change es j') : a.Onward b ∧ b.job? = some j' := by
  have id := Registry.id_of_find? known
  have find := Registry.find?_put_eq registry (id ▸ known) (same.trans id.symm)
  have new : b.job? = some j' := by rw [job?, run, find?_put known same registry]
  refine ⟨⟨by rw [run]; rfl, time, fun id' ne => ?_, es, bus, own, fun i hi => ?_⟩, new⟩
  · rw [find, if_neg (id ▸ ne)]
  · cases known.symm.trans hi
    exact ⟨j', new, .single change⟩

instance : IsPreorder Scene Scene.Onward where
  refl := .refl
  trans _ _ _ := .trans

end Onward

/-- What is told of a call at some point. -/
def news (s : Scene) (kind : String) (data : Json) : Event :=
  ⟨kind, s.run.id, Instant.ofSeconds s.shared.now, some data⟩

/-- The own job is in a state, and the process of its script in a condition. -/
def At (state : JobState) (process : EncoderScript → Option Process → Prop) (s : Scene) : Prop :=
  (∃ j, s.job? = some j ∧ j.state = state) ∧ process s.run.script s.run.process

end Scene

/-! ## Triples -/

/-- The run after its observer, if there is one, has been told of a percentage. -/
def Run.noticed (r : Run) (percent : Float) : Run :=
  if r.observes then { r with observed := percent :: r.observed } else r

theorem Run.noted_noticed (r : Run) (percent : Float) :
    r.noticed percent = r.noted (r.noticed percent) := by
  unfold noticed
  split <;> rfl

namespace Act

/-- What an act gives, and what it leaves. -/
def result {α : Type} (act : Act α) (s : Scene) : Except Failure α × Scene :=
  StateT.run (ExceptT.run act) s

/-- Where an assertion holds, an act leads along a relation, to one assertion if it succeeds and to
another if it fails. -/
def Along {α : Type} (R : Scene → Scene → Prop) (P : Scene → Prop) (act : Act α)
    (Q : α → Scene → Prop) (E : Failure → Scene → Prop) : Prop :=
  ∀ s, P s → R s (act.result s).2 ∧
    match (act.result s).1 with
    | .ok a => Q a (act.result s).2
    | .error f => E f (act.result s).2

/-- Where an assertion holds, an act goes onward, to one assertion if it succeeds and to another
if it fails. -/
abbrev Spec {α : Type} (P : Scene → Prop) (act : Act α) (Q : α → Scene → Prop)
    (E : Scene → Prop) : Prop :=
  Along Scene.Onward P act Q fun _ => E

theorem result_bind {α β : Type} (x : Act α) (f : α → Act β) (s : Scene) :
    (x >>= f).result s = match x.result s with
      | (.ok a, s) => (f a).result s
      | (.error e, s) => (.error e, s) := by
  simp only [result, bind, ExceptT.bind, ExceptT.mk, ExceptT.run, StateT.run, StateT.bind]
  cases x s with
  | mk answer s => cases answer <;> rfl

theorem result_run_bind {α : Type} (f : Run → Act α) (s : Scene) :
    (run >>= f).result s = (f s.run).result s := rfl

theorem result_tryCatch_ok {α : Type} {act : Act α} {k : Failure → Act α} {s s' : Scene} {a : α}
    (run : act.result s = (.ok a, s')) : (tryCatch act k).result s = (.ok a, s') := by
  have run : act s = (.ok a, s') := run
  simp only [result, tryCatch, tryCatchThe, MonadExceptOf.tryCatch, ExceptT.tryCatch,
    ExceptT.mk, ExceptT.run, StateT.run, bind, StateT.bind, run]
  rfl

theorem result_tryCatch_error {α : Type} {act : Act α} {k : Failure → Act α} {s s' : Scene}
    {f : Failure} (run : act.result s = (.error f, s')) :
    (tryCatch act k).result s = (k f).result s' := by
  have run : act s = (.error f, s') := run
  simp only [result, tryCatch, tryCatchThe, MonadExceptOf.tryCatch, ExceptT.tryCatch,
    ExceptT.mk, ExceptT.run, StateT.run, bind, StateT.bind, run]

section Rules

variable {α β : Type} {R : Scene → Scene → Prop} {P P' : Scene → Prop}
  {E E' : Failure → Scene → Prop}

theorem Along.mono {x : Act α} {Q Q' : α → Scene → Prop} (h : Along R P x Q E)
    (pre : ∀ s, P' s → P s) (post : ∀ a s, Q a s → Q' a s) (fails : ∀ f s, E f s → E' f s) :
    Along R P' x Q' E' := by
  intro s hs
  obtain ⟨onward, ends⟩ := h s (pre s hs)
  refine ⟨onward, ?_⟩
  split at ends
  · exact post _ _ ends
  · exact fails _ _ ends

variable [IsPreorder Scene R]

theorem Along.bind {x : Act α} {f : α → Act β} {M : α → Scene → Prop} {Q : β → Scene → Prop}
    (hx : Along R P x M E) (hf : ∀ a, Along R (M a) (f a) Q E) : Along R P (x >>= f) Q E := by
  intro s hs
  obtain ⟨onward, ends⟩ := hx s hs
  rw [result_bind]
  generalize x.result s = r at onward ends
  obtain ⟨_ | a, s'⟩ := r
  · exact ⟨onward, ends⟩
  · obtain ⟨onward', ends'⟩ := hf a s' ends
    exact ⟨Trans.trans onward onward', ends'⟩

theorem along_pure {Q : α → Scene → Prop} {a : α} (h : ∀ s, P s → Q a s) :
    Along R P (pure a) Q E := fun s hs => ⟨refl s, h s hs⟩

theorem along_throw {Q : α → Scene → Prop} {f : Failure} (h : ∀ s, P s → E f s) :
    Along R P (throw f) Q E := fun s hs => ⟨refl s, h s hs⟩

/-- Nothing comes after a failure. -/
theorem along_throw_bind {Q : β → Scene → Prop} {f : Failure} {g : α → Act β}
    (h : ∀ s, P s → E f s) : Along R P (throw f >>= g) Q E :=
  Along.bind (M := fun _ _ => False) (along_throw h) fun _ _ => False.elim

theorem along_run {Q : Run → Scene → Prop} (h : ∀ s, P s → Q s.run s) : Along R P run Q E :=
  fun s hs => ⟨refl s, h s hs⟩

theorem along_shared {Q : Shared → Scene → Prop} (h : ∀ s, P s → Q s.shared s) :
    Along R P shared Q E := fun s hs => ⟨refl s, h s hs⟩

/-- Whoever looks at the run changes nothing. -/
theorem along_run_bind {f : Run → Act β} {Q : β → Scene → Prop} (h : ∀ r, Along R P (f r) Q E) :
    Along R P (run >>= f) Q E := (along_run fun _ hs => hs).bind h

theorem along_shared_bind {f : Shared → Act β} {Q : β → Scene → Prop}
    (h : ∀ w, Along R P (f w) Q E) : Along R P (shared >>= f) Q E :=
  (along_shared fun _ hs => hs).bind h

theorem along_pureFault {Q : α → Scene → Prop} {x : Except Fault α}
    (ok : ∀ a s, x = .ok a → P s → Q a s) (fails : ∀ f s, x = .error f → P s → E (.fault f) s) :
    Along R P (pureFault x) Q E := by
  cases x with
  | ok a => exact along_pure fun s => ok a s rfl
  | error f => exact along_throw fun s => fails f s rfl

theorem along_pureFailure {Q : α → Scene → Prop} {x : Except Failure α}
    (ok : ∀ a s, x = .ok a → P s → Q a s) (fails : ∀ f s, x = .error f → P s → E f s) :
    Along R P (pureFailure x) Q E := by
  cases x with
  | ok a => exact along_pure fun s => ok a s rfl
  | error f => exact along_throw fun s => fails f s rfl

theorem along_forM {f : α → Act Unit} (xs : List α) (h : ∀ x ∈ xs, Along R P (f x) (fun _ => P) E) :
    Along R P (xs.forM f) (fun _ => P) E := by
  induction xs with
  | nil => exact along_pure fun _ hs => hs
  | cons x xs ih =>
    exact (h x List.mem_cons_self).bind fun _ => ih fun y hy => h y (List.mem_cons_of_mem x hy)

end Rules

/-! ## Acts that succeed -/

section Ok

variable {s s' : Scene}

theorem bind_ok {α β : Type} {x : Act α} {f : α → Act β} {b : β}
    (h : (x >>= f).result s = (.ok b, s')) :
    ∃ a m, x.result s = (.ok a, m) ∧ (f a).result m = (.ok b, s') := by
  rw [result_bind] at h
  generalize x.result s = r at h
  obtain ⟨_ | a, m⟩ := r
  · cases h
  · exact ⟨a, m, rfl, h⟩

theorem pureFault_ok {α : Type} {x : Except Fault α} {a : α}
    (h : (pureFault x).result s = (.ok a, s')) : x = .ok a ∧ s = s' := by
  cases x <;> cases h
  exact ⟨rfl, rfl⟩

theorem pureFailure_ok {α : Type} {x : Except Failure α} {a : α}
    (h : (pureFailure x).result s = (.ok a, s')) : x = .ok a ∧ s = s' := by
  cases x <;> cases h
  exact ⟨rfl, rfl⟩

end Ok

/-! ## Acts on the own job -/

section Job

variable {st st' : JobState} {process process' : EncoderScript → Option Process → Prop}
  {E : Scene → Prop}

theorem spec_setRun {f : Run → Run} (notes : ∀ r, f r = r.noted (f r))
    (keeps : ∀ r, process r.script r.process → process' r.script (f r).process) :
    Spec (Scene.At st process) (setRun f) (fun _ => Scene.At st process') E := by
  rintro s ⟨⟨j, hj, state⟩, hp⟩
  refine ⟨.aside (notes _) rfl rfl rfl, ⟨j, ?_, state⟩, ?_⟩
  · show s.shared.registry.find? (f s.run).id = some j
    rw [notes s.run]
    exact hj
  · show process' (f s.run).script (f s.run).process
    have script : (f s.run).script = s.run.script := by rw [notes s.run]; rfl
    rw [script]
    exact keeps _ hp

theorem spec_setShared {f : Shared → Shared}
    (aside : ∀ w, (f w).registry = w.registry ∧ (f w).bus = w.bus ∧ (f w).now = w.now) :
    Spec (Scene.At st process) (setShared f) (fun _ => Scene.At st process) E := by
  rintro s ⟨⟨j, hj, state⟩, hp⟩
  obtain ⟨registry, bus, now⟩ := aside s.shared
  refine ⟨.aside rfl now registry bus, ⟨j, ?_, state⟩, hp⟩
  show (f s.shared).registry.find? s.run.id = some j
  rw [registry]
  exact hj

/-- A call, with what it does to the scene. -/
theorem result_call {α : Type} {f : Registry.CallOn α}
    {rel : Registry → Float → Job → α → Job → Prop} (updates : Registry.Updates f rel) (s : Scene) :
    (∃ failure, (f s.shared.registry s.run.id s.shared.now).2 = .error failure ∧
      (call f).result s = (.error failure, s)) ∨
      ∃ j a j' r, s.job? = some j ∧ r.jobs = (s.shared.registry.put j').jobs ∧
        r.detailLimit = s.shared.registry.detailLimit ∧ j'.id = s.run.id ∧
        rel s.shared.registry s.shared.now j a j' ∧
        (call f).result s = (.ok a, { s with shared := { s.shared with registry := r } }) := by
  have run : (call f).result s =
      (pureFailure (f s.shared.registry s.run.id s.shared.now).2).result
        { s with shared := { s.shared with
            registry := (f s.shared.registry s.run.id s.shared.now).1 } } := rfl
  rw [run]
  rcases updates s.shared.registry s.run.id s.shared.now with
    ⟨failure, h⟩ | ⟨j, a, j', known, jobs, limit, ok, same, related⟩
  · rw [h]
    exact .inl ⟨failure, rfl, rfl⟩
  · rw [ok]
    exact .inr ⟨j, a, j', _, known, jobs, limit, same, related, rfl⟩

/-- What a call leaves, be it refused or not. -/
theorem scene_call {α : Type} (f : Registry.CallOn α) (s : Scene) : ((call f).result s).2 =
    { s with shared := { s.shared with
      registry := (f s.shared.registry s.run.id s.shared.now).1 } } := by
  have run : (call f).result s =
      (pureFailure (f s.shared.registry s.run.id s.shared.now).2).result
        { s with shared := { s.shared with
            registry := (f s.shared.registry s.run.id s.shared.now).1 } } := rfl
  rw [run]
  cases (f s.shared.registry s.run.id s.shared.now).2 <;> rfl

/-- What a call leaves that is told of. -/
theorem scene_announce (f : Registry.CallOn Job) (kind : String) (data : Job → Json) (s : Scene) :
    ∃ bus, ((announce f kind data).result s).2 = { s with shared := { s.shared with
      registry := (f s.shared.registry s.run.id s.shared.now).1, bus } } := by
  have run : announce f kind data =
      call f >>= fun job => do publish kind (data job); return job := rfl
  have called := scene_call f s
  rw [run, result_bind]
  generalize (call f).result s = answer at called
  obtain ⟨_ | job, m⟩ := answer
  · exact ⟨_, called⟩
  · exact ⟨_, congrArg (fun m : Scene => ((publish kind (data job)).result m).2) called⟩

/-- A call that is told of, with what it does to the scene. -/
theorem result_announce {f : Registry.CallOn Job} {rel : Registry → Float → Job → Job → Job → Prop}
    (updates : Registry.Updates f rel) (kind : String) (data : Job → Json) (s : Scene) :
    (∃ failure, (f s.shared.registry s.run.id s.shared.now).2 = .error failure ∧
      (announce f kind data).result s = (.error failure, s)) ∨
      ∃ j a j' r, s.job? = some j ∧ r.jobs = (s.shared.registry.put j').jobs ∧
        r.detailLimit = s.shared.registry.detailLimit ∧ j'.id = s.run.id ∧
        rel s.shared.registry s.shared.now j a j' ∧
        (announce f kind data).result s = (.ok a, { s with shared := { s.shared with
          registry := r, bus := s.shared.bus.tell [s.news kind (data a)] } }) := by
  have run : announce f kind data =
      call f >>= fun job => do publish kind (data job); return job := rfl
  rw [run, result_bind]
  rcases result_call updates s with
    ⟨failure, ferr, hr⟩ | ⟨j, a, j', r, known, jobs, limit, same, related, hr⟩
  · rw [hr]
    exact .inl ⟨failure, ferr, rfl⟩
  · rw [hr]
    exact .inr ⟨j, a, j', r, known, jobs, limit, same, related, rfl⟩

/-- A call of which nothing is told. -/
theorem spec_call {α : Type} {f : Registry.CallOn α}
    {rel : Registry → Float → Job → α → Job → Prop} (updates : Registry.Updates f rel)
    (change : ∀ r now j a j', rel r now j a j' → j.state = st → j.Change [] j' ∧ j'.state = st')
    (fails : ∀ s, Scene.At st process s → E s) :
    Spec (Scene.At st process) (call f) (fun _ => Scene.At st' process) E := by
  intro s h
  obtain ⟨⟨j, hj, state⟩, hp⟩ := id h
  rcases result_call updates s with
    ⟨failure, -, hr⟩ | ⟨i, a, j', r, known, jobs, -, same, related, hr⟩
  · rw [hr]
    exact ⟨.refl s, fails s h⟩
  · cases hj.symm.trans known
    obtain ⟨change, state'⟩ := change _ _ j a j' related state
    rw [hr]
    obtain ⟨onward, new⟩ := Scene.Onward.change s
      { s with shared := { s.shared with registry := r } } [] rfl rfl known same jobs rfl
      (by simp) change
    exact ⟨onward, ⟨j', new, state'⟩, hp⟩

/-- A call that is told of. -/
theorem spec_announce {f : Registry.CallOn Job} {rel : Registry → Float → Job → Job → Job → Prop}
    {kind : String} {data : Job → Json} (updates : Registry.Updates f rel)
    (change : ∀ r now j a j' e, rel r now j a j' → e.kind = kind → e.data = some (data a) →
      j.Change [e] j' ∧ j'.state = st')
    (fails : ∀ s, Scene.At st process s → E s) :
    Spec (Scene.At st process) (announce f kind data) (fun _ => Scene.At st' process) E := by
  intro s h
  rcases result_announce updates kind data s with
    ⟨failure, -, hr⟩ | ⟨j, a, j', r, known, jobs, -, same, related, hr⟩
  · rw [hr]
    exact ⟨.refl s, fails s h⟩
  · rw [hr]
    obtain ⟨change, state⟩ := change _ _ j a j' (s.news kind (data a)) related rfl rfl
    obtain ⟨onward, new⟩ := Scene.Onward.change s
      { s with shared := { s.shared with
        registry := r, bus := s.shared.bus.tell [s.news kind (data a)] } } [s.news kind (data a)]
      rfl rfl known same jobs rfl (by simp [Scene.news]) change
    exact ⟨onward, ⟨j', new, state⟩, h.2⟩

theorem spec_advance {target : JobState} (fails : ∀ s, Scene.At st process s → E s) :
    Spec (Scene.At st process) (advance target) (fun _ => Scene.At target process) E := by
  have told : Spec (Scene.At st process)
      (announce (fun r id now => r.transition id target now) "state" fun _ =>
        .object [("state", .string target.word)])
      (fun _ => Scene.At target process) E := by
    refine spec_announce (Registry.updates_transition target) ?_ fails
    rintro _ now j a j' e ⟨-, next, live, rfl⟩ kind data
    exact ⟨.advanced next live (by rw [Event.content, kind, data]; rfl) rfl, rfl⟩
  exact told.bind fun _ => along_pure fun _ h => h

end Job

/-! ## The observer -/

theorem ext {α : Type} {x y : Act α} (h : ∀ s, x.result s = y.result s) : x = y := funext h

theorem result_observe (percent : Float) (s : Scene) : (observe percent).result s =
    (if s.run.objects percent then .error (.internal {}) else .ok (),
      { s with run := { s.run with observed := percent :: s.run.observed } }) := by
  show (if s.run.objects percent then throw (.internal {}) else pure () : Act Unit).result _ = _
  split <;> rfl

/-- Whether the observer fails makes no difference. -/
theorem result_notify (percent : Float) (s : Scene) :
    (notify percent).result s = (.ok (), { s with run := s.run.noticed percent }) := by
  have seen : (notify percent).result s = (if s.run.observes then
      tryCatch (observe percent) fun _ => return else return : Act Unit).result s := rfl
  have told := result_observe percent s
  rw [seen, Run.noticed]
  split
  · cases objects : s.run.objects percent with
    | false =>
      rw [objects] at told
      exact result_tryCatch_ok told
    | true =>
      rw [objects] at told
      exact result_tryCatch_error told
  · rfl

/-- The observer is told before the subscribers are, but it does not see them, nor they it. -/
theorem notify_publish (f : Registry.CallOn Job) (kind : String) (data : Job → Json) :
    (do let job ← call f; notify job.progress; publish kind (data job) : Act Unit) =
      (do let job ← announce f kind data; notify job.progress) := by
  refine ext fun s => ?_
  have parts : announce f kind data =
      call f >>= fun job => do publish kind (data job); return job := rfl
  rw [parts, bind_assoc, result_bind, result_bind]
  rcases (call f).result s with ⟨failure | job, m⟩
  · rfl
  · show (notify job.progress >>= fun _ => publish kind (data job)).result m =
      (publish kind (data job) >>= fun _ => notify job.progress).result m
    rw [result_bind, result_notify]
    have told : (publish kind (data job)).result m = (.ok (), { m with shared := { m.shared with
      bus := (m.shared.bus.publish
        ⟨kind, m.run.id, Instant.ofSeconds m.shared.now, some (data job)⟩).2 } }) := rfl
    rw [result_bind, told]
    dsimp only
    rw [result_notify]
    show (publish kind (data job)).result _ = _
    rw [Run.noticed]
    split <;> rfl

/-- What a report does that is not held back. -/
theorem report_eq (setup : Setup) (percent : Float) : report setup percent = (do
    let last := (← run).lastReported
    if percent ≤ last then return
    if percent < 100 && percent - last < setup.settings.progressStep then return
    setRun fun r => { r with lastReported := percent }
    let job ← announce (fun r id now => r.updateProgress id (.float percent) now) "progress"
      fun job => .object [("progress", .float job.progress)]
    notify job.progress) := by
  unfold report
  rw [← notify_publish]

end Act
end Montage
