import Montage.Proofs.Event.Queues
import Montage.Proofs.Service.Answers

/-!
# What a follower sees

A queue that listens to a job gets everything that is told of it: whatever happens, what has been
taken out of the queue and what still waits in it is what is told of the life of the job
(`after_tells`). The changes of a job and the events come from the turns of its own run and of its
callers only (`served_touches`).
-/
namespace Montage

namespace Bus

variable {b : Bus} {q : Nat} {job : String}

theorem hears_tell (h : b.Hears q job) (es : List Event) :
    (b.tell es).Hears q job ∧
      (b.tell es).waiting q = b.waiting q ++ es.filter (·.job = job) := by
  induction es generalizing b with
  | nil => exact ⟨h, (List.append_nil _).symm⟩
  | cons e es ih =>
    obtain ⟨h', waiting⟩ := hears_publish h e
    obtain ⟨h'', waiting'⟩ := ih h'
    refine ⟨h'', waiting'.trans ?_⟩
    rw [waiting, List.append_assoc, List.filter_cons]
    by_cases own : e.job = job <;> simp [own]

theorem steps_tell (es : List Event) : Steps b (b.tell es) := by
  induction es generalizing b with
  | nil => exact .refl
  | cons e es ih => exact .head (.publish e) ih

end Bus

/-! ## What is told -/

/-- What a move takes out of a queue. -/
def Move.takes (s : Service) (q : Nat) : Move → List Event
  | read queue => if queue = q then (s.read queue).1 else []
  | _ => []

namespace Service

/-- What a history takes out of a queue. -/
def received (q : Nat) : Service → List Move → List Event
  | _, [] => []
  | s, m :: rest => m.takes s q ++ received q (m.act s) rest

variable {s s' : Service} {id : String} {q : Nat} {r : Run} {j : Job}

/-- Something has happened of which a queue for a job has got all that was told, and some of it
may have been taken out. -/
def Tells (s : Service) (id : String) (q : Nat) (taken : List Event) (s' : Service) : Prop :=
  s'.shared.bus.Hears q id ∧ ∃ es, taken ++ s'.shared.bus.waiting q = s.shared.bus.waiting q ++ es ∧
    ∀ j, s.job? id = some j → ∃ j', s'.job? id = some j' ∧ j.Life es j'

/-- Something has happened of which nothing was told to a queue for a job. Some of what waited in it
may have been taken out. -/
structure Silent (s : Service) (id : String) (q : Nat) (taken : List Event) (s' : Service) :
    Prop where
  hears : s'.shared.bus.Hears q id
  waiting : taken ++ s'.shared.bus.waiting q = s.shared.bus.waiting q
  job : ∀ j, s.job? id = some j → s'.job? id = some j

theorem Silent.tells {taken : List Event} (h : s.Silent id q taken s') : s.Tells id q taken s' :=
  ⟨h.hears, [], by rw [h.waiting, List.append_nil], fun j hj => ⟨j, h.job j hj, .refl j⟩⟩

theorem silent_same (hears : s.shared.bus.Hears q id) (bus : s'.shared.bus = s.shared.bus)
    (job : ∀ j, s.job? id = some j → s'.job? id = some j) : s.Silent id q [] s' :=
  ⟨bus ▸ hears, by rw [bus, List.nil_append], job⟩

theorem Silent.trans {s'' : Service} {taken taken' : List Event} (h : s.Silent id q taken s')
    (h' : s'.Silent id q taken' s'') : s.Silent id q (taken ++ taken') s'' where
  hears := h'.hears
  waiting := by rw [List.append_assoc, h'.waiting, h.waiting]
  job j hj := h'.job j (h.job j hj)

theorem Tells.trans {s'' : Service} {taken taken' : List Event} (h : s.Tells id q taken s')
    (h' : s'.Tells id q taken' s'') : s.Tells id q (taken ++ taken') s'' := by
  obtain ⟨-, es, waiting, life⟩ := h
  obtain ⟨hears, fs, waiting', life'⟩ := h'
  refine ⟨hears, es ++ fs, ?_, fun j hj => ?_⟩
  · rw [List.append_assoc, waiting', ← List.append_assoc, waiting, List.append_assoc]
  · obtain ⟨j', hj', first⟩ := life j hj
    obtain ⟨j'', hj'', second⟩ := life' j' hj'
    exact ⟨j'', hj'', first.trans second⟩

/-- A queue does not hear of other jobs. -/
theorem Touches.silent {id' : String} (h : s.Touches id' s') (other : id ≠ id')
    (hears : s.shared.bus.Hears q id) : s.Silent id q [] s' := by
  obtain ⟨es, bus, own, -⟩ := h.told
  obtain ⟨hears', waiting⟩ := Bus.hears_tell hears es
  refine ⟨bus ▸ hears', ?_, fun j hj => (h.jobs id other).trans hj⟩
  rw [bus, waiting, List.filter_eq_nil_iff.2 fun e he => by simp [own e he, Ne.symm other],
    List.append_nil, List.nil_append]

/-- What a turn does to a job is told to its queues. -/
theorem Touches.tells {id' : String} (h : s.Touches id' s') (hears : s.shared.bus.Hears q id) :
    s.Tells id q [] s' := by
  by_cases same : id = id'
  · obtain ⟨es, bus, own, life⟩ := h.told
    obtain ⟨hears', waiting⟩ := Bus.hears_tell hears es
    rw [List.filter_eq_self.2 fun e he => by simp [own e he, same]] at waiting
    exact ⟨bus ▸ hears', es, by rw [bus, waiting]; rfl, same ▸ life⟩
  · exact (h.silent same hears).tells

/-- What a turn does to the shared things, apart from the answer to a caller. -/
theorem served_touches (h : s.Sound) {t : Turn} {rest : List Turn} (front : s.ready = t :: rest) :
    ∃ s', Touches { s with ready := rest } t.job s' ∧
      ({ s with ready := rest }.serve t).shared = s'.shared := by
  cases idle : t.isResume with
  | false =>
    obtain ⟨r, run, serves⟩ := h.turn front idle
    exact ⟨_, id_of_run? run ▸ serves.leads.touches, rfl⟩
  | true =>
    cases t with
    | resume c =>
      cases aim : c.aim with
      | wait =>
        refine ⟨_, .refl _ _, ?_⟩
        simp only [serve, resume, aim]
        rfl
      | cancel reason =>
        obtain ⟨_, _, _, _, _, _, _, does, -⟩ := h.closed front reason
        refine ⟨_, does.touches, ?_⟩
        simp only [serve, resume, aim]
        rfl
    | _ => cases idle

/-- Whoever looks at a job takes no queue out that listens to a known one. -/
theorem look_silent (known : (s.job? id).isSome) (hears : s.shared.bus.Hears q id) (id' : String)
    (queue : Nat) : s.Silent id q [] (s.look id' queue).2 := by
  obtain ⟨bus, same, which⟩ := look_shared s id' queue
  rw [same]
  rcases which with rfl | ⟨unknown, rfl⟩
  · exact silent_same hears rfl fun j hj => hj
  · obtain ⟨hears', waiting⟩ := Bus.hears_unregister hears id' queue fun own => by
      rw [← own.1, unknown] at known
      cases known
    exact ⟨hears', waiting, fun j hj => hj⟩

/-- Nothing is told of a job but in turns. -/
theorem act_silent (h : s.Sound) {m : Move} (still : m ≠ .turn) (run : (s.run? id).isSome)
    (hears : s.shared.bus.Hears q id) (stays : m ≠ .leave id q) :
    s.Silent id q (m.takes s q) (m.act s) := by
  have shared {s' : Service} (same : s'.shared = s.shared) : s.Silent id q [] s' :=
    silent_same hears (by rw [same]) fun j hj => by rw [job?, same]; exact hj
  have known : (s.job? id).isSome := by
    obtain ⟨r, run⟩ := Option.isSome_iff_exists.1 run
    obtain ⟨-, j, job, -⟩ := h.stands id r run
    rw [job]
    rfl
  cases m with
  | submit request script observes objects =>
    obtain ⟨bus, kept⟩ := submit_shared s request script observes objects
    exact silent_same hears bus (kept id)
  | call id' aim => exact shared (shared_call s id' aim)
  | render request script observes objects =>
    obtain ⟨bus, kept⟩ := submit_shared s request script observes objects
    show s.Silent id q [] (s.render request script observes objects)
    unfold render
    generalize s.submit request script observes objects = result at bus kept
    obtain ⟨failure | id', s'⟩ := result
    · exact silent_same hears bus (kept id)
    · have same := shared_call s' id' .wait
      exact silent_same hears (by rw [same]; exact bus) fun j hj => by
        rw [job?, same]
        exact kept id j hj
  | interrupt id' => exact shared (lines_onRun (lines_stop s) id').shared
  | turn => exact absurd rfl still
  | ring id' => exact shared (lines_ringFor s id').shared
  | clock moment =>
    show s.Silent id q [] (if s.shared.now < moment then s.moveTo moment else s)
    split
    · exact silent_same hears rfl fun j hj => hj
    · exact shared rfl
  | follow id' =>
    obtain ⟨hears', waiting⟩ := Bus.hears_register hears id'
    have listened : s.Silent id q [] (s.listen id').2 := ⟨hears', waiting, fun j hj => hj⟩
    exact listened.trans (look_silent (s := (s.listen id').2) known hears' id' _)
  | listen id' =>
    obtain ⟨hears', waiting⟩ := Bus.hears_register hears id'
    exact ⟨hears', waiting, fun j hj => hj⟩
  | look id' queue => exact look_silent known hears id' queue
  | read queue =>
    obtain ⟨hears', waiting⟩ := Bus.hears_drain hears queue
    exact ⟨hears', waiting, fun j hj => hj⟩
  | leave job queue =>
    obtain ⟨hears', waiting⟩ := Bus.hears_unregister hears job queue fun same =>
      stays (by rw [same.1, same.2])
    exact ⟨hears', waiting, fun j hj => hj⟩
  | elsewhere c =>
    show s.Silent id q [] (s.elsewhere c)
    unfold elsewhere
    split
    · exact shared rfl
    · next foreign =>
      refine silent_same hears rfl fun j hj => Registry.find?_apply hj (fun own => foreign ?_) _
      rw [own]
      exact run
  | files fs => exact silent_same hears rfl fun j hj => hj

/-- A turn of another job tells nothing of this one. -/
theorem served_silent (h : s.Sound) {t : Turn} {rest : List Turn} (front : s.ready = t :: rest)
    (other : id ≠ t.job) (hears : s.shared.bus.Hears q id) :
    s.Silent id q [] ({ s with ready := rest }.serve t) := by
  obtain ⟨s', touches, same⟩ := served_touches h front
  obtain ⟨hears', waiting, job⟩ := touches.silent other hears
  exact ⟨same ▸ hears', same ▸ waiting, fun j hj => by rw [job?, same]; exact job j hj⟩

/-- Whatever happens, a queue gets what is told of its job, unless it is taken out. -/
theorem act_tells (h : s.Sound) (m : Move) (run : (s.run? id).isSome)
    (hears : s.shared.bus.Hears q id) (stays : m ≠ .leave id q) :
    s.Tells id q (m.takes s q) (m.act s) := by
  by_cases turn : m = .turn
  · subst turn
    cases front : s.ready with
    | nil => exact (act_turn_nil front).symm ▸ (silent_same hears rfl fun j hj => hj).tells
    | cons t rest =>
      obtain ⟨s', touches, same⟩ := served_touches h front
      obtain ⟨hears', es, waiting, life⟩ := touches.tells hears
      rw [act_turn front]
      refine ⟨same ▸ hears', es, same ▸ waiting, fun j hj => ?_⟩
      obtain ⟨j', hj', life⟩ := life j hj
      exact ⟨j', by rw [job?, same]; exact hj', life⟩
  · exact (act_silent h turn run hears stays).tells

/-- What has been taken out of a queue and what waits in it is what has been told. -/
theorem after_tells (h : s.Sound) (run : (s.run? id).isSome) (hears : s.shared.bus.Hears q id)
    (moves : List Move) (stays : .leave id q ∉ moves) :
    s.Tells id q (received q s moves) (s.after moves) := by
  induction moves generalizing s with
  | nil => exact (silent_same hears rfl fun j hj => hj).tells
  | cons m rest ih =>
    obtain ⟨r, known⟩ := Option.isSome_iff_exists.1 run
    have first := act_tells h m run hears fun e => stays (e ▸ List.mem_cons_self)
    have stirs := act_stirs h m
    obtain ⟨r', run', -⟩ := stirs_run h stirs known
    exact first.trans (ih (sound_stirs h stirs) (by rw [run']; rfl) first.1 fun e =>
      stays (List.mem_cons_of_mem m e))

/-! ## From the beginning -/

theorem steps_look (s : Service) (id : String) (q : Nat) :
    Bus.Steps s.shared.bus (s.look id q).2.shared.bus := by
  obtain ⟨bus, same, which⟩ := look_shared s id q
  rw [same]
  rcases which with rfl | ⟨-, rfl⟩
  · exact .refl
  · exact .single (.unregister id q)

/-- Whatever happens, queues only change by what can be done to them. -/
theorem act_bus (h : s.Sound) (m : Move) : Bus.Steps s.shared.bus (m.act s).shared.bus := by
  have shared {s' : Service} (same : s'.shared = s.shared) :
      Bus.Steps s.shared.bus s'.shared.bus := same ▸ .refl
  cases m with
  | submit request script observes objects =>
    exact (submit_shared s request script observes objects).1.symm ▸ .refl
  | call id aim => exact shared (shared_call s id aim)
  | render request script observes objects =>
    have bus := (submit_shared s request script observes objects).1
    show Bus.Steps _ (s.render request script observes objects).shared.bus
    unfold render
    generalize s.submit request script observes objects = result at bus
    obtain ⟨failure | id, s'⟩ := result
    · exact bus.symm ▸ .refl
    · rw [shared_call]
      exact bus.symm ▸ .refl
  | interrupt id => exact shared (lines_onRun (lines_stop s) id).shared
  | turn =>
    cases front : s.ready with
    | nil => exact (act_turn_nil front).symm ▸ .refl
    | cons t rest =>
      obtain ⟨s', touches, same⟩ := served_touches h front
      obtain ⟨es, bus, -⟩ := touches.told
      rw [act_turn front, same, bus]
      exact Bus.steps_tell es
  | ring id => exact shared (lines_ringFor s id).shared
  | clock moment =>
    show Bus.Steps _ (if s.shared.now < moment then s.moveTo moment else s).shared.bus
    split <;> exact .refl
  | follow id => exact .head (.register id) (steps_look (s.listen id).2 id _)
  | listen id => exact .single (.register id)
  | look id queue => exact steps_look s id queue
  | read queue => exact .single (.drain queue)
  | leave job queue => exact .single (.unregister job queue)
  | elsewhere c =>
    show Bus.Steps _ (s.elsewhere c).shared.bus
    unfold elsewhere
    split <;> exact .refl
  | files fs => exact .refl

theorem after_bus (h : s.Sound) (moves : List Move) :
    Bus.Steps s.shared.bus (s.after moves).shared.bus := by
  induction moves generalizing s with
  | nil => exact .refl
  | cons m rest ih => exact (act_bus h m).trans (ih (sound_stirs h (act_stirs h m)))

theorem Reachable.numbered (h : s.Reachable) : s.shared.bus.Numbered := by
  obtain ⟨setup, sweeper, files, moves, rfl⟩ := h
  have none : (fresh setup sweeper files).shared.bus.Numbered := fun id hid => by cases hid
  exact none.steps (after_bus (sound_fresh setup sweeper files) moves)

end Service
end Montage
