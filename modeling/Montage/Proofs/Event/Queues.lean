import Mathlib.Logic.Relation
import Montage.Event

/-!
# Queues of a bus

What each operation of a bus does to one queue. A queue hears of its job (`Hears`) as long as it is
open and its job has an entry: `hears_publish` is the one operation that puts something into it, and
only its own unregistration ends that (`hears_unregister`, `closed_unregister`). A queue that was
taken out never gets anything again (`Closed.steps`).

Queues are told apart by their numbers, and `Numbered` says that a new number is new.
-/
namespace Montage.Bus

variable {b : Bus} {q : Nat} {job : String} {e : Event}

/-! ## Queues that hear -/

/-- An open queue for a job, which has an entry. -/
def Hears (b : Bus) (q : Nat) (job : String) : Prop :=
  ∃ queue, b.find? q = some queue ∧ queue.job = job ∧ (b.hasEntry job && queue.isOpen) = true

theorem Hears.isListed (h : b.Hears q job) (other : String) :
    (b.find? q).any (b.isListed other) = decide (other = job) := by
  obtain ⟨queue, found, rfl, listed⟩ := h
  rw [Bool.and_eq_true] at listed
  obtain ⟨entry, isOpen⟩ := listed
  rw [found, Option.any_some, Bus.isListed, listens]
  by_cases own : other = queue.job
  · simp [own, entry, isOpen]
  · simp [own, Ne.symm own]

theorem hears_publish (h : b.Hears q job) (e : Event) :
    (b.publish e).2.Hears q job ∧
      (b.publish e).2.waiting q = b.waiting q ++ if e.job = job then [e] else [] := by
  constructor
  · obtain ⟨queue, found, own, listed⟩ := h
    refine ⟨_, by rw [find?_publish, found]; rfl, ?_, ?_⟩ <;> dsimp only <;> split <;>
      first | exact own | exact listed
  · rw [waiting_publish, h.isListed]
    simp only [decide_eq_true_eq]

theorem find?_update (b : Bus) (id : Nat) {f : Queue → Queue}
    (same : ∀ queue, (f queue).id = queue.id)
    (q : Nat) :
    (b.update id f).find? q = (b.find? q).map fun queue => if q = id then f queue else queue := by
  have ids (queue : Queue) : (if queue.id = id then f queue else queue).id = queue.id := by
    split
    · exact same queue
    · rfl
  simp only [find?, update, List.find?_map, Function.comp_def, ids]
  cases found : b.queues.find? fun queue => decide (queue.id = q) with
  | none => rfl
  | some queue =>
    have : queue.id = q := by simpa using List.find?_some found
    simp [this]

/-- Taking from a queue leaves all queues open, and what is not taken waits on. -/
theorem hears_drain (h : b.Hears q job) (id : Nat) :
    (b.drain id).2.Hears q job ∧
      (if id = q then (b.drain id).1 else []) ++ (b.drain id).2.waiting q = b.waiting q := by
  obtain ⟨queue, found, own, listed⟩ := h
  have found' : (b.drain id).2.find? q = some (if q = id then
      { queue with waiting := (splitTerminal (b.waiting id)).2 } else queue) := by
    rw [drain, find?_update, found]
    · rfl
    · exact fun _ => rfl
  refine ⟨⟨_, found', ?_, ?_⟩, ?_⟩
  · split <;> exact own
  · split <;> exact listed
  · by_cases same : id = q
    · subst same
      have waiting' : (b.drain id).2.waiting id = (splitTerminal (b.waiting id)).2 := by
        rw [waiting, found', if_pos rfl]
        rfl
      rw [if_pos rfl, waiting']
      exact append_splitTerminal _
    · rw [if_neg same, List.nil_append, waiting, found', if_neg (Ne.symm same), waiting, found]

/-- A new queue takes no other's place. -/
theorem find?_register {queue : Queue} (found : b.find? q = some queue) (job : String) :
    (b.register job).2.find? q = some queue := by
  rw [register, find?, queues_enter, List.find?_append, ← find?, found]
  rfl

theorem hears_register (h : b.Hears q job) (other : String) :
    (b.register other).2.Hears q job ∧ (b.register other).2.waiting q = b.waiting q := by
  obtain ⟨queue, found, own, listed⟩ := h
  have found' := find?_register found other
  have entry : (b.register other).2.hasEntry job = (b.enter other).hasEntry job := rfl
  rw [Bool.and_eq_true] at listed
  refine ⟨⟨queue, found', own, ?_⟩, by rw [waiting, found', waiting, found]⟩
  rw [entry, hasEntry_enter, listed.1, listed.2]
  simp

/-! ## Taking a queue out -/

/-- A queue that was taken out. -/
def Closed (b : Bus) (q : Nat) : Prop := ∃ queue, b.find? q = some queue ∧ queue.isOpen = false

/-- A queue that was taken out hears nothing. -/
theorem Closed.not_hears (h : b.Closed q) (job : String) : ¬b.Hears q job := by
  obtain ⟨queue, found, closed⟩ := h
  rintro ⟨queue', found', -, listed⟩
  cases found.symm.trans found'
  rw [Bool.and_eq_true] at listed
  cases closed.symm.trans listed.2

theorem find?_unregister (b : Bus) (job : String) (id q : Nat) :
    (b.unregister job id).find? q = (b.find? q).map fun queue =>
      if q = id ∧ queue.job = job then { queue with isOpen := false } else queue := by
  have same (queue : Queue) :
      (if queue.job = job then { queue with isOpen := false } else queue).id = queue.id := by
    split <;> rfl
  have enter : (b.enter job).find? q = b.find? q := by rw [find?, queues_enter, find?]
  rw [unregister, find?, queues_tidy, ← find?, find?_update _ id same, enter]
  congr 1
  funext queue
  by_cases own : q = id <;> simp [own]

/-- The queue of a number is among the queues. -/
theorem mem_of_find? {queue : Queue} (found : b.find? q = some queue) : queue ∈ b.queues :=
  List.mem_of_find?_eq_some found

theorem hears_unregister (h : b.Hears q job) (job' : String) (id : Nat)
    (other : ¬(job' = job ∧ id = q)) :
    (b.unregister job' id).Hears q job ∧ (b.unregister job' id).waiting q = b.waiting q := by
  obtain ⟨queue, found, rfl, listed⟩ := h
  have found' : (b.unregister job' id).find? q = some queue := by
    rw [find?_unregister, found, Option.map_some,
      if_neg fun own => other ⟨own.2.symm, own.1.symm⟩]
  rw [Bool.and_eq_true] at listed
  obtain ⟨entry, isOpen⟩ := listed
  refine ⟨⟨queue, found', rfl, ?_⟩, by rw [waiting, found', waiting, found]⟩
  -- the entry of the job stays, as the queue is in it
  have live : (b.unregister job' id).queues.any (listens queue.job) = true :=
    List.any_eq_true.2 ⟨queue, mem_of_find? found', by simp [listens, isOpen]⟩
  have entry' : (b.unregister job' id).hasEntry queue.job = true := by
    rw [unregister, queues_tidy] at live
    have before : ∀ f, ((b.enter job').update id f).hasEntry queue.job =
        (b.enter job').hasEntry queue.job := fun _ => rfl
    rw [unregister, hasEntry_tidy, before, hasEntry_enter, entry]
    by_cases same : queue.job = job'
    · subst same
      simpa using live
    · simp [same]
  rw [entry', isOpen]
  rfl

theorem closed_unregister (h : b.Hears q job) : (b.unregister job q).Closed q := by
  obtain ⟨queue, found, rfl, -⟩ := h
  exact ⟨_, by rw [find?_unregister, found, Option.map_some], by simp⟩

theorem Closed.update (h : b.Closed q) (id : Nat) {f : Queue → Queue}
    (same : ∀ queue, (f queue).id = queue.id)
    (shut : ∀ queue, queue.isOpen = false → (f queue).isOpen = false) :
    (b.update id f).Closed q := by
  obtain ⟨queue, found, closed⟩ := h
  refine ⟨_, by rw [find?_update b id same, found, Option.map_some], ?_⟩
  split
  · exact shut queue closed
  · exact closed

/-! ## Numbers -/

theorem ids_publish (b : Bus) (e : Event) :
    (b.publish e).2.queues.map (·.id) = b.queues.map (·.id) := by
  simp only [publish, List.map_map]
  congr 1
  funext queue
  simp only [Function.comp]
  split <;> rfl

theorem ids_update (b : Bus) (id : Nat) {f : Queue → Queue}
    (same : ∀ queue, (f queue).id = queue.id) :
    (b.update id f).queues.map (·.id) = b.queues.map (·.id) := by
  simp only [update, List.map_map]
  congr 1
  funext queue
  simp only [Function.comp]
  split
  · exact same queue
  · rfl

theorem ids_unregister (b : Bus) (job : String) (id : Nat) :
    (b.unregister job id).queues.map (·.id) = b.queues.map (·.id) := by
  rw [unregister, queues_tidy, ids_update, queues_enter]
  intro queue
  split <;> rfl

/-- No queue has a number that is yet to be given. -/
def Numbered (b : Bus) : Prop := ∀ id ∈ b.queues.map (·.id), id < b.queues.length

theorem Numbered.of_ids {b b' : Bus} (h : b.Numbered)
    (ids : b'.queues.map (·.id) = b.queues.map (·.id)) : b'.Numbered := by
  have length : b'.queues.length = b.queues.length := by
    simpa using congrArg List.length ids
  rw [Numbered, ids, length]
  exact h

theorem Numbered.register {b : Bus} (h : b.Numbered) (job : String) :
    (b.register job).2.Numbered := by
  intro id hid
  simp only [Bus.register, queues_enter, List.map_append, List.map_singleton, List.mem_append,
    List.mem_singleton, List.length_append, List.length_singleton] at hid ⊢
  rcases hid with old | rfl
  · have := h id old
    omega
  · omega

/-- A new queue is found under its number. -/
theorem Numbered.find?_register {b : Bus} (h : b.Numbered) (job : String) :
    (b.register job).2.find? b.queues.length = some ⟨b.queues.length, job, true, []⟩ := by
  have unused : b.queues.find? (fun queue => decide (queue.id = b.queues.length)) = none := by
    rw [List.find?_eq_none]
    intro queue hq e
    have := h queue.id (List.mem_map_of_mem hq)
    simp only [decide_eq_true_eq] at e
    omega
  rw [Bus.register, find?, queues_enter, List.find?_append, unused, Option.none_or]
  simp

/-- A new queue hears of its job, and nothing waits in it. -/
theorem Numbered.hears {b : Bus} (h : b.Numbered) (job : String) :
    (b.register job).2.Hears (b.register job).1 job ∧
      (b.register job).2.waiting (b.register job).1 = [] := by
  have found : (b.register job).2.find? (b.register job).1 = _ := h.find?_register job
  have entry : (b.register job).2.hasEntry job = true := by
    rw [show (b.register job).2.hasEntry job = (b.enter job).hasEntry job from rfl, hasEntry_enter]
    simp
  exact ⟨⟨_, found, rfl, by rw [entry]; rfl⟩, by rw [waiting, found]; rfl⟩

/-! ## All that is done to queues -/

/-- What can be done to the queues. -/
inductive Step (b : Bus) : Bus → Prop where
  | publish (e : Event) : Step b (b.publish e).2
  | register (job : String) : Step b (b.register job).2
  | drain (id : Nat) : Step b (b.drain id).2
  | unregister (job : String) (id : Nat) : Step b (b.unregister job id)

abbrev Steps : Bus → Bus → Prop := Relation.ReflTransGen Step

theorem Numbered.step {b b' : Bus} (h : b.Numbered) (step : Step b b') : b'.Numbered := by
  cases step with
  | publish e => exact h.of_ids (ids_publish _ e)
  | register job => exact h.register job
  | drain id => exact h.of_ids (ids_update _ id fun _ => rfl)
  | unregister job id => exact h.of_ids (ids_unregister _ job id)

theorem Numbered.steps {b b' : Bus} (h : b.Numbered) (steps : Steps b b') : b'.Numbered := by
  induction steps with
  | refl => exact h
  | tail _ step ih => exact ih.step step

theorem Closed.step {b b' : Bus} {q : Nat} (h : b.Closed q) (step : Step b b') : b'.Closed q := by
  cases step with
  | publish e =>
    obtain ⟨queue, found, closed⟩ := h
    refine ⟨_, by rw [find?_publish, found, Option.map_some], ?_⟩
    split <;> exact closed
  | register job =>
    obtain ⟨queue, found, closed⟩ := h
    exact ⟨queue, find?_register found job, closed⟩
  | drain id => exact h.update id (fun _ => rfl) fun _ closed => closed
  | unregister job id =>
    obtain ⟨queue, found, closed⟩ := h
    refine ⟨_, by rw [find?_unregister, found, Option.map_some], ?_⟩
    split
    · rfl
    · exact closed

/-- A queue that was taken out is never in again. -/
theorem Closed.steps {b b' : Bus} {q : Nat} (h : b.Closed q) (steps : Steps b b') :
    b'.Closed q := by
  induction steps with
  | refl => exact h
  | tail _ step ih => exact ih.step step

end Montage.Bus
