import Mathlib.Data.Finset.Card
import Montage.Proofs.Event.Queues

/-!
# Delivery of events

A bus against the history of its calls. A queue is registered from the call that made it until the
first call that takes it out of its job's entry; what is published for the job in that part of the
history, and nothing else, waits in it.

`find?_call` says what one call does to one queue, and `find?_after` what any number of calls does.
What is known of a bus as a whole is that its queues are numbered in order (`ids_after`) and that
there is an entry for the jobs of open queues and no other (`Kept`). `delivery` puts these together.
-/
namespace Montage.Bus

/-! ## Calls and their history -/

/-- A call on a bus. A queue is named by its number. -/
inductive Call
  | register (job : String)
  | unregister (job : String) (queue : Nat)
  | publish (e : Event)

/-- The bus after a call. -/
def call (b : Bus) : Call → Bus
  | .register job => (b.register job).2
  | .unregister job queue => b.unregister job queue
  | .publish e => (b.publish e).2

/-- The bus after calls in turn. -/
def after (b : Bus) (history : List Call) : Bus := history.foldl call b

namespace Call

def isRegister : Call → Bool
  | register _ => true
  | _ => false

/-- Whether a call takes a queue out of the entry of a job. -/
def removes (job : String) (q : Nat) : Call → Bool
  | unregister job' q' => job' = job && q' = q
  | _ => false

/-- The event that a call publishes for a job. -/
def event? (job : String) : Call → Option Event
  | publish e => if e.job = job then some e else none
  | _ => none

end Call

/-- How many queues a history makes. They are numbered in their order. -/
def registrations (history : List Call) : Nat := history.countP (·.isRegister)

/-- The events of a job, in the order of their publication. -/
def published (job : String) (history : List Call) : List Event := history.filterMap (·.event? job)

/-- What happens while a queue is registered, in what follows its registration. -/
def lifetime (job : String) (q : Nat) (later : List Call) : List Call :=
  later.takeWhile (!·.removes job q)

/-- A queue was registered for a job and has not been taken out since. -/
def Registered (history : List Call) (job : String) (q : Nat) : Prop :=
  ∃ before later, history = before ++ .register job :: later ∧ registrations before = q ∧
    ∀ c ∈ later, c.removes job q = false

/-- What a history of calls leaves behind. -/
structure Delivers (history : List Call) (b : Bus) : Prop where
  /-- there is a queue for each registration -/
  queues : ∀ q, (b.find? q).isSome = true ↔ q < registrations history
  /-- each holds what was published for its job while it was registered -/
  waiting : ∀ before job later, history = before ++ .register job :: later →
    b.waiting (registrations before) = published job (lifetime job (registrations before) later)
  /-- publishing gives the number of queues that are registered for the job -/
  notified : ∀ e : Event, ∃ registered : Finset Nat,
    (∀ q, q ∈ registered ↔ Registered history e.job q) ∧ (b.publish e).1 = registered.card
  /-- there is an entry for the jobs that a queue is registered for -/
  entry : ∀ job, b.hasEntry job = true ↔ ∃ q, Registered history job q

/-! ## The entries -/

/-- There is an entry for a job exactly if one of its queues is open. -/
def Kept (b : Bus) : Prop := ∀ job, b.hasEntry job = b.queues.any (listens job)

theorem kept_empty : ({} : Bus).Kept := fun _ => rfl

variable {b : Bus}

theorem Kept.publish (kept : b.Kept) (e : Event) : (b.publish e).2.Kept := by
  intro job
  have same : listens job ∘
      (fun q => if b.isListed e.job q then { q with waiting := q.waiting ++ [e] } else q) =
      listens job := by
    funext q
    simp only [Function.comp]
    split <;> rfl
  rw [show (b.publish e).2.hasEntry job = b.hasEntry job from rfl, kept job, Bus.publish,
    List.any_map, same]

theorem Kept.register (kept : b.Kept) (job : String) : (b.register job).2.Kept := by
  intro other
  rw [show (b.register job).2.hasEntry other = (b.enter job).hasEntry other from rfl,
    hasEntry_enter, kept other, Bus.register, queues_enter, List.any_append]
  by_cases same : other = job
  · simp [listens, same]
  · simp [listens, same, Ne.symm same]

/-- Taking a queue out of the entry of one job leaves those of other jobs as they are. -/
theorem any_listens_unregister {job other : String} (h : other ≠ job) (q : Nat) :
    (b.unregister job q).queues.any (listens other) = b.queues.any (listens other) := by
  rw [Bus.unregister, queues_tidy, Bus.update, List.any_map, queues_enter]
  congr 1
  funext queue
  simp only [Function.comp]
  split
  · split
    · rename_i own
      simp [listens, own, Ne.symm h]
    · rfl
  · rfl

theorem hasEntry_unregister (b : Bus) (job other : String) (q : Nat) :
    (b.unregister job q).hasEntry other =
      if other = job then (b.unregister job q).queues.any (listens job) else b.hasEntry other := by
  have entry : ∀ f, ((b.enter job).update q f).hasEntry other = (b.enter job).hasEntry other :=
    fun _ => rfl
  rw [Bus.unregister, hasEntry_tidy, queues_tidy, entry, hasEntry_enter]
  by_cases same : other = job <;> simp [same]

theorem Kept.unregister (kept : b.Kept) (job : String) (q : Nat) : (b.unregister job q).Kept := by
  intro other
  rw [hasEntry_unregister]
  split
  · rename_i same
    rw [same]
  · rename_i same
    rw [kept other, any_listens_unregister same]

theorem Kept.call (kept : b.Kept) (c : Call) : (b.call c).Kept := by
  cases c with
  | register job => exact kept.register job
  | unregister job q => exact kept.unregister job q
  | publish e => exact kept.publish e

theorem Kept.after (kept : b.Kept) (history : List Call) : (b.after history).Kept := by
  induction history generalizing b with
  | nil => exact kept
  | cons c rest ih => exact ih (kept.call c)

/-- An open queue is in the entry of its job. -/
theorem Kept.isListed (kept : b.Kept) {queue : Queue} (mem : queue ∈ b.queues) (job : String) :
    b.isListed job queue = listens job queue := by
  cases heard : listens job queue with
  | false => rw [Bus.isListed, heard, Bool.and_false]
  | true => rw [Bus.isListed, kept job, heard, List.any_eq_true.2 ⟨queue, mem, heard⟩]; rfl

/-! ## The numbers -/

theorem registrations_cons (c : Call) (rest : List Call) :
    registrations (c :: rest) = registrations [c] + registrations rest := by
  simp only [registrations, List.countP_cons, List.countP_nil]
  omega

theorem ids_call {n : Nat} (ids : b.queues.map (·.id) = List.range n) (c : Call) :
    (b.call c).queues.map (·.id) = List.range (n + registrations [c]) := by
  cases c with
  | register job =>
    have length : b.queues.length = n := by simpa using congrArg List.length ids
    simp [call, Bus.register, ids, length, registrations, Call.isRegister, List.range_succ]
  | unregister job q => exact (ids_unregister b job q).trans ids
  | publish e => exact (ids_publish b e).trans ids

/-- Queues are numbered in the order of their registration. -/
theorem ids_after {n : Nat} (ids : b.queues.map (·.id) = List.range n) (history : List Call) :
    (b.after history).queues.map (·.id) = List.range (n + registrations history) := by
  induction history generalizing b n with
  | nil => exact ids
  | cons c rest ih =>
    rw [registrations_cons, ← Nat.add_assoc]
    exact ih (ids_call ids c)

/-! ## One queue -/

/-- What a call does to a queue: while it is open it gets the events of its job, and a call that
takes it out closes it. -/
theorem find?_call (kept : b.Kept) {queue : Queue} {q : Nat} (found : b.find? q = some queue)
    (c : Call) :
    (b.call c).find? q = some { queue with
      isOpen := queue.isOpen && !c.removes queue.job q
      waiting := queue.waiting ++ if queue.isOpen then published queue.job [c] else [] } := by
  cases c with
  | register job =>
    rw [call, find?_register found]
    simp [Call.removes, published, Call.event?]
  | unregister job id =>
    rw [call, find?_unregister, found]
    by_cases own : q = id ∧ queue.job = job
    · simp [own, Call.removes, published, Call.event?]
    · have other : Call.removes queue.job q (.unregister job id) = false := by
        simp only [Call.removes, Bool.and_eq_false_iff, decide_eq_false_iff_not]
        tauto
      simp [own, other, published, Call.event?]
  | publish e =>
    rw [call, find?_publish, found, Option.map_some, kept.isListed (mem_of_find? found)]
    by_cases own : queue.job = e.job
    · cases queue with | mk id job isOpen waiting =>
      cases isOpen <;> simp_all [listens, Call.removes, published, Call.event?]
    · simp [listens, own, Ne.symm own, Call.removes, published, Call.event?]

theorem published_cons (job : String) (c : Call) (rest : List Call) :
    published job (c :: rest) = published job [c] ++ published job rest := by
  rw [← List.singleton_append, published, List.filterMap_append]
  rfl

theorem published_of_removes {c : Call} {job : String} {q : Nat} (removed : c.removes job q = true)
    (other : String) : published other [c] = [] := by
  cases c with
  | unregister => rfl
  | register => cases removed
  | publish => cases removed

/-- What any number of calls does to a queue. -/
theorem find?_after (kept : b.Kept) {queue : Queue} {q : Nat} (found : b.find? q = some queue)
    (later : List Call) :
    (b.after later).find? q = some { queue with
      isOpen := queue.isOpen && later.all (!·.removes queue.job q)
      waiting := queue.waiting ++
        if queue.isOpen then published queue.job (lifetime queue.job q later) else [] } := by
  induction later generalizing b queue with
  | nil => simpa [published, lifetime, after] using found
  | cons c rest ih =>
    rw [show b.after (c :: rest) = (b.call c).after rest from rfl,
      ih (kept.call c) (find?_call kept found c)]
    cases isOpen : queue.isOpen with
    | false => simp
    | true =>
      cases removed : c.removes queue.job q with
      | false =>
        have lasts : lifetime queue.job q (c :: rest) = c :: lifetime queue.job q rest := by
          simp [lifetime, removed]
        rw [lasts, published_cons queue.job c (lifetime queue.job q rest)]
        simp [removed]
      | true =>
        have ends : lifetime queue.job q (c :: rest) = [] := by simp [lifetime, removed]
        rw [ends, published_of_removes removed]
        simp [removed, published]

theorem after_append (b : Bus) (before later : List Call) :
    b.after (before ++ later) = (b.after before).after later := List.foldl_append

/-! ## All queues -/

section
variable {history : List Call}

theorem kept_after (history : List Call) : (({} : Bus).after history).Kept :=
  kept_empty.after history

theorem ids_history (history : List Call) :
    (({} : Bus).after history).queues.map (·.id) = List.range (registrations history) := by
  simpa using ids_after (b := {}) (n := 0) rfl history

/-- The queue of a registration, after what follows it. -/
theorem find?_history (before : List Call) (job : String) (later : List Call) :
    (({} : Bus).after (before ++ .register job :: later)).find? (registrations before) =
      some ⟨registrations before, job, later.all (!·.removes job (registrations before)),
        published job (lifetime job (registrations before) later)⟩ := by
  have length : (({} : Bus).after before).queues.length = registrations before := by
    simpa using congrArg List.length (ids_history before)
  have numbered : (({} : Bus).after before).Numbered := by
    intro id hid
    rw [ids_history, List.mem_range] at hid
    rwa [length]
  have found := numbered.find?_register job
  rw [length] at found
  rw [after_append]
  refine (find?_after ((kept_after before).register job) found later).trans ?_
  simp

/-- Each number that was given belongs to a registration. -/
theorem exists_registration {q : Nat} (given : q < registrations history) :
    ∃ before job later, history = before ++ .register job :: later ∧ registrations before = q := by
  induction history generalizing q with
  | nil => simp [registrations] at given
  | cons c rest ih =>
    rw [registrations_cons] at given
    by_cases first : q < registrations [c]
    · cases c with
      | register job =>
        refine ⟨[], job, rest, rfl, ?_⟩
        simp only [registrations, Call.isRegister, List.countP_singleton, if_true] at first
        simp only [registrations, List.countP_nil]
        omega
      | unregister => simp [registrations, Call.isRegister] at first
      | publish => simp [registrations, Call.isRegister] at first
    · obtain ⟨before, job, later, rfl, number⟩ := ih (q := q - registrations [c]) (by omega)
      refine ⟨c :: before, job, later, rfl, ?_⟩
      rw [registrations_cons]
      omega

/-- A queue is registered for a job exactly if it is one of its open queues. -/
theorem registered_iff {job : String} {q : Nat} :
    Registered history job q ↔
      ∃ queue, (({} : Bus).after history).find? q = some queue ∧ listens job queue = true := by
  constructor
  · rintro ⟨before, later, rfl, rfl, kept⟩
    refine ⟨_, find?_history before job later, ?_⟩
    simpa [listens] using kept
  · rintro ⟨queue, found, heard⟩
    have given : q < registrations history := by
      rw [← List.mem_range, ← ids_history]
      exact List.mem_map.2 ⟨queue, mem_of_find? found, by simpa using List.find?_some found⟩
    obtain ⟨before, job', later, rfl, rfl⟩ := exists_registration given
    rw [find?_history, Option.some.injEq] at found
    subst found
    rw [listens, Bool.and_eq_true, beq_iff_eq] at heard
    obtain ⟨kept, rfl⟩ := heard
    exact ⟨before, later, rfl, rfl, by simpa using kept⟩

/-- A queue is found under its number. -/
theorem find?_of_mem {queue : Queue} (mem : queue ∈ (({} : Bus).after history).queues) :
    (({} : Bus).after history).find? queue.id = some queue := by
  have nodup : ((({} : Bus).after history).queues.map (·.id)).Nodup := by
    rw [ids_history]
    exact List.nodup_range
  obtain ⟨other, found⟩ : ∃ other, (({} : Bus).after history).find? queue.id = some other :=
    Option.isSome_iff_exists.1 (List.find?_isSome.2 ⟨queue, mem, decide_eq_true rfl⟩)
  have same : other.id = queue.id := by simpa using List.find?_some found
  rw [found, List.inj_on_of_nodup_map nodup (mem_of_find? found) mem same]

theorem registered_iff_mem {job : String} {q : Nat} :
    Registered history job q ↔
      ∃ queue ∈ (({} : Bus).after history).queues, listens job queue = true ∧ queue.id = q := by
  rw [registered_iff]
  constructor
  · rintro ⟨queue, found, heard⟩
    exact ⟨queue, mem_of_find? found, heard, by simpa using List.find?_some found⟩
  · rintro ⟨queue, mem, heard, rfl⟩
    exact ⟨queue, find?_of_mem mem, heard⟩

/-- Publishing reaches the queues that are registered for the job. -/
theorem publish_after (history : List Call) (e : Event) :
    ∃ registered : Finset Nat, (∀ q, q ∈ registered ↔ Registered history e.job q) ∧
      ((({} : Bus).after history).publish e).1 = registered.card := by
  let open? := (({} : Bus).after history).queues.filter (listens e.job)
  have nodup : (open?.map (·.id)).Nodup := by
    refine List.Nodup.sublist (List.filter_sublist.map _) ?_
    rw [ids_history]
    exact List.nodup_range
  refine ⟨(open?.map (·.id)).toFinset, fun q => ?_, ?_⟩
  · simp [open?, registered_iff_mem, and_assoc]
  · rw [List.toFinset_card_of_nodup nodup, List.length_map, ← List.countP_eq_length_filter]
    exact List.countP_congr fun queue mem => by rw [(kept_after history).isListed mem]

/-- After any calls, in any order and for any jobs, each queue holds what was published for its job
while it was registered; publishing reaches the queues that are registered then; and there are
entries for the jobs of those queues only. -/
theorem delivery (history : List Call) : Delivers history (({} : Bus).after history) where
  queues q := by
    rw [find?, List.find?_isSome, ← List.mem_range, ← ids_history, List.mem_map]
    simp
  waiting := by
    rintro before job later rfl
    rw [waiting, find?_history]
    rfl
  notified := publish_after history
  entry job := by
    rw [kept_after history job, List.any_eq_true]
    constructor
    · rintro ⟨queue, mem, heard⟩
      exact ⟨queue.id, registered_iff_mem.2 ⟨queue, mem, heard, rfl⟩⟩
    · rintro ⟨q, registered⟩
      obtain ⟨queue, mem, heard, -⟩ := registered_iff_mem.1 registered
      exact ⟨queue, mem, heard⟩

end
end Montage.Bus
