import Montage.Clock
import Montage.Json

/-!
# Events

Whoever wants to follow a job registers a queue for it. An event that is published for the job
then waits in the queue until it is taken. Jobs that nobody follows leave no entry behind. An event
of kind `completed` or `failed` is the last one of its job.
-/
namespace Montage

/-- Something that happened to a job. -/
structure Event where
  kind : String
  job : String
  time : Instant
  data : Option Json

namespace Event

/-- The kinds after which nothing comes. -/
def terminalKinds : List String := ["completed", "failed"]

def isTerminal (e : Event) : Bool := terminalKinds.contains e.kind

/-- The event as subscribers see it; empty data is left out. -/
def toJson (e : Event) : Json :=
  .object ([("type", .string e.kind), ("job_id", .string e.job),
    ("timestamp", .string e.time.eventText)] ++
    match e.data with
    | some d => if d.isTruthy then [("data", d)] else []
    | none => [])

end Event

/-- A queue of events of one job. -/
structure Queue where
  id : Nat
  job : String
  /-- whether events still go into it -/
  isOpen : Bool
  waiting : List Event

/-- All queues that were ever registered, and the jobs that there is an entry for. The entry of a
job stands for the open queues of that job. A queue that is taken out keeps what waits in it. -/
structure Bus where
  queues : List Queue := []
  entries : List String := []

namespace Bus

/-- Whether a queue gets the events of a job. -/
def listens (job : String) (q : Queue) : Bool := q.isOpen && q.job == job

/-- Whether there is an entry for a job. -/
def hasEntry (b : Bus) (job : String) : Bool := b.entries.contains job

/-- The bus with an entry for a job, which is empty if it is new. -/
def enter (b : Bus) (job : String) : Bus :=
  if b.hasEntry job then b else { b with entries := b.entries ++ [job] }

/-- The bus without the entry of a job if no queue is in it. -/
def tidy (b : Bus) (job : String) : Bus :=
  if b.queues.any (listens job) then b else { b with entries := b.entries.filter (· ≠ job) }

/-- A new queue for a job, and its number. -/
def register (b : Bus) (job : String) : Nat × Bus :=
  let id := b.queues.length
  let b := b.enter job
  (id, { b with queues := b.queues ++ [⟨id, job, true, []⟩] })

/-- The bus with a change to one queue. -/
def update (b : Bus) (id : Nat) (f : Queue → Queue) : Bus :=
  { b with queues := b.queues.map fun q => if q.id = id then f q else q }

/-- Takes a queue out, if it was registered for that job. An entry that is looked up is there, and
it is dropped if it is left empty. -/
def unregister (b : Bus) (job : String) (id : Nat) : Bus :=
  let b := b.enter job
  (b.update id fun q => if q.job = job then { q with isOpen := false } else q).tidy job

/-- Whether a queue is in the entry of a job; without an entry none is. -/
def isListed (b : Bus) (job : String) (q : Queue) : Bool := b.hasEntry job && listens job q

/-- How many queues get the events of a job. -/
def subscribers (b : Bus) (job : String) : Nat := b.queues.countP (b.isListed job)

/-- Puts an event into the queues of its job. Gives their number. -/
def publish (b : Bus) (e : Event) : Nat × Bus :=
  let queues := b.queues.map fun q =>
    if b.isListed e.job q then { q with waiting := q.waiting ++ [e] } else q
  (b.subscribers e.job, { b with queues })

/-- The queue of a number. -/
def find? (b : Bus) (id : Nat) : Option Queue := b.queues.find? (·.id = id)

/-- What waits in a queue. -/
def waiting (b : Bus) (id : Nat) : List Event := ((b.find? id).map (·.waiting)).getD []

/-- Takes everything that waits in a queue. -/
def take (b : Bus) (id : Nat) : List Event × Bus :=
  (b.waiting id, b.update id fun q => { q with waiting := [] })

/-- Events up to the first terminal one, and those after it. -/
def splitTerminal : List Event → List Event × List Event
  | [] => ([], [])
  | e :: rest =>
    if e.isTerminal then ([e], rest)
    else let (before, after) := splitTerminal rest; (e :: before, after)

/-- Takes what waits in a queue up to the first terminal event. -/
def drain (b : Bus) (id : Nat) : List Event × Bus :=
  let (taken, left) := splitTerminal (b.waiting id)
  (taken, b.update id fun q => { q with waiting := left })

@[simp] theorem queues_enter (b : Bus) (job : String) : (b.enter job).queues = b.queues := by
  unfold enter
  split <;> rfl

@[simp] theorem queues_tidy (b : Bus) (job : String) : (b.tidy job).queues = b.queues := by
  unfold tidy
  split <;> rfl

/-- An entry is made for the job that is looked up and for no other. -/
@[simp] theorem hasEntry_enter (b : Bus) (job other : String) :
    (b.enter job).hasEntry other = (decide (other = job) || b.hasEntry other) := by
  unfold enter
  split
  · rename_i there
    by_cases same : other = job <;> simp [there, same]
  · by_cases same : other = job <;> simp [same, hasEntry]

/-- The entry of a job stays if a queue is in it, and those of other jobs stay in any case. -/
theorem hasEntry_tidy (b : Bus) (job other : String) :
    (b.tidy job).hasEntry other =
      (b.hasEntry other && (decide (other ≠ job) || b.queues.any (listens job))) := by
  unfold tidy
  cases live : b.queues.any (listens job) with
  | true => simp
  | false => by_cases same : other = job <;> simp [hasEntry, same]

theorem find?_publish (b : Bus) (e : Event) (id : Nat) :
    (b.publish e).2.find? id = (b.find? id).map fun q =>
      if b.isListed e.job q then { q with waiting := q.waiting ++ [e] } else q := by
  simp only [find?, publish, List.find?_map]
  congr 2
  funext q
  simp only [Function.comp]
  split <;> rfl

/-- An event is put last into the queues that get the events of its job, and into no other. -/
theorem waiting_publish (b : Bus) (e : Event) (id : Nat) :
    (b.publish e).2.waiting id =
      b.waiting id ++ if (b.find? id).any (b.isListed e.job) then [e] else [] := by
  simp only [waiting, find?_publish]
  cases b.find? id with
  | none => simp
  | some q => by_cases hq : b.isListed e.job q <;> simp [hq]

theorem append_splitTerminal (es : List Event) :
    (splitTerminal es).1 ++ (splitTerminal es).2 = es := by
  induction es with
  | nil => rfl
  | cons e rest ih => by_cases h : e.isTerminal <;> simp [splitTerminal, h, ih]

end Bus

/-- Someone who follows a job in the background: a queue from the moment on in which the
follower first runs, until the job's last event or until the follower is stopped. -/
structure Subscriber where
  job : String
  queue : Option Nat := none
  seen : List Event := []
  done : Bool := false

namespace Subscriber

/-- Stops a subscriber. -/
def stop (s : Subscriber) (b : Bus) : Subscriber × Bus :=
  if s.done then (s, b)
  else
    let b := match s.queue with
      | some q => b.unregister s.job q
      | none => b
    ({ s with done := true }, b)

/-- Lets a subscriber take what there is for it. -/
def run (s : Subscriber) (b : Bus) : Subscriber × Bus :=
  if s.done then (s, b)
  else
    let (q, b) := match s.queue with
      | some q => (q, b)
      | none => b.register s.job
    let (taken, b) := b.drain q
    let s := { s with queue := some q, seen := s.seen ++ taken }
    if taken.any (·.isTerminal) then s.stop b else (s, b)

end Subscriber
end Montage
