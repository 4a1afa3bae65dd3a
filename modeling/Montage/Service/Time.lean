import Montage.Service

/-!
# Waiting

A caller who waits for something lets turns be served until it has come. When nobody stands in
line, time jumps to the next moment at which a job's limit is reached, an encoder wakes, or the
caller's own time has come. Of those who wake at one moment, jobs submitted earlier go first, and
a job's limit goes before its encoder.

Waiting comes to an end: each turn and each jump in time takes something away from `allEffort`.
-/
namespace Montage.Service

/-- The moments at which a run hears something. -/
def alarms (r : Run) : List Float :=
  r.limitAt.toList ++ match r.phase with
    | .encoding _ _ (.asleep wake) => [wake]
    | _ => []

/-- Lets the limit of a run be heard if its moment has come. -/
def ringLimit (s : Service) (r : Run) : Service :=
  match r.limitAt with
  | some t =>
    if t ≤ s.shared.now then (s.putRun { r with limitAt := none }).enqueue (.limit r.id) else s
  | none => s

/-- Wakes a run that waits for its encoder if its moment has come. -/
def ringWake (s : Service) (r : Run) : Service :=
  match r.phase with
  | .encoding t c (.asleep wake) =>
    if wake ≤ s.shared.now then
      (s.putRun { r with phase := .encoding t c .awake }).enqueue (.work r.id)
    else s
  | _ => s

/-- Lets a run hear what it is time for, its limit first. -/
def ringFor (s : Service) (id : String) : Service := (s.onRun id ringLimit).onRun id ringWake

/-- Puts everyone in line whose moment has come. -/
def ring (s : Service) : Service := (s.runs.map (·.id)).foldl ringFor s

/-- The earlier of a moment and the best before it. -/
def earlier (best : Option Float) (t : Float) : Option Float :=
  match best with
  | some b => if t < b then some t else some b
  | none => some t

/-- The earliest of some moments after now. -/
def earliest (now : Float) (moments : List Float) : Option Float :=
  (moments.filter fun t => now < t).foldl earlier none

/-- The next moment at which something happens, the caller's own moment among them. -/
def nextMoment (s : Service) (own : Option Float) : Option Float :=
  earliest s.shared.now (own.toList ++ s.runs.flatMap alarms)

/-- The service at a later moment. -/
def moveTo (s : Service) (moment : Float) : Service :=
  { s with shared := { s.shared with now := moment } }

/-- Goes on at the present moment, if there is something to do: serves a turn, or puts those in
line whose moment has come. -/
def stir? (s : Service) : Option Service :=
  match s.turn? with
  | some s => some s
  | none => if s.ring.ready.isEmpty then none else some s.ring

/-- Goes on, if need be at the next moment at which something happens. -/
def advance? (own : Option Float) (s : Service) : Option Service :=
  match s.stir? with
  | some s => some s
  | none => (s.nextMoment own).map s.moveTo

/-- A weight for a moment that is yet to come, so that it is less when the moment has come and
nothing when it is over. -/
def weight (now moment : Float) : Nat := if moment ≤ now then 2 else 3

/-- A bound on what the stages of a run have still to do from a phase on. They count down to the
encoder, and the encoder to the end of its script. -/
def stageEffort (now : Float) (r : Run) : Phase → Nat
  | .over => 0
  | .finished _ => 0
  | .encoding _ _ pause =>
    let left := 4 * ((r.process.map (·.remaining.length)).getD 0)
    match pause with
    | .ended => left
    | .awake => left + 1
    | .hanging => left + 3
    | .asleep wake => left + 1 + weight now wake
  | .prepared .. => 4 * r.script.reads.length + 2
  | .grounded .. => 4 * r.script.reads.length + 3
  | .located .. => 4 * r.script.reads.length + 4
  | .entering => 4 * r.script.reads.length + 5
  | .unstarted => 4 * r.script.reads.length + 9

/-- A bound on what there is still to do for a run, its limit and its callers. -/
def effort (now : Float) (r : Run) : Nat :=
  (r.limitAt.map (weight now)).getD 0 + r.callers.length + stageEffort now r r.phase

/-- A bound on what there is still to do for some runs. -/
def totalEffort (now : Float) (runs : List Run) : Nat :=
  runs.foldr (fun r n => effort now r + n) 0

/-- A bound on the number of turns and moments until nothing happens any more. -/
def allEffort (s : Service) (own : Option Float) : Nat :=
  s.ready.length + totalEffort s.shared.now s.runs +
    (own.map (weight s.shared.now)).getD 0

/-- Goes on at the present moment for at most so many steps. -/
def settleWithin : Nat → Service → Service
  | 0, s => s
  | n + 1, s =>
    match s.stir? with
    | some s => settleWithin n s
    | none => s

/-- Goes on until all jobs have ended or wait for their encoders. -/
def settle (s : Service) : Service := settleWithin (s.allEffort none) s

/-- Goes on for at most so many steps, until a condition holds. -/
def waitWithin (own : Option Float) (holds : Service → Bool) : Nat → Service → Service
  | 0, s => s
  | n + 1, s =>
    if holds s then s
    else match s.advance? own with
      | some s => waitWithin own holds n s
      | none => s

/-- Goes on until a condition holds, or nothing happens any more. -/
def waitUntil (s : Service) (own : Option Float) (holds : Service → Bool) : Service :=
  waitWithin own holds (s.allEffort own) s

/-- Lets a number of seconds pass. -/
def sleep (s : Service) (seconds : Float) : Service :=
  let s := s.settle
  let wake := s.shared.now + seconds
  s.waitUntil (some wake) fun s => wake ≤ s.shared.now

/-- Calls because of a job, and goes on until there is an answer. -/
def ask (s : Service) (id : String) (aim : Aim) : Option Reply × Service :=
  let number := s.calls
  let s := (s.call id aim).waitUntil none fun s => (s.reply? number).isSome
  (s.reply? number, s)

/-- Waits for the end of a job, and gives its record. -/
def wait (s : Service) (id : String) : Except Failure Job × Service :=
  match s.ask id .wait with
  | (some (.job outcome), s) => (outcome, s)
  | (_, s) => (s.shared.registry.get id, s)

/-- Cancels a job and waits for its end. Gives false if it had ended already. -/
def cancel (s : Service) (id reason : String) : Except Failure Bool × Service :=
  match s.ask id (.cancel reason) with
  | (some (.cancelled outcome), s) => (outcome, s)
  | (_, s) => (.ok false, s)

/-- Someone who follows a job with a queue: there is something to see at once, or it comes through
the queue. -/
inductive Follower where
  | told (job : String) (queue : Nat) (events : List Event)
  | waits (job : String) (queue : Nat)
  | refused (failure : Failure)

/-- The last event of a job that has ended. -/
def lastEvent (j : Job) (now : Float) : Event :=
  let t := Instant.ofSeconds now
  if j.state = .completed then
    ⟨"completed", j.id, t,
      some (.object [("result", Json.ofOption RenderResult.toJson j.result)])⟩
  else
    ⟨"failed", j.id, t, some (.object [("error", Json.ofOption ErrorInfo.toJson j.error)])⟩

/-- Takes what waits in a queue up to the last event of a job. -/
def read (s : Service) (queue : Nat) : List Event × Service :=
  let (events, bus) := s.shared.bus.drain queue
  (events, { s with shared := { s.shared with bus := bus } })

/-- Takes a queue out. -/
def leave (s : Service) (job : String) (queue : Nat) : Service :=
  { s with shared := { s.shared with bus := s.shared.bus.unregister job queue } }

/-- A new queue for a job. -/
def listen (s : Service) (id : String) : Nat × Service :=
  let (q, bus) := s.shared.bus.register id
  (q, { s with shared := { s.shared with bus := bus } })

/-- Looks at a job for someone who has a queue for it. One that has ended has its last event to
tell, one that is not known leaves nothing to wait for. -/
def look (s : Service) (id : String) (queue : Nat) : Follower × Service :=
  match s.shared.registry.get id with
  | .error f => (.refused f, s.leave id queue)
  | .ok job =>
    if job.state.isTerminal then (.told id queue [lastEvent job s.shared.now], s)
    else (.waits id queue, s)

/-- Follows a job from now on: first gets a queue for it, then looks at it. -/
def follow (s : Service) (id : String) : Follower × Service :=
  let (q, s) := s.listen id
  s.look id q

/-- Waits for the last event of a followed job, and gives all of them. -/
def followed (s : Service) : Follower → Except Failure (List Event) × Service
  | .told job q events => (.ok events, s.leave job q)
  | .refused f => (.error f, s)
  | .waits job q =>
    let s := s.waitUntil none fun s => (s.shared.bus.waiting q).any (·.isTerminal)
    let (events, s) := s.read q
    (.ok events, s.leave job q)

end Montage.Service
