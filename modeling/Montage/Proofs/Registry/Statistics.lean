import Mathlib.Algebra.Order.Field.Rat
import Mathlib.Data.List.Induction
import Mathlib.Tactic.FieldSimp
import Mathlib.Tactic.Positivity
import Mathlib.Tactic.Ring
import Montage.Proofs.Registry.Effects

/-!
# Counts and histories

The registry counts while jobs end; `account_after` says that at every moment the counts are
what the history of the jobs says, for all runs of calls, refused ones among them.

A history is a list of moments: the registry that a call found, the call, and the clock. What
became of a job is read off it without looking at the counts: `Moment.moves` compares the state
of a job before and after a call, a job's render begins where it comes to `rendering`
(`began`) and ends where it completes or fails for a reason that counts (`renders`). `Account`
then compares the counts with the number of jobs of each kind, and the running mean with the
list of all renders.

`Ledger` adds to the account what the next call needs: that a job which renders has a
beginning in the history, and that only failed jobs have failed in it. There is one lemma for
each way in which a call can bear on it: a job changes and goes on (`Ledger.keep`), its render
ends (`Ledger.render`), it is rejected (`Ledger.reject`), or no job changes (`Ledger.enroll`).
`Ledger.step` puts them together and `Ledger.run` carries the account over all calls.
-/
namespace Montage

/-! ## The running mean -/

namespace Stats

/-- The mean of a list as it is kept while the list grows, with whole numbers read by `ofNat`. -/
def runningMean {α : Type} [Add α] [Sub α] [Div α] (ofNat : Nat → α) (xs : List α) : α :=
  (xs.foldl (fun (mean, n) x => (nextMean mean x (ofNat (n + 1)), n + 1)) (ofNat 0, 0)).1

theorem runningMean_append {α : Type} [Add α] [Sub α] [Div α] (ofNat : Nat → α) (xs : List α)
    (x : α) : runningMean ofNat (xs ++ [x]) =
      nextMean (runningMean ofNat xs) x (ofNat (xs.length + 1)) := by
  have length : ∀ (ys : List α) (mean : α) (n : Nat), (ys.foldl (fun (mean, n) x =>
      (nextMean mean x (ofNat (n + 1)), n + 1)) (mean, n)).2 = n + ys.length := by
    intro ys
    induction ys with
    | nil => intros; rfl
    | cons y ys ih =>
      intro mean n
      rw [List.foldl_cons, ih, List.length_cons]
      omega
  rw [runningMean, List.foldl_append, List.foldl_cons, List.foldl_nil]
  simp only [length, Nat.zero_add, runningMean]

/-- In exact arithmetic the running mean is the arithmetic mean. -/
theorem runningMean_eq (xs : List ℚ) :
    runningMean (fun n => (n : ℚ)) xs = xs.sum / xs.length := by
  induction xs using List.reverseRecOn with
  | nil => simp [runningMean]
  | append_singleton xs x ih =>
    rw [runningMean_append, ih, nextMean, List.sum_append, List.sum_singleton,
      List.length_append, List.length_singleton, Nat.cast_add, Nat.cast_one]
    rcases Nat.eq_zero_or_pos xs.length with h | h
    · simp [List.length_eq_zero_iff.1 h]
    · have : (xs.length : ℚ) ≠ 0 := Nat.cast_ne_zero.2 h.ne'
      have : (xs.length : ℚ) + 1 ≠ 0 := by positivity
      field_simp
      ring

end Stats

theorem JobState.ne_of_live {s : JobState} (h : s.isTerminal = false) :
    s ≠ .completed ∧ s ≠ .failed := by
  cases s <;> simp_all [isTerminal]

namespace Registry

/-! ## Histories -/

/-- The state of a job, if it is there. -/
def stateOf (r : Registry) (id : String) : Option JobState := (r.find? id).map (·.state)

/-- A call, with the registry that it found and the reading of the clock. -/
structure Moment where
  before : Registry
  call : Call
  now : Float

namespace Moment

def after (m : Moment) : Registry := m.call.apply m.before m.now

/-- Whether a job came from one state to another. -/
def moves (m : Moment) (id : String) (a b : JobState) : Bool :=
  m.before.stateOf id = some a && m.after.stateOf id = some b

/-- Whether a job failed while it rendered, for a reason that counts as a render. -/
def failsRender (m : Moment) (id : String) : Bool :=
  m.moves id .rendering .failed && match m.call with
    | .fail _ failure => failure.countsAsRender
    | _ => false

/-- Whether a render of a job ended. -/
def endsRender (m : Moment) (id : String) : Bool :=
  m.moves id .rendering .completed || m.failsRender id

end Moment

/-- The registry after a run of calls, each at its own reading of the clock. -/
def after (r : Registry) (calls : List (Call × Float)) : Registry :=
  calls.foldl (fun r c => c.1.apply r c.2) r

/-- The moments of a run of calls. -/
def history (r : Registry) : List (Call × Float) → List Moment
  | [] => []
  | (call, now) :: rest => ⟨r, call, now⟩ :: (call.apply r now).history rest

theorem history_append (r : Registry) (calls : List (Call × Float)) (call : Call) (now : Float) :
    r.history (calls ++ [(call, now)]) = r.history calls ++ [⟨r.after calls, call, now⟩] := by
  induction calls generalizing r with
  | nil => rfl
  | cons c calls ih => rw [List.cons_append, history, ih, history]; rfl

theorem after_append (r : Registry) (calls : List (Call × Float)) (call : Call) (now : Float) :
    r.after (calls ++ [(call, now)]) = call.apply (r.after calls) now := by
  simp [after]

/-- Whether a job has failed while it rendered, for a reason that counts as a render. -/
def failedRender (past : List Moment) (id : String) : Bool := past.any (·.failsRender id)

/-- The reading of the clock when a job last began to render. -/
def began (past : List Moment) (id : String) : Option Float :=
  ((past.filter (·.moves id .compiling .rendering)).getLast?).map (·.now)

/-- A render that has ended: its job, and the clock at its two ends. -/
structure Render where
  job : String
  since : Float
  ended : Float

/-- The milliseconds that a render took. -/
def Render.milliseconds (x : Render) : Float := (x.ended - x.since) * 1000

/-- The renders that end in a moment after some others. -/
def rendersOf (past : List Moment) (m : Moment) : List Render :=
  (m.before.jobs.filter (m.endsRender ·.id)).filterMap fun j =>
    (began past j.id).map fun since => ⟨j.id, since, m.now⟩

/-- All renders that end in some moments after others, the oldest first. -/
def rendersAfter (past : List Moment) : List Moment → List Render
  | [] => []
  | m :: rest => rendersOf past m ++ rendersAfter (past ++ [m]) rest

/-- All renders of a history. -/
def renders (past : List Moment) : List Render := rendersAfter [] past

theorem renders_append (past : List Moment) (m : Moment) :
    renders (past ++ [m]) = renders past ++ rendersOf past m := by
  have go : ∀ rest before, rendersAfter before (rest ++ [m]) =
      rendersAfter before rest ++ rendersOf (before ++ rest) m := by
    intro rest
    induction rest with
    | nil => intro before; simp [rendersAfter]
    | cons x rest ih => intro before; simp [rendersAfter, ih]
  simpa [renders] using go past []

/-! ## Accounts -/

/-- Whether a job counts as a render: it completed, or failed so while it rendered. -/
def isCounted (past : List Moment) (j : Job) : Bool :=
  j.state = .completed || failedRender past j.id

/-- The counts of a registry as a history says them. -/
structure Tally (r : Registry) (past : List Moment) : Prop where
  /-- jobs that completed, and jobs that failed as renders -/
  count : r.stats.count = r.jobs.countP (·.state = .completed) +
    r.jobs.countP (failedRender past ·.id)
  errors : r.stats.errors = r.jobs.countP (failedRender past ·.id)
  /-- all other jobs that failed -/
  rejected : r.stats.rejected = r.jobs.countP fun j =>
    j.state = .failed && !failedRender past j.id
  rate : r.stats.successRate = if r.stats.count = 0 then 0
    else Float.ofNat (r.stats.count - r.stats.errors) / Float.ofNat r.stats.count * 100
  /-- a job that counts has one render, any other none -/
  once : ∀ id, ((renders past).map (·.job)).count id =
    if (r.find? id).any (isCounted past) then 1 else 0
  length : (renders past).length = r.stats.count
  last : r.stats.lastRenderedAt =
    (renders past).getLast?.bind fun x => (r.find? x.job).map (·.updatedAt)
  mean : r.stats.averageMs = Stats.runningMean Float.ofNat ((renders past).map (·.milliseconds))

/-- The account of a registry: its counts are what a history says, every job that has ended is
counted once, and the mean, kept in exact arithmetic, is the arithmetic mean. -/
structure Account (r : Registry) (past : List Moment) : Prop extends Tally r past where
  total : r.stats.count + r.stats.rejected = r.jobs.countP (·.state.isTerminal)
  /-- for any exact reading of the times that the renders took -/
  exactMean : ∀ time : Render → ℚ,
    Stats.runningMean (fun n => (n : ℚ)) ((renders past).map time) =
      ((renders past).map time).sum / r.stats.count

/-- The counts, with what the next call needs of the history. -/
structure Ledger (r : Registry) (past : List Moment) : Prop extends Tally r past where
  distinct : r.Distinct
  failed : ∀ id, failedRender past id = true → ∃ j, r.find? id = some j ∧ j.state = .failed
  begun : ∀ id j, r.find? id = some j → j.state = .rendering →
    ∃ since, j.renderingSince = some since ∧ began past id = some since

/-! ## What a moment adds to a history -/

theorem failedRender_append (past : List Moment) (m : Moment) (id : String) :
    failedRender (past ++ [m]) id = (failedRender past id || m.failsRender id) := by
  simp [failedRender]

theorem began_append (past : List Moment) (m : Moment) (id : String) :
    began (past ++ [m]) id =
      if m.moves id .compiling .rendering then some m.now else began past id := by
  unfold began
  rw [List.filter_append, List.filter_cons, List.filter_nil]
  split <;> simp

/-- In a moment in which no render ends nothing is added to the renders. -/
theorem renders_quiet {past : List Moment} {m : Moment} (h : ∀ id, m.endsRender id = false) :
    renders (past ++ [m]) = renders past := by
  simp [renders_append, rendersOf, h]

namespace Moment

theorem moves_of_find?_eq {m : Moment} {id : String} {a b : JobState} (ne : a ≠ b)
    (h : m.after.find? id = m.before.find? id) : m.moves id a b = false := by
  refine Bool.eq_false_iff.2 fun hm => ?_
  obtain ⟨ha, hb⟩ := Bool.and_eq_true_iff.1 hm
  rw [stateOf, h] at hb
  exact ne (Option.some.inj ((of_decide_eq_true ha).symm.trans (of_decide_eq_true hb)))

/-- A moment in which one job that is there gets another record. -/
structure Changes (m : Moment) (j j' : Job) : Prop where
  known : m.before.find? j.id = some j
  live : j.state.isTerminal = false
  jobs : m.after.jobs = (m.before.put j').jobs
  same : j'.id = j.id

namespace Changes

variable {m : Moment} {j j' : Job} (h : m.Changes j j')
include h

theorem find?_after (id : String) :
    m.after.find? id = if id = j.id then some j' else m.before.find? id :=
  find?_put_eq h.jobs h.known h.same id

theorem moves_iff {id : String} {a b : JobState} (ne : a ≠ b) :
    m.moves id a b = true ↔ id = j.id ∧ j.state = a ∧ j'.state = b := by
  by_cases e : id = j.id
  · subst e
    simp [moves, stateOf, h.find?_after, h.known]
  · simp [e, moves_of_find?_eq ne ((h.find?_after id).trans (if_neg e))]

theorem failsRender_iff {id : String} : m.failsRender id = true ↔
    id = j.id ∧ j.state = .rendering ∧ j'.state = .failed ∧
      ∃ job failure, m.call = .fail job failure ∧ failure.countsAsRender = true := by
  rw [failsRender, Bool.and_eq_true, h.moves_iff (by decide), and_assoc, and_assoc]
  refine and_congr_right fun _ => and_congr_right fun _ => and_congr_right fun _ => ?_
  cases m.call <;> simp

theorem failsRender_of_ne {id : String} (ne : id ≠ j.id) : m.failsRender id = false :=
  Bool.eq_false_iff.2 fun e => ne (h.failsRender_iff.1 e).1

theorem endsRender_iff {id : String} : m.endsRender id = true ↔
    id = j.id ∧ ((j.state = .rendering ∧ j'.state = .completed) ∨ m.failsRender j.id = true) := by
  rw [endsRender, Bool.or_eq_true, h.moves_iff (by decide)]
  by_cases e : id = j.id
  · simp [e]
  · simp [e, h.failsRender_of_ne e]

end Changes
end Moment

/-! ## One moment after another -/

namespace Ledger

variable {r : Registry} {past : List Moment} (l : Ledger r past)
include l

/-- A job that has not ended has not failed. -/
theorem failedRender_of_live {j : Job} (known : r.find? j.id = some j)
    (live : j.state.isTerminal = false) : failedRender past j.id = false := by
  refine Bool.eq_false_iff.2 fun h => ?_
  obtain ⟨j', hj', state⟩ := l.failed _ h
  cases known.symm.trans hj'
  simp [state, JobState.isTerminal] at live

theorem isCounted_of_live {j : Job} (known : r.find? j.id = some j)
    (live : j.state.isTerminal = false) : isCounted past j = false := by
  rw [isCounted, l.failedRender_of_live known live]
  cases hs : j.state <;> simp_all [JobState.isTerminal]

/-- The job of a render that has ended is there and counts. -/
theorem known_of_render {x : Render} (hx : x ∈ renders past) :
    ∃ j, r.find? x.job = some j ∧ isCounted past j = true := by
  have pos : 0 < ((renders past).map (·.job)).count x.job :=
    List.count_pos_iff.2 (List.mem_map_of_mem hx)
  rw [l.once] at pos
  cases h : r.find? x.job with
  | none => simp [h] at pos
  | some j =>
    refine ⟨j, rfl, ?_⟩
    by_contra hc
    simp [h, hc] at pos

/-- The time of the last render stays what it is, as long as jobs that count keep their
records. -/
theorem last_eq {r' : Registry}
    (find : ∀ id j, r.find? id = some j → isCounted past j = true → r'.find? id = some j) :
    r.stats.lastRenderedAt =
      (renders past).getLast?.bind fun x => (r'.find? x.job).map (·.updatedAt) := by
  rw [l.last]
  cases h : (renders past).getLast? with
  | none => rfl
  | some x =>
    obtain ⟨j, hj, counted⟩ := l.known_of_render (List.mem_of_getLast? h)
    simp [hj, find _ _ hj counted]

end Ledger

/-! ### A moment in which a job changes -/

section Changes

variable {past : List Moment} {m : Moment} {j j' : Job} (l : Ledger m.before past)
  (h : m.Changes j j')
include l h

theorem completed_change : m.after.jobs.countP (·.state = .completed) =
    m.before.jobs.countP (·.state = .completed) + if j'.state = .completed then 1 else 0 := by
  have count := countP_put l.distinct h.known h.same (fun x => x.state = .completed)
    (fun x => x.state = .completed) fun _ _ _ => rfl
  have : j.state ≠ .completed := (JobState.ne_of_live h.live).1
  rw [h.jobs]
  simpa [this] using count

theorem failedRender_change : m.after.jobs.countP (failedRender (past ++ [m]) ·.id) =
    m.before.jobs.countP (failedRender past ·.id) + if m.failsRender j.id then 1 else 0 := by
  have count := countP_put l.distinct h.known h.same (failedRender past ·.id)
    (failedRender (past ++ [m]) ·.id) fun old _ ne => by
      rw [failedRender_append, h.failsRender_of_ne ne, Bool.or_false]
  rw [h.jobs]
  simpa [failedRender_append, l.failedRender_of_live h.known h.live, h.same] using count

theorem rejected_change :
    (m.after.jobs.countP fun x => x.state = .failed && !failedRender (past ++ [m]) x.id) =
      (m.before.jobs.countP fun x => x.state = .failed && !failedRender past x.id) +
        if j'.state = .failed && !m.failsRender j.id then 1 else 0 := by
  have count := countP_put l.distinct h.known h.same
    (fun x => x.state = .failed && !failedRender past x.id)
    (fun x => x.state = .failed && !failedRender (past ++ [m]) x.id) fun old _ ne => by
      rw [failedRender_append, h.failsRender_of_ne ne, Bool.or_false]
  have : j.state ≠ .failed := (JobState.ne_of_live h.live).2
  rw [h.jobs]
  simpa [failedRender_append, l.failedRender_of_live h.known h.live, h.same, this] using count

theorem isCounted_change (id : String) :
    (m.after.find? id).any (isCounted (past ++ [m])) =
      if id = j.id then decide (j'.state = .completed) || m.failsRender j.id
      else (m.before.find? id).any (isCounted past) := by
  rw [h.find?_after]
  split
  · simp [isCounted, failedRender_append, h.same, l.failedRender_of_live h.known h.live]
  · next ne =>
    cases hf : m.before.find? id with
    | none => rfl
    | some old =>
      have : old.id ≠ j.id := (id_of_find? hf).symm ▸ ne
      simp [isCounted, failedRender_append, h.failsRender_of_ne this]

theorem failed_change (id : String) (hf : failedRender (past ++ [m]) id = true) :
    ∃ x, m.after.find? id = some x ∧ x.state = .failed := by
  rw [failedRender_append, Bool.or_eq_true] at hf
  rw [h.find?_after]
  split
  · next e =>
    subst e
    rcases hf with hf | hf
    · rw [l.failedRender_of_live h.known h.live] at hf
      cases hf
    · exact ⟨j', rfl, (h.failsRender_iff.1 hf).2.2.1⟩
  · next ne =>
    rw [h.failsRender_of_ne ne] at hf
    exact l.failed id (hf.resolve_right (by decide))

theorem begun_change (own : j'.state = .rendering →
      ∃ since, j'.renderingSince = some since ∧ began (past ++ [m]) j.id = some since)
    (id : String) (x : Job) (hx : m.after.find? id = some x) (state : x.state = .rendering) :
    ∃ since, x.renderingSince = some since ∧ began (past ++ [m]) id = some since := by
  rw [h.find?_after] at hx
  split at hx
  · next e => cases hx; exact e ▸ own state
  · next ne =>
    have : m.moves id .compiling .rendering = false :=
      Bool.eq_false_iff.2 fun e => ne ((h.moves_iff (by decide)).1 e).1
    rw [began_append, this]
    exact l.begun id x hx state

/-- A job that renders has begun when its record says. -/
theorem Ledger.begun_rendering (state : j.state = .rendering)
    (unmoved : j'.renderingSince = j.renderingSince) :
    ∃ since, j'.renderingSince = some since ∧ began (past ++ [m]) j.id = some since := by
  have still : m.moves j.id .compiling .rendering = false := Bool.eq_false_iff.2 fun e => by
    simp [((h.moves_iff (by decide)).1 e).2.1] at state
  rw [began_append, still, unmoved]
  exact l.begun _ _ h.known state

/-- A job whose record changes and that does not end. -/
theorem Ledger.keep (live' : j'.state.isTerminal = false)
    (own : j'.state = .rendering →
      ∃ since, j'.renderingSince = some since ∧ began (past ++ [m]) j.id = some since)
    (stats : m.after.stats = m.before.stats) : Ledger m.after (past ++ [m]) := by
  obtain ⟨completed, failed⟩ := JobState.ne_of_live live'
  have fails : m.failsRender j.id = false :=
    Bool.eq_false_iff.2 fun e => failed (h.failsRender_iff.1 e).2.2.1
  have renders_eq : renders (past ++ [m]) = renders past := renders_quiet fun id =>
    Bool.eq_false_iff.2 fun e => by simpa [completed, fails] using (h.endsRender_iff.1 e).2
  exact {
    count := by rw [stats, completed_change l h, failedRender_change l h, l.count]; simp [completed, fails]
    errors := by rw [stats, failedRender_change l h, l.errors]; simp [fails]
    rejected := by rw [stats, rejected_change l h, l.rejected]; simp [failed]
    rate := by rw [stats]; exact l.rate
    once := by
      intro id
      rw [renders_eq, isCounted_change l h, l.once]
      by_cases e : id = j.id
      · simp [e, h.known, l.isCounted_of_live h.known h.live, completed, fails]
      · simp [e]
    length := by rw [renders_eq, stats, l.length]
    last := by
      rw [renders_eq, stats]
      refine l.last_eq fun id x hx counted => ?_
      rw [h.find?_after, if_neg, hx]
      rintro rfl
      cases h.known.symm.trans hx
      simp [l.isCounted_of_live h.known h.live] at counted
    mean := by rw [renders_eq, stats]; exact l.mean
    distinct := distinct_apply l.distinct _ _
    failed := failed_change l h
    begun := begun_change l h own }

/-- The render of a job that ends in a moment. -/
theorem renders_change (ends : m.endsRender j.id = true) {since : Float}
    (begun : began past j.id = some since) :
    renders (past ++ [m]) = renders past ++ [⟨j.id, since, m.now⟩] := by
  obtain ⟨before, after, hjobs, -, ne⟩ := put_split l.distinct h.known h.same
  have none : ∀ part, part ⊆ before ++ after → part.filter (m.endsRender ·.id) = [] := by
    intro part hpart
    refine List.filter_eq_nil_iff.2 fun old hold e => ?_
    exact ne old (hpart hold) (h.endsRender_iff.1 e).1
  have split : m.before.jobs.filter (m.endsRender ·.id) = [j] := by
    rw [hjobs, List.filter_append, List.filter_cons, if_pos ends, none before (by simp),
      none after (by simp), List.nil_append]
  rw [renders_append, rendersOf, split]
  simp [begun]

/-- A job whose render ends, well or not. -/
theorem Ledger.render (success : Bool) (rendering : j.state = .rendering)
    (state : j'.state = if success then .completed else .failed)
    (fails : m.failsRender j.id = !success) (updated : j'.updatedAt = Instant.ofSeconds m.now)
    (stats : m.after.stats = m.before.stats.render success (elapsedMs j m.now)
      (Instant.ofSeconds m.now)) : Ledger m.after (past ++ [m]) := by
  obtain ⟨since, hsince, hbegan⟩ := l.begun _ _ h.known rendering
  have ends : m.endsRender j.id = true := by
    refine h.endsRender_iff.2 ⟨rfl, ?_⟩
    cases success
    · exact .inr (by simp [fails])
    · exact .inl ⟨rendering, by simp [state]⟩
  have renders_eq := renders_change l h ends hbegan
  exact {
    count := by
      rw [completed_change l h, failedRender_change l h, stats, Stats.render, l.count]
      cases success <;> simp [state, fails] <;> omega
    errors := by
      rw [failedRender_change l h, stats, Stats.render, l.errors]
      cases success <;> simp [fails]
    rejected := by
      rw [rejected_change l h, stats, Stats.render, l.rejected]
      cases success <;> simp [state, fails]
    rate := by rw [stats, Stats.render]; simp
    once := by
      intro id
      rw [renders_eq, List.map_append, List.count_append, isCounted_change l h, l.once]
      by_cases e : id = j.id
      · subst e
        cases success <;>
          simp [h.known, l.isCounted_of_live h.known h.live, state, fails]
      · simp [e, Ne.symm e]
    length := by rw [renders_eq, stats, Stats.render]; simp [l.length]
    last := by
      rw [renders_eq, stats, Stats.render]
      simp [h.find?_after, updated]
    mean := by
      rw [renders_eq, stats, Stats.render, List.map_append, List.map_singleton,
        Stats.runningMean_append, List.length_map, l.length, ← l.mean]
      simp [elapsedMs, hsince, Render.milliseconds]
    distinct := distinct_apply l.distinct _ _
    failed := failed_change l h
    begun := begun_change l h fun e => by rw [state] at e; cases success <;> simp at e }

/-- A job that fails before it renders, or for a reason that does not count. -/
theorem Ledger.reject (state : j'.state = .failed) (fails : m.failsRender j.id = false)
    (stats : m.after.stats = m.before.stats.reject) : Ledger m.after (past ++ [m]) := by
  have renders_eq : renders (past ++ [m]) = renders past := renders_quiet fun id =>
    Bool.eq_false_iff.2 fun e => by simpa [state, fails] using (h.endsRender_iff.1 e).2
  exact {
    count := by
      rw [completed_change l h, failedRender_change l h, stats, Stats.reject, l.count]
      simp [state, fails]
    errors := by rw [failedRender_change l h, stats, Stats.reject, l.errors]; simp [fails]
    rejected := by
      rw [rejected_change l h, stats, Stats.reject, l.rejected]
      simp [state, fails]
    rate := by rw [stats, Stats.reject]; exact l.rate
    once := by
      intro id
      rw [renders_eq, isCounted_change l h, l.once]
      by_cases e : id = j.id
      · simp [e, h.known, l.isCounted_of_live h.known h.live, state, fails]
      · simp [e]
    length := by rw [renders_eq, stats, Stats.reject, l.length]
    last := by
      rw [renders_eq, stats, Stats.reject]
      refine l.last_eq fun id x hx counted => ?_
      rw [h.find?_after, if_neg, hx]
      rintro rfl
      cases h.known.symm.trans hx
      simp [l.isCounted_of_live h.known h.live] at counted
    mean := by rw [renders_eq, stats, Stats.reject]; exact l.mean
    distinct := distinct_apply l.distinct _ _
    failed := failed_change l h
    begun := begun_change l h fun e => by rw [state] at e; cases e }

end Changes

/-! ### A moment in which no job changes -/

/-- A call that is refused, or that registers a new job. -/
theorem Ledger.enroll {past : List Moment} {m : Moment} {added : List Job}
    (l : Ledger m.before past) (jobs : m.after.jobs = m.before.jobs ++ added)
    (new : ∀ j ∈ added, j.state = .created ∧ m.before.find? j.id = none)
    (stats : m.after.stats = m.before.stats) : Ledger m.after (past ++ [m]) := by
  have find (id : String) (j : Job) (h : m.before.find? id = some j) :
      m.after.find? id = some j := by
    rw [find?] at h ⊢
    rw [jobs, List.find?_append, h, Option.some_or]
  have fresh (id : String) (j : Job) (hn : m.before.find? id = none)
      (h : m.after.find? id = some j) : j.state = .created := by
    rw [find?] at hn h
    rw [jobs, List.find?_append, hn, Option.none_or] at h
    exact (new j (List.mem_of_find?_eq_some h)).1
  have still (id : String) (a b : JobState) (ne : a ≠ b) : m.moves id a b = false := by
    cases h : m.before.find? id with
    | none => simp [Moment.moves, stateOf, h]
    | some j => exact Moment.moves_of_find?_eq ne ((find id j h).trans h.symm)
  have fails (id : String) : m.failsRender id = false := by
    rw [Moment.failsRender, still id _ _ (by decide), Bool.false_and]
  have failedRender_eq : failedRender (past ++ [m]) = failedRender past :=
    funext fun id => by rw [failedRender_append, fails, Bool.or_false]
  have renders_eq : renders (past ++ [m]) = renders past := renders_quiet fun id => by
    rw [Moment.endsRender, still id _ _ (by decide), fails, Bool.false_or]
  have unfailed (j : Job) (hj : j ∈ added) : failedRender past j.id = false :=
    Bool.eq_false_iff.2 fun e => by
      obtain ⟨old, hold, -⟩ := l.failed _ e
      rw [(new j hj).2] at hold
      cases hold
  have count (p : Job → Bool) (none : ∀ j ∈ added, p j = false) :
      m.after.jobs.countP p = m.before.jobs.countP p := by
    have zero : added.countP p = 0 := List.countP_eq_zero.2 (by simpa using none)
    rw [jobs, List.countP_append, zero, Nat.add_zero]
  exact {
    count := by
      rw [stats, l.count, failedRender_eq, count _ fun j hj => by simp [(new j hj).1],
        count _ unfailed]
    errors := by rw [stats, l.errors, failedRender_eq, count _ unfailed]
    rejected := by
      rw [stats, l.rejected, failedRender_eq, count _ fun j hj => by simp [(new j hj).1]]
    rate := by rw [stats]; exact l.rate
    once := by
      intro id
      rw [renders_eq, l.once]
      unfold isCounted
      rw [failedRender_eq]
      cases h : m.before.find? id with
      | some j => rw [find id j h]
      | none =>
        cases h' : m.after.find? id with
        | none => rfl
        | some j =>
          have hj : failedRender past j.id = false := Bool.eq_false_iff.2 fun e => by
            obtain ⟨old, hold, -⟩ := l.failed _ e
            rw [id_of_find? h', h] at hold
            cases hold
          simp [fresh id j h h', hj]
    length := by rw [renders_eq, stats, l.length]
    last := by
      rw [renders_eq, stats]
      exact l.last_eq fun id j hj _ => find id j hj
    mean := by rw [renders_eq, stats]; exact l.mean
    distinct := distinct_apply l.distinct _ _
    failed := by
      intro id h
      rw [failedRender_eq] at h
      obtain ⟨j, hj, state⟩ := l.failed id h
      exact ⟨j, find id j hj, state⟩
    begun := by
      intro id j hj state
      rw [began_append, still id _ _ (by decide)]
      cases h : m.before.find? id with
      | some old =>
        cases (find id old h).symm.trans hj
        exact l.begun id j h state
      | none =>
        rw [fresh id j h hj] at state
        cases state }

/-! ## All calls -/

/-- The account is kept by every call. -/
theorem Ledger.step {r : Registry} {past : List Moment} (l : Ledger r past) (call : Call)
    (now : Float) : Ledger (call.apply r now) (past ++ [⟨r, call, now⟩]) := by
  generalize hm : (⟨r, call, now⟩ : Moment) = m
  have effect : Effect m.before m.now m.call m.after := effect_apply ..
  have after : call.apply r now = m.after := by rw [← hm]; rfl
  have before : r = m.before := by rw [← hm]
  rw [after]
  rw [before] at l
  clear hm after before
  generalize hc : m.call = c at effect
  generalize hr : m.after = r' at effect
  cases effect with
  | refused jobs stats =>
    have none : m.after.jobs = m.before.jobs ++ [] := by rw [hr, jobs, List.append_nil]
    exact hr ▸ l.enroll none (by simp) (hr ▸ stats)
  | enrolled j new state jobs stats =>
    exact hr ▸ l.enroll (hr ▸ jobs) (by simpa using ⟨state, new⟩) (hr ▸ stats)
  | @moved target _ j known next live result =>
    have before : j.state.isTerminal = false := by
      cases hs : j.state <;> simp [hs, JobState.next?, JobState.isTerminal] at next ⊢
    have change : m.Changes j _ := ⟨known, before, congrArg Registry.jobs (hr.trans result), rfl⟩
    refine hr ▸ l.keep change live (fun rendering => ?_) (by rw [hr, result]; rfl)
    have rendering : target = .rendering := rendering
    have compiling : j.state = .compiling := by
      subst rendering
      cases hs : j.state <;> simp [hs, JobState.next?] at next ⊢
    rw [began_append, if_pos ((change.moves_iff (by decide)).2 ⟨rfl, compiling, rendering⟩)]
    exact ⟨m.now, if_pos rendering, rfl⟩
  | reported j known state result =>
    have live : j.state.isTerminal = false := by rw [state]; rfl
    have change : m.Changes j _ := ⟨known, live, congrArg Registry.jobs (hr.trans result), rfl⟩
    exact hr ▸ l.keep change live (fun _ => l.begun_rendering change state rfl)
      (by rw [hr, result]; rfl)
  | warned j known live result =>
    have change : m.Changes j _ := ⟨known, live, congrArg Registry.jobs (hr.trans result), rfl⟩
    exact hr ▸ l.keep change live (fun state => l.begun_rendering change state rfl)
      (by rw [hr, result]; rfl)
  | completed j known state jobs stats =>
    have live : j.state.isTerminal = false := by rw [state]; rfl
    have change : m.Changes j _ := ⟨known, live, (congrArg Registry.jobs hr).trans jobs, rfl⟩
    have fails : m.failsRender j.id = false :=
      Bool.eq_false_iff.2 fun e => by simpa using (change.failsRender_iff.1 e).2.2.1
    exact hr ▸ l.render change true state rfl fails rfl (hr ▸ stats)
  | @failed failure _ j known live jobs stats =>
    have change : m.Changes j _ := ⟨known, live, (congrArg Registry.jobs hr).trans jobs, rfl⟩
    have fails : m.failsRender j.id = counts j.state failure := by
      rw [Bool.eq_iff_iff, change.failsRender_iff, hc]
      simp [counts]
    cases counted : counts j.state failure with
    | true =>
      have state : j.state = .rendering := by simpa using (Bool.and_eq_true_iff.1 counted).1
      exact hr ▸ l.render change false state rfl (by rw [fails, counted]; rfl) rfl
        (by rw [hr, stats, if_pos counted])
    | false =>
      exact hr ▸ l.reject change rfl (by rw [fails, counted])
        (by rw [hr, stats, if_neg (by simp [counted])])

theorem Ledger.fresh (s : Settings) (limit : Option Int) : Ledger (fresh s limit) [] where
  count := rfl
  errors := rfl
  rejected := rfl
  rate := rfl
  once _ := rfl
  length := rfl
  last := rfl
  mean := rfl
  distinct := List.nodup_nil
  failed _ h := by simp [failedRender] at h
  begun _ _ h := by simp [Registry.fresh, find?] at h

theorem Ledger.run (s : Settings) (limit : Option Int) (calls : List (Call × Float)) :
    Ledger ((Registry.fresh s limit).after calls) ((Registry.fresh s limit).history calls) := by
  induction calls using List.reverseRecOn with
  | nil => exact Ledger.fresh s limit
  | append_singleton calls c ih =>
    rw [after_append, history_append]
    exact ih.step c.1 c.2

theorem Ledger.account {r : Registry} {past : List Moment} (l : Ledger r past) :
    Account r past where
  toTally := l.toTally
  total := by
    have split : ∀ js : List Job, (∀ j ∈ js, r.find? j.id = some j) →
        js.countP (·.state = .completed) + js.countP (failedRender past ·.id) +
          (js.countP fun j => j.state = .failed && !failedRender past j.id) =
        js.countP (·.state.isTerminal) := by
      intro js
      induction js with
      | nil => intro; rfl
      | cons j js ih =>
        intro known
        have rest := ih fun x hx => known x (List.mem_cons_of_mem _ hx)
        have one : failedRender past j.id = true → j.state = .failed := by
          intro h
          obtain ⟨j', hj', state⟩ := l.failed _ h
          cases (known j (List.mem_cons_self ..)).symm.trans hj'
          exact state
        simp only [List.countP_cons]
        cases hf : failedRender past j.id <;> cases hs : j.state <;>
          simp_all [JobState.isTerminal] <;> omega
    rw [l.count, l.rejected]
    exact split r.jobs fun j hj => known_of_mem l.distinct hj
  exactMean time := by rw [Stats.runningMean_eq, List.length_map, l.length]

/-- After every call on a fresh registry, refused or not, the counts are what the history of the
jobs says. -/
theorem account_after (s : Settings) (limit : Option Int) (calls : List (Call × Float)) :
    Account ((fresh s limit).after calls) ((fresh s limit).history calls) :=
  (Ledger.run s limit calls).account

end Registry
end Montage
