import Mathlib.Data.List.Destutter
import Montage.Proofs.Float.Whole
import Montage.Proofs.Registry.Statistics

/-!
# The records of one job

Callers see a job as a row of records, one for each state that a run of calls went through
(`snapshots`). `records_kept` says what every such row is like, for all runs on a fresh registry:
the states form a beginning of `JobState.lifecycle`, cut short at most by a failure; progress stays
between 0 and 100, never goes back and is zero until the job renders; a result belongs to the
completed and an error to the failed jobs; and the record of a job that has ended does not change.

`Follows` names what one call can make of a record, read off `effect_apply`; `Kept.step` adds one
record to a row and `kept_after` carries the row over all calls. `find?_given` closes the gap to
the callers: what a call gives back is the record that is found afterwards.
-/
namespace Montage

/-- The states of a job that goes well, from the first to the last. -/
def JobState.lifecycle : List JobState :=
  [created, validating, substituting, resolving, compiling, rendering, completed]

namespace Registry

/-- The records that a job had before each call of a run and after the last one. -/
def snapshots (r : Registry) (calls : List (Call × Float)) (id : String) : List Job :=
  ((r.history calls).map (·.before) ++ [r.after calls]).filterMap (·.find? id)

/-- The states of some records without repetitions. -/
def course (row : List Job) : List JobState := (row.map (·.state)).destutter (· ≠ ·)

/-- What holds of a record at all times. -/
structure Fits (j : Job) : Prop where
  lower : 0 ≤ j.progress
  upper : j.progress ≤ 100
  result : j.result.isSome ↔ j.state = .completed
  full : j.state = .completed → j.progress = 100
  error : j.error.isSome ↔ j.state = .failed

/-- What holds of the records of one job, from the first to the last. -/
structure Kept (row : List Job) : Prop where
  path : course row <+: JobState.lifecycle ∨ ∃ past, past ≠ [] ∧
    past <+: JobState.lifecycle.dropLast ∧ course row = past ++ [.failed]
  fits : ∀ j ∈ row, Fits j
  progress : row.Pairwise (·.progress ≤ ·.progress)
  unstarted : ∀ past, past <+: row → (∀ j ∈ past, j.state ≠ .rendering) →
    ∀ j ∈ past, j.progress = 0
  final : row.Pairwise fun j later => j.state.isTerminal → later = j

/-! ## What one call makes of a record -/

/-- A record before a call, and after it. -/
inductive Follows : Job → Job → Prop where
  | same (j) : Follows j j
  | moved {j : Job} {target time since} (next : j.state.next? = some target)
      (live : target.isTerminal = false) :
      Follows j { j with state := target, updatedAt := time, renderingSince := since }
  | reported {j : Job} {p : Float} {time} (state : j.state = .rendering) (lower : 0 ≤ p)
      (upper : p ≤ 100) :
      Follows j { j with progress := if j.progress < p then p else j.progress, updatedAt := time }
  | warned {j : Job} {warnings} (live : j.state.isTerminal = false) :
      Follows j { j with warnings := warnings }
  | completed {j : Job} {result time} (state : j.state = .rendering) :
      Follows j { j with
        state := .completed, progress := 100, result := some result, updatedAt := time }
  | failed {j : Job} {error time} (live : j.state.isTerminal = false) :
      Follows j { j with state := .failed, error := some error, updatedAt := time }

/-- The record of a job that has just been registered. -/
structure IsNew (j : Job) : Prop where
  state : j.state = .created
  progress : j.progress = 0
  result : j.result = none
  error : j.error = none

/-- Whatever number is reported, what is noted lies between 0 and 100. -/
theorem clampPercent_within (p : Number) : 0 ≤ clampPercent p ∧ clampPercent p ≤ 100 := by
  unfold clampPercent
  split
  · next above =>
    split
    · next below =>
      cases p with
      | float x =>
        exact ⟨Double.le_of_lt ((Double.int_lt_float Double.stands_zero).1 above),
          Double.le_of_lt ((Double.float_lt_int Double.stands_hundred).1 below)⟩
      | int n =>
        have above := (Double.int_lt_int 0 n).1 above
        have below := (Double.int_lt_int n 100).1 below
        obtain ⟨m, rfl⟩ := Int.eq_ofNat_of_zero_le above.le
        exact Double.reaches_hundred.2 m (by omega)
    · exact ⟨by decide, by decide⟩
  · exact ⟨by decide, by decide⟩

variable {r : Registry} {id : String} {j : Job}

theorem isNew_of_create {given : Option String} {now : Float}
    (jobs : (r.create given now).1.jobs = r.jobs ++ [j]) : IsNew j := by
  rcases create_cases r given now with ⟨-, h⟩ | ⟨-, h⟩
  · rw [h, (jobs_nameFor r given).1] at jobs
    simp at jobs
  · rw [h] at jobs
    obtain rfl : newJob (r.nameFor given).1 now = j := by simpa using jobs
    exact ⟨rfl, rfl, rfl, rfl⟩

/-- A job that is there stays, with a record that follows from the one it had. -/
theorem follows_apply (known : r.find? id = some j) (c : Call) (now : Float) :
    ∃ j', (c.apply r now).find? id = some j' ∧ Follows j j' := by
  have put {old new : Job} {r' : Registry} (hold : r.find? old.id = some old)
      (jobs : r'.jobs = (r.put new).jobs) (same : new.id = old.id) (follows : Follows old new) :
      ∃ j', r'.find? id = some j' ∧ Follows j j' := by
    rw [find?_put_eq jobs hold same]
    split
    · next e =>
      subst e
      cases known.symm.trans hold
      exact ⟨new, rfl, follows⟩
    · exact ⟨j, known, .same j⟩
  generalize hr : c.apply r now = r'
  have effect := hr ▸ effect_apply c r now
  cases effect with
  | refused jobs => exact ⟨j, by rw [find?_congr jobs, known], .same j⟩
  | enrolled new unknown _ jobs =>
    have ne : id ≠ new.id := fun e => Option.some_ne_none _ ((e ▸ known).symm.trans unknown)
    exact ⟨j, by rw [find?_enrolled jobs unknown, if_neg ne, known], .same j⟩
  | moved old hold next live result =>
    exact put hold (congrArg (·.jobs) result) (by rfl) (.moved next live)
  | @reported percent _ old hold state result =>
    obtain ⟨lower, upper⟩ := clampPercent_within percent
    exact put hold (congrArg (·.jobs) result) (by rfl) (.reported state lower upper)
  | warned old hold live result => exact put hold (congrArg (·.jobs) result) (by rfl) (.warned live)
  | completed old hold state jobs => exact put hold jobs (by rfl) (.completed state)
  | failed old hold live jobs => exact put hold jobs (by rfl) (.failed live)

/-- A job that comes to be there is new. -/
theorem isNew_apply (unknown : r.find? id = none) {c : Call} {now : Float}
    (known : (c.apply r now).find? id = some j) : IsNew j := by
  have put {old new : Job} {r' : Registry} (hold : r.find? old.id = some old)
      (jobs : r'.jobs = (r.put new).jobs) (same : new.id = old.id) (known : r'.find? id = some j) :
      IsNew j := by
    rw [find?_put_eq jobs hold same] at known
    split at known
    · next e =>
      rw [e, hold] at unknown
      cases unknown
    · rw [unknown] at known
      cases known
  generalize hr : c.apply r now = r' at known
  have effect := hr ▸ effect_apply c r now
  cases effect with
  | refused jobs =>
    rw [find?_congr jobs, unknown] at known
    cases known
  | @enrolled given _ new absent _ jobs =>
    rw [find?_enrolled jobs absent] at known
    split at known
    · cases known
      exact isNew_of_create (hr ▸ jobs)
    · rw [unknown] at known
      cases known
  | moved old hold _ _ result => exact put hold (congrArg (·.jobs) result) (by rfl) known
  | reported old hold _ result => exact put hold (congrArg (·.jobs) result) (by rfl) known
  | warned old hold _ result => exact put hold (congrArg (·.jobs) result) (by rfl) known
  | completed old hold _ jobs => exact put hold jobs (by rfl) known
  | failed old hold _ jobs => exact put hold jobs (by rfl) known

/-! ## Two records in a row -/

theorem IsNew.fits (h : IsNew j) : Fits j := by
  obtain ⟨state, progress, result, error⟩ := h
  constructor <;> simp [state, progress, result, error] <;> decide

/-- A state that something comes after is not the last one. -/
theorem ne_of_next {s t : JobState} (next : s.next? = some t) : s ≠ .completed ∧ s ≠ .failed := by
  constructor <;> rintro rfl <;> cases next

/-- A job that has not ended has neither a result nor an error. -/
theorem Fits.blank (fits : Fits j) (live : j.state ≠ .completed ∧ j.state ≠ .failed) :
    j.result = none ∧ j.error = none := by
  constructor
  · cases h : j.result with
    | none => rfl
    | some => exact absurd (fits.result.1 (by rw [h]; rfl)) live.1
  · cases h : j.error with
    | none => rfl
    | some => exact absurd (fits.error.1 (by rw [h]; rfl)) live.2

theorem Follows.le {j' : Job} (h : Follows j j') (fits : Fits j) : j.progress ≤ j'.progress := by
  have self : j.progress ≤ j.progress := Double.le_self ((Double.le_iff _ _).1 fits.lower).2.1
  cases h with
  | reported =>
    dsimp only
    split
    · next lt => exact Double.le_of_lt lt
    · exact self
  | completed => exact fits.upper
  | _ => exact self

theorem Follows.eq_of_terminal {j' : Job} (h : Follows j j') (ended : j.state.isTerminal) :
    j' = j := by
  cases h with
  | same => rfl
  | moved next =>
    obtain ⟨completed, failed⟩ := ne_of_next next
    cases hs : j.state <;> simp_all [JobState.isTerminal]
  | reported state => rw [state] at ended; cases ended
  | completed state => rw [state] at ended; cases ended
  | warned live => rw [live] at ended; cases ended
  | failed live => rw [live] at ended; cases ended

theorem Fits.follows {j' : Job} (fits : Fits j) (h : Follows j j') : Fits j' := by
  cases h with
  | same => exact fits
  | warned => exact ⟨fits.lower, fits.upper, fits.result, fits.full, fits.error⟩
  | moved next live =>
    obtain ⟨result, error⟩ := fits.blank (ne_of_next next)
    obtain ⟨completed, failed⟩ := JobState.ne_of_live live
    exact ⟨fits.lower, fits.upper, by simp [result, completed], (absurd · completed),
      by simp [error, failed]⟩
  | reported state lower upper =>
    refine ⟨?_, ?_, fits.result, fun ended => ?_, fits.error⟩
    · dsimp only
      split
      · exact lower
      · exact fits.lower
    · dsimp only
      split
      · exact upper
      · exact fits.upper
    · cases state.symm.trans ended
  | completed state =>
    obtain ⟨result, error⟩ := fits.blank (by simp [state])
    have lower : (0 : Float) ≤ 100 := by decide
    have upper : (100 : Float) ≤ 100 := by decide
    exact ⟨lower, upper, by simp, fun _ => rfl, by simp [error]⟩
  | failed live =>
    obtain ⟨result, error⟩ := fits.blank (JobState.ne_of_live live)
    exact ⟨fits.lower, fits.upper, by simp [result], by simp, by simp⟩

/-! ## A row of records -/

/-- A state that comes last is added to the states unless it is there already. -/
theorem destutter_concat (past : List JobState) (s : JobState) :
    (past ++ [s]).destutter (· ≠ ·) = if past.getLast? = some s then past.destutter (· ≠ ·)
      else past.destutter (· ≠ ·) ++ [s] := by
  have after (a : JobState) (past : List JobState) : (past ++ [s]).destutter' (· ≠ ·) a =
      if (a :: past).getLast? = some s then past.destutter' (· ≠ ·) a
      else past.destutter' (· ≠ ·) a ++ [s] := by
    induction past generalizing a with
    | nil => by_cases h : a = s <;> simp [h]
    | cons b past ih =>
      rw [List.cons_append, List.destutter'_cons, List.destutter'_cons]
      by_cases h : a = b
      · subst h
        simpa using ih a
      · rw [if_pos h, if_pos h, ih b, List.getLast?_cons_cons]
        split <;> rfl
  cases past with
  | nil => rfl
  | cons a past => exact after a past

theorem course_concat (row : List Job) (later : Job) : course (row ++ [later]) =
    if (row.getLast?.map (·.state)) = some later.state then course row
    else course row ++ [later.state] := by
  rw [course, List.map_append, List.map_singleton, destutter_concat, List.getLast?_map]
  rfl

theorem getLast?_course (row : List Job) : (course row).getLast? = row.getLast?.map (·.state) := by
  induction row using List.reverseRecOn with
  | nil => rfl
  | append_singleton row later ih =>
    rw [course_concat, List.getLast?_concat, Option.map_some]
    split
    · next same => rw [ih, same]
    · exact List.getLast?_concat

/-- The lifecycle goes from each state to the next one. -/
theorem lifecycle_next {past : List JobState} {s t : JobState} (h : past <+: JobState.lifecycle)
    (last : past.getLast? = some s) (next : s.next? = some t) :
    past ++ [t] <+: JobState.lifecycle := by
  have step : ∀ past ∈ JobState.lifecycle.inits, ∀ s ∈ past.getLast?, ∀ t ∈ s.next?,
      past ++ [t] <+: JobState.lifecycle := by decide
  exact step past ((List.mem_inits ..).2 h) s last t next

/-- Before its last state the lifecycle has no end. -/
theorem lifecycle_live {past : List JobState} {s : JobState} (h : past <+: JobState.lifecycle)
    (last : past.getLast? = some s) (live : s.isTerminal = false) :
    past ≠ [] ∧ past <+: JobState.lifecycle.dropLast := by
  have step : ∀ past ∈ JobState.lifecycle.inits, ∀ s ∈ past.getLast?, s.isTerminal = false →
      past ≠ [] ∧ past <+: JobState.lifecycle.dropLast := by decide
  exact step past ((List.mem_inits ..).2 h) s last live

namespace Kept

theorem none : Kept [] where
  path := .inl (by decide)
  fits := by simp
  progress := .nil
  unstarted := by
    intro past before
    rw [List.prefix_nil.1 before]
    simp
  final := .nil

theorem single (new : IsNew j) : Kept [j] where
  path := by
    refine .inl ?_
    show [j.state] <+: _
    rw [new.state]
    decide
  fits := by simpa using new.fits
  progress := List.pairwise_singleton ..
  unstarted := by
    intro past before _ x hx
    rw [List.mem_singleton.1 (before.subset hx)]
    exact new.progress
  final := List.pairwise_singleton ..

variable {row : List Job} {later : Job}

theorem path_live (kept : Kept (row ++ [j])) (live : j.state ≠ .failed) :
    course (row ++ [j]) <+: JobState.lifecycle := by
  refine kept.path.resolve_right ?_
  rintro ⟨past, -, -, h⟩
  have last := getLast?_course (row ++ [j])
  rw [h, List.getLast?_concat, List.getLast?_concat] at last
  exact live (Option.some.inj last).symm

theorem step (kept : Kept (row ++ [j])) (h : Follows j later) : Kept (row ++ [j] ++ [later]) where
  path := by
    have last := getLast?_course (row ++ [j])
    rw [List.getLast?_concat, Option.map_some] at last
    rw [course_concat, List.getLast?_concat, Option.map_some]
    split
    · exact kept.path
    · next moves =>
      cases h with
      | same => exact absurd rfl moves
      | reported => exact absurd rfl moves
      | warned => exact absurd rfl moves
      | moved next =>
        exact .inl (lifecycle_next (kept.path_live (ne_of_next next).2) last next)
      | completed state =>
        have next : j.state.next? = some .completed := by rw [state]; rfl
        exact .inl (lifecycle_next (kept.path_live (ne_of_next next).2) last next)
      | failed live =>
        obtain ⟨ne, past⟩ :=
          lifecycle_live (kept.path_live (JobState.ne_of_live live).2) last live
        exact .inr ⟨_, ne, past, rfl⟩
  fits := by
    have fits := kept.fits j (by simp)
    intro x hx
    rcases List.mem_append.1 hx with hx | hx
    · exact kept.fits x hx
    · rw [List.mem_singleton.1 hx]
      exact fits.follows h
  progress := by
    have le := h.le (kept.fits j (by simp))
    obtain ⟨-, -, before⟩ := List.pairwise_append.1 kept.progress
    refine List.pairwise_append.2 ⟨kept.progress, List.pairwise_singleton .., ?_⟩
    intro x hx y hy
    rw [List.mem_singleton.1 hy]
    rcases List.mem_append.1 hx with hx | hx
    · exact Double.le_trans (before x hx j (by simp)) le
    · rw [List.mem_singleton.1 hx]
      exact le
  unstarted := by
    intro past before none x hx
    rcases List.prefix_concat_iff.1 before with rfl | before
    swap
    · exact kept.unstarted past before none x hx
    have zero := kept.unstarted _ (List.prefix_refl _)
      fun y hy => none y (List.mem_append_left _ hy)
    rcases List.mem_append.1 hx with hx | hx
    · exact zero x hx
    · have waits := none j (by simp)
      have start := zero j (by simp)
      rw [List.mem_singleton.1 hx]
      cases h with
      | reported state => exact absurd state waits
      | completed state => exact absurd state waits
      | _ => exact start
  final := by
    obtain ⟨-, -, before⟩ := List.pairwise_append.1 kept.final
    refine List.pairwise_append.2 ⟨kept.final, List.pairwise_singleton .., ?_⟩
    intro x hx y hy ended
    rw [List.mem_singleton.1 hy]
    rcases List.mem_append.1 hx with hx | hx
    · have same := before x hx j (by simp) ended
      rw [← same] at ended ⊢
      exact h.eq_of_terminal ended
    · rw [List.mem_singleton.1 hx] at ended ⊢
      exact h.eq_of_terminal ended

end Kept

/-! ## All runs -/

theorem snapshots_append (r : Registry) (calls : List (Call × Float)) (call : Call) (now : Float)
    (id : String) : r.snapshots (calls ++ [(call, now)]) id =
      r.snapshots calls id ++ ((call.apply (r.after calls) now).find? id).toList := by
  simp only [snapshots, history_append, after_append, List.map_append, List.map_singleton,
    List.filterMap_append, List.append_assoc]
  congr 2

/-- The last record of a job is the one that is found. -/
theorem getLast?_snapshots (s : Settings) (limit : Option Int) (calls : List (Call × Float))
    (id : String) : ((fresh s limit).snapshots calls id).getLast? =
      ((fresh s limit).after calls).find? id := by
  induction calls using List.reverseRecOn with
  | nil => rfl
  | append_singleton calls c ih =>
    obtain ⟨call, now⟩ := c
    rw [snapshots_append, after_append]
    cases h : (call.apply ((fresh s limit).after calls) now).find? id with
    | some later => exact List.getLast?_concat
    | none =>
      rw [Option.toList_none, List.append_nil, ih]
      cases known : ((fresh s limit).after calls).find? id with
      | none => rfl
      | some j =>
        obtain ⟨later, found, -⟩ := follows_apply known call now
        cases found.symm.trans h

/-- On a fresh registry the records of every job are kept as they should be, whatever calls are
made of it and of the others, in whatever order. -/
theorem records_kept (s : Settings) (limit : Option Int) (calls : List (Call × Float))
    (id : String) : Kept ((fresh s limit).snapshots calls id) := by
  induction calls using List.reverseRecOn with
  | nil => exact Kept.none
  | append_singleton calls c ih =>
    obtain ⟨call, now⟩ := c
    have last := getLast?_snapshots s limit calls id
    rw [snapshots_append]
    generalize (fresh s limit).snapshots calls id = row at ih last
    cases known : ((fresh s limit).after calls).find? id with
    | none =>
      rw [known, List.getLast?_eq_none_iff] at last
      subst last
      cases h : (call.apply ((fresh s limit).after calls) now).find? id with
      | none => exact ih
      | some j => exact Kept.single (isNew_apply known h)
    | some j =>
      rw [known, List.getLast?_eq_some_iff] at last
      obtain ⟨before, rfl⟩ := last
      obtain ⟨later, found, follows⟩ := follows_apply known call now
      rw [found]
      exact ih.step follows

/-! ## What callers get -/

/-- The record that a call gives back, if it gives one. -/
def Call.given (c : Call) (r : Registry) (now : Float) : Option Job :=
  match c with
  | create id => (r.create id now).2.toOption
  | transition id target => (r.transition id target now).2.toOption
  | updateProgress id percent => (r.updateProgress id percent now).2.toOption
  | addWarning _ _ => none
  | complete id result => (r.complete id result now).2.toOption
  | fail id failure => (r.fail id failure now).2.toOption

/-- A call on a job gives back the record that it leaves. -/
theorem find?_withJob {k : Job → Called Job} {given : Job}
    (h : (r.withJob id k).2.toOption = some given)
    (leaves : ∀ j, (k j).2.toOption = some given →
      given.id = j.id ∧ (k j).1.jobs = (r.put given).jobs) :
    (r.withJob id k).1.find? given.id = some given := by
  unfold withJob get at h ⊢
  cases known : r.find? id with
  | none => rw [known] at h; cases h
  | some j =>
    rw [known] at h
    obtain ⟨same, jobs⟩ := leaves j h
    obtain rfl := id_of_find? known
    rw [find?_put_eq jobs known same, if_pos same]

/-- Callers get no other records than those that are found afterwards. -/
theorem find?_given {c : Call} {now : Float} (h : c.given r now = some j) :
    (c.apply r now).find? j.id = some j := by
  cases c with
  | create given =>
    cases hc : r.create given now with
    | mk r' outcome =>
      simp only [Call.given, Call.apply, hc] at h ⊢
      cases outcome with
      | error => cases h
      | ok new =>
        cases h
        obtain ⟨absent, -, jobs⟩ := create_ok hc
        rw [find?_enrolled jobs absent, if_pos rfl]
  | addWarning => cases h
  | transition | updateProgress | complete | fail =>
    refine find?_withJob h fun old given => ?_
    dsimp only at given ⊢
    split at given
    · cases given
    · next goesOn =>
      cases given
      exact ⟨rfl, by rw [if_neg goesOn]⟩

end Registry
end Montage
