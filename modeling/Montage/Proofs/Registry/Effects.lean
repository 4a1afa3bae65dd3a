import Mathlib.Data.List.Nodup
import Montage.Registry

/-!
# What a call does to the registry

`Call` is any call that can change jobs or counts, `Call.apply` the registry that it leaves.
`effect_apply` says once what that can be: nothing for jobs and counts, one new job, or another
record of one job that had not ended, with the counts moved only where that job ends. Everything
about runs of calls is derived from it; no later proof opens a registry function again.

`countP_put` counts the jobs of a kind after one record has changed, and `known_of_mem` and
`mem_of_find?` go between the list of jobs and the lookup by id, which agree as long as no two
jobs have one id (`Distinct`, kept by `distinct_apply`).
-/
namespace Montage.Registry

/-- A call that can change jobs or counts. -/
inductive Call where
  | create (id : Option String)
  | transition (id : String) (target : JobState)
  | updateProgress (id : String) (percent : Number)
  | addWarning (id message : String)
  | complete (id : String) (result : RenderResult)
  | fail (id : String) (failure : Failure)

/-- The registry after a call at a reading of the clock. -/
def Call.apply (c : Call) (r : Registry) (now : Float) : Registry :=
  match c with
  | create id => (r.create id now).1
  | transition id target => (r.transition id target now).1
  | updateProgress id percent => (r.updateProgress id percent now).1
  | addWarning id message => (r.addWarning id message).1
  | complete id result => (r.complete id result now).1
  | fail id failure => (r.fail id failure now).1

/-- The job that a call is about; none for a new one. -/
def Call.job? : Call → Option String
  | create _ => none
  | transition id _ => some id
  | updateProgress id _ => some id
  | addWarning id _ => some id
  | complete id _ => some id
  | fail id _ => some id

/-- Whether a failure in a state counts as a render. -/
def counts (state : JobState) (failure : Failure) : Bool :=
  state = .rendering && failure.countsAsRender

/-- What a call at a registry left: the cases differ in the one job that they are about. -/
inductive Effect (r : Registry) (now : Float) : Call → Registry → Prop
  | refused {c r'} (jobs : r'.jobs = r.jobs) (stats : r'.stats = r.stats) : Effect r now c r'
  | enrolled {id r'} (j : Job) (new : r.find? j.id = none) (state : j.state = .created)
      (jobs : r'.jobs = r.jobs ++ [j]) (stats : r'.stats = r.stats) :
      Effect r now (.create id) r'
  | moved {target r'} (j : Job) (known : r.find? j.id = some j)
      (next : j.state.next? = some target) (live : target.isTerminal = false)
      (result : r' = r.put { j with
        state := target
        updatedAt := Instant.ofSeconds now
        renderingSince := if target = .rendering then some now else j.renderingSince }) :
      Effect r now (.transition j.id target) r'
  | reported {percent r'} (j : Job) (known : r.find? j.id = some j)
      (state : j.state = .rendering)
      (result : r' = r.put { j with
        progress := if j.progress < clampPercent percent then clampPercent percent else j.progress
        updatedAt := Instant.ofSeconds now }) :
      Effect r now (.updateProgress j.id percent) r'
  | warned {message r'} (j : Job) (known : r.find? j.id = some j)
      (live : j.state.isTerminal = false)
      (result : r' = r.put { j with warnings := j.warnings ++ [message] }) :
      Effect r now (.addWarning j.id message) r'
  | completed {result r'} (j : Job) (known : r.find? j.id = some j) (state : j.state = .rendering)
      (jobs : r'.jobs = (r.put { j with
        state := .completed
        progress := 100
        result := some result
        updatedAt := Instant.ofSeconds now }).jobs)
      (stats : r'.stats = r.stats.render true (elapsedMs j now) (Instant.ofSeconds now)) :
      Effect r now (.complete j.id result) r'
  | failed {failure r'} (j : Job) (known : r.find? j.id = some j)
      (live : j.state.isTerminal = false)
      (jobs : r'.jobs = (r.put { j with
        state := .failed
        error := some (failure.info (some r.detailLimit))
        updatedAt := Instant.ofSeconds now }).jobs)
      (stats : r'.stats = if counts j.state failure
        then r.stats.render false (elapsedMs j now) (Instant.ofSeconds now)
        else r.stats.reject) :
      Effect r now (.fail j.id failure) r'

theorem id_of_find? {r : Registry} {id : String} {j : Job} (h : r.find? id = some j) :
    j.id = id := by
  simpa using List.find?_some h

theorem jobs_nameFor (r : Registry) (id : Option String) :
    (r.nameFor id).2.jobs = r.jobs ∧ (r.nameFor id).2.stats = r.stats := by
  unfold nameFor
  split <;> exact ⟨rfl, rfl⟩

/-- A call about a job that is not there is refused. -/
theorem withJob_cases {α : Type} (r : Registry) (id : String) (k : Job → Called α) :
    (r.withJob id k).1 = r ∨
      ∃ j, r.find? id = some j ∧ j.id = id ∧ r.withJob id k = k j := by
  unfold withJob get
  cases h : r.find? id with
  | none => exact .inl rfl
  | some j => exact .inr ⟨j, rfl, id_of_find? h, rfl⟩

/-- A job is refused if its id is taken, and comes last otherwise. -/
theorem enroll_cases (r : Registry) (j : Job) :
    r.contains j.id = true ∧ r.enroll j = (r, .error (.fault (.alreadyRegistered j.id))) ∨
      r.find? j.id = none ∧ r.enroll j = ({ r with jobs := r.jobs ++ [j] }, .ok j) := by
  unfold enroll
  split
  · next taken => exact .inl ⟨taken, rfl⟩
  · next free => exact .inr ⟨by simpa [contains] using free, rfl⟩

/-- The record with which a job starts. -/
def newJob (id : String) (now : Float) : Job where
  id := id
  createdAt := Instant.ofSeconds now
  updatedAt := Instant.ofSeconds now

/-- A new job is enrolled under the name that it gets. -/
theorem create_cases (r : Registry) (id : Option String) (now : Float) :
    r.contains (r.nameFor id).1 = true ∧ r.create id now =
        ((r.nameFor id).2, .error (.fault (.alreadyRegistered (r.nameFor id).1))) ∨
      r.find? (r.nameFor id).1 = none ∧ r.create id now =
        ({ (r.nameFor id).2 with jobs := r.jobs ++ [newJob (r.nameFor id).1 now] },
          .ok (newJob (r.nameFor id).1 now)) := by
  obtain ⟨jobs, -⟩ := jobs_nameFor r id
  have found (name : String) : (r.nameFor id).2.find? name = r.find? name := by
    simp only [find?, jobs]
  have same : r.create id now = (r.nameFor id).2.enroll (newJob (r.nameFor id).1 now) := rfl
  rw [same]
  rcases enroll_cases (r.nameFor id).2 (newJob (r.nameFor id).1 now) with ⟨taken, h⟩ | ⟨free, h⟩
  · rw [contains, found] at taken
    exact .inl ⟨taken, h⟩
  · rw [found] at free
    rw [jobs] at h
    exact .inr ⟨free, h⟩

theorem effect_create (r : Registry) (id : Option String) (now : Float) :
    Effect r now (.create id) (r.create id now).1 := by
  obtain ⟨jobs, stats⟩ := jobs_nameFor r id
  rcases create_cases r id now with ⟨-, h⟩ | ⟨free, h⟩ <;> rw [h]
  · exact .refused jobs stats
  · exact .enrolled (newJob (r.nameFor id).1 now) free rfl rfl stats

/-- A new job is there afterwards, and was not before. -/
theorem create_ok {r r' : Registry} {id : Option String} {now : Float} {j : Job}
    (h : r.create id now = (r', .ok j)) :
    r.find? j.id = none ∧ j.state = .created ∧ r'.jobs = r.jobs ++ [j] := by
  rcases create_cases r id now with ⟨-, refused⟩ | ⟨free, done⟩
  · cases refused.symm.trans h
  · cases done.symm.trans h
    exact ⟨free, rfl, rfl⟩

theorem create_error {r r' : Registry} {id : Option String} {now : Float} {failure : Failure}
    (h : r.create id now = (r', .error failure)) : r'.jobs = r.jobs := by
  rcases create_cases r id now with ⟨-, refused⟩ | ⟨-, done⟩
  · cases refused.symm.trans h
    exact (jobs_nameFor r id).1
  · cases done.symm.trans h

/-- Everything that a call can do. -/
theorem effect_apply (c : Call) (r : Registry) (now : Float) : Effect r now c (c.apply r now) := by
  cases c with
  | create id => exact effect_create r id now
  | transition id target =>
    simp only [Call.apply, transition]
    rcases withJob_cases r id _ with h | ⟨j, hj, rfl, h⟩ <;> rw [h]
    · exact .refused rfl rfl
    · split
      · exact .refused rfl rfl
      · next hc =>
        simp only [Bool.or_eq_true, bne_iff_ne, ne_eq, not_or, Bool.not_eq_true,
          not_not] at hc
        exact .moved j hj hc.2 hc.1 rfl
  | updateProgress id percent =>
    simp only [Call.apply, updateProgress]
    rcases withJob_cases r id _ with h | ⟨j, hj, rfl, h⟩ <;> rw [h]
    · exact .refused rfl rfl
    · split
      · exact .refused rfl rfl
      · next hc => exact .reported j hj (not_not.1 hc) rfl
  | addWarning id message =>
    simp only [Call.apply, addWarning]
    rcases withJob_cases r id _ with h | ⟨j, hj, rfl, h⟩ <;> rw [h]
    · exact .refused rfl rfl
    · split
      · exact .refused rfl rfl
      · next hc => exact .warned j hj (by simpa using hc) rfl
  | complete id result =>
    simp only [Call.apply, complete]
    rcases withJob_cases r id _ with h | ⟨j, hj, rfl, h⟩ <;> rw [h]
    · exact .refused rfl rfl
    · split
      · exact .refused rfl rfl
      · next hc => exact .completed j hj (not_not.1 hc) rfl rfl
  | fail id failure =>
    simp only [Call.apply, fail]
    rcases withJob_cases r id _ with h | ⟨j, hj, rfl, h⟩ <;> rw [h]
    · exact .refused rfl rfl
    · split
      · exact .refused rfl rfl
      · next hc => exact .failed j hj (by simpa using hc) rfl rfl

/-- No call changes how much detail an error keeps. -/
theorem detailLimit_apply (c : Call) (r : Registry) (now : Float) :
    (c.apply r now).detailLimit = r.detailLimit := by
  have about {α : Type} {id : String} {k : Job → Called α}
      (h : ∀ j, (k j).1.detailLimit = r.detailLimit) :
      (r.withJob id k).1.detailLimit = r.detailLimit := by
    rcases withJob_cases r id k with none | ⟨j, -, -, some⟩
    · rw [none]
    · rw [some]
      exact h j
  cases c with
  | create id =>
    have same : (r.nameFor id).2.detailLimit = r.detailLimit := by
      unfold nameFor
      split <;> rfl
    show (r.create id now).1.detailLimit = r.detailLimit
    rcases create_cases r id now with ⟨-, h⟩ | ⟨-, h⟩ <;> rw [h] <;> exact same
  | transition => exact about fun j => by split <;> rfl
  | updateProgress => exact about fun j => by split <;> rfl
  | addWarning => exact about fun j => by split <;> rfl
  | complete => exact about fun j => by split <;> rfl
  | fail => exact about fun j => by split <;> rfl

/-! ## Jobs and their ids -/

/-- No two jobs have one id. -/
def Distinct (r : Registry) : Prop := (r.jobs.map (·.id)).Nodup

theorem mem_of_find? {r : Registry} {id : String} {j : Job} (h : r.find? id = some j) :
    j ∈ r.jobs := List.mem_of_find?_eq_some h

theorem known_of_mem {r : Registry} (distinct : r.Distinct) {j : Job} (hj : j ∈ r.jobs) :
    r.find? j.id = some j := by
  obtain ⟨j', hj'⟩ := Option.isSome_iff_exists.1
    (List.find?_isSome.2 ⟨j, hj, by simp⟩ : (r.jobs.find? (·.id == j.id)).isSome)
  have : j' = j := List.inj_on_of_nodup_map distinct (mem_of_find? hj') hj (id_of_find? hj')
  exact this ▸ hj'

theorem find?_congr {r r' : Registry} (h : r'.jobs = r.jobs) (id : String) :
    r'.find? id = r.find? id := by simp only [find?, h]

theorem find?_enrolled {r r' : Registry} {j : Job} (h : r'.jobs = r.jobs ++ [j])
    (new : r.find? j.id = none) (id : String) :
    r'.find? id = if id = j.id then some j else r.find? id := by
  simp only [find?] at new ⊢
  rw [h, List.find?_append]
  split
  · next e => simp [e, new]
  · next e => simp [Ne.symm e]

/-- Another record of a job is found under its id, and all other jobs as before. -/
theorem find?_put_eq {r r' : Registry} {j j' : Job} (h : r'.jobs = (r.put j').jobs)
    (known : r.find? j.id = some j) (same : j'.id = j.id) (id : String) :
    r'.find? id = if id = j.id then some j' else r.find? id := by
  rw [find?_congr h, find?_put]
  split
  · next e => simp [e, known, same]
  · next e =>
    cases hf : r.find? id with
    | none => rfl
    | some old => simp [id_of_find? hf, same, e]

/-- A call leaves all jobs as they are but the one that it is about. -/
theorem find?_apply {r : Registry} {c : Call} {id : String} {job : Job} (known : r.find? id = some job)
    (other : c.job? ≠ some id) (now : Float) : (c.apply r now).find? id = some job := by
  have put {j j' : Job} {r' : Registry} (hj : r.find? j.id = some j)
      (jobs : r'.jobs = (r.put j').jobs) (same : j'.id = j.id) (ne : some j.id ≠ some id) : r'.find? id = some job := by
    rw [find?_put_eq jobs hj same, if_neg fun e => ne (congrArg some e.symm), known]
  generalize hr : c.apply r now = r'
  have h := hr ▸ effect_apply c r now
  cases h with
  | refused jobs => rw [find?_congr jobs, known]
  | enrolled j new _ jobs =>
    have ne : id ≠ j.id := fun e => Option.some_ne_none _ ((e ▸ known).symm.trans new)
    rw [find?_enrolled jobs new, if_neg ne, known]
  | moved j hj _ _ result => exact put hj (congrArg (·.jobs) result) (by rfl) other
  | reported j hj _ result => exact put hj (congrArg (·.jobs) result) (by rfl) other
  | warned j hj _ result => exact put hj (congrArg (·.jobs) result) (by rfl) other
  | completed j hj _ jobs => exact put hj jobs (by rfl) other
  | failed j hj _ jobs => exact put hj jobs (by rfl) other

theorem distinct_enrolled {r r' : Registry} (distinct : r.Distinct) {j : Job}
    (new : r.find? j.id = none) (jobs : r'.jobs = r.jobs ++ [j]) : r'.Distinct := by
  unfold Distinct at *
  rw [jobs, List.map_append, List.map_singleton, List.nodup_append]
  refine ⟨distinct, List.nodup_singleton _, ?_⟩
  intro id hid id' hid' e
  obtain ⟨old, hold, rfl⟩ := List.mem_map.1 hid
  rw [List.mem_singleton.1 hid'] at e
  rw [find?, List.find?_eq_none] at new
  exact new old hold (by simpa using e)

theorem distinct_apply {r : Registry} (distinct : r.Distinct) (c : Call) (now : Float) :
    (c.apply r now).Distinct := by
  unfold Distinct at *
  generalize hr : c.apply r now = r'
  have h := hr ▸ effect_apply c r now
  cases h with
  | refused jobs => rwa [jobs]
  | enrolled j new state jobs => exact distinct_enrolled distinct new jobs
  | moved _ _ _ _ result => rw [result, ids_put]; exact distinct
  | reported _ _ _ result => rw [result, ids_put]; exact distinct
  | warned _ _ _ result => rw [result, ids_put]; exact distinct
  | completed _ _ _ jobs => rw [jobs, ids_put]; exact distinct
  | failed _ _ _ jobs => rw [jobs, ids_put]; exact distinct

/-- The list of jobs around one of them, before and after its record has changed. -/
theorem put_split {r : Registry} (distinct : r.Distinct) {j j' : Job}
    (known : r.find? j.id = some j) (same : j'.id = j.id) :
    ∃ before after, r.jobs = before ++ j :: after ∧ (r.put j').jobs = before ++ j' :: after ∧
      ∀ old ∈ before ++ after, old.id ≠ j.id := by
  obtain ⟨before, after, hsplit⟩ := List.append_of_mem (mem_of_find? known)
  have others : ∀ old ∈ before ++ after, old.id ≠ j.id := by
    have nodup := distinct
    rw [Distinct, hsplit, List.map_append, List.map_cons, List.nodup_middle,
      List.nodup_cons, ← List.map_append] at nodup
    intro old hold e
    exact nodup.1 (List.mem_map.2 ⟨old, hold, e⟩)
  have unchanged : ∀ part, part ⊆ before ++ after →
      part.map (fun old => if old.id == j'.id then j' else old) = part := by
    intro part hpart
    refine (List.map_congr_left fun old hold => ?_).trans (List.map_id _)
    simp [same, others old (hpart hold)]
  refine ⟨before, after, hsplit, ?_, others⟩
  simp only [put, hsplit, List.map_append, List.map_cons, same, beq_self_eq_true, if_true]
  rw [← same, unchanged before (by simp), unchanged after (by simp)]

/-- How many jobs are of a kind, when one record has changed and for the other jobs the kind
means what it meant. -/
theorem countP_put {r : Registry} (distinct : r.Distinct) {j j' : Job}
    (known : r.find? j.id = some j) (same : j'.id = j.id) (p p' : Job → Bool)
    (others : ∀ old ∈ r.jobs, old.id ≠ j.id → p' old = p old) :
    (r.put j').jobs.countP p' + (if p j then 1 else 0) =
      r.jobs.countP p + if p' j' then 1 else 0 := by
  obtain ⟨before, after, hr, hput, ne⟩ := put_split distinct known same
  have rest : ∀ part, part ⊆ before ++ after → part.countP p' = part.countP p := by
    intro part hpart
    refine List.countP_congr fun old hold => ?_
    rw [others old _ (ne old (hpart hold))]
    rw [hr]
    have := hpart hold
    simp only [List.mem_append, List.mem_cons] at this ⊢
    tauto
  rw [hput, hr, List.countP_append, List.countP_append, List.countP_cons, List.countP_cons,
    rest before (by simp), rest after (by simp)]
  omega

end Montage.Registry
