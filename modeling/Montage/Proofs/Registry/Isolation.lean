import Montage.Proofs.Registry.Effects

/-!
# What a request leaves alone

A request is a call, or the registration of any job as it is. `isolated` says what it leaves alone
in every registry that requests can lead to. One that is refused changes no job, not the order of
the jobs and not the counts; one that is carried out registers a job or changes the record of the
job that it names, and only the end of a job is counted. It is refused for one of three reasons
(`Refused`): an id that is taken, a job that is not there, or a state that does not allow it
(`Call.fits`), as no state of a job that has ended does.

`perform_unknown`, `perform_unfit` and `perform_fit` are all that can happen to a call about a job;
nothing else here opens a registry function.
-/
namespace Montage.Registry

/-- What is asked of the registry: to register a job as it is, or a call. -/
inductive Request where
  | enroll (j : Job)
  | call (c : Call)

/-- What a call did, without what it gave. -/
def bare {α : Type} (called : Called α) : Called Unit := (called.1, called.2.map fun _ => ())

/-- The registry after a call, and whether the call was refused. -/
def Call.perform (c : Call) (r : Registry) (now : Float) : Called Unit :=
  match c with
  | create id => bare (r.create id now)
  | transition id target => bare (r.transition id target now)
  | updateProgress id percent => bare (r.updateProgress id percent now)
  | addWarning id message => bare (r.addWarning id message)
  | complete id result => bare (r.complete id result now)
  | fail id failure => bare (r.fail id failure now)

namespace Request

/-- The registry after a request, and whether the request was refused. -/
def perform (q : Request) (r : Registry) (now : Float) : Called Unit :=
  match q with
  | enroll j => bare (r.enroll j)
  | call c => c.perform r now

/-- The id of the job that a request names; a new job may be given one. -/
def name (r : Registry) : Request → String
  | enroll j => j.id
  | call (.create id) => (r.nameFor id).1
  | call (.transition id _) => id
  | call (.updateProgress id _) => id
  | call (.addWarning id _) => id
  | call (.complete id _) => id
  | call (.fail id _) => id

/-- Whether a request brings a job of its own. -/
def registers : Request → Bool
  | enroll _ => true
  | call (.create _) => true
  | _ => false

/-- Whether a request ends a job. -/
def ends : Request → Bool
  | call (.complete ..) => true
  | call (.fail ..) => true
  | _ => false

end Request

/-- The registry after some requests, each at its own reading of the clock. -/
def served (r : Registry) (requests : List (Request × Float)) : Registry :=
  requests.foldl (fun r q => (q.1.perform r q.2).1) r

/-- Whether the state of a job allows a call about it. -/
def Call.fits (state : JobState) : Call → Bool
  | create _ => true
  | transition _ target => state.next? = some target && !target.isTerminal
  | updateProgress .. => state = .rendering
  | addWarning .. => !state.isTerminal
  | complete .. => state = .rendering
  | fail .. => !state.isTerminal

/-- What a job cannot come to if a call about it is refused. -/
def Call.aim : Call → String
  | create _ => ""
  | transition _ target => target.word
  | updateProgress .. => "progress update"
  | addWarning .. => "warning"
  | complete .. => JobState.completed.word
  | fail .. => JobState.failed.word

/-- Why a request is refused. -/
inductive Refused (r : Registry) : Request → Failure → Prop
  | taken {q} (registers : q.registers = true) (there : r.contains (q.name r) = true) :
      Refused r q (.fault (.alreadyRegistered (q.name r)))
  | unknown {c id} (about : c.job? = some id) (absent : r.find? id = none) :
      Refused r (.call c) (.jobNotFound (some id))
  | unfit {c j} (about : c.job? = some j.id) (known : r.find? j.id = some j)
      (state : c.fits j.state = false) :
      Refused r (.call c) (.transition j.id j.state.word c.aim)

/-- How a request that is carried out changes the list of jobs: a job comes last, or the job that is
named has another record in its place. -/
inductive Carried (r r' : Registry) (q : Request) : Prop
  | enrolled (j : Job) (brought : ∀ own, q = .enroll own → j = own) (registers : q.registers = true)
      (named : j.id = q.name r) (absent : r.find? j.id = none) (jobs : r'.jobs = r.jobs ++ [j])
  | changed (before after : List Job) (j j' : Job) (registers : q.registers = false)
      (named : j.id = q.name r) (same : j'.id = j.id) (jobs : r.jobs = before ++ j :: after)
      (jobs' : r'.jobs = before ++ j' :: after)

/-- What a request does to a registry, and what it leaves alone, by the registry that it left and
whether it was refused. -/
structure Isolated (r : Registry) (q : Request) (called : Called Unit) : Prop where
  reasons : ∀ f, called.2 = .error f ↔ Refused r q f
  refused : ∀ f, called.2 = .error f → called.1.jobs = r.jobs ∧ called.1.stats = r.stats
  carried : called.2 = .ok () → Carried r called.1 q
  others : ∀ id, id ≠ q.name r → called.1.find? id = r.find? id
  counts : q.ends = false → called.1.stats = r.stats
  /-- a job that has ended refuses every call about it -/
  ended : ∀ c j, q = .call c → c.job? = some j.id → r.find? j.id = some j →
    j.state.isTerminal = true → ∃ f, called.2 = .error f ∧ f.code = "INVALID_JOB_TRANSITION"

/-! ## Calls about a job -/

variable {r : Registry} {q : Request} {c : Call} {j : Job} {id : String}

theorem perform_unknown (about : c.job? = some id) (absent : r.find? id = none) (now : Float) :
    c.perform r now = (r, .error (.jobNotFound (some id))) := by
  have none {α : Type} (k : Job → Called α) :
      bare (r.withJob id k) = (r, .error (.jobNotFound (some id))) := by
    simp only [withJob, get, absent]
    rfl
  cases c with
  | create => cases about
  | transition | updateProgress | addWarning | complete | fail =>
    cases about
    exact none _

theorem withJob_known {α : Type} (known : r.find? id = some j) (k : Job → Called α) :
    r.withJob id k = k j := by
  simp only [withJob, get, known]

/-- A call that the state of its job does not allow is refused. -/
theorem perform_unfit (about : c.job? = some j.id) (known : r.find? j.id = some j)
    (state : c.fits j.state = false) (now : Float) :
    c.perform r now = (r, .error (.transition j.id j.state.word c.aim)) := by
  have refuse {α : Type} {k : Job → Called α} {aim : String}
      (h : k j = r.refuse j aim) :
      bare (r.withJob j.id k) = (r, .error (.transition j.id j.state.word aim)) := by
    rw [withJob_known known, h]
    rfl
  cases c with
  | create => cases about
  | transition id target =>
    cases about
    refine refuse (if_pos ?_)
    simpa [Call.fits, imp_iff_or_not] using state
  | updateProgress | complete =>
    cases about
    exact refuse (if_pos (by simpa [Call.fits] using state))
  | addWarning | fail =>
    cases about
    exact refuse (if_pos (by simpa [Call.fits] using state))

/-- A call that the state of its job allows changes the record of the job, and only its end is
counted. -/
theorem perform_fit (about : c.job? = some j.id) (known : r.find? j.id = some j)
    (state : c.fits j.state = true) (now : Float) :
    (c.perform r now).2 = .ok () ∧
      (∃ j' : Job, j'.id = j.id ∧ (c.perform r now).1.jobs = (r.put j').jobs) ∧
      ((Request.call c).ends = false → (c.perform r now).1.stats = r.stats) := by
  cases c with
  | create => cases about
  | transition id target =>
    cases about
    have goes : ¬(target.isTerminal || j.state.next? != some target) = true := by
      simpa [Call.fits, and_comm] using state
    simp only [Call.perform, transition, withJob_known known, if_neg goes]
    exact ⟨rfl, ⟨_, by rfl, rfl⟩, fun _ => rfl⟩
  | updateProgress =>
    cases about
    have renders : j.state = .rendering := by simpa [Call.fits] using state
    simp only [Call.perform, updateProgress, withJob_known known, if_neg (not_not.2 renders)]
    exact ⟨rfl, ⟨_, by rfl, rfl⟩, fun _ => rfl⟩
  | addWarning =>
    cases about
    have live : ¬j.state.isTerminal = true := by simpa [Call.fits] using state
    simp only [Call.perform, addWarning, withJob_known known, if_neg live]
    exact ⟨rfl, ⟨_, by rfl, rfl⟩, fun _ => rfl⟩
  | complete =>
    cases about
    have renders : j.state = .rendering := by simpa [Call.fits] using state
    simp only [Call.perform, complete, withJob_known known, if_neg (not_not.2 renders)]
    exact ⟨rfl, ⟨_, by rfl, rfl⟩, fun kept => by cases kept⟩
  | fail =>
    cases about
    have live : ¬j.state.isTerminal = true := by simpa [Call.fits] using state
    simp only [Call.perform, fail, withJob_known known, if_neg live]
    exact ⟨rfl, ⟨_, by rfl, rfl⟩, fun kept => by cases kept⟩

/-- No state of a job that has ended allows a call about it. -/
theorem fits_terminal (about : c.job? = some id) (ended : j.state.isTerminal = true) :
    c.fits j.state = false := by
  cases c with
  | create => cases about
  | _ => cases state : j.state <;> simp_all [Call.fits, JobState.isTerminal, JobState.next?]

/-! ## All requests -/

/-- What can become of a request. -/
inductive Answer (r : Registry) (q : Request) : Called Unit → Prop
  | refused {r'} (f : Failure) (reason : Refused r q f) (jobs : r'.jobs = r.jobs)
      (stats : r'.stats = r.stats) : Answer r q (r', .error f)
  | enrolled {r'} (j : Job) (brought : ∀ own, q = .enroll own → j = own)
      (registers : q.registers = true) (named : j.id = q.name r) (absent : r.find? j.id = none)
      (jobs : r'.jobs = r.jobs ++ [j]) (stats : r'.stats = r.stats) : Answer r q (r', .ok ())
  | changed {r'} (j j' : Job) (registers : q.registers = false) (named : j.id = q.name r)
      (known : r.find? j.id = some j) (same : j'.id = j.id) (jobs : r'.jobs = (r.put j').jobs)
      (stats : q.ends = false → r'.stats = r.stats) : Answer r q (r', .ok ())

theorem answer_enroll (r : Registry) (j : Job) (now : Float) :
    Answer r (.enroll j) ((Request.enroll j).perform r now) := by
  rcases enroll_cases r j with ⟨taken, h⟩ | ⟨free, h⟩
  · rw [Request.perform, h]
    exact .refused _ (.taken (q := .enroll j) rfl taken) rfl rfl
  · rw [Request.perform, h]
    exact .enrolled j (fun _ own => Request.enroll.inj own) rfl rfl free rfl rfl

theorem answer_create (r : Registry) (given : Option String) (now : Float) :
    Answer r (.call (.create given)) ((Request.call (.create given)).perform r now) := by
  obtain ⟨jobs, stats⟩ := jobs_nameFor r given
  rcases create_cases r given now with ⟨taken, h⟩ | ⟨free, h⟩
  · rw [Request.perform, Call.perform, h]
    exact .refused _ (.taken (q := .call (.create given)) rfl taken) jobs stats
  · rw [Request.perform, Call.perform, h]
    exact .enrolled _ (fun _ own => by cases own) rfl rfl free rfl stats

theorem name_of_job? (about : c.job? = some id) (r : Registry) :
    (Request.call c).name r = id ∧ (Request.call c).registers = false := by
  cases c with
  | create => cases about
  | _ => exact ⟨Option.some.inj about, rfl⟩

/-- Everything that can become of a request. -/
theorem answer_perform (q : Request) (r : Registry) (now : Float) :
    Answer r q (q.perform r now) := by
  cases q with
  | enroll j => exact answer_enroll r j now
  | call c =>
    cases about : c.job? with
    | none =>
      cases c with
      | create given => exact answer_create r given now
      | _ => cases about
    | some id =>
      cases known : r.find? id with
      | none =>
        rw [Request.perform, perform_unknown about known]
        exact .refused _ (.unknown about known) rfl rfl
      | some j =>
        obtain rfl := id_of_find? known
        cases state : c.fits j.state with
        | false =>
          rw [Request.perform, perform_unfit about known state]
          exact .refused _ (.unfit about known state) rfl rfl
        | true =>
          obtain ⟨ok, ⟨j', same, jobs⟩, stats⟩ := perform_fit about known state now
          obtain ⟨named, registers⟩ := name_of_job? about r
          rw [show (Request.call c).perform r now = ((c.perform r now).1, .ok ()) from
            Prod.ext rfl ok]
          exact .changed j j' registers named.symm known same jobs stats

theorem Refused.perform {f : Failure} (h : Refused r q f) (now : Float) :
    (q.perform r now).2 = .error f := by
  cases h with
  | taken registers there =>
    have taken {id : String} (there : r.contains id = true) : r.find? id ≠ none := by
      intro free
      rw [contains, free] at there
      cases there
    cases q with
    | enroll j =>
      obtain ⟨-, h⟩ := (enroll_cases r j).resolve_right fun h => taken there h.1
      exact congrArg (fun called => (bare called).2) h
    | call c =>
      cases c with
      | create given =>
        obtain ⟨-, h⟩ := (create_cases r given now).resolve_right fun h => taken there h.1
        exact congrArg (fun called => (bare called).2) h
      | _ => cases registers
  | unknown about absent => exact congrArg (·.2) (perform_unknown about absent now)
  | unfit about known state => exact congrArg (·.2) (perform_unfit about known state now)

theorem distinct_perform (distinct : r.Distinct) (q : Request) (now : Float) :
    (q.perform r now).1.Distinct := by
  have answer := answer_perform q r now
  generalize q.perform r now = called at answer
  cases answer with
  | refused _ _ jobs =>
    rw [Distinct, jobs]
    exact distinct
  | enrolled _ _ _ _ absent jobs => exact distinct_enrolled distinct absent jobs
  | changed _ _ _ _ _ _ jobs =>
    rw [Distinct, jobs, ids_put]
    exact distinct

theorem distinct_served (s : Settings) (limit : Option Int) (past : List (Request × Float)) :
    ((fresh s limit).served past).Distinct := by
  have run (r : Registry) (distinct : r.Distinct) : (r.served past).Distinct := by
    induction past generalizing r with
    | nil => exact distinct
    | cons q past ih => exact ih _ (distinct_perform distinct q.1 q.2)
  exact run _ List.nodup_nil

/-- **Isolation.** Whatever was asked of a fresh registry before, a request that is refused changes
nothing; one that is carried out changes the record of the job that it names, or adds that job, and
no other record; only the end of a job changes the counts; and a job that has ended refuses every
call about it. -/
theorem isolated (s : Settings) (limit : Option Int) (past : List (Request × Float)) (q : Request)
    (now : Float) : Isolated ((fresh s limit).served past) q
      (q.perform ((fresh s limit).served past) now) := by
  have distinct := distinct_served s limit past
  generalize (fresh s limit).served past = r at distinct
  have answer := answer_perform q r now
  have reasons (f : Failure) : Refused r q f → (q.perform r now).2 = .error f := (·.perform now)
  have ended (c : Call) (j : Job) (call : q = .call c) (about : c.job? = some j.id)
      (known : r.find? j.id = some j) (terminal : j.state.isTerminal = true) :
      ∃ f, (q.perform r now).2 = .error f ∧ f.code = "INVALID_JOB_TRANSITION" := by
    subst call
    exact ⟨_, reasons _ (.unfit about known (fits_terminal about terminal)), rfl⟩
  generalize q.perform r now = called at answer reasons ended
  cases answer with
  | refused f reason jobs stats =>
    exact {
      reasons := fun g => ⟨fun h => Except.error.inj h ▸ reason, reasons g⟩
      refused := fun _ _ => ⟨jobs, stats⟩
      carried := nofun
      others := fun id _ => find?_congr jobs id
      counts := fun _ => stats
      ended := ended }
  | enrolled j brought registers named absent jobs stats =>
    exact {
      reasons := fun g => ⟨nofun, reasons g⟩
      refused := nofun
      carried := fun _ => .enrolled j brought registers named absent jobs
      others := fun id other => by rw [find?_enrolled jobs absent, if_neg (named ▸ other)]
      counts := fun _ => stats
      ended := ended }
  | changed j j' registers named known same jobs stats =>
    obtain ⟨before, after, split, split', -⟩ := put_split distinct known same
    exact {
      reasons := fun g => ⟨nofun, reasons g⟩
      refused := nofun
      carried := fun _ => .changed before after j j' registers named same split (jobs.trans split')
      others := fun id other => by rw [find?_put_eq jobs known same, if_neg (named ▸ other)]
      counts := stats
      ended := ended }

end Montage.Registry
