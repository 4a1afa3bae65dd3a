import Montage.Service.Time

/-!
# The life of a job in its events

`Job.Change` is one change of a job's record together with what is told of it, and `Job.Life` a
run of such changes. The record and the events go together: `Job.Life.story` reads the events of
a whole life off the record that it ends with. They are the stages that the job has come through,
in their order, then reports of its progress, then one last event if the job has ended, the same
that whoever comes later is told (`Service.lastEvent`).
-/
namespace Montage

/-- What an event tells, without its job and its time. -/
def Event.content (e : Event) : String × Option Json := (e.kind, e.data)

namespace JobState

/-- What is told of a state that a job comes to. -/
def news (s : JobState) : String × Option Json :=
  ("state", some (.object [("state", .string s.word)]))

/-- The states that are told of, in their order. -/
def stages : List JobState := [validating, substituting, resolving, compiling, rendering]

/-- How many stages a job has come to that is in a state. -/
def rank : JobState → Nat
  | created => 0
  | validating => 1
  | substituting => 2
  | resolving => 3
  | compiling => 4
  | _ => 5

theorem rank_next {s t : JobState} (next : s.next? = some t) (live : t.isTerminal = false) :
    t.rank = s.rank + 1 ∧ stages.take t.rank = stages.take s.rank ++ [t] := by
  cases s <;> cases next <;> first | exact ⟨rfl, rfl⟩ | cases live

theorem live_of_next {s t : JobState} (next : s.next? = some t) : s.isTerminal = false := by
  cases s <;> first | rfl | cases next

end JobState

namespace Job

/-- What is told last of a job that has ended. -/
def ending (j : Job) : List (String × Option Json) :=
  if j.state.isTerminal then [(Service.lastEvent j 0).content] else []

theorem ending_of_live {j : Job} (h : j.state.isTerminal = false) : j.ending = [] := by
  simp [ending, h]

/-- What is told of a progress. -/
def notice (percent : Float) : String × Option Json :=
  ("progress", some (.object [("progress", .float percent)]))

/-- One change of a job, and what is told of it. -/
inductive Change : Job → List Event → Job → Prop where
  | advanced {j e j'} (next : j.state.next? = some j'.state) (live : j'.state.isTerminal = false)
      (content : e.content = j'.state.news) (progress : j'.progress = j.progress) : Change j [e] j'
  | reported {j e j'} (before : j.state = .rendering) (after : j'.state = .rendering)
      (content : e.content = notice j'.progress) : Change j [e] j'
  | warned {j j'} (live : j.state.isTerminal = false) (same : j'.state = j.state)
      (progress : j'.progress = j.progress) : Change j [] j'
  | ended {j e j'} (live : j.state.isTerminal = false) (terminal : j'.state.isTerminal = true)
      (rendered : j'.state = .completed → j.state = .rendering)
      (content : e.content = (Service.lastEvent j' 0).content)
      (progress : j'.progress = if j'.state = .completed then 100 else j.progress) : Change j [e] j'

theorem Change.live {a b : Job} {es : List Event} (h : Change a es b) :
    a.state.isTerminal = false := by
  cases h with
  | advanced next => exact JobState.live_of_next next
  | reported before => rw [before]; rfl
  | warned live => exact live
  | ended live => exact live

/-- A run of changes of a job, and all that is told of it. -/
inductive Life : Job → List Event → Job → Prop where
  | refl (j : Job) : Life j [] j
  | step {a es b fs c} (life : Life a es b) (change : Change b fs c) : Life a (es ++ fs) c

namespace Life

theorem single {a b : Job} {es : List Event} (h : Change a es b) : Life a es b := by
  simpa using (refl a).step h

theorem trans {a b c : Job} {es fs : List Event} (h : Life a es b) (h' : Life b fs c) :
    Life a (es ++ fs) c := by
  induction h' with
  | refl => simpa using h
  | step _ change ih => rw [← List.append_assoc]; exact ih.step change

/-- Nothing happens to a job that has ended. -/
theorem of_terminal {a b : Job} {es : List Event} (h : Life a es b)
    (terminal : a.state.isTerminal = true) : es = [] ∧ b = a := by
  induction h with
  | refl => exact ⟨rfl, rfl⟩
  | step _ change ih =>
    obtain ⟨rfl, rfl⟩ := ih
    rw [change.live] at terminal
    cases terminal

end Life

/-- The events of a job, by its record: a front of the stages, then reports of progress, which
come after the last stage only, then what is told last. A job that goes on has told of the stages
that it has come to, and one that is completed of all. -/
def Story (j : Job) (es : List Event) : Prop :=
  ∃ n reports,
    es.map Event.content = (JobState.stages.take n).map JobState.news ++ reports ++ j.ending ∧
    (∀ x ∈ reports, x.1 = "progress") ∧
    (reports ≠ [] → n = JobState.stages.length) ∧
    (j.state.isTerminal = false ∨ j.state = .completed → n = j.state.rank)

/-- What is told of a job from its beginning on is its story. -/
theorem Life.story {a b : Job} {es : List Event} (h : Life a es b) (created : a.state = .created) :
    Story b es := by
  induction h with
  | refl =>
    have live : a.state.isTerminal = false := by rw [created]; rfl
    exact ⟨0, [], by simp [ending_of_live live], by simp, by simp, by simp [created, JobState.rank]⟩
  | @step es b fs c _ change ih =>
    obtain ⟨n, reports, content, progress, late, rank⟩ := ih
    have rank : n = b.state.rank := rank (.inl change.live)
    rw [ending_of_live change.live, List.append_nil] at content
    cases change with
    | advanced next live news =>
      obtain ⟨up, take⟩ := JobState.rank_next next live
      have none : reports = [] := by
        by_cases e : reports = []
        · exact e
        · rw [rank] at late
          rw [late e] at up
          cases hc : c.state <;> simp [hc, JobState.rank, JobState.stages] at up
      refine ⟨c.state.rank, [], ?_, by simp, by simp, fun _ => rfl⟩
      rw [List.map_append, content, none, take, rank, ending_of_live live]
      simp [news]
    | @reported e _ before after news =>
      have live : c.state.isTerminal = false := by rw [after]; rfl
      refine ⟨n, reports ++ [e.content], ?_, ?_, fun _ => ?_, fun _ => ?_⟩
      · rw [List.map_append, content, ending_of_live live]
        simp
      · intro x hx
        rcases List.mem_append.1 hx with hx | hx
        · exact progress x hx
        · rw [List.mem_singleton.1 hx, news]
          rfl
      · rw [rank, before]
        rfl
      · rw [rank, before, after]
    | warned live same =>
      refine ⟨n, reports, ?_, progress, late, fun _ => by rw [rank, same]⟩
      rw [List.append_nil, content, ending_of_live (same ▸ live), List.append_nil]
    | ended live terminal rendered last =>
      refine ⟨n, reports, ?_, progress, late, fun h => ?_⟩
      · rw [List.map_append, content]
        simp [ending, terminal, last]
      · have completed : c.state = .completed := h.resolve_left (by simp [terminal])
        rw [rank, rendered completed, completed]
        rfl

end Job
end Montage
