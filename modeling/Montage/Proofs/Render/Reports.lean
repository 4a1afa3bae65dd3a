import Montage.Proofs.Float.Units
import Montage.Proofs.Render.Acts

/-!
# Reports of progress

A run reports a percentage only if it lies above the last one by the step, or if it is 100
(`Climbs`). As long as the job renders, the record stands where the last report has left it
(`Run.Level`), so what the registry makes of a report is the percentage itself, and the record, the
observer and the subscribers get the same one. `Scene.Told` says so of any part of a stage, together
with the events that are told; it is the refinement of `Scene.Onward` for those who count them.
-/
namespace Montage

/-! ## Percentages -/

/-- What a share comes to as a percentage. -/
def IsPercent (p : Float) : Prop := p = 0 ∨ 0 < p ∧ p < 100 ∨ p = 100

theorem isPercent_clamp (x : Float) : IsPercent (Progress.clamp x) := by
  unfold Progress.clamp
  dsimp only
  split
  · next below =>
    split
    · next above => exact .inr (.inl ⟨above, below⟩)
    · exact .inl rfl
  · exact .inr (.inr (if_pos (by decide +kernel)))

theorem isPercent_of_percent {seconds duration : Number} {p : Float}
    (h : Progress.percent seconds duration = .ok p) : IsPercent p := by
  unfold Progress.percent at h
  split at h
  · cases h
    exact .inl rfl
  · cases share : seconds.quotient duration with
    | error f => rw [share] at h; cases h
    | ok x =>
      rw [share] at h
      cases h
      exact isPercent_clamp _

namespace IsPercent

variable {p : Float}

theorem isFinite (h : IsPercent p) : p.isFinite = true := by
  rcases h with rfl | ⟨above, below⟩ | rfl
  · decide
  · exact Double.isFinite_of_lt_of_lt above below
  · decide

theorem isNaN (h : IsPercent p) : p.isNaN = false := Double.isNaN_of_isFinite h.isFinite

theorem range (h : IsPercent p) : 0 ≤ p ∧ p ≤ 100 := by
  rcases h with rfl | ⟨above, below⟩ | rfl
  · decide +kernel
  · exact ⟨Double.le_of_lt above, Double.le_of_lt below⟩
  · decide +kernel

/-- The registry takes a percentage as it is. -/
theorem clampPercent (h : IsPercent p) : Registry.clampPercent (.float p) = p := by
  unfold Registry.clampPercent
  simp only [Double.int_lt_float Double.stands_zero, Double.float_lt_int Double.stands_hundred]
  rcases h with rfl | ⟨above, below⟩ | rfl
  · rw [if_neg (by decide +kernel)]
  · rw [if_pos above, if_pos below]
  · rw [if_pos (by decide +kernel), if_neg (by decide +kernel)]

end IsPercent

/-- Percentages that are reported after one another, from the last report before them to the last
of them: each is greater than the one before, and by the step unless it is 100. -/
inductive Climbs (step : Float) : Float → List Float → Float → Prop where
  | refl (a : Float) : Climbs step a [] a
  | up {a b p : Float} {ps : List Float} (climbs : Climbs step a ps b) (percent : IsPercent p)
      (above : ¬p ≤ b) (far : p = 100 ∨ ¬p - b < step) : Climbs step a (ps ++ [p]) p

namespace Climbs

variable {step a b c : Float} {ps qs : List Float}

theorem trans (h : Climbs step a ps b) (h' : Climbs step b qs c) : Climbs step a (ps ++ qs) c := by
  induction h' with
  | refl => rwa [List.append_nil]
  | up _ percent above far ih =>
    rw [← List.append_assoc]
    exact ih.up percent above far

theorem isPercent (h : Climbs step a ps b) : ∀ p ∈ ps, IsPercent p := by
  induction h with
  | refl => simp
  | up _ percent _ _ ih =>
    intro q hq
    rcases List.mem_append.1 hq with hq | hq
    · exact ih q hq
    · exact List.mem_singleton.1 hq ▸ percent

theorem getLast? (h : Climbs step a ps b) : ps = [] ∧ b = a ∨ ps.getLast? = some b := by
  cases h with
  | refl => exact .inl ⟨rfl, rfl⟩
  | up => exact .inr (by simp)

theorem isFinite (h : Climbs step a ps b) (start : a.isFinite = true) : b.isFinite = true := by
  cases h with
  | refl => exact start
  | up _ percent => exact percent.isFinite

/-- Each percentage is greater than all before it. -/
theorem increasing (h : Climbs step a ps b) (start : a.isFinite = true) : ps.Pairwise (· < ·) := by
  suffices both : ps.Pairwise (· < ·) ∧ ∀ p ∈ ps, p = b ∨ p < b from both.1
  induction h with
  | refl => simp
  | @up b p ps climbs percent above _ ih =>
    obtain ⟨ordered, least⟩ := ih
    have higher : b < p := Double.lt_of_not_le (Double.isNaN_of_isFinite (climbs.isFinite start))
      percent.isNaN above
    have all (q : Float) (hq : q ∈ ps) : q < p := by
      rcases least q hq with rfl | less
      · exact higher
      · exact Double.lt_trans less higher
    refine ⟨List.pairwise_append.2 ⟨ordered, List.pairwise_singleton _ _, ?_⟩, ?_⟩
    · intro q hq p' hp'
      exact List.mem_singleton.1 hp' ▸ all q hq
    · intro q hq
      rcases List.mem_append.1 hq with hq | hq
      · exact .inr (all q hq)
      · exact .inl (List.mem_singleton.1 hq)

/-- The last percentage comes once. -/
theorem once (h : Climbs step a ps b) (start : a.isFinite = true) (up : a ≠ b) :
    ∃ front, ps = front ++ [b] ∧ b ∉ front := by
  obtain ⟨-, same⟩ | last := h.getLast?
  · exact absurd same.symm up
  · obtain ⟨front, rfl⟩ := List.getLast?_eq_some_iff.1 last
    refine ⟨front, rfl, fun twice => ?_⟩
    have less := (List.pairwise_append.1 (h.increasing start)).2.2 b twice b List.mem_cons_self
    exact Double.not_le_of_lt less (Double.le_of_lt less)

/-- Each percentage is greater than the one before it by the step, or it is 100. -/
theorem far (h : Climbs step a ps b) (positive : 0 ≤ step) :
    ps.IsChain fun p q => step ≤ q - p ∨ q = 100 := by
  induction h with
  | refl => exact .nil
  | @up b p ps climbs percent _ far ih =>
    refine List.isChain_append.2 ⟨ih, .singleton _, fun x hx y hy => ?_⟩
    rw [List.head?_cons, Option.mem_some_iff] at hy
    subst hy
    rcases climbs.getLast? with ⟨rfl, -⟩ | last
    · cases hx
    · obtain rfl : b = x := Option.some.inj (last.symm.trans hx)
      refine far.symm.imp_left fun far => ?_
      have finite : b.isFinite = true :=
        (climbs.isPercent b (List.mem_of_getLast? last)).isFinite
      exact Double.le_of_not_lt ((Double.le_iff _ _).1 positive).2.1
        (Double.isNaN_sub percent.isNaN finite) far

end Climbs

/-- The record of a job stands where the run's last report has left it. -/
def Run.Level (r : Run) (j : Job) : Prop :=
  r.lastReported = -1 ∧ j.progress = 0 ∨ IsPercent r.lastReported ∧ j.progress = r.lastReported

theorem Run.Level.isFinite {r : Run} {j : Job} (h : r.Level j) : r.lastReported.isFinite = true := by
  rcases h with ⟨none, -⟩ | ⟨percent, -⟩
  · rw [none]
    decide
  · exact percent.isFinite

/-- A record takes a report that lies above the last one as it is. -/
theorem Run.Level.report {r : Run} {j : Job} {p : Float} (h : r.Level j) (percent : IsPercent p)
    (above : ¬p ≤ r.lastReported) : (if j.progress < p then p else j.progress) = p := by
  have higher := Double.lt_of_not_le (Double.isNaN_of_isFinite h.isFinite) percent.isNaN above
  rcases h with ⟨-, zero⟩ | ⟨-, same⟩
  · rw [zero]
    rcases percent with rfl | ⟨positive, -⟩ | rfl
    · exact ite_self _
    · exact if_pos positive
    · exact if_pos (by decide +kernel)
  · rw [same, if_pos higher]

/-- A run reports percentages: its observer gets them, and they climb from its last report on. -/
structure Run.Reports (step : Float) (r : Run) (ps : List Float) (r' : Run) : Prop where
  observes : r'.observes = r.observes
  observed : r'.observed = (if r.observes then ps.reverse else []) ++ r.observed
  climbs : Climbs step r.lastReported ps r'.lastReported

namespace Run.Reports

variable {step : Float} {r r' r'' : Run} {ps qs : List Float}

theorem none (observes : r'.observes = r.observes) (observed : r'.observed = r.observed)
    (last : r'.lastReported = r.lastReported) : r.Reports step [] r' where
  observes := observes
  observed := by rw [observed]; split <;> rfl
  climbs := last ▸ .refl _

theorem trans (h : r.Reports step ps r') (h' : r'.Reports step qs r'') :
    r.Reports step (ps ++ qs) r'' where
  observes := h'.observes.trans h.observes
  observed := by
    rw [h'.observed, h.observed, h.observes]
    split <;> simp
  climbs := h.climbs.trans h'.climbs

end Run.Reports

/-! ## Events -/

/-- The percentage that an event tells. -/
def Event.percent? (e : Event) : Option Float :=
  match e.content with
  | ("progress", some (.object [("progress", .float p)])) => some p
  | _ => none

/-- The percentages that some events tell. -/
def Event.percents (es : List Event) : List Float := es.filterMap percent?

theorem Event.percents_append (es fs : List Event) :
    percents (es ++ fs) = percents es ++ percents fs := List.filterMap_append

theorem Event.percent?_of_notice {e : Event} {p : Float} (h : e.content = Job.notice p) :
    e.percent? = some p := by
  rw [percent?, h]
  rfl

theorem Event.percent?_eq_none {e : Event} (h : e.kind ≠ "progress") : e.percent? = none := by
  unfold percent?
  split
  · next content => exact absurd (congrArg Prod.fst content) h
  · rfl

/-- A change of a job either tells of the progress that its record then shows, or tells of none and
leaves the record with its progress, unless it completes the job. -/
theorem Job.Change.percents {a b : Job} {es : List Event} (h : Job.Change a es b) :
    (∃ e, es = [e] ∧ e.percent? = some b.progress) ∨
      (∀ e ∈ es, e.kind ≠ "progress") ∧
        b.progress = if b.state = .completed then 100 else a.progress := by
  have unfinished (live : b.state.isTerminal = false) : b.state ≠ .completed := fun completed => by
    rw [completed] at live
    cases live
  cases h with
  | @advanced e _ _ live content progress =>
    have kind : e.kind = "state" := congrArg Prod.fst content
    rw [if_neg (unfinished live)]
    exact .inr ⟨fun x hx => by rw [List.mem_singleton.1 hx, kind]; decide, progress⟩
  | reported _ _ content => exact .inl ⟨_, rfl, Event.percent?_of_notice content⟩
  | warned live same progress =>
    rw [if_neg (unfinished (same ▸ live))]
    exact .inr ⟨by simp, progress⟩
  | @ended e _ _ _ _ content progress =>
    have kind : e.kind = (Service.lastEvent b 0).kind := congrArg Prod.fst content
    refine .inr ⟨fun x hx => ?_, progress⟩
    rw [List.mem_singleton.1 hx, kind, Service.lastEvent]
    split <;> simp

/-- Of a job's progress only percentages are told, and the last one is where its record stands,
unless none was told, or the job is completed. -/
theorem Job.Life.percents {a b : Job} {es : List Event} (h : Job.Life a es b) :
    (∀ e ∈ es, e.kind = "progress" → e.percent?.isSome) ∧
      (b.state ≠ .completed → b.progress = (Event.percents es).getLastD a.progress) := by
  induction h with
  | refl => exact ⟨by simp, fun _ => rfl⟩
  | @step es b fs c life change ih =>
    have live : b.state ≠ .completed := fun completed => by
      have live := change.live
      rw [completed] at live
      cases live
    obtain ⟨all, last⟩ := ih
    rcases change.percents with ⟨e, rfl, told⟩ | ⟨quiet, progress⟩
    · have one : Event.percents [e] = [c.progress] := by simp [Event.percents, told]
      refine ⟨fun x hx kind => ?_, fun _ => by rw [Event.percents_append, one, List.getLastD_concat]⟩
      rcases List.mem_append.1 hx with hx | hx
      · exact all x hx kind
      · rw [List.mem_singleton.1 hx, told]
        rfl
    · have none : Event.percents fs = [] :=
        List.filterMap_eq_nil_iff.2 fun e he => Event.percent?_eq_none (quiet e he)
      refine ⟨fun x hx kind => ?_, fun other => ?_⟩
      · exact (List.mem_append.1 hx).elim (all x · kind) fun hx => absurd kind (quiet x hx)
      · rw [Event.percents_append, none, List.append_nil, progress, if_neg other, last live]

/-- When a job has told of a percentage, its record shows just that. -/
theorem Job.Life.recorded {a c : Job} {front back : List Event} {e : Event} {p : Float}
    (h : Job.Life a (front ++ e :: back) c) (told : e.percent? = some p) :
    ∃ b, Job.Life a (front ++ [e]) b ∧ b.progress = p ∧ Job.Life b back c := by
  generalize all : front ++ e :: back = es at h
  induction h generalizing back with
  | refl => simp at all
  | @step es b fs c life change ih =>
    -- the change that tells of a percentage tells of nothing else
    have only (mem : e ∈ fs) : fs = [e] ∧ c.progress = p := by
      rcases change.percents with ⟨x, rfl, told'⟩ | ⟨quiet, -⟩
      · obtain rfl := List.mem_singleton.1 mem
        exact ⟨rfl, Option.some.inj (told'.symm.trans told)⟩
      · cases (Event.percent?_eq_none (quiet e mem)).symm.trans told
    have here {middle : List Event} (before : front = es ++ middle) (split : fs = middle ++ e :: back) :
        ∃ b, Job.Life a (front ++ [e]) b ∧ b.progress = p ∧ Job.Life b back c := by
      obtain ⟨single, progress⟩ := only (by simp [split])
      have length := congrArg List.length (split.symm.trans single)
      obtain rfl : middle = [] := List.eq_nil_of_length_eq_zero (by simp at length; omega)
      obtain rfl : back = [] := List.eq_nil_of_length_eq_zero (by simpa using length)
      rw [List.append_nil] at before
      exact ⟨c, before ▸ single ▸ life.step change, progress, .refl c⟩
    rcases List.append_eq_append_iff.1 all with ⟨middle, before, later⟩ | ⟨middle, before, later⟩
    · cases middle with
      | nil =>
        rw [List.append_nil] at before
        exact here (before.symm.trans (List.append_nil es).symm) later.symm
      | cons x middle =>
        obtain ⟨rfl, rfl⟩ := List.cons.inj later
        obtain ⟨k, first, progress, rest⟩ := ih before.symm
        exact ⟨k, first, progress, rest.step change⟩
    · exact here before later

namespace Scene

/-- What becomes of a run, with the events that are told of it: it reports the percentages that are
told. -/
structure Told (setup : Setup) (a : Scene) (es : List Event) (b : Scene) : Prop where
  same : b.run.id = a.run.id
  limit : b.shared.registry.detailLimit = a.shared.registry.detailLimit
  bus : b.shared.bus = a.shared.bus.tell es
  own : ∀ e ∈ es, e.job = a.run.id
  life : ∀ j, a.job? = some j → ∃ j', b.job? = some j' ∧ j.Life es j'
  reports : a.run.Reports setup.settings.progressStep (Event.percents es) b.run

variable {setup : Setup} {a b c : Scene} {es fs : List Event}

namespace Told

theorem refl (setup : Setup) (s : Scene) : s.Told setup [] s where
  same := rfl
  limit := rfl
  bus := rfl
  own := by simp
  life j hj := ⟨j, hj, .refl j⟩
  reports := .none rfl rfl rfl

theorem trans (h : a.Told setup es b) (h' : b.Told setup fs c) : a.Told setup (es ++ fs) c where
  same := h'.same.trans h.same
  limit := h'.limit.trans h.limit
  bus := by rw [h'.bus, h.bus, Bus.tell_append]
  own e he := (List.mem_append.1 he).elim (h.own e) fun later => (h'.own e later).trans h.same
  life j hj := by
    obtain ⟨j', hj', first⟩ := h.life j hj
    obtain ⟨j'', hj'', second⟩ := h'.life j' hj'
    exact ⟨j'', hj'', first.trans second⟩
  reports := by
    rw [Event.percents_append]
    exact h.reports.trans h'.reports

/-- Other things than jobs, queues and what has been reported are free to change. -/
theorem aside (same : b.run.id = a.run.id) (observes : b.run.observes = a.run.observes)
    (registry : b.shared.registry = a.shared.registry) (bus : b.shared.bus = a.shared.bus)
    (observed : b.run.observed = a.run.observed) (last : b.run.lastReported = a.run.lastReported) :
    a.Told setup [] b where
  same := same
  limit := by rw [registry]
  bus := bus
  own := by simp
  life j hj := ⟨j, by rwa [job?, registry, same], .refl j⟩
  reports := .none observes observed last

/-- The own job changes, and that is told of as far as it is no progress. -/
theorem change {j j' : Job} (run : b.run = a.run)
    (limit : b.shared.registry.detailLimit = a.shared.registry.detailLimit)
    (known : a.job? = some j) (new : b.job? = some j')
    (bus : b.shared.bus = a.shared.bus.tell es) (own : ∀ e ∈ es, e.job = a.run.id)
    (change : j.Change es j') (silent : Event.percents es = []) : a.Told setup es b where
  same := by rw [run]
  limit := limit
  bus := bus
  own := own
  life i hi := by
    cases known.symm.trans hi
    exact ⟨j', new, .single change⟩
  reports := by rw [run, silent]; exact .none rfl rfl rfl

end Told

/-- What any part of a stage does: it takes notes in its own run, and tells of its job. -/
def Leads (setup : Setup) (a b : Scene) : Prop :=
  b.run = a.run.noted b.run ∧ b.shared.now = a.shared.now ∧ ∃ es, a.Told setup es b

instance (setup : Setup) : IsPreorder Scene (Scene.Leads setup) where
  refl s := ⟨rfl, rfl, [], .refl setup s⟩
  trans _ _ _ := fun ⟨notes, time, _, h⟩ ⟨notes', time', _, h'⟩ =>
    ⟨by rw [notes', notes]; rfl, time'.trans time, _, h.trans h'⟩

/-- The own job renders, and its record stands where the last report has left it. -/
def Renders (s : Scene) : Prop := ∃ j, s.job? = some j ∧ j.state = .rendering ∧ s.run.Level j

/-- Nothing has happened but reports. -/
structure Reported (setup : Setup) (a b : Scene) : Prop where
  leads : a.Leads setup b
  run : b.run = { a.run with lastReported := b.run.lastReported, observed := b.run.observed }
  shared : b.shared = { a.shared with registry := b.shared.registry, bus := b.shared.bus }
  job : ∀ j, a.job? = some j → ∃ j', b.job? = some j' ∧
    j' = { j with progress := j'.progress, updatedAt := j'.updatedAt }

namespace Reported

theorem refl (setup : Setup) (s : Scene) : s.Reported setup s :=
  ⟨Std.Refl.refl s, rfl, rfl, fun j hj => ⟨j, hj, rfl⟩⟩

theorem trans (h : a.Reported setup b) (h' : b.Reported setup c) : a.Reported setup c where
  leads := IsTrans.trans _ _ _ h.leads h'.leads
  run := by rw [h'.run, h.run]
  shared := by rw [h'.shared, h.shared]
  job j hj := by
    obtain ⟨j', hj', first⟩ := h.job j hj
    obtain ⟨j'', hj'', second⟩ := h'.job j' hj'
    exact ⟨j'', hj'', by rw [second, first]⟩

instance (setup : Setup) : IsPreorder Scene (Scene.Reported setup) where
  refl := .refl setup
  trans _ _ _ := .trans

end Reported

end Scene

/-! ## A report -/

theorem Registry.updateProgress_ok {r : Registry} {id : String} {j : Job}
    (known : r.find? id = some j) (rendering : j.state = .rendering) (percent : Number)
    (now : Float) : ∃ j', (r.updateProgress id percent now).2 = .ok j' := by
  unfold Registry.updateProgress Registry.withJob Registry.get
  simp only [known, rendering, ne_eq, not_true_eq_false, if_false]
  exact ⟨_, rfl⟩

theorem Registry.complete_ok {r : Registry} {id : String} {j : Job} (known : r.find? id = some j)
    (rendering : j.state = .rendering) (result : RenderResult) (now : Float) :
    ∃ j', (r.complete id result now).2 = .ok j' := by
  unfold Registry.complete Registry.withJob Registry.get
  simp only [known, rendering, ne_eq, not_true_eq_false, if_false]
  exact ⟨_, rfl⟩

namespace Act

variable {setup : Setup} {s : Scene} {p : Float}

/-- A percentage that is not held back is reported. -/
theorem result_reported (renders : s.Renders) (percent : IsPercent p)
    (above : ¬p ≤ s.run.lastReported)
    (far : ¬(p < 100 && p - s.run.lastReported < setup.settings.progressStep)) :
    ∃ s', (report setup p).result s = (.ok (), s') ∧ s.Reported setup s' ∧ s'.Renders ∧
      s'.run.lastReported = p := by
  obtain ⟨j, known, rendering, level⟩ := renders
  let m : Scene := { s with run := { s.run with lastReported := p } }
  have run : (report setup p).result s = (do
      let job ← announce (fun r id now => r.updateProgress id (.float p) now) "progress"
        fun job => .object [("progress", .float job.progress)]
      notify job.progress : Act Unit).result m := by
    rw [report_eq, result_run_bind, if_neg above, if_neg far]
    rfl
  rw [run, result_bind]
  rcases result_announce (Registry.updates_updateProgress (.float p)) "progress"
      (fun job => .object [("progress", .float job.progress)]) m with
    ⟨failure, refused, -⟩ | ⟨i, a, j', r, known', jobs, limit, same, ⟨rfl, -, new⟩, hr⟩
  · have known : s.shared.registry.find? s.run.id = some j := known
    obtain ⟨j', ok⟩ := Registry.updateProgress_ok known rendering (.float p) s.shared.now
    cases ok.symm.trans refused
  · obtain rfl : j = i := Option.some.inj (known.symm.trans known')
    have progress : a.progress = p := by
      rw [new]
      dsimp only
      rw [percent.clampPercent]
      exact level.report percent above
    rw [hr]
    dsimp only
    rw [result_notify, progress]
    have found : r.find? s.run.id = some a := Scene.Onward.find?_put (s := s) known same jobs
    have told : Event.percents [m.news "progress" (.object [("progress", .float p)])] = [p] := by
      simp [Event.percents, Event.percent?_of_notice (e := m.news _ _) (p := p) rfl]
    have notes : m.run.noticed p = s.run.noted (m.run.noticed p) := by
      unfold Run.noticed
      split <;> rfl
    have observed : (m.run.noticed p).observed =
        (if s.run.observes then [p] else []) ++ s.run.observed := by
      unfold Run.noticed
      show (if s.run.observes then _ else _ : Run).observed = _
      split <;> rfl
    have last : (m.run.noticed p).lastReported = p := by
      unfold Run.noticed
      split <;> rfl
    have quiet : m.run.noticed p = { s.run with
        lastReported := (m.run.noticed p).lastReported
        observed := (m.run.noticed p).observed } := by
      unfold Run.noticed
      split <;> rfl
    have state : a.state = .rendering := by rw [new]; exact rendering
    refine ⟨_, rfl,
      ⟨⟨notes, rfl, [m.news "progress" (.object [("progress", .float p)])], ?_⟩, quiet, rfl, ?_⟩,
      ⟨a, ?_, state, ?_⟩, last⟩
    · exact {
        same := by rw [notes]; rfl
        limit := limit
        bus := rfl
        own := by simp [Scene.news, m]
        life := fun i hi => by
          obtain rfl : j = i := Option.some.inj (known.symm.trans hi)
          refine ⟨a, by rw [Scene.job?, notes]; exact found, .single (.reported rendering state ?_)⟩
          rw [progress]
          rfl
        reports := by
          rw [told]
          refine ⟨by rw [notes]; rfl, by rw [observed, List.reverse_singleton], ?_⟩
          rw [last]
          refine .up (.refl _) percent above ?_
          rw [Bool.and_eq_true, decide_eq_true_eq, decide_eq_true_eq, not_and] at far
          rcases percent with rfl | ⟨positive, below⟩ | full
          · exact .inr (far (by decide +kernel))
          · exact .inr (far below)
          · exact .inl full }
    · intro i hi
      obtain rfl : j = i := Option.some.inj (known.symm.trans hi)
      exact ⟨a, by rw [Scene.job?, notes]; exact found, by rw [new]⟩
    · rw [Scene.job?, notes]
      exact found
    · rw [Run.Level, last, progress]
      exact .inr ⟨percent, rfl⟩

/-- A percentage is reported, or it is held back. Nothing holds back 100. -/
theorem result_report (renders : s.Renders) (percent : IsPercent p) :
    ∃ s', (report setup p).result s = (.ok (), s') ∧ s.Reported setup s' ∧ s'.Renders ∧
      (p = 100 → s'.run.lastReported = 100) := by
  by_cases above : p ≤ s.run.lastReported
  · refine ⟨s, ?_, .refl setup s, renders, ?_⟩
    · rw [report_eq, result_run_bind, if_pos above]
      rfl
    · rintro rfl
      obtain ⟨j, -, -, ⟨none, -⟩ | ⟨rfl' | ⟨-, below⟩ | full, -⟩⟩ := renders
      · rw [none] at above
        exact absurd above (by decide +kernel)
      · rw [rfl'] at above
        exact absurd above (by decide +kernel)
      · exact absurd above (Double.not_le_of_lt below)
      · exact full
  · by_cases near : (p < 100 && p - s.run.lastReported < setup.settings.progressStep) = true
    · refine ⟨s, ?_, .refl setup s, renders, ?_⟩
      · rw [report_eq, result_run_bind, if_neg above, if_pos near]
        rfl
      · rintro rfl
        rw [Bool.and_eq_true, decide_eq_true_eq] at near
        exact absurd near.1 (by decide +kernel)
    · obtain ⟨s', result, reported, renders', last⟩ := result_reported renders percent above near
      exact ⟨s', result, reported, renders', fun full => last.trans full⟩

end Act
end Montage
