import Montage.Proofs.Service.Follow

/-!
# Nobody misses the outcome

Whoever follows a job gets a queue first and looks at the job then; a job that ends changes its
record first and tells of it then. Whatever happens before, between and after the two steps of a
follower, it is told of the end of the job once, last, and in the same words as everybody else
(`followers_told`): if the job had ended when it looked, by what it was told at once, and otherwise
through its queue, which nothing that is last can have come to before.
-/
namespace Montage

theorem Event.isTerminal_of_content {e e' : Event} (h : e.content = e'.content) :
    e.isTerminal = e'.isTerminal := by
  have kind : e.kind = e'.kind := congrArg Prod.fst h
  rw [isTerminal, isTerminal, kind]

namespace Job

theorem isTerminal_lastEvent (j : Job) (now : Float) :
    (Service.lastEvent j now).isTerminal = true := by
  unfold Service.lastEvent
  split <;> rfl

theorem content_lastEvent (j : Job) (now : Float) :
    (Service.lastEvent j now).content = (Service.lastEvent j 0).content := by
  unfold Service.lastEvent
  split <;> rfl

/-- Events of a job, by the record that it has in the end: if it has ended, one of them is last, it
tells how the job has ended, and it is behind all others; if it has not, none is last. -/
def Heard (j : Job) (es : List Event) : Prop :=
  if j.state.isTerminal then
    ∃ before e, es = before ++ [e] ∧ (∀ x ∈ before, x.isTerminal = false) ∧
      e.isTerminal = true ∧ e.content = (Service.lastEvent j 0).content
  else ∀ x ∈ es, x.isTerminal = false

variable {j : Job} {es fs : List Event}

theorem heard_of_live (live : j.state.isTerminal = false) :
    j.Heard es ↔ ∀ x ∈ es, x.isTerminal = false := by
  rw [Heard, if_neg (by simp [live])]

/-- What has come before does not matter, unless it was the end. -/
theorem Heard.prepend (h : j.Heard fs) (quiet : ∀ x ∈ es, x.isTerminal = false) :
    j.Heard (es ++ fs) := by
  unfold Heard at h ⊢
  split at h
  · next terminal =>
    rw [if_pos terminal]
    obtain ⟨before, e, rfl, calm, last, content⟩ := h
    refine ⟨es ++ before, e, (List.append_assoc ..).symm, fun x hx => ?_, last, content⟩
    exact (List.mem_append.1 hx).elim (quiet x) (calm x)
  · next live =>
    rw [if_neg live]
    exact fun x hx => (List.mem_append.1 hx).elim (quiet x) (h x)

/-- Where the end has been told of, nothing comes behind it. -/
theorem Heard.complete (h : j.Heard (es ++ fs)) (told : ∃ x ∈ es, x.isTerminal = true) :
    j.Heard es ∧ fs = [] := by
  obtain ⟨x, hx, terminal⟩ := told
  unfold Heard at h ⊢
  split at h
  · next ended =>
    rw [if_pos ended]
    obtain ⟨before, e, split, calm, last, content⟩ := h
    rcases List.eq_nil_or_concat fs with rfl | ⟨front, y, rfl⟩
    · rw [List.append_nil] at split
      exact ⟨⟨before, e, split, calm, last, content⟩, rfl⟩
    · rw [List.concat_eq_append, ← List.append_assoc] at split
      have early : x ∈ before :=
        (List.append_inj_left' split rfl) ▸ List.mem_append_left front hx
      cases terminal.symm.trans (calm x early)
  · cases terminal.symm.trans (h x (List.mem_append_left fs hx))

/-- What is told of a job from some moment on says how it ends. -/
theorem Life.heard {a b : Job} (h : Life a es b) (live : a.state.isTerminal = false) :
    b.Heard es := by
  induction h with
  | refl => exact (heard_of_live live).2 (by simp)
  | step _ change ih =>
    have quiet := (heard_of_live change.live).1 ih
    refine Heard.prepend ?_ quiet
    cases change with
    | advanced _ live content _ =>
      refine (heard_of_live live).2 fun x hx => ?_
      have kind : x.kind = "state" := congrArg Prod.fst (List.mem_singleton.1 hx ▸ content)
      rw [Event.isTerminal, kind]
      decide
    | reported _ after content =>
      refine (heard_of_live (by rw [after]; rfl)).2 fun x hx => ?_
      have kind : x.kind = "progress" := congrArg Prod.fst (List.mem_singleton.1 hx ▸ content)
      rw [Event.isTerminal, kind]
      decide
    | warned live same _ => exact (heard_of_live (same ▸ live)).2 (by simp)
    | ended _ terminal _ content _ =>
      rw [Heard, if_pos terminal]
      exact ⟨[], _, rfl, by simp,
        (Event.isTerminal_of_content content).trans (isTerminal_lastEvent _ 0), content⟩

/-- Whoever looks at a job that has ended is told what everybody is told. -/
theorem heard_lastEvent (terminal : j.state.isTerminal = true) (now : Float) :
    j.Heard [Service.lastEvent j now] := by
  rw [Heard, if_pos terminal]
  exact ⟨[], _, rfl, by simp, isTerminal_lastEvent j now, content_lastEvent j now⟩

end Job

namespace Service

/-- What a follower has got when some things have happened: what it was told at once, or what it
has taken out of its queue. -/
def Follower.got (s : Service) (moves : List Move) : Follower → List Event
  | .told _ _ events => events
  | .waits _ queue => received queue s moves
  | .refused _ => []

/-- What waits for a follower. -/
def Follower.waiting (s : Service) : Follower → List Event
  | .waits _ queue => s.shared.bus.waiting queue
  | _ => []

/-- What becomes of a follower that looks at a job with its queue, by the record that the job has in
the end. -/
structure Informed (s : Service) (id : String) (q : Nat) (later : List Move) (j : Job) : Prop where
  accepted : ∀ failure, (s.look id q).1 ≠ .refused failure
  /-- as long as it stays, what it has got and what waits for it say how the job has ended -/
  heard : .leave id q ∉ later →
    j.Heard ((s.look id q).1.got (s.look id q).2 later ++
      (s.look id q).1.waiting ((s.look id q).2.after later))
  /-- one that has got something last has got nothing behind it, and it is how the job ends -/
  finished : ∀ during rest, later = during ++ rest → .leave id q ∉ during →
    (∃ e ∈ (s.look id q).1.got (s.look id q).2 during, e.isTerminal = true) →
      j.Heard ((s.look id q).1.got (s.look id q).2 during)
  /-- one that has left has no queue any more -/
  gone : .leave id q ∈ later → ((s.look id q).2.after later).shared.bus.Closed q

variable {s : Service} {id : String} {q : Nat} {j : Job}

/-- What a follower sees when it looks. -/
theorem look_cases (job : s.job? id = some j) (q : Nat) : (s.look id q).2 = s ∧
    (j.state.isTerminal = true ∧ (s.look id q).1 = .told id q [lastEvent j s.shared.now] ∨
      j.state.isTerminal = false ∧ (s.look id q).1 = .waits id q) := by
  have found : s.shared.registry.get id = .ok j := by
    rw [Registry.get, show s.shared.registry.find? id = some j from job]
  unfold look
  simp only [found]
  cases terminal : j.state.isTerminal with
  | true => exact ⟨rfl, .inl ⟨rfl, rfl⟩⟩
  | false => exact ⟨rfl, .inr ⟨rfl, rfl⟩⟩

/-! ## Records -/

theorem Touches.lives {s' : Service} {id' : String} (h : s.Touches id' s') {i : Job}
    (job : s.job? id = some i) : ∃ j, s'.job? id = some j ∧ ∃ es, i.Life es j := by
  by_cases own : id = id'
  · obtain ⟨es, -, -, life⟩ := h.told
    obtain ⟨j, job', life⟩ := life i (own ▸ job)
    exact ⟨j, own ▸ job', es, life⟩
  · exact ⟨i, (h.jobs id own).trans job, [], .refl i⟩

/-- Whatever happens, a job lives on. -/
theorem lives_stir {s' : Service} (h : s.Sound) (stir : s.Stir s') {i : Job}
    (known : (s.run? id).isSome) (job : s.job? id = some i) :
    ∃ j, s'.job? id = some j ∧ ∃ es, i.Life es j := by
  cases stir with
  | turn front =>
    obtain ⟨s', touches, same⟩ := served_touches h front
    have job : { s with ready := _ }.job? id = some i := job
    obtain ⟨j, job', life⟩ := touches.lives job
    exact ⟨j, by rw [job?, same]; exact job', life⟩
  | limit stored => exact (h.limited stored).touches.lives job
  | wake stored => exact (h.woken stored).touches.lives job
  | stop stored reason => exact (h.stopped stored reason).touches.lives job
  | attend stored => exact (h.attended stored).touches.lives job
  | enrol _ _ _ _ _ jobs => exact ⟨i, jobs id i job, [], .refl i⟩
  | aside _ _ _ jobs => exact ⟨i, jobs id i known job, [], .refl i⟩

theorem known_after (h : s.Sound) (known : (s.run? id).isSome) (moves : List Move) :
    ((s.after moves).run? id).isSome := by
  obtain ⟨r, run⟩ := Option.isSome_iff_exists.1 known
  obtain ⟨r', run', -⟩ := stirs_run h (stirs_after h moves) run
  rw [run']
  rfl

theorem lives_after (h : s.Sound) (known : (s.run? id).isSome) {i : Job}
    (job : s.job? id = some i) (moves : List Move) :
    ∃ j, (s.after moves).job? id = some j ∧ ∃ es, i.Life es j := by
  have lives := h.along
    (P := fun s => (s.run? id).isSome ∧ ∃ j, s.job? id = some j ∧ ∃ es, i.Life es j)
    (stirs_after h moves) (fun sound stir ⟨known, j, job, es, life⟩ => ?_)
    ⟨known, i, job, [], .refl i⟩
  · exact lives.2
  obtain ⟨r, run⟩ := Option.isSome_iff_exists.1 known
  obtain ⟨r', run', -⟩ := (stir_keeps sound stir).goes id r run
  obtain ⟨k, job', fs, life'⟩ := lives_stir sound stir known job
  exact ⟨by rw [run']; rfl, k, job', es ++ fs, life.trans life'⟩

/-- A record stays as it is when the job has ended. -/
theorem ended_after (h : s.Sound) (known : (s.run? id).isSome) (job : s.job? id = some j)
    (terminal : j.state.isTerminal = true) (moves : List Move) :
    (s.after moves).job? id = some j := by
  obtain ⟨k, job', es, life⟩ := lives_after h known job moves
  rw [job', (life.of_terminal terminal).2]

/-! ## Followers -/

/-- A queue that is taken out stays out. -/
theorem closed_after (h : s.Sound) (run : (s.run? id).isSome) (hears : s.shared.bus.Hears q id)
    {moves : List Move} (left : .leave id q ∈ moves) : (s.after moves).shared.bus.Closed q := by
  obtain ⟨before, rest, rfl, stays⟩ := List.eq_append_cons_of_mem left
  have kept := (after_tells h run hears before stays).1
  have sound := sound_after h (before ++ [.leave id q])
  have closed : (s.after (before ++ [.leave id q])).shared.bus.Closed q := by
    rw [after_append]
    exact Bus.closed_unregister kept
  rw [← List.singleton_append, ← List.append_assoc, after_append]
  exact closed.steps (after_bus sound rest)

/-- What a follower is told that has looked at a job with an open queue in which nothing last
waits if the job has not ended. -/
theorem informed (h : s.Sound) (run : (s.run? id).isSome) (hears : s.shared.bus.Hears q id)
    {i : Job} (job : s.job? id = some i)
    (quiet : i.state.isTerminal = false → ∀ e ∈ s.shared.bus.waiting q, e.isTerminal = false)
    (later : List Move) (final : (s.after later).job? id = some j) : s.Informed id q later j := by
  -- what is told from the look on, up to some point
  have told {during : List Move} (stays : .leave id q ∉ during) : ∃ k es,
      received q s during ++ (s.after during).shared.bus.waiting q = s.shared.bus.waiting q ++ es ∧
        (s.after during).job? id = some k ∧ i.Life es k := by
    obtain ⟨-, es, waiting, lives⟩ := after_tells h run hears during stays
    obtain ⟨k, known, life⟩ := lives i job
    exact ⟨k, es, waiting, known, life⟩
  obtain ⟨same, ⟨terminal, look⟩ | ⟨live, look⟩⟩ := look_cases job q
  · obtain rfl : j = i := Option.some.inj (final.symm.trans (ended_after h run job terminal later))
    refine ⟨fun failure => by rw [look]; simp, fun _ => ?_, fun _ _ _ _ _ => ?_, fun left => ?_⟩
    · rw [look]
      exact Job.heard_lastEvent terminal _
    · rw [look]
      exact Job.heard_lastEvent terminal _
    · rw [same]
      exact closed_after h run hears left
  · have heard {during : List Move} (stays : .leave id q ∉ during) {k : Job}
        (known : (s.after during).job? id = some k) :
        k.Heard (received q s during ++ (s.after during).shared.bus.waiting q) := by
      obtain ⟨k', es, waiting, known', life⟩ := told stays
      cases known.symm.trans known'
      rw [waiting]
      exact (life.heard live).prepend (quiet live)
    refine ⟨fun failure => by rw [look]; simp, fun stays => ?_, fun during rest split stays last => ?_,
      fun left => ?_⟩
    · rw [look, same]
      exact heard stays final
    · rw [look, same] at last ⊢
      obtain ⟨k, -, -, known, -⟩ := told stays
      obtain ⟨got, -⟩ := (heard stays known).complete last
      have terminal : k.state.isTerminal = true := by
        by_contra on
        obtain ⟨e, he, last⟩ := last
        rw [Bool.not_eq_true] at on
        cases last.symm.trans ((Job.heard_of_live on).1 got e he)
      rw [split, after_append] at final
      have still := ended_after (sound_after h during) (known_after h run during) known terminal rest
      rwa [Option.some.inj (final.symm.trans still)]
    · rw [same]
      exact closed_after h run hears left

/-- Whoever follows a job of a service is told of its end, whatever happens before, between and
after the two steps of following it. All are told the same: what the record says in the end. -/
theorem followers_told (reach : s.Reachable) (submitted : (s.run? id).isSome) (moves : List Move) :
    ∃ j, (s.after moves).job? id = some j ∧ ∀ before between later,
      moves = before ++ .listen id :: (between ++
        .look id ((s.after before).listen id).1 :: later) →
      .leave id ((s.after before).listen id).1 ∉ between →
        (((s.after before).listen id).2.after between).Informed id
          ((s.after before).listen id).1 later j := by
  have run := known_after reach.accounted.sound submitted
  have job (moves : List Move) : ∃ j, (s.after moves).job? id = some j := by
    obtain ⟨r, known⟩ := Option.isSome_iff_exists.1 (run moves)
    obtain ⟨-, j, job, -⟩ := (reach.after moves).accounted.sound.stands id r known
    exact ⟨j, job⟩
  obtain ⟨j, final⟩ := job moves
  refine ⟨j, final, ?_⟩
  rintro before between later rfl stays
  generalize hq : ((s.after before).listen id).1 = q at *
  have listened : ((s.after before).listen id).2 = s.after (before ++ [.listen id]) := by
    rw [after_append]
    rfl
  have looks : ((s.after before).listen id).2.after between =
      s.after (before ++ [.listen id] ++ between) := by rw [listened, ← after_append]
  obtain ⟨hears, waiting⟩ := (reach.after before).numbered.hears id
  have hears : (s.after (before ++ [.listen id])).shared.bus.Hears q id := by
    rw [← listened, ← hq]
    exact hears
  have waiting : (s.after (before ++ [.listen id])).shared.bus.waiting q = [] := by
    rw [← listened, ← hq]
    exact waiting
  obtain ⟨i, first⟩ := job (before ++ [.listen id])
  have tells := after_tells (reach.after _).accounted.sound (run _) hears between stays
  rw [← after_append] at tells
  obtain ⟨hears, es, told, lives⟩ := tells
  obtain ⟨k, seen, life⟩ := lives i first
  rw [waiting, List.nil_append] at told
  rw [looks]
  refine informed (reach.after _).accounted.sound (run _) hears seen (fun live e he => ?_) later ?_
  · -- a job that has not ended has not told of its end
    have began : i.state.isTerminal = false := by
      by_contra ended
      rw [Bool.not_eq_false] at ended
      rw [(life.of_terminal ended).2, ended] at live
      cases live
    refine (Job.heard_of_live live).1 (life.heard began) e ?_
    rw [← told]
    exact List.mem_append_right _ he
  · have same : ((s.after (before ++ [.listen id] ++ between)).look id q).2 =
        s.after (before ++ [.listen id] ++ between) := (look_cases seen q).1
    have rest : s.after (before ++ .listen id :: (between ++ .look id q :: later)) =
        (((s.after (before ++ [.listen id] ++ between)).look id q).2).after later := by
      simp only [after, List.foldl_append, List.foldl_cons, List.foldl_nil]
      rfl
    rw [← same, ← rest]
    exact final

/-- Two followers of a job that its first stage rejects. One has looked at it before that and reads
its queue afterwards, the other looks when all is over; both are told how it ended. -/
theorem followers_told_rejected : ∃ j,
    ((plain none).after [.submit { timeline := .null } {} true, .listen (Registry.idOf 1),
      .look (Registry.idOf 1) 0, .turn, .read 0, .leave (Registry.idOf 1) 0,
      .listen (Registry.idOf 1), .look (Registry.idOf 1) 1]).job? (Registry.idOf 1) = some j ∧
    j.state = .failed ∧
    j.Heard (received 0 ((plain none).after [.submit { timeline := .null } {} true,
      .listen (Registry.idOf 1)]) [.turn, .read 0]) ∧
    j.Heard ((((plain none).after [.submit { timeline := .null } {} true, .listen (Registry.idOf 1),
      .look (Registry.idOf 1) 0, .turn, .read 0, .leave (Registry.idOf 1) 0,
      .listen (Registry.idOf 1)]).look (Registry.idOf 1) 1).1.got (plain none) []) ∧
    ((plain none).after [.submit { timeline := .null } {} true, .listen (Registry.idOf 1),
      .look (Registry.idOf 1) 0, .turn, .read 0, .leave (Registry.idOf 1) 0,
      .listen (Registry.idOf 1), .look (Registry.idOf 1) 1]).shared.bus.Closed 0 := by
  have reach := (reachable_plain none).after [.submit { timeline := .null } {} true]
  obtain ⟨j, job, all⟩ := @followers_told _ (Registry.idOf 1) reach rfl
    [.listen (Registry.idOf 1), .look (Registry.idOf 1) 0, .turn, .read 0,
      .leave (Registry.idOf 1) 0, .listen (Registry.idOf 1), .look (Registry.idOf 1) 1]
  have early := all [] [] _ rfl (by simp)
  have late := all [.listen (Registry.idOf 1), .look (Registry.idOf 1) 0, .turn, .read 0,
    .leave (Registry.idOf 1) 0] [] [] rfl (by simp)
  have last : (received 0 ((plain none).after [.submit { timeline := .null } {} true,
      .listen (Registry.idOf 1)]) [.turn, .read 0]).any (·.isTerminal) = true := rfl
  refine ⟨j, job, by cases job; rfl, ?_, ?_, ?_⟩
  · exact early.finished [.turn, .read 0] _ rfl (by simp) (List.any_eq_true.1 last)
  · exact late.finished [] [] rfl (by simp) ⟨_, List.mem_cons_self, rfl⟩
  · have left : Move.leave (Registry.idOf 1) 0 ∈ [.turn, .read 0, .leave (Registry.idOf 1) 0] :=
      List.mem_cons_of_mem _ (List.mem_cons_of_mem _ List.mem_cons_self)
    exact early.gone (List.mem_append_left _ left)

end Service
end Montage
