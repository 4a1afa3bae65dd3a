import Montage.Proofs.Render.Within
import Montage.Proofs.Service.Alone
import Montage.Proofs.Service.Answers

/-!
# Jobs that nobody stops

As long as all who call because of a job only wait for it, it is not stopped before its first step
(`Unhindered`), so its run does not come to an end before its job does. Whoever waits for a job
whose encoder comes to an end then gets the record of a job that has ended (`wait_ended`).
-/
namespace Montage

/-- Nobody stops a run: it may begin, and all who called because of it wait. -/
structure Run.Unhindered (r : Run) : Prop where
  begins : r.stopsEarly = false
  callers : ∀ c ∈ r.callers, c.aim = .wait

/-- A caller who comes in line has waited. -/
def Turn.Waits : Turn → Prop
  | .resume c => c.aim = .wait
  | _ => True

theorem Run.Unhindered.noted {r r' : Run} (h : r.Unhindered) (notes : r' = r.noted r') :
    r'.Unhindered := by
  rw [notes]
  exact ⟨h.begins, h.callers⟩

theorem Run.Unhindered.retired {r : Run} (h : r.Unhindered) :
    Run.Unhindered { r with phase := .over, limitAt := none, callers := [] } :=
  ⟨h.begins, fun _ hc => by cases hc⟩

namespace Scene

/-- A run takes notes at most. -/
def OnlyNotes (a b : Scene) : Prop := b.run = a.run.noted b.run

instance : IsPreorder Scene OnlyNotes where
  refl _ := rfl
  trans a b c h h' := by
    unfold OnlyNotes at h h' ⊢
    rw [h', h]
    rfl

theorem allows_onlyNotes : Allows OnlyNotes where
  notes _ _ noted := noted
  tell _ _ := rfl
  call _ _ _ _ := rfl

theorem run_failJob (f : Failure) (s : Scene) : ((Act.failJob f).result s).2.run = s.run := by
  have seen (k : Scene → Act Unit) : (get >>= k).result s = (k s).result s := rfl
  rw [Act.failJob, seen]
  split
  · next j _ =>
    cases j.state.isTerminal with
    | true => rfl
    | false =>
      obtain ⟨bus, told⟩ := Act.scene_announce (fun r id now => r.fail id f now) "failed"
        (fun j => .object [("error", Json.ofOption ErrorInfo.toJson j.error)]) s
      rw [if_neg (by simp), Act.result_bind]
      generalize (Act.announce _ _ _).result s = answer at told
      obtain ⟨_ | _, m⟩ := answer
      · exact congrArg (·.run) told
      · exact congrArg (·.run) told
  · rfl

end Scene

namespace Service

variable {s s' : Service} {id : String} {r : Run} {c : Caller}

/-- Nobody stops a job of the service. -/
structure Unhindered (s : Service) : Prop where
  runs : ∀ r ∈ s.runs, r.Unhindered
  line : ∀ t ∈ s.ready, t.Waits

namespace Unhindered

/-! ## Turns -/

theorem line_put (h : s.Unhindered) (hr : r.Unhindered) {added : List Turn}
    (waits : ∀ t ∈ added, t.Waits) :
    Service.Unhindered { s.putRun r with ready := s.ready ++ added } where
  runs q hq := by
    obtain ⟨old, hold, rfl⟩ := List.mem_map.1 hq
    split
    · exact hr
    · exact h.runs old hold
  line t ht := (List.mem_append.1 ht).elim (h.line t) (waits t)

theorem put (h : s.Unhindered) (hr : r.Unhindered) : (s.putRun r).Unhindered := by
  have same : Service.Unhindered { s.putRun r with ready := s.ready ++ [] } :=
    h.line_put hr (by simp)
  rwa [List.append_nil] at same

theorem put_turn (h : s.Unhindered) (hr : r.Unhindered) {t : Turn} (waits : t.Waits) :
    ((s.putRun r).enqueue t).Unhindered :=
  h.line_put hr (by simpa using waits)

theorem shared (h : s.Unhindered) (w : Shared) : Service.Unhindered { s with shared := w } :=
  ⟨h.runs, h.line⟩

theorem retire (h : s.Unhindered) (hr : r.Unhindered) : (s.retire r).Unhindered :=
  h.line_put hr.retired fun t ht => by
    obtain ⟨c, hc, rfl⟩ := List.mem_map.1 ht
    exact hr.callers c hc

theorem conclude (h : s.Unhindered) (hr : r.Unhindered) (failure : Option Failure) :
    (s.conclude r failure).Unhindered := by
  cases failure with
  | none => exact h.retire (r := { r with isActive := false }) ⟨hr.begins, hr.callers⟩
  | some f =>
    have same := Scene.run_failJob f ⟨s.shared, r⟩
    have retired : s.conclude r (some f) =
        ({ s with shared := ((Act.failJob f).result ⟨s.shared, r⟩).2.shared }).retire
          { ((Act.failJob f).result ⟨s.shared, r⟩).2.run with isActive := false } := rfl
    rw [retired, same]
    exact (h.shared _).retire (r := { r with isActive := false }) ⟨hr.begins, hr.callers⟩

theorem finish (h : s.Unhindered) (hr : r.Unhindered) (outcome : Outcome) :
    (s.finish r outcome).Unhindered := by
  unfold Service.finish
  split
  · exact h.conclude hr _
  · exact h.put_turn (r := { r with phase := .finished outcome }) ⟨hr.begins, hr.callers⟩ trivial

theorem arrive (h : s.Unhindered) (hr : r.Unhindered) (phase : Phase) :
    (s.arrive r phase).Unhindered := by
  have moved : Run.Unhindered { r with phase } := ⟨hr.begins, hr.callers⟩
  cases phase with
  | finished outcome => exact h.finish hr outcome
  | encoding => exact h.put moved
  | _ => exact h.put_turn moved trivial

theorem stopStages (h : s.Unhindered) (hr : r.Unhindered) : (s.stopStages r).Unhindered := by
  have told (phase : Phase) : Run.Unhindered { r with mustStop := true, phase } :=
    ⟨hr.begins, hr.callers⟩
  unfold Service.stopStages
  dsimp only
  split
  · exact h.put_turn (told _) trivial
  · exact h.put_turn (told _) trivial
  · exact h.put (told r.phase)

theorem work (h : s.Unhindered) (hr : r.Unhindered) : (s.work r).Unhindered := by
  unfold Service.work
  split
  · exact h.finish (r := { r with process := r.process.map Process.kill }) ⟨hr.begins, hr.callers⟩ _
  · have notes : Scene.OnlyNotes ⟨s.shared, r⟩
        ((Act.stage s.setup r.phase).result ⟨s.shared, r⟩).2 :=
      Act.within_stage Scene.allows_onlyNotes (fun _ _ _ _ => rfl) r.phase ⟨s.shared, r⟩
    have perform : s.perform r (Act.stage s.setup r.phase) =
        (((Act.stage s.setup r.phase).result ⟨s.shared, r⟩).1,
          { s with shared := ((Act.stage s.setup r.phase).result ⟨s.shared, r⟩).2.shared },
          ((Act.stage s.setup r.phase).result ⟨s.shared, r⟩).2.run) := rfl
    rw [perform]
    generalize (Act.stage s.setup r.phase).result ⟨s.shared, r⟩ = result at notes
    obtain ⟨f | phase, m⟩ := result
    · exact (h.shared m.shared).finish (hr.noted notes) _
    · exact (h.shared m.shared).arrive (hr.noted notes) phase

theorem start (h : s.Unhindered) (hr : r.Unhindered) : (s.start r).Unhindered := by
  unfold Service.start
  split
  · exact h.retire hr
  · split
    · exact h.work hr
    · refine h.put_turn ?_ trivial
      split <;> exact ⟨hr.begins, hr.callers⟩

theorem hearLimit (h : s.Unhindered) (hr : r.Unhindered) : (s.hearLimit r).Unhindered := by
  unfold Service.hearLimit
  split
  · exact h
  · exact h.conclude hr _
  · exact h
  · exact h.stopStages (r := { r with stopCause := some .timeout }) ⟨hr.begins, hr.callers⟩
  · exact h

theorem hearCancel (h : s.Unhindered) (hr : r.Unhindered) : (s.hearCancel r).Unhindered := by
  unfold Service.hearCancel
  split
  · exact h
  · exact h.conclude hr _
  · exact h.conclude hr _
  · exact h.stopStages (r := { r with stopCause := some .cancel, limitAt := none })
      ⟨hr.begins, hr.callers⟩

theorem hearEnd (h : s.Unhindered) (hr : r.Unhindered) : (s.hearEnd r).Unhindered := by
  unfold Service.hearEnd
  split
  · split <;> exact h.conclude hr _
  · exact h

theorem ringLimit (h : s.Unhindered) (hr : r.Unhindered) : (s.ringLimit r).Unhindered := by
  unfold Service.ringLimit
  split
  · split
    · exact h.put_turn (r := { r with limitAt := none }) ⟨hr.begins, hr.callers⟩ trivial
    · exact h
  · exact h

theorem ringWake (h : s.Unhindered) (hr : r.Unhindered) : (s.ringWake r).Unhindered := by
  unfold Service.ringWake
  split
  · split
    · refine h.put_turn (t := .work r.id) ?_ trivial
      exact ⟨hr.begins, hr.callers⟩
    · exact h
  · exact h

theorem onRun (h : s.Unhindered) {f : Service → Run → Service}
    (keeps : ∀ r, r.Unhindered → (f s r).Unhindered) (id : String) :
    (s.onRun id f).Unhindered := by
  unfold Service.onRun
  split
  · next r run => exact keeps r (h.runs r (List.mem_of_find?_eq_some run))
  · exact h

theorem serve (h : s.Unhindered) {t : Turn} (idle : t.isResume = false) :
    (s.serve t).Unhindered := by
  cases t with
  | start id => exact h.onRun (fun r hr => h.start hr) id
  | work id => exact h.onRun (fun r hr => h.work hr) id
  | limit id => exact h.onRun (fun r hr => h.hearLimit hr) id
  | cancel id => exact h.onRun (fun r hr => h.hearCancel hr) id
  | settle id => exact h.onRun (fun r hr => h.hearEnd hr) id
  | resume c => cases idle

theorem ringFor (h : s.Unhindered) (id : String) : (s.ringFor id).Unhindered :=
  have limit := h.onRun (fun _ hr => h.ringLimit hr) id
  limit.onRun (fun _ hr => limit.ringWake hr) id

theorem attend (h : s.Unhindered) (waits : c.aim = .wait) : (s.attend c).Unhindered := by
  refine h.onRun (fun r hr => ?_) c.job
  split
  · refine ⟨h.runs, fun t ht => ?_⟩
    rcases List.mem_append.1 ht with old | new
    · exact h.line t old
    · exact List.mem_singleton.1 new ▸ waits
  · refine h.put (r := { r with callers := r.callers ++ [c] }) ⟨hr.begins, fun d hd => ?_⟩
    rcases List.mem_append.1 hd with old | new
    · exact hr.callers d old
    · exact List.mem_singleton.1 new ▸ waits

end Unhindered

/-! ## Answers -/

/-- Nobody stops a job, and whoever was told of one was told that it has ended. -/
structure Smooth (s : Service) : Prop extends Service.Unhindered s where
  sound : s.Sound
  answers : ∀ a ∈ s.answers, ∃ j, a.reply = .job (.ok j) ∧ j.state.isTerminal = true

/-- A job whose run is over has ended. -/
theorem Smooth.ended (h : s.Smooth) (run : s.run? id = some r) (ended : r.phase = .over) :
    ∃ j, s.shared.registry.get id = .ok j ∧ j.state.isTerminal = true := by
  obtain ⟨-, j, job, stands⟩ := h.sound.stands id r run
  refine ⟨j, by rw [Registry.get, show s.shared.registry.find? id = some j from job], ?_⟩
  rcases (stands.ended ended).2 with gone | ⟨-, early, -⟩
  · exact (stands.left gone).2
  · cases (h.runs r (List.mem_of_find?_eq_some run)).begins.symm.trans early

theorem Smooth.turn (h : s.Smooth) {t : Turn} {rest : List Turn} (front : s.ready = t :: rest) :
    ({ s with ready := rest }.serve t).Smooth := by
  have left : Service.Unhindered { s with ready := rest } :=
    ⟨h.runs, fun u hu => h.line u (by rw [front]; exact List.mem_cons_of_mem t hu)⟩
  have sound := (h.sound.served front).sound
  -- only a caller who resumes gets an answer, and that is when the run is over
  cases idle : t.isResume with
  | false =>
    obtain ⟨_, _, serves⟩ := h.sound.turn front idle
    refine ⟨left.serve idle, sound, ?_⟩
    rw [serves.leads.touches.answers]
    exact h.answers
  | true =>
    cases t with
    | resume c =>
      have waits : c.aim = .wait := h.line (.resume c) (by rw [front]; exact List.mem_cons_self)
      obtain ⟨r, j, run, -, ended, -⟩ := h.sound.over front
      obtain ⟨j, told, terminal⟩ := h.ended run ended
      simp only [Service.serve, resume, waits] at sound ⊢
      refine ⟨⟨left.runs, left.line⟩, sound, fun a ha => ?_⟩
      rcases List.mem_append.1 ha with old | new
      · exact h.answers a old
      · rw [List.mem_singleton.1 new]
        exact ⟨j, congrArg Reply.job told, terminal⟩
    | _ => cases idle

theorem Smooth.goesOn (h : s.Smooth) (on : s.GoesOn s') : s'.Smooth := by
  obtain ⟨moves, own, rfl⟩ := on
  induction moves generalizing s with
  | nil => exact h
  | cons m rest ih =>
    refine ih ?_ fun n hn => own n (List.mem_cons_of_mem m hn)
    have own := own m List.mem_cons_self
    have sound := sound_stirs h.sound (act_stirs h.sound m)
    cases m with
    | turn =>
      cases front : s.ready with
      | nil => exact (act_turn_nil front).symm ▸ h
      | cons t rest => exact (act_turn front).symm ▸ h.turn front
    | ring id =>
      refine ⟨h.ringFor id, sound, ?_⟩
      rw [show (Move.act s (.ring id)).answers = s.answers from (lines_ringFor s id).answers]
      exact h.answers
    | clock moment =>
      show (if s.shared.now < moment then s.moveTo moment else s).Smooth
      split
      · next later =>
        have moved : Move.act s (.clock moment) = s.moveTo moment := if_pos later
        exact ⟨h.shared _, moved ▸ sound, h.answers⟩
      · exact h
    | _ => exact own.elim

/-- Someone calls for the end of a job. -/
theorem Smooth.call (h : s.Smooth) (run : s.run? id = some r) : (s.call id .wait).Smooth := by
  have sound := sound_stirs h.sound (stirs_call h.sound id .wait)
  have counted : Service.Unhindered { s with calls := s.calls + 1 } := ⟨h.runs, h.line⟩
  rw [call_wait, run, Option.any_some] at sound ⊢
  split
  · next active =>
    rw [if_pos active] at sound
    refine ⟨counted.attend rfl, sound, ?_⟩
    rw [(lines_attend _ _).answers]
    exact h.answers
  · next gone =>
    rw [if_neg gone] at sound
    obtain ⟨-, _, -, stands⟩ := h.sound.stands id r run
    obtain ⟨j, told, terminal⟩ := h.ended run (stands.left (Bool.eq_false_of_not_eq_true gone)).1
    refine ⟨⟨h.runs, h.line⟩, sound, fun a ha => ?_⟩
    rcases List.mem_append.1 ha with old | new
    · exact h.answers a old
    · rw [List.mem_singleton.1 new]
      exact ⟨j, congrArg Reply.job told, terminal⟩

end Service
end Montage
