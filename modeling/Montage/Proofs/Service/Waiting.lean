import Montage.Proofs.Service.Moves

/-!
# Waiting comes to an end

Going on at the present moment or at the next one takes away from `allEffort` (`advance_less`), so
a wait ends when what is waited for has come, or when nothing happens any more
(`waitUntil_ends`). A run whose encoder comes to an end by itself has come to its own end then
(`over_of_still`).
-/
namespace Montage.Service

variable {s s' : Service} {id : String} {r : Run} {own : Option Float}

/-! ## What there is to do -/

/-- What there is to do for a job at a moment. -/
def load (s : Service) (now : Float) (id : String) : Nat :=
  ((s.run? id).map (effort now)).getD 0

theorem Sound.run?_of_mem (h : s.Sound) (hr : r ∈ s.runs) : s.run? r.id = some r := by
  obtain ⟨r', hr'⟩ := Option.isSome_iff_exists.1
    (List.find?_isSome.2 ⟨r, hr, by simp⟩ : (s.runs.find? (·.id == r.id)).isSome)
  have same : r' = r :=
    List.inj_on_of_nodup_map h.nodup (List.mem_of_find?_eq_some hr') hr (id_of_run? hr')
  exact same ▸ hr'

/-- The effort for all runs after something has happened to one. -/
theorem Sound.totalEffort_run (h : s.Sound) (h' : s'.Sound)
    (ids : s'.runs.map (·.id) = s.runs.map (·.id))
    (others : ∀ id', id' ≠ id → s'.run? id' = s.run? id') {r' : Run} (run : s.run? id = some r)
    (run' : s'.run? id = some r') (now : Float) :
    totalEffort now s'.runs + effort now r = totalEffort now s.runs + effort now r' := by
  have known : id ∈ s.runs.map (·.id) := by
    by_contra unknown
    cases ((run?_eq_none_iff s id).2 unknown).symm.trans run
  have total (runs : List Run) : totalEffort now runs = List.sum (runs.map (effort now)) := by
    rw [totalEffort, List.sum, List.foldr_map]
  -- the effort for all runs, job by job
  have jobs {s : Service} (h : s.Sound) :
      totalEffort now s.runs = List.sum ((s.runs.map (·.id)).map (s.load now)) := by
    rw [total, List.map_map]
    congr 1
    refine List.map_congr_left fun r hr => ?_
    simp only [Function.comp, load, h.run?_of_mem hr, Option.map_some, Option.getD_some]
  have rest : ((s.runs.map (·.id)).erase id).map (s'.load now) =
      ((s.runs.map (·.id)).erase id).map (s.load now) := by
    refine List.map_congr_left fun id' hid' => ?_
    rw [load, others id' (h.nodup.mem_erase_iff.1 hid').1, load]
  have own : s.load now id = effort now r := by rw [load, run]; rfl
  have own' : s'.load now id = effort now r' := by rw [load, run']; rfl
  have before := ((List.perm_cons_erase known).map (s.load now)).sum_nat
  have after := ((List.perm_cons_erase known).map (s'.load now)).sum_nat
  rw [jobs h, jobs h', ids]
  rw [List.map_cons, List.sum_cons, own] at before
  rw [List.map_cons, List.sum_cons, own', rest] at after
  omega

/-! ## Going on at the present moment -/

theorem does_less (own : Option Float) (h : s.Sound) {t : Turn} {rest : List Turn} (front : s.ready = t :: rest)
    {r' : Run} {j' : Job} {added : List Turn}
    (does : { s with ready := rest }.Does t.job s' r' j' added) (h' : s'.Sound)
    (run : s.run? t.job = some r)
    (less : added.length + effort s.shared.now r' ≤ effort s.shared.now r) :
    s'.allEffort own < s.allEffort own := by
  have sum := h.totalEffort_run h' does.touches.ids (fun id ne => does.touches.runs id ne) run
    does.run s.shared.now
  have ready : s'.ready.length = rest.length + added.length := by
    rw [does.ready, List.length_append]
  have time : s'.shared.now = s.shared.now := does.touches.time
  simp only [allEffort, time, front, List.length_cons]
  omega

/-- A turn takes something away from what there is to do. -/
theorem turn_less (h : s.Sound) {t : Turn} {rest : List Turn} (front : s.ready = t :: rest) :
    ({ s with ready := rest }.serve t).allEffort own < s.allEffort own := by
  have h' := (h.served front).sound
  cases idle : t.isResume with
  | false =>
    obtain ⟨r, run, r', j', added, does, -, less, -⟩ := h.turn front idle
    have id : r.id = t.job := id_of_run? run
    exact does_less own h front (id ▸ does) h' run less
  | true =>
    cases t with
    | resume c =>
      cases aim : c.aim with
      | wait =>
        simp only [serve, resume, aim, answer, allEffort, front, List.length_cons]
        omega
      | cancel reason =>
        obtain ⟨r, j, j', run, -, -, -, does, -⟩ := h.closed front reason
        simp only [serve, resume, aim] at h' ⊢
        have closed := does_less own h front does ⟨h'.nodup, h'.time, h'.stray, h'.stands⟩ run
          (Nat.le_of_eq (Nat.zero_add _))
        exact closed
    | _ => cases idle

/-- Alarms have taken away twice as much as they have put in line. -/
structure Rung (s s' : Service) : Prop where
  sound : s'.Sound
  time : s'.shared.now = s.shared.now
  less : totalEffort s.shared.now s'.runs + 2 * s'.ready.length ≤
    totalEffort s.shared.now s.runs + 2 * s.ready.length

theorem Rung.refl (h : s.Sound) : s.Rung s := ⟨h, rfl, Nat.le_refl _⟩

theorem Rung.trans {s'' : Service} (h : s.Rung s') (h' : s'.Rung s'') : s.Rung s'' where
  sound := h'.sound
  time := h'.time.trans h.time
  less := by
    have := h'.less
    rw [h.time] at this
    exact Nat.le_trans this h.less

theorem Rings.rung (h : s.Sound) {j : Job} (stored : s.run? r.id = some r) (rings : s.Rings r j s')
    (sound : s'.Sound) : s.Rung s' := by
  obtain ⟨r', added, does, -, less, -⟩ := rings
  have sum := h.totalEffort_run sound does.touches.ids (fun id ne => does.touches.runs id ne) stored
    does.run s.shared.now
  refine ⟨sound, does.touches.time, ?_⟩
  rw [does.ready, List.length_append]
  omega

theorem rung_onRun (h : s.Sound) {f : Service → Run → Service} (stir : ∀ r, s.run? r.id = some r →
      s.Stir (f s r)) (rings : ∀ r j, s.run? r.id = some r → s.job? r.id = some j →
      Stands j r (s.line r.id) r.due → s.Rings r j (f s r)) (id : String) : s.Rung (s.onRun id f) := by
  unfold onRun
  split
  · next r run =>
    obtain rfl := id_of_run? run
    obtain ⟨-, j, job, stands⟩ := h.stands r.id r run
    exact (rings r j run job stands).rung h run (stir_keeps h (stir r run)).sound
  · exact .refl h

theorem rung_ringFor (h : s.Sound) (id : String) : s.Rung (s.ringFor id) := by
  have limit := rung_onRun h (fun r run => .limit run)
    (fun r j run job stands => ringLimit_rings run job stands) id
  exact limit.trans (rung_onRun limit.sound (fun r run => .wake run)
    (fun r j run job stands => ringWake_rings run job stands) id)

theorem rung_ring (h : s.Sound) : s.Rung s.ring := by
  unfold ring
  generalize s.runs.map (·.id) = ids
  induction ids generalizing s with
  | nil => exact .refl h
  | cons id ids ih =>
    have first := rung_ringFor h id
    exact first.trans (ih first.sound)

/-! ## Going on -/

theorem weight_mono {now later moment : Float} (h : now < later) :
    weight later moment ≤ weight now moment := by
  unfold weight
  split
  · split <;> omega
  · next late =>
    have later : ¬moment ≤ now := fun early =>
      late (Double.le_of_lt (Double.lt_of_le_of_lt early h))
    exact Nat.le_of_eq (if_neg later).symm

/-- The weight of a moment goes down when it comes. -/
theorem weight_less {now moment : Float} (h : now < moment) :
    weight moment moment < weight now moment := by
  unfold weight
  rw [if_pos (Double.le_self (Double.isNaN_of_lt h)), if_neg (Double.not_le_of_lt h)]
  omega

theorem stageEffort_mono {now later : Float} (h : now < later) (r : Run) (phase : Phase) :
    stageEffort later r phase ≤ stageEffort now r phase := by
  cases phase with
  | encoding t c pause =>
    cases pause with
    | asleep wake => exact Nat.add_le_add_left (weight_mono h) _
    | _ => exact Nat.le_refl _
  | _ => exact Nat.le_refl _

theorem limit_mono {now later : Float} (h : now < later) (limit : Option Float) :
    (limit.map (weight later)).getD 0 ≤ (limit.map (weight now)).getD 0 := by
  cases limit with
  | none => exact Nat.le_refl 0
  | some t => exact weight_mono h

theorem effort_mono {now later : Float} (h : now < later) (r : Run) :
    effort later r ≤ effort now r := by
  have stages := stageEffort_mono h r r.phase
  have limit := limit_mono h r.limitAt
  unfold effort
  omega

/-- What there is to do for a run goes down when a moment comes at which it hears something. -/
theorem effort_less {now moment : Float} (h : now < moment) (alarm : moment ∈ alarms r) :
    effort moment r < effort now r := by
  have stages := stageEffort_mono h r r.phase
  have limit := limit_mono h r.limitAt
  rcases List.mem_append.1 alarm with own | wake
  · have less : (r.limitAt.map (weight moment)).getD 0 < (r.limitAt.map (weight now)).getD 0 := by
      rw [Option.mem_toList] at own
      rw [own]
      exact weight_less h
    unfold effort
    omega
  · have less : stageEffort moment r r.phase < stageEffort now r r.phase := by
      split at wake
      · next phase =>
        rw [List.mem_singleton.1 wake] at h ⊢
        rw [phase]
        exact Nat.add_lt_add_left (weight_less h) _
      · cases wake
    unfold effort
    omega

theorem totalEffort_mono {now later : Float} (h : now < later) (runs : List Run) :
    totalEffort later runs ≤ totalEffort now runs := by
  induction runs with
  | nil => exact Nat.le_refl 0
  | cons r rest ih => exact Nat.add_le_add (effort_mono h r) ih

theorem totalEffort_less {now moment : Float} (h : now < moment) {runs : List Run} (hr : r ∈ runs)
    (alarm : moment ∈ alarms r) : totalEffort moment runs < totalEffort now runs := by
  induction runs with
  | nil => cases hr
  | cons q rest ih =>
    rcases List.mem_cons.1 hr with rfl | behind
    · exact Nat.add_lt_add_of_lt_of_le (effort_less h alarm) (totalEffort_mono h rest)
    · exact Nat.add_lt_add_of_le_of_lt (effort_mono h q) (ih behind)

theorem mem_of_earliest {now moment : Float} {moments : List Float}
    (h : earliest now moments = some moment) : moment ∈ moments ∧ now < moment := by
  have kept (later : List Float) (best : Option Float)
      (h : later.foldl earlier best = some moment) : moment ∈ later ∨ best = some moment := by
    induction later generalizing best with
    | nil => exact .inr h
    | cons t later ih =>
      rcases ih _ h with mem | same
      · exact .inl (List.mem_cons_of_mem t mem)
      · unfold earlier at same
        split at same
        · split at same
          · cases same
            exact .inl List.mem_cons_self
          · exact .inr same
        · cases same
          exact .inl List.mem_cons_self
  have mem := (kept _ none h).resolve_right (by simp)
  simpa using List.mem_filter.1 mem

/-- A moment that comes takes something away from what there is to do. -/
theorem moveTo_less {moment : Float} (next : s.nextMoment own = some moment) :
    (s.moveTo moment).allEffort own < s.allEffort own := by
  obtain ⟨mem, later⟩ := mem_of_earliest next
  have total := totalEffort_mono later s.runs
  have limit := limit_mono later own
  show s.ready.length + totalEffort moment s.runs + (own.map (weight moment)).getD 0 < _
  unfold allEffort
  rcases List.mem_append.1 mem with mine | alarm
  · rw [Option.mem_toList] at mine
    subst mine
    have less := weight_less later
    simp only [Option.map_some, Option.getD_some]
    omega
  · obtain ⟨r, hr, alarm⟩ := List.mem_flatMap.1 alarm
    have less := totalEffort_less later hr alarm
    omega

/-! ## Waiting -/

/-- What a service does by itself. -/
def OwnMove : Move → Prop
  | .turn => True
  | .ring _ => True
  | .clock _ => True
  | _ => False

/-- The service goes on by itself to another state. -/
def GoesOn (s s' : Service) : Prop := ∃ moves, (∀ m ∈ moves, OwnMove m) ∧ s' = s.after moves

theorem GoesOn.refl (s : Service) : s.GoesOn s := ⟨[], by simp, rfl⟩

theorem GoesOn.trans {s'' : Service} (h : s.GoesOn s') (h' : s'.GoesOn s'') : s.GoesOn s'' := by
  obtain ⟨ms, own, rfl⟩ := h
  obtain ⟨ns, own', rfl⟩ := h'
  refine ⟨ms ++ ns, fun m hm => ?_, (after_append s ms ns).symm⟩
  exact (List.mem_append.1 hm).elim (own m) (own' m)

theorem GoesOn.stirs (h : s.GoesOn s') (sound : s.Sound) : s.Stirs s' := by
  obtain ⟨moves, -, rfl⟩ := h
  exact stirs_after sound moves

theorem GoesOn.sound (h : s.GoesOn s') (sound : s.Sound) : s'.Sound :=
  sound_stirs sound (h.stirs sound)

theorem goesOn_ring (s : Service) : s.GoesOn s.ring := by
  refine ⟨(s.runs.map (·.id)).map .ring, fun m hm => ?_, ?_⟩
  · obtain ⟨id, -, rfl⟩ := List.mem_map.1 hm
    trivial
  · rw [after, List.foldl_map]
    rfl

theorem goesOn_move {m : Move} (own : OwnMove m) : s.GoesOn (m.act s) :=
  ⟨[m], by simpa using own, rfl⟩

/-- What goes on at the present moment is a turn, or alarms that put someone in line. -/
theorem stir_cases (s : Service) :
    (∃ t rest, s.ready = t :: rest ∧ s.stir? = some ({ s with ready := rest }.serve t)) ∨
      s.ready = [] ∧ (s.ring.ready ≠ [] ∧ s.stir? = some s.ring ∨
        s.ring.ready = [] ∧ s.stir? = none) := by
  unfold stir? turn?
  cases front : s.ready with
  | cons t rest => exact .inl ⟨t, rest, rfl, rfl⟩
  | nil =>
    refine .inr ⟨rfl, ?_⟩
    cases rung : s.ring.ready with
    | nil => exact .inr ⟨rfl, rfl⟩
    | cons t rest => exact .inl ⟨by simp, rfl⟩

/-- Going on takes something away from what there is to do. -/
theorem advance_less (h : s.Sound) (step : advance? own s = some s') :
    s'.allEffort own < s.allEffort own ∧ s.GoesOn s' := by
  unfold advance? at step
  rcases stir_cases s with ⟨t, rest, front, stir⟩ | ⟨empty, ⟨someone, stir⟩ | ⟨-, stir⟩⟩
  · rw [stir] at step
    cases step
    exact ⟨turn_less h front, act_turn front ▸ goesOn_move (m := .turn) trivial⟩
  · rw [stir] at step
    cases step
    refine ⟨?_, goesOn_ring s⟩
    have rung := rung_ring h
    have less := rung.less
    have some : 0 < s.ring.ready.length := List.length_pos_of_ne_nil someone
    rw [empty, List.length_nil] at less
    rw [allEffort, allEffort, rung.time, empty, List.length_nil]
    omega
  · rw [stir] at step
    obtain ⟨moment, next, rfl⟩ := Option.map_eq_some_iff.1 step
    have later := (mem_of_earliest next).2
    have moved : Move.act s (.clock moment) = s.moveTo moment := if_pos later
    exact ⟨moveTo_less next, moved ▸ goesOn_move (m := .clock moment) trivial⟩

/-- Waiting ends when what is waited for has come, or when nothing happens any more. -/
theorem waitUntil_ends (h : s.Sound) (own : Option Float) (holds : Service → Bool) :
    s.GoesOn (s.waitUntil own holds) ∧
      (holds (s.waitUntil own holds) = true ∨ advance? own (s.waitUntil own holds) = none) := by
  have within (n : Nat) (enough : s.allEffort own ≤ n) : s.GoesOn (waitWithin own holds n s) ∧
      (holds (waitWithin own holds n s) = true ∨ advance? own (waitWithin own holds n s) = none) := by
    induction n generalizing s with
    | zero =>
      refine ⟨.refl s, .inr ?_⟩
      rw [waitWithin]
      cases step : advance? own s with
      | none => rfl
      | some s' =>
        have := (advance_less h step).1
        omega
    | succ n ih =>
      rw [waitWithin]
      split
      · next yes => exact ⟨.refl s, .inl yes⟩
      · split
        · next s' step =>
          obtain ⟨less, on⟩ := advance_less h step
          obtain ⟨on', ends⟩ := ih (on.sound h) (by omega)
          exact ⟨on.trans on', ends⟩
        · next step => exact ⟨.refl s, .inr step⟩
  exact within _ (Nat.le_refl _)

/-! ## When nothing happens any more -/

/-- Something changes nothing, or puts someone in line. -/
def Grows (s s' : Service) : Prop := s' = s ∨ s.ready.length < s'.ready.length

theorem Grows.trans {s'' : Service} (h : s.Grows s') (h' : s'.Grows s'') : s.Grows s'' := by
  rcases h with rfl | more
  · exact h'
  · rcases h' with rfl | more'
    · exact .inr more
    · exact .inr (Nat.lt_trans more more')

theorem Grows.le (h : s.Grows s') : s.ready.length ≤ s'.ready.length := by
  rcases h with rfl | more
  · exact Nat.le_refl _
  · exact Nat.le_of_lt more

/-- Where nobody has come in line, nothing has changed in between. -/
theorem Grows.same {s'' : Service} (h : s.Grows s') (h' : s'.Grows s'')
    (length : s''.ready.length = s.ready.length) : s' = s := by
  rcases h with same | more
  · exact same
  · have := h'.le
    omega

theorem grows_onRun {f : Service → Run → Service} (h : ∀ r, s.Grows (f s r)) (id : String) :
    s.Grows (s.onRun id f) := by
  unfold onRun
  split
  · exact h _
  · exact .inl rfl

theorem grows_ringLimit (s : Service) (r : Run) : s.Grows (s.ringLimit r) := by
  unfold ringLimit
  split
  · split
    · exact .inr (by simp [enqueue, putRun])
    · exact .inl rfl
  · exact .inl rfl

theorem grows_ringWake (s : Service) (r : Run) : s.Grows (s.ringWake r) := by
  unfold ringWake
  split
  · split
    · exact .inr (by simp [enqueue, putRun])
    · exact .inl rfl
  · exact .inl rfl

theorem grows_ring (ids : List String) (s : Service) : s.Grows (ids.foldl ringFor s) := by
  induction ids generalizing s with
  | nil => exact .inl rfl
  | cons id ids ih =>
    have limit : s.Grows (s.onRun id ringLimit) := grows_onRun (grows_ringLimit s) id
    exact (limit.trans (grows_onRun (grows_ringWake _) id)).trans (ih _)

/-- Alarms that put nobody in line have not rung. -/
theorem still_of_ring {ids : List String} (length : (ids.foldl ringFor s).ready.length =
    s.ready.length) (mem : id ∈ ids) : s.onRun id ringWake = s := by
  induction ids with
  | nil => cases mem
  | cons id' ids ih =>
    have limit : s.Grows (s.onRun id' ringLimit) := grows_onRun (grows_ringLimit s) id'
    have wake : (s.onRun id' ringLimit).Grows (s.ringFor id') := grows_onRun (grows_ringWake _) id'
    have rest := grows_ring ids (s.ringFor id')
    have quiet := limit.same (wake.trans rest) length
    rw [quiet] at wake
    have same := wake.same rest length
    rcases List.mem_cons.1 mem with rfl | later
    · rwa [ringFor, quiet] at same
    · rw [List.foldl_cons, same] at length
      exact ih length later

theorem not_lt_of_earliest {now : Float} {moments : List Float} (never : earliest now moments = none)
    {moment : Float} (mem : moment ∈ moments) : ¬now < moment := by
  have found (later : List Float) (t : Float) : (later.foldl earlier (some t)).isSome := by
    induction later generalizing t with
    | nil => rfl
    | cons u later ih =>
      rw [List.foldl_cons, earlier]
      split <;> exact ih _
  intro later
  have kept : moment ∈ moments.filter fun t => now < t :=
    List.mem_filter.2 ⟨mem, by simpa using later⟩
  unfold earliest at never
  cases front : moments.filter fun t => now < t with
  | nil =>
    rw [front] at kept
    cases kept
  | cons t rest =>
    rw [front, List.foldl_cons] at never
    exact Option.isSome_iff_ne_none.1 (found rest t) never

/-- When nothing happens any more, nobody is in line, and nobody comes there. -/
theorem ready_of_still (still : advance? own s = none) :
    s.ready = [] ∧ s.ring.ready = [] ∧ s.nextMoment own = none := by
  unfold advance? at still
  rcases stir_cases s with ⟨t, rest, front, stir⟩ | ⟨empty, ⟨someone, stir⟩ | ⟨quiet, stir⟩⟩
  · rw [stir] at still
    cases still
  · rw [stir] at still
    cases still
  · rw [stir] at still
    exact ⟨empty, quiet, Option.map_eq_none_iff.1 still⟩

theorem due_of_ready (h : s.Sound) (run : s.run? id = some r) (empty : s.ready = []) :
    r.phase = .over ∨ r.due = [] := by
  obtain ⟨-, j, job, stands⟩ := h.stands id r run
  refine stands.steps.imp_right fun steps => ?_
  rw [← steps, line, empty]
  rfl

/-- When nothing happens any more, a run whose encoder comes to an end is over. -/
theorem over_of_still (h : s.Sound) (run : s.run? id = some r) (ends : r.script.ends = true)
    (still : advance? none s = none) : r.phase = .over := by
  obtain rfl := id_of_run? run
  obtain ⟨empty, quiet, never⟩ := ready_of_still still
  obtain ⟨-, j, job, stands⟩ := h.stands r.id r run
  by_contra on
  have due := (due_of_ready h run empty).resolve_left on
  have fits := stands.fits
  unfold Run.due at due
  split at due <;> try cases due
  · next t c pause waits phase =>
    rw [phase] at fits
    obtain ⟨-, p, -, going, wakes⟩ := fits
    obtain ⟨-, wakes⟩ := wakes ends
    cases pause with
    | ended => exact going rfl
    | awake => exact waits rfl
    | hanging => exact wakes
    | asleep wake =>
      have known : r ∈ s.runs := List.mem_of_find?_eq_some run
      by_cases due : wake ≤ s.shared.now
      · have quiet : s.onRun r.id ringWake = s :=
          still_of_ring (by rw [← ring, quiet, empty]) (List.mem_map_of_mem known)
        rw [onRun, run] at quiet
        simp only [ringWake, phase, if_pos due] at quiet
        have length := congrArg (·.ready.length) quiet
        simp [enqueue, putRun] at length
      · have later := Double.lt_of_not_le h.time wakes due
        have alarm : wake ∈ s.runs.flatMap alarms :=
          List.mem_flatMap.2 ⟨r, known, List.mem_append_right _ (by rw [phase]; exact List.mem_cons_self)⟩
        exact not_lt_of_earliest never alarm later
  · next ended => exact on ended

end Montage.Service
