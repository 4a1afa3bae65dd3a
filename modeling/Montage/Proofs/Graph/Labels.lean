import Mathlib.Algebra.Order.Group.Multiset
import Mathlib.Data.List.DropRight
import Montage.Graph.Label

/-!
# Building steps, and the labels they use up

`Build` threads the stems of all labels that were given out. The first half opens a building
step that succeeds into what its parts did (`run_bind_ok` and its companions), so that no later
proof looks at how the state is threaded.

The second half is freshness. `issued ls` are the labels given out by the time the stems are
`ls`, dropped ones included. Two stems that do not end in a digit never give the same label
(`numbered_inj`), so all labels ever issued differ (`issued_nodup`). `Issues ls ls' xs` says that
the labels `xs` were given out between `ls` and `ls'`; it composes along a run of steps.
-/
namespace Montage.Graph

variable {α β : Type}

/-! ## Steps that succeed -/

theorem except_bind_ok {ε : Type} {x : Except ε α} {f : α → Except ε β} {b : β} :
    x >>= f = .ok b ↔ ∃ a, x = .ok a ∧ f a = .ok b := by
  cases x <;> simp [bind, Except.bind]

theorem except_map_ok {ε : Type} {x : Except ε α} {f : α → β} {b : β} :
    x.map f = .ok b ↔ ∃ a, x = .ok a ∧ f a = b := by
  cases x <;> simp [Except.map]

theorem run_bind_ok {x : Build α} {f : α → Build β} {ls ls' : Labels} {b : β} :
    (x >>= f).run ls = .ok (b, ls') ↔
      ∃ a l, x.run ls = .ok (a, l) ∧ (f a).run l = .ok (b, ls') := by
  simp only [StateT.run_bind]
  cases hx : x.run ls with
  | error e => simp [bind, Except.bind]
  | ok p =>
    obtain ⟨a, l⟩ := p
    simp only [bind, Except.bind, Except.ok.injEq, Prod.mk.injEq]
    constructor
    · exact fun h => ⟨a, l, ⟨rfl, rfl⟩, h⟩
    · rintro ⟨_, _, ⟨rfl, rfl⟩, h⟩
      exact h

theorem run_pure_ok {a b : α} {ls ls' : Labels} :
    (pure a : Build α).run ls = .ok (b, ls') ↔ a = b ∧ ls = ls' := by
  rw [StateT.run_pure]
  simp [pure, Except.pure]

theorem run_attempt_ok {x : Except Fault α} {a : α} {ls ls' : Labels} :
    (attempt x).run ls = .ok (a, ls') ↔ x = .ok a ∧ ls = ls' := by
  cases x <;> simp [attempt, StateT.run]

theorem run_lift_ok {x : Except Failure α} {a : α} {ls ls' : Labels} :
    (liftM x : Build α).run ls = .ok (a, ls') ↔ x = .ok a ∧ ls = ls' := by
  cases x <;> simp [liftM, monadLift, MonadLift.monadLift, StateT.lift, StateT.run, bind,
    Except.bind, pure, Except.pure]

/-- What is built in turn, one by one. -/
theorem run_mapM_ok {f : α → Build β} {xs : List α} {ys : List β} {ls ls' : Labels}
    (h : (xs.mapM f).run ls = .ok (ys, ls')) :
    List.Forall₂ (fun x y => ∃ l l', (f x).run l = .ok (y, l')) xs ys := by
  induction xs generalizing ys ls with
  | nil =>
    simp only [List.mapM_nil, run_pure_ok] at h
    obtain ⟨rfl, -⟩ := h
    exact .nil
  | cons x xs ih =>
    simp only [List.mapM_cons, run_bind_ok, run_pure_ok] at h
    obtain ⟨y, _, hy, rest, _, hrest, rfl, rfl⟩ := h
    exact .cons ⟨_, _, hy⟩ (ih hrest)

theorem run_throw_ok {e : Failure} {a : α} {ls ls' : Labels} :
    ¬ (throw e : Build α).run ls = .ok (a, ls') := by
  simp [throw, throwThe, MonadExceptOf.throw, StateT.lift, StateT.run, bind, Except.bind]

/-- The label that a stem gives next. -/
def nextLabel (stem : String) (ls : Labels) : String := stem ++ toString (ls.count stem + 1)

theorem run_fresh_ok {stem x : String} {ls ls' : Labels} :
    (fresh stem).run ls = .ok (x, ls') ↔ nextLabel stem ls = x ∧ stem :: ls = ls' := by
  simp [fresh, nextLabel, StateT.run]

/-! ## Fresh labels -/

/-- A number can be read off its digits. -/
theorem toString_inj {m n : Nat} : toString m = toString n ↔ m = n := by
  constructor
  · intro h
    rw [Nat.toString_eq_repr, Nat.toString_eq_repr] at h
    have digits := congrArg (fun s : String => Nat.ofDigitChars 10 s.toList 0) h
    simpa using digits
  · rintro rfl
    rfl

/-- A text that does not end in a digit. Stems are such texts, and so are the labels that are
not numbered: those of the inputs and of the two results. -/
def Unnumbered (s : String) : Prop := s.toList.rdropWhile Char.isDigit = s.toList

instance (s : String) : Decidable (Unnumbered s) :=
  inferInstanceAs (Decidable (_ = _))

theorem unnumbered_of_getLast? {s : String} {c : Char} (h : s.toList.getLast? = some c)
    (hc : c.isDigit = false) : Unnumbered s := by
  refine List.rdropWhile_eq_self_iff.2 fun hne => ?_
  rw [List.getLast?_eq_some_getLast hne, Option.some.injEq] at h
  simp [h, hc]

theorem rdropWhile_numbered (s : String) (n : Nat) :
    (s ++ toString n).toList.rdropWhile Char.isDigit = s.toList.rdropWhile Char.isDigit := by
  have digits : ∀ c ∈ (toString n).toList.reverse, c.isDigit := by
    intro c hc
    rw [List.mem_reverse, Nat.toString_eq_repr, Nat.toList_repr] at hc
    exact Nat.isDigit_of_mem_toDigits (by decide) (by decide) hc
  rw [String.toList_append, List.rdropWhile, List.reverse_append,
    List.dropWhile_append_of_pos digits, List.rdropWhile]

theorem not_unnumbered_numbered (s : String) (n : Nat) : ¬ Unnumbered (s ++ toString n) := by
  intro h
  have shorter := (List.rdropWhile_prefix Char.isDigit (l := s.toList)).length_le
  have digits : 0 < (toString n).toList.length := by
    rw [Nat.toString_eq_repr, Nat.toList_repr]
    exact Nat.length_toDigits_pos
  unfold Unnumbered at h
  rw [rdropWhile_numbered] at h
  rw [h, String.toList_append, List.length_append] at shorter
  omega

/-- A label tells its stem and its number. -/
theorem numbered_inj {s t : String} {m n : Nat} (hs : Unnumbered s) (ht : Unnumbered t)
    (h : s ++ toString m = t ++ toString n) : s = t ∧ m = n := by
  have stems := congrArg (fun x : String => x.toList.rdropWhile Char.isDigit) h
  simp only [rdropWhile_numbered] at stems
  rw [hs, ht, String.toList_inj] at stems
  subst stems
  rw [String.append_right_inj, toString_inj] at h
  exact ⟨rfl, h⟩

/-- The labels that have been given out, the newest first. -/
def issued : Labels → List String
  | [] => []
  | stem :: ls => nextLabel stem ls :: issued ls

theorem exists_of_mem_issued {ls : Labels} {x : String} (h : x ∈ issued ls) :
    ∃ s ∈ ls, ∃ n ≤ ls.count s, x = s ++ toString n := by
  induction ls with
  | nil => cases h
  | cons stem ls ih =>
    rcases List.mem_cons.1 h with rfl | h
    · exact ⟨stem, List.mem_cons_self, _, by simp, rfl⟩
    · obtain ⟨s, hs, n, hn, rfl⟩ := ih h
      exact ⟨s, List.mem_cons_of_mem _ hs, n, Nat.le_trans hn List.count_le_count_cons, rfl⟩

/-- No label is given out twice. -/
theorem issued_nodup {ls : Labels} (h : ∀ s ∈ ls, Unnumbered s) : (issued ls).Nodup := by
  induction ls with
  | nil => exact List.nodup_nil
  | cons stem ls ih =>
    have older : ∀ s ∈ ls, Unnumbered s := fun s hs => h s (List.mem_cons_of_mem _ hs)
    refine List.nodup_cons.2 ⟨?_, ih older⟩
    intro again
    obtain ⟨s, hs, n, hn, e⟩ := exists_of_mem_issued again
    obtain ⟨rfl, rfl⟩ := numbered_inj (h stem List.mem_cons_self) (older s hs) e
    omega

/-- Between two states of the labels, `xs` were given out, each of a stem that does not end in a
digit. Labels that were given out and dropped need not be among them. -/
structure Issues (ls ls' : Labels) (xs : Multiset String) : Prop where
  stems : (∀ s ∈ ls, Unnumbered s) → ∀ s ∈ ls', Unnumbered s
  labels : ↑(issued ls) + xs ≤ (↑(issued ls') : Multiset String)

namespace Issues

variable {ls l ls' : Labels} {xs ys : Multiset String}

theorem refl (ls : Labels) : Issues ls ls 0 := ⟨id, by simp⟩

theorem trans (h : Issues ls l xs) (h' : Issues l ls' ys) : Issues ls ls' (xs + ys) where
  stems := h'.stems ∘ h.stems
  labels := by
    rw [← add_assoc]
    exact le_trans (add_le_add_left h.labels ys) h'.labels

theorem mono (h : Issues ls ls' xs) (hle : ys ≤ xs) : Issues ls ls' ys :=
  ⟨h.stems, le_trans (add_le_add_right hle _) h.labels⟩

theorem next {stem : String} (hs : Unnumbered stem) (ls : Labels) :
    Issues ls (stem :: ls) {nextLabel stem ls} where
  stems := by
    intro h s hmem
    rcases List.mem_cons.1 hmem with rfl | hmem
    · exact hs
    · exact h s hmem
  labels := by
    simp only [issued]
    rw [← Multiset.cons_coe, Multiset.add_comm, Multiset.singleton_add]

/-- What is given out from the start on differs, and is told from all unnumbered labels. -/
theorem nodup (h : Issues [] ls xs) : xs.Nodup := by
  have all := issued_nodup (h.stems (by simp))
  exact Multiset.nodup_of_le (by simpa [issued] using h.labels) (Multiset.coe_nodup.2 all)

theorem not_unnumbered (h : Issues [] ls xs) {x : String} (hx : x ∈ xs) : ¬ Unnumbered x := by
  have hmem := Multiset.mem_of_le (by simpa [issued] using h.labels) hx
  obtain ⟨s, -, n, -, rfl⟩ := exists_of_mem_issued (Multiset.mem_coe.1 hmem)
  exact not_unnumbered_numbered s n

end Issues

end Montage.Graph
