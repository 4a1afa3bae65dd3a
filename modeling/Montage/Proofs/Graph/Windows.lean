import Mathlib.Data.Set.Defs
import Montage.Graph.Placement
import Montage.Proofs.Float.Rounding
import Montage.Proofs.Number.Plain
import Montage.Proofs.Timeline.Ranges

/-!
# Windows of time

A clip is to be seen while a condition holds that is written with two numerals (`window`). Two
roundings lie between the timeline and this text: the end of a clip is the double next to the sum
of its start and its length, and a numeral has six places. Both are monotone, so neither can make a
clip last into the time of another: of two clips that are apart (`Clip.Apart`) the window of one is
over when that of the other begins (`Clip.Apart.precedes`), and all that both can share is this one
second (`Clip.Precedes.meets`).
-/
namespace Montage

/-! ## The text of a window -/

namespace Decimal

theorem comma_notMem_unsigned {cs : List Char} {v : ℚ} (h : unsignedValue? cs = some v) :
    ',' ∉ cs := by
  have parts := List.takeWhile_append_dropWhile (p := Char.isDigit) (l := cs)
  have inside (ds : List Char) (digits : ∀ c ∈ ds, c.isDigit = true) : ',' ∉ ds := fun mem =>
    absurd (digits _ mem) (by decide)
  have front : ',' ∉ cs.takeWhile Char.isDigit := inside _ fun _ => List.mem_takeWhile_imp
  unfold unsignedValue? at h
  dsimp only at h
  rw [← parts, List.mem_append]
  rintro (mem | mem)
  · exact front mem
  · split at h
    · cases h
    · split at h
      · next none => rw [none] at mem; cases mem
      · next places point =>
        rw [point, List.mem_cons] at mem
        split at h
        · cases h
        · next proper =>
          rw [Bool.not_eq_true, Bool.or_eq_false_iff, Bool.not_eq_false'] at proper
          exact inside places (List.all_eq_true.1 proper.2)
            (mem.resolve_left (by decide))
      · cases h

theorem comma_notMem {s : String} {v : ℚ} (h : value? s = some v) : ',' ∉ s.toList := by
  unfold value? at h
  dsimp only at h
  obtain ⟨w, unsigned, -⟩ := Option.map_eq_some_iff.1 h
  have rest := comma_notMem_unsigned unsigned
  unfold takeSign at rest
  split at rest
  · next sign => rw [sign]; simpa using rest
  · next sign => rw [sign]; simpa using rest
  · exact rest

end Decimal

namespace Graph

variable {first last first' last' : String}

/-- What stands in front of the first comma is found again. -/
theorem comma_inj {f f' r r' : List Char} (h : ',' ∉ f) (h' : ',' ∉ f')
    (same : f ++ ',' :: r = f' ++ ',' :: r') : f = f' ∧ r = r' := by
  induction f generalizing f' with
  | nil =>
    cases f' with
    | nil => exact ⟨rfl, (List.cons.inj same).2⟩
    | cons c f' => exact absurd (List.mem_cons.2 (.inl (List.cons.inj same).1)) h'
  | cons c f ih =>
    cases f' with
    | nil => exact absurd (List.mem_cons.2 (.inl (List.cons.inj same).1.symm)) h
    | cons d f' =>
      obtain ⟨rfl, rest⟩ := List.cons.inj same
      obtain ⟨rfl, rfl⟩ :=
        ih (List.not_mem_of_not_mem_cons h) (List.not_mem_of_not_mem_cons h') rest
      exact ⟨rfl, rfl⟩

/-- The text of a condition has only one pair of numerals. -/
theorem between_inj (h : ',' ∉ first.toList) (h' : ',' ∉ first'.toList)
    (same : between first last = between first' last') : first = first' ∧ last = last' := by
  have text (first last : String) : (between first last).toList =
      "between(t,".toList ++ (first.toList ++ ',' :: (last.toList ++ [')'])) := by
    simp [between]
  have same := congrArg String.toList same
  rw [text, text] at same
  obtain ⟨front, back⟩ := comma_inj h h' (List.append_cancel_left same)
  exact ⟨String.toList_inj.1 front, String.toList_inj.1 (List.append_cancel_right back)⟩

/-- The seconds at which a condition on the time holds: from its first numeral to its last one. -/
def seconds (condition : String) : Set ℚ :=
  {t | ∃ first last v w, condition = between first last ∧ Decimal.value? first = some v ∧
    Decimal.value? last = some w ∧ v ≤ t ∧ t ≤ w}

variable {v w t : ℚ}

theorem mem_seconds_between (comma : ',' ∉ first.toList) : t ∈ seconds (between first last) ↔
    ∃ v w, Decimal.value? first = some v ∧ Decimal.value? last = some w ∧ v ≤ t ∧ t ≤ w := by
  constructor
  · rintro ⟨first', last', v, w, same, hv, hw, bounds⟩
    obtain ⟨rfl, rfl⟩ := between_inj comma (Decimal.comma_notMem hv) same
    exact ⟨v, w, hv, hw, bounds⟩
  · rintro ⟨v, w, hv, hw, bounds⟩
    exact ⟨first, last, v, w, rfl, hv, hw, bounds⟩

theorem mem_seconds_window {c : Clip} (finite : c.startValue.isFinite) :
    t ∈ seconds (window c) ↔ ∃ v w, Decimal.value? (Number.compactFloat c.startValue) = some v ∧
      Decimal.value? (Number.compactFloat c.endValue) = some w ∧ v ≤ t ∧ t ≤ w := by
  obtain ⟨q, hq⟩ := Number.exists_fraction? finite
  obtain ⟨v, value, -⟩ := (shows_compactFloat _).close hq
  exact mem_seconds_between (Decimal.comma_notMem value)

end Graph

/-! ## Clips that are apart -/

namespace Clip

/-- A clip with a finite start and a finite length. -/
structure IsTimed (c : Clip) : Prop where
  start : c.startValue.isFinite
  length : c.duration.isFinite
  positive : 0 < c.duration

/-- A clip with numbers in the documented ranges has a finite start and a finite length. -/
theorem InRange.isTimed {c : Clip} (h : c.InRange) : c.IsTimed :=
  ⟨h.start.1, h.duration.1, h.duration.2⟩

/-- The seconds that a clip lasts, as exact numbers, without the one at which it is over. -/
def span (c : Clip) : Set ℚ :=
  {t | ∃ s d, (Number.float c.startValue).fraction? = some s ∧
    (Number.float c.duration).fraction? = some d ∧ s ≤ t ∧ t < s + d}

/-- Two clips do not overlap: not in exact numbers, or not as the end of a clip is computed. -/
def Apart (a b : Clip) : Prop :=
  (∀ t ∈ a.span, t ∉ b.span) ∨ a.endValue ≤ b.startValue ∨ b.endValue ≤ a.startValue

/-- The window of one clip is over when that of another one begins. -/
def Precedes (a b : Clip) : Prop :=
  ∃ v w, Decimal.value? (Number.compactFloat a.endValue) = some v ∧
    Decimal.value? (Number.compactFloat b.startValue) = some w ∧ v ≤ w

/-- The window of one clip ends at the second at which that of another one begins. -/
def Meets (a b : Clip) (t : ℚ) : Prop :=
  Decimal.value? (Number.compactFloat a.endValue) = some t ∧
    Decimal.value? (Number.compactFloat b.startValue) = some t

variable {a b : Clip} {s d r t : ℚ}

theorem IsTimed.units_pos (h : a.IsTimed) : 0 < Double.units a.duration.toModel.unpack := by
  have zero : Double.units (0 : Float).toModel.unpack = 0 :=
    Double.stands_zero.2.trans (Int.zero_mul _)
  rw [← zero]
  exact (Double.lt_iff_units Double.stands_zero.1 h.length).1 h.positive

/-- The end is rounded to a double that does not pass the one by which the clip is over. -/
theorem IsTimed.endValue_le (h : a.IsTimed) {z : Float} (hz : z.isFinite)
    (hs : (Number.float a.startValue).fraction? = some s)
    (hd : (Number.float a.duration).fraction? = some d)
    (hr : (Number.float z).fraction? = some r) (le : s + d ≤ r) : a.endValue ≤ z := by
  have positive := h.units_pos
  have one : (0 : ℚ) < Double.unity := by exact_mod_cast Double.unity_pos
  rw [Number.fraction?_units h.start, Option.some.injEq] at hs
  rw [Number.fraction?_units h.length, Option.some.injEq] at hd
  rw [Number.fraction?_units hz, Option.some.injEq] at hr
  rw [← hs, ← hd, ← hr, ← add_div, div_le_div_iff_of_pos_right one] at le
  obtain ⟨finite, -, below⟩ := Double.add_between h.start h.length h.start hz (by omega)
    (by exact_mod_cast le)
  exact (Double.le_iff_units finite hz).2 below

theorem IsTimed.positive_fraction (h : a.IsTimed)
    (hd : (Number.float a.duration).fraction? = some d) : 0 < d := by
  rw [Number.fraction?_units h.length, Option.some.injEq] at hd
  have one : (0 : ℚ) < Double.unity := by exact_mod_cast Double.unity_pos
  rw [← hd]
  exact div_pos (by exact_mod_cast h.units_pos) one

/-- Of two clips that share no second one is over when the other begins, also as ends are
computed. -/
theorem le_of_disjoint (ha : a.IsTimed) (hb : b.IsTimed) (apart : ∀ t ∈ a.span, t ∉ b.span) :
    a.endValue ≤ b.startValue ∨ b.endValue ≤ a.startValue := by
  obtain ⟨s, hs⟩ := Number.exists_fraction? ha.start
  obtain ⟨d, hd⟩ := Number.exists_fraction? ha.length
  obtain ⟨s', hs'⟩ := Number.exists_fraction? hb.start
  obtain ⟨d', hd'⟩ := Number.exists_fraction? hb.length
  have first := ha.positive_fraction hd
  have second := hb.positive_fraction hd'
  rcases le_or_gt (s + d) s' with before | later
  · exact .inl (ha.endValue_le hb.start hs hd hs' before)
  · rcases le_or_gt (s' + d') s with after | sooner
    · exact .inr (hb.endValue_le ha.start hs' hd' hs after)
    · -- otherwise both clips last at the later of the two starts
      have mem : max s s' ∈ a.span := ⟨s, d, hs, hd, le_max_left _ _, max_lt (by linarith) later⟩
      have mem' : max s s' ∈ b.span :=
        ⟨s', d', hs', hd', le_max_right _ _, max_lt sooner (by linarith)⟩
      exact absurd mem' (apart _ mem)

theorem precedes_of_le (ha : a.IsTimed) (hb : b.IsTimed) (le : a.endValue ≤ b.startValue) :
    a.Precedes b := by
  have finite : a.endValue.isFinite :=
    Double.isFinite_of_add_le ha.start ha.length hb.start ha.units_pos.le le
  exact Number.compactFloat_mono finite hb.start le

theorem Apart.precedes (ha : a.IsTimed) (hb : b.IsTimed) (apart : a.Apart b) :
    a.Precedes b ∨ b.Precedes a :=
  (apart.elim (le_of_disjoint ha hb) fun le => le).imp (precedes_of_le ha hb) (precedes_of_le hb ha)

theorem Precedes.meets (order : a.Precedes b) (ha : a.IsTimed) (hb : b.IsTimed)
    (mem : t ∈ Graph.seconds (Graph.window a)) (mem' : t ∈ Graph.seconds (Graph.window b)) :
    a.Meets b t := by
  obtain ⟨v, w, stop, start, le⟩ := order
  obtain ⟨-, last, -, hl, -, below⟩ := (Graph.mem_seconds_window ha.start).1 mem
  obtain ⟨first, -, hf, -, above, -⟩ := (Graph.mem_seconds_window hb.start).1 mem'
  cases stop.symm.trans hl
  cases start.symm.trans hf
  have equal : v = t := le_antisymm (le.trans above) below
  have equal' : w = t := le_antisymm above (below.trans le)
  exact ⟨equal ▸ stop, equal' ▸ start⟩

end Clip

/-- Doubles are written accurately and monotonically. A finite double is written as a plain numeral
that denotes the double if it is whole and the nearest millionth otherwise; a greater one is written
as no lesser numeral; and of two clips that do not overlap the window of one is over when that of
the other begins, so that they share at most this one second. -/
theorem Number.compactFloat_faithful :
    (∀ x : Float, x.isFinite → ∃ q v, (Number.float x).fraction? = some q ∧
      Writes (compactFloat x) q v) ∧
    (∀ x y : Float, x.isFinite → y.isFinite → x ≤ y →
      ∃ v w, Decimal.value? (compactFloat x) = some v ∧ Decimal.value? (compactFloat y) = some w ∧
        v ≤ w) ∧
    ∀ a b : Clip, a.IsTimed → b.IsTimed → a.Apart b → (a.Precedes b ∨ b.Precedes a) ∧
      ∀ t ∈ Graph.seconds (Graph.window a), t ∈ Graph.seconds (Graph.window b) →
        a.Meets b t ∨ b.Meets a t := by
  refine ⟨fun x finite => ?_, fun x y => compactFloat_mono, fun a b ha hb apart => ?_⟩
  · obtain ⟨q, hq⟩ := exists_fraction? finite
    obtain ⟨v, writes⟩ := writes_compactFloat finite hq
    exact ⟨q, v, hq, writes⟩
  · have order := apart.precedes ha hb
    exact ⟨order, fun t mem mem' => order.imp (fun order => order.meets ha hb mem mem')
      fun order => order.meets hb ha mem' mem⟩

/-- A clip with a text, and nothing but its time. -/
def caption (start duration : Float) : Clip :=
  ⟨none, start, duration, none, none, none, .text "Hello" none, []⟩

/-- The sum of 0.1 and 0.2 is a double above 0.3 and is written as 0.3. So is the start of a clip
there, and the clip that is over before it has a window that ends at this very second. -/
theorem Number.compactFloat_faithful_tenths :
    (∃ q v, (Number.float (0.1 + 0.2)).fraction? = some q ∧ Writes "0.3" q v) ∧
    (∃ v w, Decimal.value? (compactFloat 0.3) = some v ∧
      Decimal.value? (compactFloat (0.1 + 0.2)) = some w ∧ v ≤ w) ∧
    (caption 0 0.3).endValue < (caption (0.1 + 0.2) 1).startValue ∧
    ((caption 0 0.3).Meets (caption (0.1 + 0.2) 1) (3 / 10) ∨
      (caption (0.1 + 0.2) 1).Meets (caption 0 0.3) (3 / 10)) := by
  obtain ⟨accurate, monotone, windows⟩ := compactFloat_faithful
  have before : (caption 0 0.3).endValue < (caption (0.1 + 0.2) 1).startValue := by
    decide +kernel
  have text : compactFloat (0.1 + 0.2) = "0.3" := by decide +kernel
  refine ⟨text ▸ accurate _ (by decide +kernel), monotone _ _ (by decide +kernel)
    (by decide +kernel) (by decide +kernel), before, ?_⟩
  obtain ⟨-, meet⟩ := windows (caption 0 0.3) (caption (0.1 + 0.2) 1)
    ⟨by decide +kernel, by decide +kernel, by decide +kernel⟩
    ⟨by decide +kernel, by decide +kernel, by decide +kernel⟩ (.inr (.inl (Double.le_of_lt before)))
  have tenths : Decimal.value? "0.3" = some (3 / 10) := by decide +kernel
  refine meet (3 / 10) ⟨"0", "0.3", 0, 3 / 10, by decide +kernel, by decide +kernel, tenths, ?_⟩
    ⟨"0.3", "1.3", 3 / 10, 13 / 10, by decide +kernel, tenths, by decide +kernel, ?_⟩ <;> norm_num

end Montage
