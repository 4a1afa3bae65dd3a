import Mathlib.Tactic.Common
import Montage.Proofs.Graph.Labels
import Montage.Timeline.Check

/-!
# What breaks the check off

The check looks at the values of a document as they are, before any of them is read as typed data,
and three steps of it have no result for every value: adding the start and the length of a clip,
writing a number, and writing a type or an id in full. `check_ok_iff_not_breaks` says for which
documents one of them is reached without a result, and `fault_of_check` what is wrong then: a whole
number is too large for a double, or it has too many digits. Everything else in the check has a
result for all values.
-/
namespace Montage

/-- A whole number is to be added to a double, and is too large to be made one. -/
inductive Number.Overflows : Number → Number → Prop
  | left {n : Int} {x : Float} (large : (Float.ofInt n).isInf = true) :
      Overflows (.int n) (.float x)
  | right {x : Float} {n : Int} (large : (Float.ofInt n).isInf = true) :
      Overflows (.float x) (.int n)

theorem Number.add_error_iff {a b : Number} {f : Fault} :
    a.add b = .error f ↔ f = .wholeTooLarge ∧ a.Overflows b := by
  have mixed (n : Int) : floatOfInt n =
      if (Float.ofInt n).isInf then .error .wholeTooLarge else .ok (Float.ofInt n) := rfl
  constructor
  · intro h
    cases a with
    | int n =>
      cases b with
      | int m => cases h
      | float x =>
        simp only [add, toFloat, mixed] at h
        split at h
        · next large =>
          cases h
          exact ⟨rfl, .left large⟩
        · cases h
    | float x =>
      cases b with
      | int n =>
        simp only [add, toFloat, mixed] at h
        split at h
        · next large =>
          cases h
          exact ⟨rfl, .right large⟩
        · cases h
      | float y => cases h
  · rintro ⟨rfl, large | large⟩ <;> simp only [add, toFloat, mixed, large] <;> rfl

namespace Check

variable {members clip : List (String × Json)} {tracks : List Json} {limit : Number}

/-- The tracks of a document that the check looks into. -/
def tracksOf (members : List (String × Json)) : List Json :=
  (trackList (Json.lookup "tracks" members)).1

/-- The duration that limits the clips of a document, if it has one that is in order. -/
def limit? (members : List (String × Json)) : Option Number :=
  ((Json.lookup "duration" members).getD .null).number?.filter fun n => !n.le (.int 0)

/-- The start of a clip, zero unless it is given, and its length. -/
def Spans (clip : List (String × Json)) (start length : Number) : Prop :=
  ((Json.lookup "start" clip).getD (.int 0)).number? = some start ∧
    ((Json.lookup "duration" clip).getD .null).number? = some length

/-- What breaks the check off at a clip: its type or its id cannot be written, or it has an end after
the limit that cannot be written or compared. -/
inductive ClipBreaks (limit : Option Number) (clip : List (String × Json)) : Prop
  | type {kind : Json} (there : Json.lookup "type" clip = some kind) (unknown : isKind kind = false)
      (digits : kind.isWritable = false)
  | id {id : Json} (there : Json.lookup "id" clip = some id) (truthy : id.isTruthy = true)
      (digits : id.isWritable = false)
  | sum {n start length : Number} (limited : limit = some n) (spans : Spans clip start length)
      (large : start.Overflows length)
  | warning {n start length last : Number} (limited : limit = some n)
      (spans : Spans clip start length) (sum : start.add length = .ok last)
      (late : n.lt last = true) (digits : last.isWritable = false ∨ n.isWritable = false)

/-- What breaks the check of a document off: one of its clips. -/
inductive Breaks : Json → Prop
  | clip {members item} (there : item ∈ objectClips (tracksOf members))
      (breaks : ClipBreaks (limit? members) item.2) : Breaks (.object members)

/-! ## One clip -/

theorem getD_null_iff {p : Json → Prop} (none : ¬p .null) (o : Option Json) :
    p (o.getD .null) ↔ ∃ v, o = some v ∧ p v := by
  cases o <;> simp [none]

theorem isLegible_eq_false_iff : isLegible clip = false ↔
    (∃ kind, Json.lookup "type" clip = some kind ∧ isKind kind = false ∧ kind.isWritable = false) ∨
      ∃ id, Json.lookup "id" clip = some id ∧ id.isTruthy = true ∧ id.isWritable = false := by
  have null : Json.null.isWritable = true := rfl
  rw [← getD_null_iff (by simp [null]), ← getD_null_iff (by simp [null])]
  simp only [isLegible, Bool.and_eq_false_iff, Bool.or_eq_false_iff, Bool.not_eq_false']

theorem written_error_iff {n : Number} {f : Fault} :
    n.written = .error f ↔ f = .unwritable ∧ n.isWritable = false := by
  unfold Number.written
  cases n.isWritable
  · rw [if_neg Bool.false_ne_true]
    simp [eq_comm]
  · rw [if_pos rfl]
    simp

/-- What is wrong with the end of a clip that is compared with the limit. -/
theorem overrun_error_iff {i j : Nat} {f : Fault} : overrun limit i j clip = .error f ↔
    (f = .wholeTooLarge ∧ ∃ start length, Spans clip start length ∧ start.Overflows length) ∨
      f = .unwritable ∧ ∃ start length last, Spans clip start length ∧
        start.add length = .ok last ∧ limit.lt last = true ∧
        (last.isWritable = false ∨ limit.isWritable = false) := by
  unfold overrun Spans
  cases ((Json.lookup "start" clip).getD (.int 0)).number? with
  | none => simp [pure, Except.pure]
  | some start =>
    cases ((Json.lookup "duration" clip).getD .null).number? with
    | none => simp [pure, Except.pure]
    | some length =>
      have overflows (f : Fault) := @Number.add_error_iff start length f
      simp only [Option.some.injEq, and_assoc, exists_and_left, exists_eq_left']
      cases sum : start.add length with
      | error g =>
        obtain ⟨rfl, large⟩ := (overflows g).1 sum
        simp [bind, Except.bind, large, @eq_comm _ Fault.wholeTooLarge f]
      | ok last =>
        have small : ¬start.Overflows length := fun large => by
          cases sum.symm.trans ((overflows _).2 ⟨rfl, large⟩)
        cases late : limit.lt last with
        | false => simp [bind, Except.bind, pure, Except.pure, small, late]
        | true =>
          cases h : last.written with
          | error g =>
            obtain ⟨rfl, digits⟩ := written_error_iff.1 h
            simp [bind, Except.bind, small, late, digits, h, @eq_comm _ Fault.unwritable f]
          | ok text =>
            have digits := (Number.written_ok_iff.1 h).1
            cases h' : limit.written with
            | error g =>
              obtain ⟨rfl, digits'⟩ := written_error_iff.1 h'
              simp [bind, Except.bind, small, late, digits', h, @eq_comm _ Fault.unwritable f]
            | ok text' =>
              have digits' := (Number.written_ok_iff.1 h').1
              simp [bind, Except.bind, pure, Except.pure, small, late, digits, digits', h]

/-! ## All clips -/

section

variable {α β : Type} {f : α → Except Fault β} {as : List α}

theorem mapM_ok (h : ∀ a ∈ as, ∃ b, f a = .ok b) : ∃ bs, as.mapM f = .ok bs := by
  induction as with
  | nil => exact ⟨[], rfl⟩
  | cons a as ih =>
    rw [List.forall_mem_cons] at h
    obtain ⟨b, hb⟩ := h.1
    obtain ⟨bs, hbs⟩ := ih h.2
    exact ⟨b :: bs, by rw [List.mapM_cons, hb, hbs]; rfl⟩

theorem mapM_ok_iff : (∃ bs, as.mapM f = .ok bs) ↔ ∀ a ∈ as, ∃ b, f a = .ok b := by
  refine ⟨?_, mapM_ok⟩
  rintro ⟨bs, h⟩
  induction as generalizing bs with
  | nil => simp
  | cons a as ih =>
    rw [List.mapM_cons] at h
    obtain ⟨b, first, h⟩ := Graph.except_bind_ok.1 h
    obtain ⟨bs, rest, -⟩ := Graph.except_bind_ok.1 h
    exact List.forall_mem_cons.2 ⟨⟨b, first⟩, ih bs rest⟩

theorem mapM_error {e : Fault} (h : as.mapM f = .error e) : ∃ a ∈ as, f a = .error e := by
  induction as with
  | nil => cases h
  | cons a as ih =>
    rw [List.mapM_cons] at h
    cases first : f a with
    | error e' =>
      rw [first] at h
      cases h
      exact ⟨a, List.mem_cons_self, first⟩
    | ok b =>
      rw [first] at h
      cases rest : as.mapM f with
      | error e' =>
        rw [rest] at h
        cases h
        obtain ⟨a, ha, h⟩ := ih rest
        exact ⟨a, List.mem_cons_of_mem _ ha, h⟩
      | ok bs =>
        rw [rest] at h
        cases h

end

theorem legible_error_iff {f : Fault} : legible tracks = .error f ↔
    f = .unwritable ∧ ∃ item ∈ objectClips tracks, isLegible item.2 = false := by
  unfold legible
  split
  · next all =>
    rw [List.all_eq_true] at all
    simp only [reduceCtorEq, false_iff, not_and, not_exists]
    rintro - item there dark
    rw [all item there] at dark
    cases dark
  · next some =>
    simpa [@eq_comm _ Fault.unwritable f] using fun _ => some

theorem overruns_error {f : Fault} (h : overruns limit tracks = .error f) :
    ∃ item ∈ objectClips tracks, overrun limit item.1.1 item.1.2 item.2 = .error f := by
  unfold overruns at h
  refine mapM_error (?_ : (objectClips tracks).mapM
    (fun item => overrun limit item.1.1 item.1.2 item.2) = .error f)
  cases all : (objectClips tracks).mapM fun item => overrun limit item.1.1 item.1.2 item.2 with
  | error g =>
    rw [all] at h
    cases h
    rfl
  | ok found =>
    rw [all] at h
    cases h

theorem overruns_ok {ws : List Issue} (h : overruns limit tracks = .ok ws) :
    ∀ item ∈ objectClips tracks, ∃ w, overrun limit item.1.1 item.1.2 item.2 = .ok w := by
  unfold overruns at h
  obtain ⟨found, all, -⟩ := Graph.except_bind_ok.1 h
  exact mapM_ok_iff.1 ⟨found, all⟩

/-! ## Documents -/

theorem duration_isEmpty {v : Json} {limit : Number} (h : v.number? = some limit) :
    (duration v).isEmpty = !limit.le (.int 0) := by
  cases v with
  | number n =>
    cases h
    show (demand (isNotBelowOrZero (.number limit)) _ _).isEmpty = _
    cases below : limit.le (.int 0) <;>
      simp [demand, isNotBelowOrZero, isNumber, Json.number?, below]
  | _ => cases h

theorem warnings_eq (members : List (String × Json)) : warnings members =
    match limit? members with
    | some n => overruns n (tracksOf members)
    | none => .ok [] := by
  unfold warnings limit? tracksOf
  dsimp only
  cases known : ((Json.lookup "duration" members).getD .null).number? with
  | none => rfl
  | some n =>
    simp only [duration_isEmpty known, Option.filter_some]
    cases n.le (.int 0) <;> rfl

theorem check_error_of_breaks {v : Json} (h : Breaks v) : ∃ f, check v = .error f := by
  obtain ⟨there, breaks⟩ := h
  rename_i members item
  have dark (illegible : isLegible item.2 = false) : ∃ f, check (.object members) = .error f := by
    have fails : legible (tracksOf members) = .error .unwritable :=
      legible_error_iff.2 ⟨rfl, item, there, illegible⟩
    exact ⟨_, by rw [check, ← tracksOf, fails]; rfl⟩
  have late {n : Number} {f : Fault} (limited : limit? members = some n)
      (fails : overrun n item.1.1 item.1.2 item.2 = .error f) :
      ∃ f, check (.object members) = .error f := by
    rw [check, ← tracksOf, warnings_eq, limited]
    cases legible (tracksOf members) with
    | error g => exact ⟨g, rfl⟩
    | ok =>
      cases all : overruns n (tracksOf members) with
      | error g => exact ⟨g, by simp only [all]; rfl⟩
      | ok ws =>
        obtain ⟨w, ok⟩ := overruns_ok all item there
        cases fails.symm.trans ok
  cases breaks with
  | type there unknown digits =>
    exact dark (isLegible_eq_false_iff.2 (.inl ⟨_, there, unknown, digits⟩))
  | id there truthy digits =>
    exact dark (isLegible_eq_false_iff.2 (.inr ⟨_, there, truthy, digits⟩))
  | sum limited spans large =>
    exact late limited (overrun_error_iff.2 (.inl ⟨rfl, _, _, spans, large⟩))
  | warning limited spans sum after digits =>
    exact late limited (overrun_error_iff.2 (.inr ⟨rfl, _, _, _, spans, sum, after, digits⟩))

theorem breaks_of_check_error {v : Json} {f : Fault} (h : check v = .error f) :
    Breaks v ∧ (f = .wholeTooLarge ∨ f = .unwritable) := by
  cases v with
  | object members =>
    rw [check, ← tracksOf, warnings_eq] at h
    cases first : legible (tracksOf members) with
    | error g =>
      rw [first] at h
      cases h
      obtain ⟨rfl, item, there, dark⟩ := legible_error_iff.1 first
      rcases isLegible_eq_false_iff.1 dark with
        ⟨kind, found, unknown, digits⟩ | ⟨id, found, truthy, digits⟩
      · exact ⟨.clip there (.type found unknown digits), .inr rfl⟩
      · exact ⟨.clip there (.id found truthy digits), .inr rfl⟩
    | ok =>
      rw [first] at h
      cases limited : limit? members with
      | none =>
        rw [limited] at h
        cases h
      | some n =>
        rw [limited] at h
        cases all : overruns n (tracksOf members) with
        | ok ws =>
          simp only [all] at h
          cases h
        | error g =>
          simp only [all] at h
          cases h
          obtain ⟨item, there, fails⟩ := overruns_error all
          rcases overrun_error_iff.1 fails with
            ⟨rfl, start, length, spans, large⟩ | ⟨rfl, start, length, last, spans, sum, late, digits⟩
          · exact ⟨.clip there (.sum limited spans large), .inl rfl⟩
          · exact ⟨.clip there (.warning limited spans sum late digits), .inr rfl⟩
  | _ => cases h

/-- The check of a document gives a report unless a clip breaks it off. -/
theorem check_ok_iff_not_breaks (v : Json) : (∃ report, check v = .ok report) ↔ ¬Breaks v := by
  cases h : check v with
  | ok report =>
    refine ⟨fun _ breaks => ?_, fun _ => ⟨report, rfl⟩⟩
    obtain ⟨f, fails⟩ := check_error_of_breaks breaks
    cases fails.symm.trans h
  | error f => simpa using (breaks_of_check_error h).1

end Check
end Montage
