import Montage.Proofs.Timeline.Breaking

/-!
# What a validation ends with

A validation that is not broken off (`Check.Breaks`) ends with a timeline or with issues, and there
is at least one then (`validation_ends`): the check only refuses what it has an error for, and a
reading that fails names a mismatch (`Parsed.Explained`), whether it fails at a field, in a list, at
the type of a clip or in the settings that the measures of the picture are taken from.
-/
namespace Montage

/-- A reading that fails names what is wrong. -/
def Parsed.Explained {α : Type} (p : Parsed α) : Prop := ∀ ms, p = .bad ms → ms ≠ []

namespace Parsed.Explained

variable {α β : Type} {x : Parsed α}

theorem ok (a : α) : (Parsed.ok a).Explained := nofun

theorem fail (message : String) : (Parsed.fail message : Parsed α).Explained := by
  rintro _ ⟨⟩
  exact List.cons_ne_nil _ _

theorem bad {m : Mismatch} {ms : List Mismatch} : (Parsed.bad (m :: ms) : Parsed α).Explained := by
  rintro _ ⟨⟩
  exact List.cons_ne_nil _ _

theorem map (h : x.Explained) (f : α → β) : (f <$> x).Explained := by
  cases x with
  | ok => exact .ok _
  | bad ms =>
    rintro _ ⟨⟩
    exact h ms rfl

theorem under (h : x.Explained) (s : Step) : (x.under s).Explained := by
  cases x with
  | ok => exact .ok _
  | bad ms =>
    rintro _ ⟨⟩
    exact fun none => h ms rfl (List.map_eq_nil_iff.1 none)

theorem seq {f : Parsed (α → β)} (hf : f.Explained) (hx : x.Explained) : (f <*> x).Explained := by
  cases f with
  | ok f => exact hx.map f
  | bad ms =>
    cases x with
    | ok =>
      rintro _ ⟨⟩
      exact hf ms rfl
    | bad ns =>
      rintro _ ⟨⟩
      exact fun none => hf ms rfl (List.append_eq_nil_iff.1 none).1

theorem toExcept {ms : List Mismatch} (h : x.Explained) (fails : x.toExcept = .error ms) :
    ms ≠ [] := by
  cases x with
  | ok => cases fails
  | bad =>
    cases fails
    exact h _ rfl

end Parsed.Explained

open Parsed

/-! ## Readers of values -/

namespace Schema

variable {α : Type} {read : Json → Parsed α}

theorem string_explained (v : Json) : (string v).Explained := by
  cases v with
  | string => exact .ok _
  | _ => exact .fail _

theorem float_explained (v : Json) : (float v).Explained := by
  unfold float
  repeat' split
  all_goals first | exact .ok _ | exact .fail _

theorem int_explained (v : Json) : (int v).Explained := by
  unfold int intOfFloat
  repeat' split
  all_goals first | exact .ok _ | exact .fail _

theorem bool_explained (v : Json) : (bool v).Explained := by
  unfold bool
  dsimp only
  repeat' split
  all_goals first | exact .ok _ | exact .fail _

theorem choice_explained (words : List (String × α)) (v : Json) : (choice words v).Explained := by
  unfold choice
  repeat' split
  all_goals first | exact .ok _ | exact .fail _

theorem nullable_explained (h : ∀ v, (read v).Explained) (v : Json) :
    (nullable read v).Explained := by
  unfold nullable
  split
  · exact .ok _
  · exact (h _).map some

theorem items_explained (h : ∀ v, (read v).Explained) (i : Nat) (vs : List Json) :
    (items read i vs).Explained := by
  induction vs generalizing i with
  | nil => exact .ok _
  | cons v vs ih => exact (((h v).under (.index i)).map List.cons).seq (ih (i + 1))

theorem list_explained (h : ∀ v, (read v).Explained) (v : Json) : (list read v).Explained := by
  cases v with
  | array vs => exact items_explained h 0 vs
  | _ => exact .fail _

theorem object_explained {name : String} {read : List (String × Json) → Parsed α}
    (h : ∀ ms, (read ms).Explained) (v : Json) : (object name read v).Explained := by
  cases v with
  | object ms => exact h ms
  | _ => exact .fail _

theorem required_explained (h : ∀ v, (read v).Explained) (names : Names)
    (ms : List (String × Json)) : (required names read ms).Explained := by
  unfold required
  split
  · exact (h _).under _
  · exact .bad

theorem optional_explained (h : ∀ v, (read v).Explained) (names : Names)
    (ms : List (String × Json)) : (optional names read ms).Explained := by
  unfold optional
  split
  · exact ((h _).under _).map some
  · exact .ok _

end Schema

open Schema

theorem readId_explained (v : Json) : (readId v).Explained := by
  unfold readId
  split
  · split
    · exact .ok _
    · exact .fail _
  · exact nullable_explained string_explained _

/-! ## Readers of fields -/

section

variable (ms : List (String × Json))

theorem Point.explained : (Point.ofMembers ms).Explained :=
  ((optional_explained float_explained ["x"] ms).map _).seq
    (optional_explained float_explained ["y"] ms)

theorem Position.explained (v : Json) : (Position.ofJson v).Explained := by
  unfold Position.ofJson
  split
  · exact .ok _
  · next fails =>
    split
    · exact .ok _
    · rintro _ ⟨⟩ none
      exact (object_explained Point.explained v).under _ _ fails (List.append_eq_nil_iff.1 none).1

theorem TextStyle.explained : (TextStyle.ofMembers ms).Explained :=
  (((optional_explained float_explained _ ms).map _).seq
    (optional_explained string_explained _ ms)).seq (optional_explained string_explained _ ms)

theorem Shape.explained : (Shape.ofMembers ms).Explained :=
  ((((((optional_explained string_explained _ ms).map _).seq
    (optional_explained float_explained _ ms)).seq
    (optional_explained float_explained _ ms)).seq
    (optional_explained (nullable_explained string_explained) _ ms)).seq
    (optional_explained (nullable_explained string_explained) _ ms)).seq
    (optional_explained float_explained _ ms)

theorem ChromaKey.explained : (ChromaKey.ofMembers ms).Explained :=
  (((optional_explained string_explained _ ms).map _).seq
    (optional_explained float_explained _ ms)).seq (optional_explained float_explained _ ms)

theorem Media.explained : (Media.ofMembers ms).Explained :=
  (((((required_explained string_explained _ ms).map _).seq
    (optional_explained (nullable_explained float_explained) _ ms)).seq
    (optional_explained (nullable_explained float_explained) _ ms)).seq
    (optional_explained (nullable_explained (choice_explained _)) _ ms)).seq
    (optional_explained (nullable_explained (object_explained ChromaKey.explained)) _ ms)

theorem Content.explained {kind : String} {own : List Names}
    {read : List (String × Json) → Parsed Content} (h : Content.reader? kind = some (own, read)) :
    (read ms).Explained := by
  have text := nullable_explained string_explained
  unfold Content.reader? at h
  split at h
  · cases h
    exact ((optional_explained text _ ms).map _).seq (optional_explained text _ ms)
  · cases h
    exact ((required_explained string_explained _ ms).map _).seq
      (optional_explained (object_explained TextStyle.explained) _ ms)
  · cases h
    exact (Media.explained ms).map _
  · cases h
    exact ((Media.explained ms).map _).seq (optional_explained float_explained _ ms)
  · cases h
    exact (optional_explained (object_explained Shape.explained) _ ms).map _
  · cases h

theorem Clip.explained (v : Json) : (Clip.ofJson v).Explained := by
  unfold Clip.ofJson
  split
  · next ms =>
    split
    · exact .fail _
    · split
      · split
        · next read =>
          exact ((((((((optional_explained readId_explained _ ms).map _).seq
            (optional_explained float_explained _ ms)).seq
            (required_explained float_explained _ ms)).seq
            (optional_explained (nullable_explained Position.explained) _ ms)).seq
            (optional_explained float_explained _ ms)).seq
            (optional_explained float_explained _ ms)).seq
            (Content.explained ms read)).under _
        · exact .fail _
      · exact .fail _
  · exact .fail _

theorem Track.explained : (Track.ofMembers ms).Explained :=
  ((optional_explained readId_explained _ ms).map _).seq
    (optional_explained (list_explained Clip.explained) _ ms)

theorem Resolution.explained : (Resolution.ofMembers ms).Explained :=
  ((optional_explained int_explained _ ms).map _).seq (optional_explained int_explained _ ms)

theorem Background.explained : (Background.ofMembers ms).Explained :=
  ((optional_explained (nullable_explained string_explained) _ ms).map _).seq
    (optional_explained (nullable_explained string_explained) _ ms)

theorem Soundtrack.explained : (Soundtrack.ofMembers ms).Explained :=
  ((required_explained string_explained _ ms).map _).seq (optional_explained float_explained _ ms)

theorem Timeline.explained (canvas : Canvas) : (Timeline.ofMembers canvas ms).Explained :=
  ((((((optional_explained (nullable_explained float_explained) _ ms).map _).seq
    (optional_explained float_explained _ ms)).seq
    (optional_explained (object_explained Resolution.explained) _ ms)).seq
    (optional_explained (object_explained Background.explained) _ ms)).seq
    (optional_explained (list_explained (object_explained Track.explained)) _ ms)).seq
    (optional_explained (nullable_explained (object_explained Soundtrack.explained)) _ ms)

end

/-! ## Settings -/

namespace Settings

theorem one_explained {α : Type} {read : Json → Parsed α} (h : ∀ v, (read v).Explained)
    (env : List (String × String)) (name : String) (usual : α) :
    (one env name read usual).Explained := by
  unfold one
  split
  · exact (h _).under _
  · exact .ok _

theorem explained (env : List (String × String)) :
    (ofEnvironment env).Explained := by
  have text name usual := one_explained string_explained env name usual
  have double name usual := one_explained float_explained env name usual
  have whole name usual := one_explained int_explained env name usual
  unfold ofEnvironment
  refine .seq (.seq (.seq (.seq (.seq (.seq ?_ (text _ _)) (whole _ _))
    (one_explained bool_explained env _ _)) (whole _ _)) (double _ _)) (double _ _)
  refine .seq (.seq (.seq (.seq (.seq (.seq ?_ (whole _ _)) (whole _ _)) (double _ _)) (double _ _))
    (text _ _)) (text _ _)
  exact (((((((text _ _).map _).seq (text _ _)).seq (text _ _)).seq (text _ _)).seq
    (text _ _)).seq (text _ _)).seq (text _ _)

end Settings

/-! ## Validations -/

theorem Timeline.ofJson_error {canvas : Except (List Mismatch) Canvas} {v : Json}
    {ms : List Mismatch} (settings : ∀ es, canvas = .error es → es ≠ [])
    (fails : Timeline.ofJson canvas v = .error ms) : ms ≠ [] := by
  have read (c : Canvas) : (object "Timeline" (Timeline.ofMembers c) v).Explained :=
    object_explained (fun ms => Timeline.explained ms c) v
  unfold Timeline.ofJson at fails
  split at fails
  · split at fails
    · cases fails
      exact settings ms rfl
    · exact (read _).toExcept fails
  · exact (read _).toExcept fails
  · exact (read _).toExcept fails

theorem Timeline.accept_issues {canvas : Except (List Mismatch) Canvas} {v : Json}
    {issues : List Issue} (settings : ∀ es, canvas = .error es → es ≠ [])
    (refused : Timeline.accept canvas v = .error (.issues issues)) : issues ≠ [] := by
  unfold Timeline.accept at refused
  split at refused
  · cases refused
  · next report _ =>
    split at refused
    · split at refused
      · cases refused
      · next fails =>
        cases refused
        exact fun none => Timeline.ofJson_error settings fails (List.map_eq_nil_iff.1 none)
    · next invalid =>
      cases refused
      rintro none
      exact invalid (by rw [Report.isValid, none]; rfl)

/-- **Totality.** With settings from any environment, and for every document: either no clip breaks
the check off, and then the check gives a report, and validating gives a timeline or at least one
issue; or a clip does, and then both end with a fault, since a whole number is too large for a double
or has too many digits to be written. -/
theorem validation_ends (env : List (String × String)) (v : Json) :
    let validated := Timeline.accept ((Settings.ofEnvironment env).toExcept.map Settings.canvas) v
    (¬Check.Breaks v ∧ (∃ report, check v = .ok report) ∧
      ((∃ t, validated = .ok t) ∨ ∃ issues, validated = .error (.issues issues) ∧ issues ≠ [])) ∨
    (Check.Breaks v ∧ ∃ f, (f = .wholeTooLarge ∨ f = .unwritable) ∧
      check v = .error f ∧ validated = .error (.fault f)) := by
  intro validated
  have settings {es : List Mismatch}
      (h : (Settings.ofEnvironment env).toExcept.map Settings.canvas = .error es) : es ≠ [] := by
    cases read : (Settings.ofEnvironment env).toExcept with
    | ok =>
      rw [read] at h
      cases h
    | error =>
      rw [read] at h
      cases h
      exact (Settings.explained env).toExcept read
  cases checked : check v with
  | error f =>
    obtain ⟨breaks, reason⟩ := Check.breaks_of_check_error checked
    refine .inr ⟨breaks, f, reason, rfl, ?_⟩
    simp only [validated, Timeline.accept, checked]
  | ok report =>
    refine .inl ⟨(Check.check_ok_iff_not_breaks v).1 ⟨report, checked⟩, ⟨report, rfl⟩, ?_⟩
    cases ends : validated with
    | ok t => exact .inl ⟨t, rfl⟩
    | error refusal =>
      cases refusal with
      | issues list => exact .inr ⟨list, rfl, Timeline.accept_issues (fun _ => settings) ends⟩
      | fault f =>
        -- a fault could only come from the check
        simp only [validated, Timeline.accept, checked] at ends
        repeat' split at ends
        all_goals cases ends

/-- A title that starts far below zero, in a timeline with a duration. -/
def farTitle : Json := .object [("duration", .int 5), ("tracks", .array [.object [("clips",
  .array [.object [("type", .string "text"), ("text", .string "Hi"), ("start", .int (-Int.pow 10 400)),
    ("duration", .float 1.5)]])]])]

/-- A check is broken off although a start below zero has an error of its own. -/
theorem farTitle_breaks : check farTitle = .error .wholeTooLarge ∧
    Timeline.accept (.ok Settings.standard.canvas) farTitle = .error (.fault .wholeTooLarge) := by
  have breaks : check farTitle = .error .wholeTooLarge := by decide +kernel
  exact ⟨breaks, by simp only [Timeline.accept, breaks]⟩

end Montage
