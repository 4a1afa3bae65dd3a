import Montage.Proofs.Merge.Resolved
import Montage.Proofs.Timeline.Rechecking

/-!
# Checking a timeline again once its placeholders are replaced

A timeline is checked before placeholders are replaced, and not again. `check_resolved_iff` says what
a second check would find. Of the numbers nothing can go wrong, since replacing does not touch them;
but a text or a source that consists of placeholders may have become empty, and two ids may have
become the same. Nothing else is found.
-/
namespace Montage

section

variable {f : String → String}

theorem Content.media_mapTexts {c : Content} {m : Media} (h : (c.mapTexts f).media? = some m) :
    ∃ own, c.media? = some own ∧ m = own.mapTexts f := by
  cases c with
  | image own => exact ⟨own, rfl, (Option.some.inj h).symm⟩
  | video own volume => exact ⟨own, rfl, (Option.some.inj h).symm⟩
  | _ => cases h

theorem ChromaKey.InBounds.mapTexts {k : ChromaKey} (h : k.InBounds) : (k.mapTexts f).InBounds :=
  ⟨h.threshold, h.halo⟩

theorem Clip.InBounds.mapTexts {c : Clip} (h : c.InBounds) : (c.mapTexts f).InBounds where
  start := h.start
  duration := h.duration
  opacity := h.opacity
  scale := h.scale
  chromaKey m hm k there := by
    obtain ⟨own, hown, rfl⟩ := Content.media_mapTexts hm
    obtain ⟨key, set, rfl⟩ := of_join_map there
    exact (h.chromaKey own hown key set).mapTexts

theorem Track.clipList_mapTexts (t : Track) :
    (t.mapTexts f).clipList = t.clipList.map (Clip.mapTexts f) := by
  cases h : t.clips <;> simp [Track.clipList, Track.mapTexts, h]

theorem Timeline.trackList_mapTexts (t : Timeline) :
    (t.mapTexts f).trackList = t.trackList.map (Track.mapTexts f) := by
  cases h : t.tracks <;> simp [Timeline.trackList, Timeline.mapTexts, h]

theorem Timeline.InBounds.mapTexts {t : Timeline} (h : t.InBounds) : (t.mapTexts f).InBounds where
  tracks := by simpa [Timeline.trackList_mapTexts] using h.tracks
  clips track htrack := by
    rw [Timeline.trackList_mapTexts] at htrack
    obtain ⟨own, hown, rfl⟩ := List.mem_map.1 htrack
    obtain ⟨filled, each⟩ := h.clips own hown
    rw [Track.clipList_mapTexts]
    refine ⟨by simpa using filled, fun c hc => ?_⟩
    obtain ⟨c, hc', rfl⟩ := List.mem_map.1 hc
    exact (each c hc').mapTexts
  frameRate := h.frameRate
  size r set := by
    obtain ⟨own, hown, rfl⟩ := Option.map_eq_some_iff.1 set
    exact h.size own hown
  duration := h.duration

end

namespace Merge

/-- **A second check.** Once the placeholders of an accepted timeline are replaced, the check finds
nothing if and only if no text and no source has become empty and no two ids are the same. -/
theorem check_resolved_iff {canvas : Except (List Mismatch) Canvas} {v : Json} {t : Timeline}
    (h : Timeline.accept canvas v = .ok t) (fields : Fields) :
    resolve .standard fields canvas t = .ok (t.mapTexts (substitute .standard fields)) ∧
      ∃ report, check ((t.mapTexts (substitute .standard fields)).toJson .brief) = .ok report ∧
        (report.errors = [] ↔ (t.mapTexts (substitute .standard fields)).IsFilled) := by
  obtain ⟨tidy, inForce⟩ := Timeline.tidy_of_accept h
  have bounds := (Timeline.inBounds_of_accept h).mapTexts (f := substitute .standard fields)
  obtain ⟨report, checked, found⟩ := check_toJson (tidy.mapTexts (keepsWords_standard fields))
  refine ⟨resolve_eq tidy inForce fields, report, checked, ?_⟩
  rw [found]
  exact and_iff_right bounds

theorem isFilled_greeting {text : String} (note : String) (filled : text ≠ "") :
    (greetingTimeline text note).IsFilled where
  clips track htrack c hc := by
    obtain rfl := List.mem_singleton.1 htrack
    obtain rfl := List.mem_singleton.1 hc
    refine ⟨fun words style isText => ?_, fun m hm => by cases hm⟩
    cases isText
    exact filled
  soundtrack := nofun
  ids := .nil

theorem check_resolved_greeting :
    Timeline.accept (.ok fullCanvas) (greeting "Hello \x7bname\x7d" "%name%") =
        .ok (greetingTimeline "Hello \x7bname\x7d" "%name%") ∧
      ∃ report, check ((greetingTimeline "Hello Ada" "Ada").toJson .brief) = .ok report ∧
        report.errors = [] := by
  have accepted : Timeline.accept (.ok fullCanvas) (greeting "Hello \x7bname\x7d" "%name%") =
      .ok (greetingTimeline "Hello \x7bname\x7d" "%name%") := rfl
  obtain ⟨text, note⟩ := substitute_greeting
  obtain ⟨-, report, checked, found⟩ :=
    check_resolved_iff accepted [("name", .string "Ada")]
  rw [mapTexts_greeting, text, note] at checked found
  exact ⟨accepted, report, checked, found.2 (isFilled_greeting "Ada" (by decide))⟩

/-- A title that is nothing but a placeholder becomes empty. It was accepted, and merging succeeds,
but the check would refuse it now. -/
theorem check_resolved_blank :
    Timeline.accept (.ok fullCanvas) (greeting "\x7bname\x7d" "") =
        .ok (greetingTimeline "\x7bname\x7d" "") ∧
      resolve .standard [("name", .string "")] (.ok fullCanvas)
          (greetingTimeline "\x7bname\x7d" "") = .ok (greetingTimeline "" "") ∧
      ∃ report, check ((greetingTimeline "" "").toJson .brief) = .ok report ∧
        report.errors =
          [⟨"tracks[0].clips[0].text", "text is required for text clips", .error⟩] := by
  have accepted : Timeline.accept (.ok fullCanvas) (greeting "\x7bname\x7d" "") =
      .ok (greetingTimeline "\x7bname\x7d" "") := rfl
  obtain ⟨tidy, inForce⟩ := Timeline.tidy_of_accept accepted
  have texts : substitute .standard [("name", .string "")] "\x7bname\x7d" = "" ∧
      substitute .standard [("name", .string "")] "" = "" := by decide +kernel
  have blank : (greetingTimeline "\x7bname\x7d" "").mapTexts
      (substitute .standard [("name", .string "")]) = greetingTimeline "" "" := by
    rw [mapTexts_greeting, texts.1, texts.2]
  obtain ⟨report, checked⟩ :=
    Check.check_written (tidy.mapTexts (keepsWords_standard [("name", .string "")]))
  rw [blank] at checked
  refine ⟨accepted, by rw [resolve_eq tidy inForce, blank], report, checked, ?_⟩
  rw [Timeline.toJson_brief] at checked
  rw [check_object checked]
  decide +kernel

end Merge

end Montage
