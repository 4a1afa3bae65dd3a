import Mathlib.Algebra.Order.Group.Multiset
import Montage.Proofs.Graph.Labels

/-!
# Linear dataflow

A filter graph is linear if every stream is produced once and consumed once. `Linear` says this
of the labels, in the order in which the filters are told; it is what the encoder needs to
accept a graph and to use all of it.

The law is proved through `StreamFlow`: run the filters in order on the multiset of streams that
are at hand, each filter taking its inputs away and putting its output back. Nothing is ever
copied, so streams are conserved (`StreamFlow.conserve`): what was there at the start and what was
produced is what was consumed and what is left. `linear_of_flow` reads the counts of `Linear` off
this one equation.
-/
namespace Montage.Graph

/-- The label of the picture of an input. -/
def pictureOf (k : Nat) : String := toString k ++ ":v"

/-- The label of the sound of an input. -/
def soundOf (k : Nat) : String := toString k ++ ":a"

/-- All labels that some filters consume, as often as they do. -/
def consumed (fs : List Filter) : List String := fs.flatMap (·.inputs)

/-- All labels that some filters produce. -/
def produced (fs : List Filter) : List String := fs.map (·.output)

/-- The labels of the two streams that a graph is there for. -/
def results : List String := ["final", "aout"]

/-- A well-formed graph over a number of inputs: labels are not reused, each input is there
before it is needed, the two results are produced and not consumed, every other stream is
consumed once and by a filter of its medium, and no stream of an input is consumed twice. The
picture of input 0 is always consumed. -/
structure Linear (inputs : Nat) (fs : List Filter) : Prop where
  distinct : (produced fs).Nodup
  supplied : ∀ before f after, fs = before ++ f :: after → ∀ l ∈ f.inputs,
    l ∈ produced before ∨ ∃ k < inputs, l = pictureOf k ∨ l = soundOf k
  finished : ∀ l ∈ results, (produced fs).count l = 1 ∧ (consumed fs).count l = 0
  used : ∀ f ∈ fs, f.output ∉ results →
    (consumed fs).count f.output = 1 ∧ ∃ g ∈ fs, f.output ∈ g.inputs ∧ g.media = f.media
  once : ∀ k, (consumed fs).count (pictureOf k) ≤ 1 ∧ (consumed fs).count (soundOf k) ≤ 1
  base : (consumed fs).count (pictureOf 0) = 1

/-! ## Streams at hand -/

/-- A stream by its label and what flows in it. -/
abbrev Stream := String × Medium

/-- The streams that a filter takes. -/
def taken (f : Filter) : List Stream := f.inputs.map (·, f.media)

/-- The two streams that a graph is there for. -/
def resultStreams : List Stream := [("final", .video), ("aout", .audio)]

theorem map_resultStreams : resultStreams.map Prod.fst = results := rfl

/-- The stream that a filter gives. -/
def given (f : Filter) : Stream := (f.output, f.media)

/-- From the streams `A` the filters can be run in order, each on streams that are there and
that nothing else takes; `B` is what is there in the end. -/
def StreamFlow : Multiset Stream → List Filter → Multiset Stream → Prop
  | A, [], B => A = B
  | A, f :: fs, B => ∃ rest, A = taken f + rest ∧ StreamFlow (given f ::ₘ rest) fs B

namespace StreamFlow

variable {A B C X : Multiset Stream} {fs gs : List Filter}

theorem append : StreamFlow A (fs ++ gs) C ↔ ∃ B, StreamFlow A fs B ∧ StreamFlow B gs C := by
  induction fs generalizing A with
  | nil => simp [StreamFlow]
  | cons f fs ih =>
    simp only [List.cons_append, StreamFlow, ih]
    constructor
    · rintro ⟨rest, hA, B, h, h'⟩
      exact ⟨B, ⟨rest, hA, h⟩, h'⟩
    · rintro ⟨B, ⟨rest, hA, h⟩, h'⟩
      exact ⟨rest, hA, B, h, h'⟩

/-- Streams that no filter takes stay. -/
theorem frame (h : StreamFlow A fs B) (X : Multiset Stream) : StreamFlow (A + X) fs (B + X) := by
  induction fs generalizing A with
  | nil => exact congrArg (· + X) h
  | cons f fs ih =>
    obtain ⟨rest, rfl, h⟩ := h
    exact ⟨rest + X, add_assoc _ _ _, by simpa using ih h⟩

/-- One filter that takes all that is there. -/
theorem single (f : Filter) : StreamFlow (taken f) [f] {given f} :=
  ⟨0, by simp, rfl⟩

theorem trans (h : StreamFlow A fs B) (h' : StreamFlow B gs C) : StreamFlow A (fs ++ gs) C :=
  append.2 ⟨B, h, h'⟩

/-- Two graphs side by side. -/
theorem beside {D : Multiset Stream} (h : StreamFlow A fs B) (h' : StreamFlow C gs D) :
    StreamFlow (A + C) (fs ++ gs) (B + D) := by
  refine (h.frame C).trans ?_
  rw [add_comm B C, add_comm B D]
  exact h'.frame B

/-- **Conservation.** What is there at the start and what is given is what is taken and what is
left. -/
theorem conserve (h : StreamFlow A fs B) :
    A + ↑(fs.map given) = ↑(fs.flatMap taken) + B := by
  induction fs generalizing A with
  | nil => simpa [StreamFlow] using h
  | cons f fs ih =>
    obtain ⟨rest, rfl, h⟩ := h
    calc ↑(taken f) + rest + ↑((f :: fs).map given)
        = ↑(taken f) + ((given f ::ₘ rest) + ↑(fs.map given)) := by
          simp only [List.map_cons, ← Multiset.cons_coe, Multiset.add_cons, Multiset.cons_add,
            add_assoc]
      _ = ↑(taken f) + (↑(fs.flatMap taken) + B) := by rw [ih h]
      _ = ↑((f :: fs).flatMap taken) + B := by
          rw [List.flatMap_cons, ← Multiset.coe_add, add_assoc]

/-- What a filter takes was there at the start or was given before it. -/
theorem supplied {before after : List Filter} {f : Filter}
    (h : StreamFlow A (before ++ f :: after) B) {s : Stream} (hs : s ∈ taken f) :
    s ∈ A ∨ s ∈ before.map given := by
  obtain ⟨C, hbefore, rest, rfl, -⟩ := append.1 h
  have mem : s ∈ A + ↑(before.map given) := by
    rw [hbefore.conserve]
    simp [hs]
  simpa using mem

/-- Conservation, seen on the labels alone. -/
theorem conserve_labels (h : StreamFlow A fs B) :
    A.map Prod.fst + ↑(produced fs) = ↑(consumed fs) + B.map Prod.fst := by
  have hgiven : (fs.map given).map Prod.fst = produced fs := by
    rw [List.map_map]; rfl
  have htaken : (fs.flatMap taken).map Prod.fst = consumed fs := by
    simp [taken, consumed, List.map_flatMap, Function.comp_def]
  have := congrArg (Multiset.map Prod.fst) h.conserve
  rwa [Multiset.map_add, Multiset.map_add, Multiset.map_coe, Multiset.map_coe, hgiven,
    htaken] at this

end StreamFlow

/-! ## From flow to linearity -/

theorem getLast?_pictureOf (k : Nat) : (pictureOf k).toList.getLast? = some 'v' := by
  simp [pictureOf]

theorem getLast?_soundOf (k : Nat) : (soundOf k).toList.getLast? = some 'a' := by
  simp [soundOf]

theorem pictureOf_inj {j k : Nat} (h : pictureOf j = pictureOf k) : j = k := by
  unfold pictureOf at h
  rwa [String.append_left_inj, toString_inj] at h

theorem pictureOf_ne_soundOf (j k : Nat) : pictureOf j ≠ soundOf k := by
  intro h
  have := congrArg (fun l : String => l.toList.getLast?) h
  rw [getLast?_pictureOf, getLast?_soundOf] at this
  cases this

/-- A label that names a stream of an input. -/
def IsSource (l : String) : Prop := ∃ k, l = pictureOf k ∨ l = soundOf k

theorem not_isSource_of_mem_results {l : String} (h : l ∈ results) : ¬ IsSource l := by
  rintro ⟨k, rfl | rfl⟩ <;> simp only [results, List.mem_cons, List.not_mem_nil, or_false] at h
  · have := getLast?_pictureOf k
    rcases h with h | h <;> simp [h] at this
  · have := getLast?_soundOf k
    rcases h with h | h <;> simp [h] at this

/-- A graph that turns sources which are all different into the two results is linear. -/
theorem linear_of_flow {A : Multiset Stream} {fs : List Filter} {inputs : Nat}
    (flow : StreamFlow A fs ↑resultStreams)
    (distinct : (produced fs).Nodup)
    (outside : ∀ l ∈ produced fs, ¬ IsSource l)
    (sources : ∀ s ∈ A, ∃ k < inputs, s.1 = pictureOf k ∨ s.1 = soundOf k)
    (once : (A.map Prod.fst).Nodup)
    (base : pictureOf 0 ∈ A.map Prod.fst) : Linear inputs fs := by
  have source {l : String} (h : l ∈ A.map Prod.fst) : IsSource l := by
    obtain ⟨s, hs, rfl⟩ := Multiset.mem_map.1 h
    obtain ⟨k, -, hk⟩ := sources s hs
    exact ⟨k, hk⟩
  have noSource {l : String} (h : ¬ IsSource l) : (A.map Prod.fst).count l = 0 :=
    Multiset.count_eq_zero.2 fun hmem => h (source hmem)
  have notProduced {l : String} (h : IsSource l) : (produced fs).count l = 0 :=
    List.count_eq_zero.2 fun hmem => outside l hmem h
  have counts (l : String) : (A.map Prod.fst).count l + (produced fs).count l =
      (consumed fs).count l + results.count l := by
    have := congrArg (Multiset.count l) flow.conserve_labels
    rwa [Multiset.count_add, Multiset.count_add, Multiset.map_coe, map_resultStreams,
      Multiset.coe_count, Multiset.coe_count, Multiset.coe_count] at this
  have atMostOnce (l : String) : (A.map Prod.fst).count l ≤ 1 :=
    Multiset.nodup_iff_count_le_one.1 once l
  have consumedOnce {l : String} (h : IsSource l) : (consumed fs).count l ≤ 1 := by
    have := counts l
    have := notProduced h
    have := atMostOnce l
    omega
  refine ⟨distinct, ?_, ?_, ?_, ?_, ?_⟩
  · rintro before f after rfl l hl
    have hs : (l, f.media) ∈ taken f := List.mem_map.2 ⟨l, hl, rfl⟩
    rcases flow.supplied hs with h | h
    · exact Or.inr (sources _ h)
    · obtain ⟨g, hg, e⟩ := List.mem_map.1 h
      exact Or.inl (List.mem_map.2 ⟨g, hg, congrArg Prod.fst e⟩)
  · intro l hl
    have hcount : results.count l = 1 := List.count_eq_one_of_mem (by decide) hl
    have := counts l
    have := noSource (not_isSource_of_mem_results hl)
    have := List.nodup_iff_count_le_one.1 distinct l
    omega
  · intro f hf hres
    have hout : f.output ∈ produced fs := List.mem_map.2 ⟨f, hf, rfl⟩
    constructor
    · have := counts f.output
      have := noSource (outside _ hout)
      have := List.count_eq_one_of_mem distinct hout
      have := List.count_eq_zero.2 hres
      omega
    · -- the labels alone do not tell the medium: this part needs the streams
      have mem : given f ∈ (↑(fs.flatMap taken) + ↑resultStreams : Multiset Stream) := by
        rw [← flow.conserve, Multiset.mem_add]
        exact Or.inr (Multiset.mem_coe.2 (List.mem_map.2 ⟨f, hf, rfl⟩))
      rcases Multiset.mem_add.1 mem with h | h
      · obtain ⟨g, hg, hmem⟩ := List.mem_flatMap.1 (Multiset.mem_coe.1 h)
        obtain ⟨l, hl, e⟩ := List.mem_map.1 hmem
        simp only [given, Prod.mk.injEq] at e
        obtain ⟨rfl, e⟩ := e
        exact ⟨g, hg, hl, e⟩
      · exact absurd (map_resultStreams ▸ List.mem_map.2 ⟨_, Multiset.mem_coe.1 h, rfl⟩) hres
  · exact fun k => ⟨consumedOnce ⟨k, Or.inl rfl⟩, consumedOnce ⟨k, Or.inr rfl⟩⟩
  · have hsrc : IsSource (pictureOf 0) := ⟨0, Or.inl rfl⟩
    have := counts (pictureOf 0)
    have := notProduced hsrc
    have := Multiset.count_eq_one_of_mem once base
    have : results.count (pictureOf 0) = 0 :=
      List.count_eq_zero.2 fun h => not_isSource_of_mem_results h hsrc
    omega

end Montage.Graph
