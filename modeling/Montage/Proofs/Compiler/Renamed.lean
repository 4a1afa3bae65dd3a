import Montage.Command.Arguments
import Montage.Proofs.Compiler.Edited

/-!
# Other ids

Ids only name things. With other ids the clips of a timeline have other names, and two of them may
now have one name, or that of the soundtrack or the background; but each clip still finds its own
asset by its slot, and the soundtrack and the background theirs by their role. `draft_renamed`: the
command is the same but for those names, so the encoder is started in the same way.
-/
namespace Montage

/-! ## The encoder is not told of names -/

section
variable {Q : String → String → Prop}

theorem Filter.Alike.printed {f f' : Filter} (h : f.Alike id Q f') :
    Graph.printFilter f = Graph.printFilter f' := by
  unfold Graph.printFilter
  rw [h.operation, h.options, h.inputs, h.output, List.map_id]
  rfl

theorem printed_of_alike {g g' : Graph} (h : List.Forall₂ (Node.Alike id Q) g g') :
    Graph.print g = Graph.print g' := by
  have filters := Node.Alike.flattenAll h
  rw [Node.flattenAll_eq_flatMap, Node.flattenAll_eq_flatMap] at filters
  have printed : g.filters.map Graph.printFilter = g'.filters.map Graph.printFilter := by
    rw [← List.forall₂_eq_eq_eq, List.forall₂_map_left_iff, List.forall₂_map_right_iff]
    exact filters.imp fun _ _ => Filter.Alike.printed
  rw [Graph.print, printed, Graph.print]

theorem Command.Alike.arguments {P : String → Prop} {c c' : Command} (h : c.Alike id Q P c')
    (encoder : String) : c.arguments encoder = c'.arguments encoder := by
  have inputs : c.inputs.flatMap Input.arguments = c'.inputs.flatMap Input.arguments := by
    have same : c.inputs.map Input.arguments = c'.inputs.map Input.arguments := by
      rw [← List.forall₂_eq_eq_eq, List.forall₂_map_left_iff, List.forall₂_map_right_iff]
      refine h.inputs.imp fun i i' alike => ?_
      rw [Input.arguments, alike.options, alike.path, Input.arguments]
    rw [List.flatMap_def, same, List.flatMap_def]
  have graph := printed_of_alike h.graph
  rw [h.others]
  unfold Command.arguments
  simp only [← inputs, ← graph]
  rfl

end

/-! ## Other ids -/

/-- The timeline with other ids, given by the slots of the clips. -/
def Timeline.renamed (ids : Nat × Nat → Option (Option String)) (t : Timeline) : Timeline :=
  { t with tracks := t.tracks.map fun tracks => tracks.mapIdx fun i track =>
      { track with clips := track.clips.map fun clips => clips.mapIdx fun j c =>
          { c with id := ids (i, j) } } }

/-- A clip in its slot with the id that the slot has now. -/
def Compiler.renameItem (ids : Nat × Nat → Option (Option String)) (item : Compiler.Item) :
    Compiler.Item :=
  (item.1, { item.2 with id := ids item.1 })

namespace Timeline

theorem zipIdx_mapIdx {α β : Type} (f : Nat → α → β) (xs : List α) :
    (xs.mapIdx f).zipIdx = xs.zipIdx.map fun x => (f x.2 x.1, x.2) := by
  refine List.ext_getElem? fun n => ?_
  simp only [List.getElem?_zipIdx, List.getElem?_mapIdx, List.getElem?_map, Option.map_map,
    Function.comp_def, Nat.zero_add]

theorem slots_renamed (ids : Nat × Nat → Option (Option String)) (t : Timeline) :
    (t.renamed ids).slots = t.slots.map (Compiler.renameItem ids) := by
  have tracks : (t.renamed ids).trackList = t.trackList.mapIdx fun i track =>
      { track with clips := track.clips.map fun clips => clips.mapIdx fun j c =>
        { c with id := ids (i, j) } } := by
    cases ht : t.tracks <;> simp [trackList, renamed, ht]
  have clips (track : Track) (i : Nat) :
      Track.clipList { track with clips := track.clips.map fun clips => clips.mapIdx fun j c =>
        { c with id := ids (i, j) } } =
        track.clipList.mapIdx fun j c => { c with id := ids (i, j) } := by
    cases hc : track.clips <;> simp [Track.clipList, hc]
  unfold slots
  rw [tracks, zipIdx_mapIdx, List.flatMap_map, List.map_flatMap]
  simp only [clips, zipIdx_mapIdx, List.map_map]
  rfl

end Timeline

namespace Compiler

open Montage.Graph

def otherIds (ids : Nat × Nat → Option (Option String)) (t : Timeline) : Edit where
  keeps _ := True
  move := id
  names := namesUnder (renameItem ids) t.slots
  move_inj _ _ _ _ := id
  soundtrack := .inl ⟨rfl, by simp⟩
  background := .inl ⟨rfl, by simp⟩

theorem kept_renamed (ids : Nat × Nat → Option (Option String)) (t : Timeline) :
    List.Forall₂ (otherIds ids t).Kept t.slots (t.renamed ids).slots := by
  rw [Timeline.slots_renamed, List.forall₂_map_right_iff]
  exact List.forall₂_same.2 fun item mem => ⟨trivial, rfl, rfl, .inr ⟨item, mem, rfl, rfl⟩⟩

theorem takes_renamed (ids : Nat × Nat → Option (Option String)) (l : Library) (files : Files)
    (t : Timeline) : (otherIds ids t).Takes l files t (t.renamed ids) where
  slots := .of_forall₂ (kept_renamed ids t)
  others := rfl

theorem effectiveDuration_renamed (ids : Nat × Nat → Option (Option String)) (t : Timeline)
    (floor : Number) : (t.renamed ids).effectiveDuration floor = t.effectiveDuration floor := by
  have ends : (t.renamed ids).clips.map Clip.endValue = t.clips.map Clip.endValue := by
    rw [← Timeline.map_slots, ← Timeline.map_slots, Timeline.slots_renamed, List.map_map,
      List.map_map, List.map_map]
    rfl
  unfold Timeline.effectiveDuration Timeline.contentEnd
  rw [ends]
  rfl

/-- Labels that are the same. -/
theorem follows_same : Follows id (· = ·) where
  fixed _ _ := rfl
  next := by
    rintro stem - ls _ rfl
    exact ⟨rfl, rfl⟩

theorem advances_same (c : Clip) : Advances id (· = ·) (· = ·) c where
  labelled _ := by
    rintro ls _ rfl
    exact .ok ⟨rfl, rfl⟩
  passed _ _ _ := id

/-- **Other ids.** With other ids a timeline gives the same command but for the names of its clips,
and the encoder is started in the same way; or it fails as it did. -/
theorem draft_renamed (l : Library) (k : Compiler) (files : Files) (t : Timeline)
    (ids : Nat × Nat → Option (Option String)) (outputPath : String) (output : OutputOptions) :
    Agree (fun cmd cmd' =>
        cmd.Alike id (namesUnder (renameItem ids) t.slots) (fun _ => False) cmd' ∧
          ∀ encoder, cmd.arguments encoder = cmd'.arguments encoder)
      (draft l k files t outputPath output)
      (draft l k files (t.renamed ids) outputPath output) := by
  have takes := takes_renamed ids l files t
  refine (agree_draft (P := fun _ => False) takes (effectiveDuration_renamed ids t k.minDuration)
    follows_same follows_same rfl ?_ outputPath output).mono
    fun cmd cmd' alike => ⟨alike, alike.arguments⟩
  intro assets assets' thinned numbered v v' hv
  refine Pairs.foldlM (S := fun _ => (· = ·)) (fun item item' _ kept v v' hv => ?_)
    (kept_renamed ids t) hv
  exact pairs_drawClip takes.size thinned numbered kept follows_same (advances_same item.2) hv

end Compiler
end Montage
