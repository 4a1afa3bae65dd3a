import Montage.Proofs.Compiler.Agreement

/-!
# The files that a command reads

Resolving only gives paths at which there is a file (`isFile_assets`, `isFile_background`), and
the argument vector of a compiled command gives these paths and no other file: a generated colour
apart, its inputs are the background and the assets that were found (`filesOf_compiled`).
-/
namespace Montage

namespace Library

variable {l : Library} {files : Files} {t : Timeline} {path : String}

theorem isFile_find? {source : String} (h : l.find? files source = some path) :
    files.isFile path = true := by
  unfold find? at h
  split at h
  · cases h
  · split at h
    · split at h
      · next isFile =>
        cases h
        exact isFile
      · cases h
    · exact List.find?_some h

theorem isFile_assets {assets : List Asset} (h : l.assets files t = .ok assets)
    (hpath : path ∈ assets.filterMap (·.path)) : files.isFile path = true := by
  obtain ⟨a, ha, hpath⟩ := List.mem_filterMap.1 hpath
  have outlined : a.outline ∈ assets.map Asset.outline := List.mem_map_of_mem ha
  have found : a.outline.path = some path := hpath
  rw [(assets_ok h).2, List.mem_append] at outlined
  rcases outlined with clip | track
  · obtain ⟨item, -, hitem⟩ := List.mem_filterMap.1 clip
    obtain ⟨w, -, hw⟩ := Option.map_eq_some_iff.1 hitem
    rw [← hw] at found
    exact isFile_find? found
  · obtain ⟨s, -, hs⟩ := Option.map_eq_some_iff.1 (Option.mem_toList.1 track)
    rw [← hs] at found
    exact isFile_find? found

theorem isFile_background {background : Option Asset} (h : l.background files t = .ok background)
    (hpath : background.bind (·.path) = some path) : files.isFile path = true := by
  rw [background_resolved h] at hpath
  obtain ⟨source, -, hsource⟩ := Option.bind_eq_some_iff.1 hpath
  exact isFile_find? hsource

end Library

/-- The files of a background and of some assets. -/
def filesFor (background : Option Asset) (assets : List Asset) : List String :=
  (background.bind (·.path)).toList ++ assets.filterMap (·.path)

namespace Compiler

open Command

theorem inputOptions_mem (a : Asset) : inputOptions a ∈ fileOptions := by
  unfold inputOptions
  split <;> decide

/-- Each found asset gives one input, and it is a file. -/
theorem inputsFrom_files {n : Nat} {found : List (Asset × String)} {inputs : List Input}
    (h : inputsFrom n found = .ok inputs) :
    inputs.map (·.path) = found.map (·.2) ∧ ∀ i ∈ inputs, i.options ∈ fileOptions := by
  induction found generalizing n inputs with
  | nil =>
    cases h
    exact ⟨rfl, by simp⟩
  | cons x found ih =>
    obtain ⟨a, path⟩ := x
    unfold inputsFrom at h
    split at h
    · obtain ⟨rest, hrest, h⟩ := Graph.except_bind_ok.1 h
      cases h
      obtain ⟨paths, files⟩ := ih hrest
      exact ⟨congrArg (path :: ·) paths, List.forall_mem_cons.2 ⟨inputOptions_mem a, files⟩⟩
    · cases h

theorem map_found (assets : List Asset) :
    ((found assets).map (·.2)).Perm (assets.filterMap (·.path)) := by
  have paths : (assets.filterMap fun a => a.path.map fun p => (a, p)).map (·.2) =
      assets.filterMap (·.path) := by
    rw [List.map_filterMap]
    congr 1
    funext a
    cases a.path <;> rfl
  exact paths ▸ (List.mergeSort_perm _ _).map _

/-- Each input of a command is a generated source or a file, and has its options. -/
theorem Assembly.options_mem {t : Timeline} {assets : List Asset} {background : Option Asset}
    {cmd : Command} (p : Assembly t assets background cmd) :
    ∀ i ∈ cmd.inputs, i.options ∈ sourceOptions :: fileOptions := by
  obtain ⟨-, shapes⟩ := inputsFrom_files p.numbered
  have base : p.input.options ∈ sourceOptions :: fileOptions := by
    have shape := p.started.shape
    split at shape
    · rcases shape with shape | shape <;> simp [shape, fileOptions]
    · simp [shape, sourceOptions]
  rw [p.inputs_eq]
  exact List.forall_mem_cons.2 ⟨base, fun i hi => List.mem_cons_of_mem _ (shapes i hi)⟩

/-- The files that the encoder is told to read are those that were found. -/
theorem filesOf_compiled {k : Compiler} {files : Files} {t : Timeline} {assets : List Asset}
    {background : Option Asset} {outputPath : String} {output : OutputOptions} {cmd : Command}
    (h : k.compile files t assets outputPath output background = .ok cmd) {encoder : String}
    {argv : List String} (hargv : cmd.arguments encoder = .ok argv) :
    (filesOf false argv.tail).Perm (filesFor background assets) := by
  obtain ⟨p⟩ := compile_ok h
  obtain ⟨paths, shapes⟩ := inputsFrom_files p.numbered
  have base : (if p.input.options ∈ fileOptions then [p.input.path] else []) =
      (background.bind (·.path)).toList := by
    have shape := p.started.shape
    cases file : background.bind (·.path) with
    | none =>
      rw [file] at shape
      simp [shape, fileOptions]
    | some path =>
      rw [file] at shape
      rw [p.started.path path file]
      rcases shape with shape | shape <;> simp [shape, fileOptions]
  have rest : p.inputs.filter (·.options ∈ fileOptions) = p.inputs :=
    List.filter_eq_self.2 fun i hi => decide_eq_true (shapes i hi)
  have told : filesOf false argv.tail =
      (background.bind (·.path)).toList ++ (found assets).map (·.2) := by
    rw [filesOf_arguments p.options_mem hargv, p.inputs_eq, List.filter_cons, ← paths, ← base, rest]
    split <;> simp_all
  rw [told]
  exact (map_found assets).append_left _

end Compiler
end Montage
