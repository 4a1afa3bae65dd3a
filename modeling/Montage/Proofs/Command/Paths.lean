import Montage.Command.Arguments
import Montage.Proofs.Graph.Labels

/-!
# Paths in an argument vector

The encoder takes what follows an `-i` for the path of an input and numbers the inputs in the
order in which it meets them. `pathsOf` reads an argument vector so, and `paths_prefix` says that
the inputs of a command come out in their order, before anything else that the vector holds.
-/
namespace Montage.Command

/-- The paths that an argument vector gives after `-i`, read from the front. What follows an `-i`
is a path, whatever it looks like. -/
def pathsOf : List String → List String
  | [] => []
  | [_] => []
  | a :: b :: rest => if a = "-i" then b :: pathsOf rest else pathsOf (b :: rest)

theorem pathsOf_cons_of_ne {a : String} (ha : a ≠ "-i") (rest : List String) :
    pathsOf (a :: rest) = pathsOf rest := by
  cases rest with
  | nil => rfl
  | cons b rest => rw [pathsOf, if_neg ha]

theorem pathsOf_append {options : List String} (h : "-i" ∉ options) (rest : List String) :
    pathsOf (options ++ rest) = pathsOf rest := by
  induction options with
  | nil => rfl
  | cons a options ih =>
    obtain ⟨ha, h⟩ := not_or.1 (List.mem_cons.not.1 h)
    rw [List.cons_append, pathsOf_cons_of_ne (Ne.symm ha), ih h]

/-- Each input tells its path after its options. -/
theorem pathsOf_arguments {inputs : List Input} (h : ∀ i ∈ inputs, "-i" ∉ i.options)
    (rest : List String) :
    pathsOf (inputs.flatMap Input.arguments ++ rest) = inputs.map (·.path) ++ pathsOf rest := by
  induction inputs with
  | nil => rfl
  | cons i inputs ih =>
    have hi := h i List.mem_cons_self
    have his := ih fun j hj => h j (List.mem_cons_of_mem _ hj)
    rw [List.flatMap_cons, Input.arguments, List.append_assoc, List.append_assoc,
      pathsOf_append hi, List.cons_append, List.cons_append, List.nil_append, pathsOf,
      if_pos rfl, his, List.map_cons, List.cons_append]

theorem paths_prefix {cmd : Command} (h : ∀ i ∈ cmd.inputs, "-i" ∉ i.options) {encoder : String}
    {argv : List String} (hargv : cmd.arguments encoder = .ok argv) :
    cmd.inputs.map (·.path) <+: pathsOf argv.tail := by
  unfold arguments at hargv
  obtain ⟨rate, -, hargv⟩ := Graph.except_bind_ok.1 hargv
  obtain ⟨length, -, hargv⟩ := Graph.except_bind_ok.1 hargv
  cases hargv
  simp only [List.append_assoc, List.cons_append, List.nil_append, List.tail_cons]
  rw [pathsOf_cons_of_ne (by decide), pathsOf_cons_of_ne (by decide), pathsOf_arguments h]
  exact List.prefix_append _ _

/-! ## Files among the inputs -/

/-- The files that an argument vector gives as inputs, read from the front up to the graph. What
follows an `-i` is the path of a file, unless `-f lavfi` stands before it: then it describes a
generated source. -/
def filesOf : (generated : Bool) → List String → List String
  | _, [] => []
  | _, [_] => []
  | generated, a :: b :: rest =>
    if a = "-filter_complex" then []
    else if a = "-i" then (if generated then [] else [b]) ++ filesOf false rest
    else filesOf (generated || a = "-f" && b = "lavfi") (b :: rest)

/-- The options of a generated source. -/
def sourceOptions : List String := ["-f", "lavfi"]

/-- The options that files have: pictures and videos may be repeated. -/
def fileOptions : List (List String) := [[], ["-loop", "1"], ["-stream_loop", "-1"]]

theorem filesOf_skip {a : String} (ne : a ∉ ["-filter_complex", "-i", "-f"]) (rest : List String) :
    filesOf false (a :: rest) = filesOf false rest := by
  simp only [List.mem_cons, List.not_mem_nil, or_false, not_or] at ne
  cases rest with
  | nil => rfl
  | cons b rest => simp [filesOf, ne]

theorem filesOf_graph (rest : List String) : filesOf false ("-filter_complex" :: rest) = [] := by
  cases rest with
  | nil => rfl
  | cons b rest => rw [filesOf, if_pos rfl]

theorem filesOf_input {i : Input} (h : i.options ∈ sourceOptions :: fileOptions)
    (rest : List String) : filesOf false (i.arguments ++ rest) =
      (if i.options ∈ fileOptions then [i.path] else []) ++ filesOf false rest := by
  simp only [sourceOptions, fileOptions, List.mem_cons, List.not_mem_nil, or_false] at h ⊢
  rcases h with h | h | h | h <;> simp [Input.arguments, h, filesOf]

theorem filesOf_inputs {inputs : List Input}
    (h : ∀ i ∈ inputs, i.options ∈ sourceOptions :: fileOptions) (rest : List String) :
    filesOf false (inputs.flatMap Input.arguments ++ rest) =
      (inputs.filter (·.options ∈ fileOptions)).map (·.path) ++ filesOf false rest := by
  induction inputs with
  | nil => rfl
  | cons i inputs ih =>
    have hi := filesOf_input (h i List.mem_cons_self)
    have his := ih fun j hj => h j (List.mem_cons_of_mem _ hj)
    rw [List.flatMap_cons, List.append_assoc, hi, his, List.filter_cons]
    split <;> simp_all

/-- The argument vector of a command gives the files among its inputs. -/
theorem filesOf_arguments {cmd : Command} {encoder : String} {argv : List String}
    (h : ∀ i ∈ cmd.inputs, i.options ∈ sourceOptions :: fileOptions)
    (hargv : cmd.arguments encoder = .ok argv) :
    filesOf false argv.tail = (cmd.inputs.filter (·.options ∈ fileOptions)).map (·.path) := by
  unfold arguments at hargv
  obtain ⟨rate, -, hargv⟩ := Graph.except_bind_ok.1 hargv
  obtain ⟨length, -, hargv⟩ := Graph.except_bind_ok.1 hargv
  cases hargv
  simp only [List.append_assoc, List.cons_append, List.nil_append, List.tail_cons]
  rw [filesOf_skip (by decide), filesOf_skip (by decide), filesOf_inputs h, filesOf_graph,
    List.append_nil]

theorem getLast?_arguments {cmd : Command} {encoder : String} {argv : List String}
    (hargv : cmd.arguments encoder = .ok argv) : argv.getLast? = some cmd.outputPath := by
  unfold arguments at hargv
  obtain ⟨rate, -, hargv⟩ := Graph.except_bind_ok.1 hargv
  obtain ⟨length, -, hargv⟩ := Graph.except_bind_ok.1 hargv
  cases hargv
  exact List.getLast?_concat

end Montage.Command
