import Montage.Proofs.Compiler.BaseStream
import Montage.Proofs.Compiler.Inputs

/-!
# Values on the command line

The numbers that an argument vector gives in the open: behind an option of its own, such as the
rate and the length of the result (`argument?`), or inside the description of a generated source
(`told?`). All that stands in front of the options of the result is options of inputs, which come in
pairs with other names, so the values are found wherever the inputs end (`argument?_arguments`).
-/
namespace Montage

namespace Command

/-! ## Options and values in turn -/

/-- The options of an argument vector with their values. -/
def pairs : List String → List (String × String)
  | name :: value :: rest => (name, value) :: pairs rest
  | _ => []

/-- The value of an option in an argument vector. The first three arguments, which are the encoder
and two switches, have none. -/
def argument? (name : String) (argv : List String) : Option String :=
  (pairs (argv.drop 3)).lookup name

theorem lookup_next {name a : String} (other : name ≠ a) (b : String) (rest : List String) :
    (pairs (a :: b :: rest)).lookup name = (pairs rest).lookup name := by
  rw [pairs, List.lookup_cons, beq_false_of_ne other]

theorem lookup_here (name value : String) (rest : List String) :
    (pairs (name :: value :: rest)).lookup name = some value := by
  rw [pairs, List.lookup_cons, beq_self_eq_true]

/-- The options that inputs have. -/
def inputNames : List String := ["-f", "-loop", "-stream_loop", "-i"]

theorem lookup_input {i : Input} (h : i.options ∈ sourceOptions :: fileOptions) {name : String}
    (other : name ∉ inputNames) (rest : List String) :
    (pairs (i.arguments ++ rest)).lookup name = (pairs rest).lookup name := by
  simp only [inputNames, List.mem_cons, List.not_mem_nil, or_false, not_or] at other
  obtain ⟨source, loop, stream, file⟩ := other
  have path (rest : List String) : (pairs ("-i" :: i.path :: rest)).lookup name =
      (pairs rest).lookup name := lookup_next file i.path rest
  simp only [sourceOptions, fileOptions, List.mem_cons, List.not_mem_nil, or_false] at h
  rw [Input.arguments]
  rcases h with h | h | h | h <;> rw [h]
  · exact (lookup_next source _ _).trans (path rest)
  · exact path rest
  · exact (lookup_next loop _ _).trans (path rest)
  · exact (lookup_next stream _ _).trans (path rest)

theorem lookup_inputs {inputs : List Input}
    (h : ∀ i ∈ inputs, i.options ∈ sourceOptions :: fileOptions) {name : String}
    (other : name ∉ inputNames) (rest : List String) :
    (pairs (inputs.flatMap Input.arguments ++ rest)).lookup name = (pairs rest).lookup name := by
  induction inputs with
  | nil => rfl
  | cons i inputs ih =>
    rw [List.flatMap_cons, List.append_assoc, lookup_input (h i List.mem_cons_self) other]
    exact ih fun j hj => h j (List.mem_cons_of_mem _ hj)

/-- The options of the video codec. -/
def videoNames : List String := ["-c:v", "-b:v", "-preset", "-crf", "-pix_fmt"]

theorem lookup_video (cmd : Command) {name : String} (other : name ∉ videoNames)
    (rest : List String) :
    (pairs (cmd.videoArguments ++ rest)).lookup name = (pairs rest).lookup name := by
  simp only [videoNames, List.mem_cons, List.not_mem_nil, or_false, not_or] at other
  obtain ⟨codec, bitrate, preset, crf, format⟩ := other
  have last (crfValue formatValue : String) :
      (pairs ("-crf" :: crfValue :: "-pix_fmt" :: formatValue :: rest)).lookup name =
        (pairs rest).lookup name := (lookup_next crf _ _).trans (lookup_next format _ _)
  unfold videoArguments
  dsimp only
  split
  · exact (lookup_next codec _ _).trans ((lookup_next bitrate _ _).trans (last _ _))
  · exact (lookup_next codec _ _).trans ((lookup_next preset _ _).trans (last _ _))

/-- The rate and the length of the result stand behind their options. -/
theorem argument?_arguments {cmd : Command} {encoder : String} {argv : List String}
    (h : ∀ i ∈ cmd.inputs, i.options ∈ sourceOptions :: fileOptions)
    (hargv : cmd.arguments encoder = .ok argv) : ∃ rate length,
      cmd.frameRate.compact = .ok rate ∧ cmd.duration.seconds = .ok length ∧
      argument? "-r" argv = some rate ∧ argument? "-t" argv = some length := by
  unfold arguments at hargv
  obtain ⟨rate, rateWritten, hargv⟩ := Graph.except_bind_ok.1 hargv
  obtain ⟨length, lengthWritten, hargv⟩ := Graph.except_bind_ok.1 hargv
  cases hargv
  refine ⟨rate, length, rateWritten, lengthWritten, ?_⟩
  unfold argument?
  simp only [List.append_assoc, List.cons_append, List.nil_append, List.drop_succ_cons,
    List.drop_zero]
  have front {name : String} (input : name ∉ inputNames) (video : name ∉ videoNames)
      (graph : name ≠ "-filter_complex") (map : name ≠ "-map") (rest : List String) :=
    (lookup_inputs h input _).trans ((lookup_next graph cmd.graph.print _).trans
      ((lookup_next map (Graph.bracket cmd.videoLabel) _).trans
        ((lookup_next map (Graph.bracket cmd.audioLabel) _).trans (lookup_video cmd video rest))))
  rw [front (by decide) (by decide) (by decide) (by decide),
    front (by decide) (by decide) (by decide) (by decide), lookup_here,
    lookup_next (by decide), audioArguments]
  simp only [List.cons_append, List.nil_append]
  rw [lookup_next (by decide), lookup_next (by decide), lookup_next (by decide), lookup_here]
  exact ⟨trivial, rfl⟩

end Command

/-! ## The description of a source -/

namespace Graph

/-- What follows a text at the front of another one. -/
def after? (front cs : List Char) : Option (List Char) :=
  if front.isPrefixOf cs then some (cs.drop front.length) else none

/-- The value of an option in the description of a source: that of the last part between colons
that begins with the name and an equals sign. -/
def told? (name : String) (source : String) : Option String :=
  ((source.toList.splitOn ':').reverse.findSome? (after? (name.toList ++ ['=']))).map String.ofList

theorem no_colon {s : String} (free : Free s) : ':' ∉ s.toList := fun mem =>
  free ':' mem (by decide)

end Graph

namespace Compiler

open Graph Command

theorem told?_color {t : Timeline} {duration : Number} {input : Input}
    (h : colorInput t duration = .ok input) : ∃ length, duration.compact = .ok length ∧
      told? "d" input.path = some length ∧
      told? "r" input.path = some (Number.compactFloat t.frameRateValue) := by
  obtain ⟨length, written, same⟩ := except_bind_ok.1 h
  refine ⟨length, written, ?_⟩
  cases same
  have rate := no_colon (free_compactFloat t.frameRateValue)
  have long := no_colon (free_compact written)
  generalize Number.compactFloat t.frameRateValue = r at rate
  generalize front : "color=c=" ++ baseColor t ++ ":s=" ++ toString t.width ++ "x" ++
    toString t.height = f
  have parts : (f ++ ":r=" ++ r ++ ":d=" ++ length).toList.splitOn ':' =
      f.toList.splitOn ':' ++ ['r' :: '=' :: r.toList, 'd' :: '=' :: length.toList] := by
    have chars : (f ++ ":r=" ++ r ++ ":d=" ++ length).toList =
        f.toList ++ ':' :: (('r' :: '=' :: r.toList) ++ ':' :: ('d' :: '=' :: length.toList)) := by
      simp
    have last : ('d' :: '=' :: length.toList).splitOn ':' = ['d' :: '=' :: length.toList] :=
      List.splitOn_eq_singleton (by simpa using long)
    have behind : ':' ∉ 'r' :: '=' :: r.toList := by simpa using rate
    rw [chars, List.splitOn_append_cons_self, List.splitOn_append_cons_self_of_not_mem behind, last]
  unfold told?
  rw [parts, List.reverse_append]
  constructor <;> simp [after?]

/-- A generated source is told the length of the result and the rate of the timeline. -/
theorem Steps.told {k : Compiler} {files : Files} {t : Timeline} {assets : List Asset}
    {outputPath : String} {background : Option Asset} {cmd : Command}
    (s : Steps k files t assets outputPath background cmd)
    (generated : s.input.options = sourceOptions) : told? "d" s.input.path = some s.total ∧
      told? "r" s.input.path = some (Number.compactFloat t.frameRateValue) := by
  have unfound : background.bind (·.path) = none := by
    have shape := (base_ok s.based).shape
    cases file : background.bind (·.path) with
    | none => rfl
    | some path =>
      rw [file, generated] at shape
      dsimp only [sourceOptions] at shape
      exact absurd shape (by decide)
  obtain ⟨length, written, long, rate⟩ := told?_color (s.colored unfound)
  rw [s.total_eq] at written
  cases written
  exact ⟨long, rate⟩

end Compiler
end Montage
