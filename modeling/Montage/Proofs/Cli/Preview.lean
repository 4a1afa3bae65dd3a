import Montage.Proofs.Cli.Rendering
import Montage.Proofs.Compiler.Drawing

/-!
# The command line that is shown, and the one that is run

The `compile` command shows the command line of a timeline, and the job of the `render` command
starts one. Both come from one compiler, which sees the files only through the fonts that are there
(`compile_fonts`) and hands the output path on to the last argument (`compile_path`,
`arguments_path`). What is left to tell them apart are the values of the fields, which become those
of a request for a job (`fields_made`), and the sweeping of the output directory.
-/
namespace Montage

/-! ## The compiler -/

namespace Compiler

variable {k : Compiler} {files files' : Files} {t : Timeline} {assets : List Asset} {path : String}
  {output : OutputOptions} {background : Option Asset} {command : Command}

/-- Files with the same fonts give the same command. -/
theorem compile_fonts
    (fonts : ∀ family, Font.installed? files' family = Font.installed? files family) :
    k.compile files' t assets path output background =
      k.compile files t assets path output background := by
  have text : Graph.textNode files' = Graph.textNode files := by
    unfold Graph.textNode
    simp only [fonts]
  have draws : drawClip t files' assets = drawClip t files assets := by
    unfold drawClip
    rw [text]
  rw [compile, compile, build, build, draws]

/-- The output path is only handed on. -/
theorem compile_path (h : k.compile files t assets path output background = .ok command)
    (other : String) : k.compile files t assets other output background =
      .ok { command with outputPath := other } := by
  have same : k.build files t assets other output background =
      (fun command => { command with outputPath := other }) <$>
        k.build files t assets path output background := by
    simp only [build, map_bind, map_pure]
  unfold compile at h ⊢
  rw [same, StateT.run_map]
  cases built : (k.build files t assets path output background).run [] with
  | error f =>
    rw [built] at h
    cases h
  | ok result =>
    rw [built] at h
    cases h
    rfl

end Compiler

/-- All arguments but the last one do not depend on the output path. -/
theorem Command.arguments_path {command : Command} {encoder : String} {argv : List String}
    (h : command.arguments encoder = .ok argv) (other : String) :
    Command.arguments { command with outputPath := other } encoder =
      .ok (argv.dropLast ++ [other]) := by
  unfold arguments at h ⊢
  obtain ⟨rate, hrate, h⟩ := Graph.except_bind_ok.1 h
  obtain ⟨length, hlength, h⟩ := Graph.except_bind_ok.1 h
  cases h
  rw [List.dropLast_concat]
  exact Graph.except_bind_ok.2 ⟨rate, hrate, Graph.except_bind_ok.2 ⟨length, hlength, rfl⟩⟩

/-! ## Values -/

namespace RenderRequest

/-- Whether a request has a value as it was given, which is so unless it is a truth value. -/
def keepsField : Json → Bool
  | .bool _ => false
  | _ => true

theorem fieldOf_of_keepsField {v : Json} (h : keepsField v = true) : fieldOf v = v := by
  cases v with
  | bool b => cases h
  | _ => rfl

theorem map_fieldOf {fields : Fields} (h : fields.all (fun v => keepsField v.2) = true) :
    fields.map (fun v => (v.1, fieldOf v.2)) = fields := by
  have kept : ∀ v ∈ fields, (v.1, fieldOf v.2) = id v := fun v hv =>
    congrArg (Prod.mk v.1) (fieldOf_of_keepsField (List.all_eq_true.1 h v hv))
  rw [List.map_congr_left kept, List.map_id]

end RenderRequest

/-! ## The commands -/

namespace Cli

variable {w : Surroundings} {o : Order} {data : Json} {fields : Fields} {q : RenderRequest}
  {argv : List String} {command : Command}

/-- The output path that the `compile` command shows. -/
def previewPath (w : Surroundings) (o : Order) : String :=
  Path.join ((filled? o.outputDir).getD w.settings.outputDir) ("preview." ++ o.output.format.word)

/-- The arguments of the command line that is shown for a document and its fields. -/
def shown? (w : Surroundings) (o : Order) (data : Json) (fields : Fields) :
    Option (List String) := do
  let t ← (Timeline.accept (.ok w.settings.canvas) data).toOption
  let t ← (Merge.resolve .standard fields (.ok w.settings.canvas) t).toOption
  let command ← (preview w o t).toOption
  (command.arguments w.settings.encoderPath).toOption

theorem ok_of_toOption {ε α : Type} {x : Except ε α} {a : α} (h : x.toOption = some a) :
    x = .ok a := by
  cases x <;> cases h
  rfl

/-- These arguments are printed. -/
theorem compile_shown (found : inputs w o = .ok (.ok (data, fields)))
    (shown : shown? w o data fields = some argv) : ∃ complaints, compile w o = .ok {
      exit := 0
      printed := line (Text.shellLine argv)
      complaints } := by
  obtain ⟨t₀, accepted, shown⟩ := Option.bind_eq_some_iff.1 shown
  obtain ⟨t, resolved, shown⟩ := Option.bind_eq_some_iff.1 shown
  obtain ⟨command, drawn, written⟩ := Option.bind_eq_some_iff.1 shown
  rw [compile, found]
  dsimp only [bind, Except.bind]
  rw [ok_of_toOption accepted]
  dsimp only [Except.mapError]
  rw [ok_of_toOption resolved]
  dsimp only
  rw [ok_of_toOption drawn]
  dsimp only
  rw [ok_of_toOption written]
  exact ⟨_, rfl⟩

/-- A command that is drafted from the document and its fields is shown. -/
theorem shown?_drafted
    (drafts : (setupFor w o).Drafts w.files w.files data fields (previewPath w o) o.output command)
    (written : command.arguments w.settings.encoderPath = .ok argv) :
    shown? w o data fields = some argv := by
  obtain ⟨t, assets, background, ⟨⟨t₀, accepted, resolved⟩, located, grounded⟩, compiled⟩ := drafts
  have accepted : Timeline.accept (.ok w.settings.canvas) data = .ok t₀ := accepted
  have resolved : Merge.resolve .standard fields (.ok w.settings.canvas) t₀ = .ok t := resolved
  have located : (libraryFor w o).assets w.files t = .ok assets := located
  have grounded : (libraryFor w o).background w.files t = .ok background := grounded
  have drawn : preview w o t = .ok command := by
    rw [preview, located, grounded]
    exact compiled
  have written : command.arguments w.settings.encoderPath = .ok argv := written
  refine Option.bind_eq_some_iff.2 ⟨t₀, congrArg Except.toOption accepted, ?_⟩
  refine Option.bind_eq_some_iff.2 ⟨t, congrArg Except.toOption resolved, ?_⟩
  exact Option.bind_eq_some_iff.2 ⟨command, congrArg Except.toOption drawn,
    congrArg Except.toOption written⟩

/-- A font whose file is not left over from earlier runs is there after the sweeping, too. -/
theorem installed?_prepared {d : Disk} {dir : String} {sweeper : Sweeper} {files : Files} {n : Nat}
    (done : d.sweeper.prepare d.files dir = .ok (sweeper, files, n)) {family : Option String}
    (stays : Path.place (Font.pathFor family) ∉ d.leftovers dir) :
    Font.installed? files family = Font.installed? d.files family := by
  have same : files.at? (Path.place (Font.pathFor family)) =
      d.files.at? (Path.place (Font.pathFor family)) := by
    rw [(Sweeper.prepare_ok done).2, if_neg stays]
  have there : files.isFile (Font.pathFor family) = d.files.isFile (Font.pathFor family) := by
    rw [Files.isFile, Files.isFile, Files.find?, Files.find?, same]
  unfold Font.installed?
  dsimp only
  rw [there]

/-- The encoder is started as planned from the values of the fields that the request has, on the
files after the sweeping. Where these values put the same texts into the timeline as the ones given,
as they do unless there is a truth value among them, and no font is swept, the command line that is
shown is the one that is run, but for the output path. -/
theorem started_previewed (found : inputs w o = .ok (.ok (data, fields)))
    (made : RenderRequest.make data fields o.output = .ok q)
    (started : argv ∈ (rendering w o q).2.shared.started) :
    q.fields = fields.map (fun v => (v.1, RenderRequest.fieldOf v.2)) ∧
    (setupFor w o).Plans (diskFor w) q argv ∧
    ((∀ t, Timeline.accept (.ok w.settings.canvas) data = .ok t →
        Merge.resolve .standard q.fields (.ok w.settings.canvas) t =
          Merge.resolve .standard fields (.ok w.settings.canvas) t) →
      (∀ family, Path.place (Font.pathFor family) ∉
        (diskFor w).leftovers (setupFor w o).outputDir) →
      ∃ complaints, compile w o = .ok {
        exit := 0
        printed := line (Text.shellLine (argv.dropLast ++ [previewPath w o]))
        complaints }) := by
  obtain ⟨timeline, output, values⟩ := RenderRequest.make_ok made
  have planned := started_planned started
  refine ⟨values, planned, fun alike stays => ?_⟩
  -- what was drafted for the job is drafted for the given values, the files as they are and the
  -- path of the preview as well
  obtain ⟨sweeper, files, n, path, command, done, drafts, written⟩ := planned
  obtain ⟨t, assets, background, ⟨⟨t₀, accepted, resolved⟩, located, grounded⟩, compiled⟩ := drafts
  rw [timeline] at accepted
  have resolved : Merge.resolve .standard q.fields (.ok w.settings.canvas) t₀ = .ok t := resolved
  rw [alike t₀ accepted] at resolved
  have fonts (family : Option String) := installed?_prepared done (stays family)
  rw [output, Compiler.compile_fonts fonts] at compiled
  have drafts : (setupFor w o).Drafts w.files w.files data fields (previewPath w o) o.output
      { command with outputPath := previewPath w o } :=
    ⟨t, assets, background, ⟨⟨t₀, accepted, resolved⟩, located, grounded⟩,
      Compiler.compile_path compiled _⟩
  exact compile_shown found (shown?_drafted drafts (Command.arguments_path written _))

/-- Whether the job of a document and its fields starts an encoder with some arguments. -/
def starts (w : Surroundings) (o : Order) (argv : List String) (data : Json) (fields : Fields) :
    Bool :=
  match RenderRequest.make data fields o.output with
  | .ok q => (rendering w o q).2.shared.started.contains argv
  | .bad _ => false

theorem made_of_starts (h : starts w o argv data fields = true) : ∃ q,
    RenderRequest.make data fields o.output = .ok q ∧
      argv ∈ (rendering w o q).2.shared.started := by
  unfold starts at h
  split at h
  · next q made => exact ⟨q, made, List.contains_iff_mem.1 h⟩
  · cases h

/-- The text of a timeline that greets someone. -/
def greetingText : String :=
  "\x7b\"tracks\": [\x7b\"clips\": [\x7b\"type\": \"text\", \"text\": " ++
    "\"Hello \x7b\x7bname\x7d\x7d\", \"duration\": 5\x7d]\x7d]\x7d"

/-- A place with this timeline and with a file that says whom to greet. -/
def greeting (name : String) : Surroundings where
  settings := .standard
  files := (Files.empty.put (Path.place "t.json") (fileOf greetingText)).put (Path.place "f.json")
    (fileOf ("\x7b\"name\": " ++ name ++ "\x7d"))
  encoder := {}

/-- What is asked of these files. -/
def greet : Order where
  verb := .render
  verbose := false
  timeline := "t.json"
  fields := some "f.json"
  output := {}
  assetsDir := none
  outputDir := none

/-- The arguments of a command that draws a text. -/
def drawing (text path : String) : List String :=
  ["ffmpeg", "-y", "-hide_banner", "-f", "lavfi", "-i", "color=c=black:s=1920x1080:r=30:d=10",
    "-filter_complex", "[0:v]drawtext=text='" ++ text ++ "':fontsize=48:fontcolor=#ffffff@1:" ++
      "x=(w-tw)/2:y=(h-th)/2:expansion=none:enable='between(t,0,5)'[final];" ++
      "anullsrc=channel_layout=stereo:sample_rate=48000[silence1];" ++
      "[silence1]atrim=duration=10[aout]",
    "-map", "[final]", "-map", "[aout]", "-c:v", "libx264", "-preset", "medium", "-crf", "18",
    "-pix_fmt", "yuv420p", "-r", "30", "-c:a", "aac", "-b:a", "192k", "-ar", "48000", "-t", "10",
    "-movflags", "+faststart", path]

theorem drawing_path (text path other : String) :
    (drawing text path).dropLast ++ [other] = drawing text other := rfl

/-- A name that is a text is shown as it is drawn. -/
theorem started_previewed_ada : ∃ data fields q complaints,
    inputs (greeting "\"Ada\"") greet = .ok (.ok (data, fields)) ∧
    RenderRequest.make data fields greet.output = .ok q ∧
    drawing "Hello Ada" "/work/output/video_20240102030405_00000001.mp4" ∈
      (rendering (greeting "\"Ada\"") greet q).2.shared.started ∧
    compile (greeting "\"Ada\"") greet = .ok {
      exit := 0
      printed := line (Text.shellLine (drawing "Hello Ada" "./output/preview.mp4"))
      complaints } := by
  obtain ⟨data, fields, found, facts⟩ := of_inputs (w := greeting "\"Ada\"") (o := greet)
    (p := fun data fields => fields.all (fun v => RenderRequest.keepsField v.2) &&
      starts (greeting "\"Ada\"") greet
        (drawing "Hello Ada" "/work/output/video_20240102030405_00000001.mp4") data fields)
    (by decide +kernel)
  rw [Bool.and_eq_true] at facts
  obtain ⟨kept, starts⟩ := facts
  obtain ⟨q, made, started⟩ := made_of_starts starts
  obtain ⟨values, -, shown⟩ := started_previewed found made started
  rw [RenderRequest.map_fieldOf kept] at values
  have none : (diskFor (greeting "\"Ada\"")).leftovers
    (setupFor (greeting "\"Ada\"") greet).outputDir = [] := by decide +kernel
  obtain ⟨complaints, compiled⟩ := shown (fun t _ => by rw [values]) fun family left => by
    rw [none] at left
    cases left
  have path : previewPath (greeting "\"Ada\"") greet = "./output/preview.mp4" := by decide +kernel
  rw [path, drawing_path] at compiled
  exact ⟨data, fields, q, complaints, found, made, started, compiled⟩

/-- A name that is a truth value is shown as a word and drawn as a number. -/
theorem started_previewed_true : ∃ data fields q complaints,
    inputs (greeting "true") greet = .ok (.ok (data, fields)) ∧
    RenderRequest.make data fields greet.output = .ok q ∧
    drawing "Hello 1" "/work/output/video_20240102030405_00000001.mp4" ∈
      (rendering (greeting "true") greet q).2.shared.started ∧
    compile (greeting "true") greet = .ok {
      exit := 0
      printed := line (Text.shellLine (drawing "Hello True" "./output/preview.mp4"))
      complaints } ∧
    (drawing "Hello True" "./output/preview.mp4").dropLast ≠
      (drawing "Hello 1" "/work/output/video_20240102030405_00000001.mp4").dropLast := by
  obtain ⟨data, fields, found, facts⟩ := of_inputs (w := greeting "true") (o := greet)
    (p := fun data fields => starts (greeting "true") greet
        (drawing "Hello 1" "/work/output/video_20240102030405_00000001.mp4") data fields &&
      shown? (greeting "true") greet data fields =
        some (drawing "Hello True" "./output/preview.mp4"))
    (by decide +kernel)
  rw [Bool.and_eq_true, decide_eq_true_eq] at facts
  obtain ⟨starts, shown⟩ := facts
  obtain ⟨q, made, started⟩ := made_of_starts starts
  obtain ⟨complaints, compiled⟩ := compile_shown found shown
  exact ⟨data, fields, q, complaints, found, made, started, compiled, by decide⟩

end Cli
end Montage
