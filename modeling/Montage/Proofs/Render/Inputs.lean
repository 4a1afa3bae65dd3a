import Montage.Proofs.Compiler.Inputs
import Montage.Proofs.Render.Disk
import Montage.Proofs.Render.Within

/-!
# Stages and files

`Act.Via` bounds what an act does to the disk by a preorder. Notes and calls leave the disk alone
(`allows_disks`), so it only changes when the directory is prepared and once the encoder has started.
What each stage does is `Act.Advances`: it takes steps on the disk, it only knows of files that are
there, and if it starts an encoder, the encoder is told to read the files that the run knew of
(`stage_advances`).
-/
namespace Montage

/-- The disks of two scenes are related, and the run has taken notes at most. -/
def Scene.Disks (R : Disk → Disk → Prop) (a b : Scene) : Prop :=
  R a.shared.disk b.shared.disk ∧ b.run = a.run.noted b.run

namespace Act

/-! ## Acts that leave the disk alone, or write to it -/

section Disks

variable {R : Disk → Disk → Prop} [IsPreorder Disk R]

instance : IsPreorder Scene (Scene.Disks R) where
  refl s := ⟨Std.Refl.refl s.shared.disk, rfl⟩
  trans _ _ _ h h' := ⟨IsTrans.trans _ _ _ h.1 h'.1, by rw [h'.2, h.2]; rfl⟩

theorem allows_disks : Scene.Allows (Scene.Disks R) where
  notes s _ noted := ⟨Std.Refl.refl s.shared.disk, noted⟩
  tell s _ := ⟨Std.Refl.refl s.shared.disk, rfl⟩
  call s _ _ _ := ⟨Std.Refl.refl s.shared.disk, rfl⟩

/-- What an act does to the disk, and that it takes notes in its own run at most. -/
abbrev Via (R : Disk → Disk → Prop) {α : Type} (act : Act α) : Prop := Within (Scene.Disks R) act

theorem via_failJob (failure : Failure) : Via R (failJob failure) := by
  have fail : Via R (announce (fun r id now => r.fail id failure now) "failed" fun j =>
      .object [("error", Json.ofOption ErrorInfo.toJson j.error)]) := fun s => by
    obtain ⟨bus, left⟩ := scene_announce (fun r id now => r.fail id failure now) "failed"
      (fun j => .object [("error", Json.ofOption ErrorInfo.toJson j.error)]) s
    rw [left]
    exact ⟨Std.Refl.refl s.shared.disk, rfl⟩
  refine Within.bind (.of_same fun _ => rfl) fun s => ?_
  split
  · split
    · exact within_pure ()
    · exact fail.bind fun _ => within_pure ()
  · exact within_throw _

end Disks

/-! ## Reading -/

variable {setup : Setup} {timeline : Timeline} {assets : List Asset} {background : Option Asset}
  {command : Command} {s s' : Scene} {phase : Phase}

/-- While an encoder is read, nothing changes but its output. -/
theorem via_readOn : Via (Disk.Writes command.outputPath) (readOn setup timeline command) :=
  within_readOn allows_disks fun size _ => ⟨.single (.intro size), rfl⟩

/-! ## Acts that succeed -/

/-- The disk is the same after an act that leaves it alone. -/
theorem Via.eq {α : Type} {act : Act α} {a : Except Failure α} (h : Via Eq act)
    (result : act.result s = (a, s')) : s'.shared.disk = s.shared.disk := by
  have := (h s).1
  rw [result] at this
  exact this.symm

/-- After reading, the run waits for the same encoder or has come to its end. -/
theorem readOn_ok (h : (readOn setup timeline command).result s = (.ok phase, s')) :
    phase = .finished .done ∨ ∃ pause, phase = .encoding timeline command pause := by
  obtain ⟨r, m, -, h⟩ := bind_ok h
  obtain ⟨pause, m', -, h⟩ := bind_ok h
  split at h
  · obtain ⟨-, m'', -, h⟩ := bind_ok h
    cases h
    exact .inl rfl
  · cases h
    exact .inr ⟨_, rfl⟩

/-! ## Looking up -/

theorem via_advance (state : JobState) : Via Eq (advance state) := within_advance allows_disks state

theorem locate_ok (h : (locate setup).result s = (.ok phase, s')) : ∃ t₀ t assets,
    phase = .located t assets ∧
      Timeline.accept (.ok setup.settings.canvas) s.run.request.timeline = .ok t₀ ∧
      Merge.resolve .standard s.run.request.fields (.ok setup.settings.canvas) t₀ = .ok t ∧
      setup.library.assets s.shared.files t = .ok assets := by
  obtain ⟨r, m, hrun, h⟩ := bind_ok h
  cases hrun
  obtain ⟨_, m, hm, h⟩ := bind_ok h
  have disk := (via_advance _).eq hm
  dsimp only at h
  split at h
  · next t₀ accepted =>
    obtain ⟨t, m', hm', h⟩ := bind_ok h
    cases hm'
    obtain ⟨_, m', hm', h⟩ := bind_ok h
    replace disk := ((via_advance _).eq hm').trans disk
    split at h
    · next t resolved =>
      obtain ⟨_, m'', hm'', h⟩ := bind_ok h
      cases hm''
      obtain ⟨_, m'', hm'', h⟩ := bind_ok h
      replace disk := ((via_advance _).eq hm'').trans disk
      obtain ⟨w, _, hw, h⟩ := bind_ok h
      cases hw
      obtain ⟨assets, _, hassets, h⟩ := bind_ok h
      obtain ⟨found, rfl⟩ := pureFault_ok hassets
      cases h
      rw [show s'.shared.files = s.shared.files from congrArg Disk.files disk] at found
      exact ⟨t₀, t, assets, rfl, accepted, resolved, found⟩
    · obtain ⟨_, _, failed, -⟩ := bind_ok h
      cases failed
  · obtain ⟨_, _, failed, -⟩ := bind_ok h
    cases failed
  · obtain ⟨_, _, failed, -⟩ := bind_ok h
    cases failed

theorem ground_ok (h : (ground setup timeline assets).result s = (.ok phase, s')) :
    ∃ background, phase = .grounded timeline assets background ∧
      setup.library.background s.shared.files timeline = .ok background := by
  obtain ⟨w, _, hw, h⟩ := bind_ok h
  cases hw
  obtain ⟨background, _, hbackground, h⟩ := bind_ok h
  obtain ⟨found, rfl⟩ := pureFault_ok hbackground
  cases h
  exact ⟨background, rfl, found⟩

/-! ## Preparing -/

/-- The directory is prepared, or nothing has happened to the disk. -/
theorem prepare_result (setup : Setup) (timeline : Timeline) (assets : List Asset)
    (background : Option Asset) (s : Scene) :
    ∃ m, m.shared.disk = s.shared.disk ∧ m.run = s.run.noted m.run ∧
      ((∃ f, (prepare setup timeline assets background).result s = (.error f, m)) ∨
        ∃ sweeper files n,
          s.shared.sweeper.prepare s.shared.files setup.outputDir = .ok (sweeper, files, n) ∧
          (prepare setup timeline assets background).result s =
            (.ok (.prepared timeline assets background),
              { m with shared := { m.shared with sweeper, files } })) := by
  obtain ⟨disk, notes⟩ := via_advance .compiling s
  rcases advanced : (advance .compiling).result s with ⟨f | _, m⟩
  · rw [advanced] at disk notes
    exact ⟨m, disk.symm, notes, .inl ⟨f, by rw [prepare, result_bind, advanced]⟩⟩
  · rw [advanced] at disk notes
    have rest : (prepare setup timeline assets background).result s =
        match m.shared.sweeper.prepare m.shared.files setup.outputDir with
        | .ok (sweeper, files, _) => (.ok (.prepared timeline assets background),
            { m with shared := { m.shared with sweeper, files } })
        | .error f => (.error (.fault f), m) := by
      rw [prepare, result_bind, advanced]
      show (pureFault (m.shared.sweeper.prepare m.shared.files setup.outputDir) >>= _).result m = _
      cases m.shared.sweeper.prepare m.shared.files setup.outputDir <;> rfl
    refine ⟨m, disk.symm, notes, ?_⟩
    rw [rest, show m.shared.sweeper = s.shared.sweeper from (congrArg Disk.sweeper disk).symm,
      show m.shared.files = s.shared.files from (congrArg Disk.files disk).symm]
    cases s.shared.sweeper.prepare s.shared.files setup.outputDir with
    | error f => exact .inl ⟨_, rfl⟩
    | ok prepared => exact .inr ⟨prepared.1, prepared.2.1, prepared.2.2, rfl, rfl⟩

/-! ## Starting the encoder -/

/-- Once the encoder has started, nothing changes but its output. -/
theorem encode_result (setup : Setup) (timeline : Timeline) (r : Run) (command : Command)
    (argv : List String) (s : Scene) :
    Disk.Writes command.outputPath
        { s.shared.disk with started := s.shared.started ++ [argv] }
        ((encode setup timeline r command argv).result s).2.shared.disk ∧
      ((encode setup timeline r command argv).result s).2.run =
        s.run.noted ((encode setup timeline r command argv).result s).2.run ∧
      ∀ phase, ((encode setup timeline r command argv).result s).1 = .ok phase →
        phase = .finished .done ∨ ∃ pause, phase = .encoding timeline command pause := by
  cases spawn : r.script.spawnError with
  | some e =>
    have refused : (encode setup timeline r command argv).result s =
        (.error (.spawn setup.settings.encoderPath
            (spawnReason setup.settings.encoderPath e.1 e.2)),
          { s with shared := { s.shared with started := s.shared.started ++ [argv] } }) := by
      rw [encode, spawn]
      rfl
    rw [refused]
    exact ⟨.refl, rfl, fun phase failed => by cases failed⟩
  | none =>
    have started : (encode setup timeline r command argv).result s =
        (do
          setRun fun r => { r with process := some (Process.start r.script) }
          readOn setup timeline command : Act Phase).result
          { s with shared := { s.shared with started := s.shared.started ++ [argv] } } := by
      rw [encode, spawn]
      rfl
    have reads : Via (Disk.Writes command.outputPath) (do
        setRun fun r => { r with process := some (Process.start r.script) }
        readOn setup timeline command) :=
      (within_setRun allows_disks fun _ => rfl).bind fun _ => via_readOn
    obtain ⟨writes, notes⟩ := reads
      { s with shared := { s.shared with started := s.shared.started ++ [argv] } }
    rw [started]
    refine ⟨writes, notes, fun phase ok => ?_⟩
    obtain ⟨_, m, -, h⟩ := bind_ok (Prod.ext ok rfl)
    exact readOn_ok h

end Act

/-! ## Stages -/

/-- The files that a run has looked up for its encoder. -/
def Phase.files : Phase → List String
  | .located _ assets => filesFor none assets
  | .grounded _ assets background => filesFor background assets
  | .prepared _ assets background => filesFor background assets
  | _ => []

/-- What a phase rests on: the directory is swept before the encoder may start, and an encoder was
told where it writes to. -/
def Phase.Backed (dir : String) (d : Disk) : Phase → Prop
  | .prepared .. => d.sweeper.hasSwept dir = true
  | .encoding _ command _ => d.Told command.outputPath
  | _ => True

theorem Phase.Backed.steps {dir : String} {d d' : Disk} {phase : Phase} (h : phase.Backed dir d)
    (steps : Disk.Steps dir d d') : phase.Backed dir d' := by
  cases phase with
  | prepared => exact steps.swept h
  | encoding => exact steps.told h
  | _ => trivial

/-- What a stage does: the disk takes steps, an encoder that starts is told to read what the run has
looked up, and what a run looks up is there. -/
structure Advances (setup : Setup) (s : Scene) (answer : Except Failure Phase) (s' : Scene) :
    Prop where
  notes : s'.run = s.run.noted s'.run
  steps : Disk.Steps setup.outputDir s.shared.disk s'.shared.disk
  starts : s'.shared.started = s.shared.started ∨
    ∃ argv, s'.shared.started = s.shared.started ++ [argv] ∧
      s.shared.sweeper.hasSwept setup.outputDir = true ∧
      ∀ path ∈ Command.filesOf false argv.tail, path ∈ s.run.phase.files
  ends : ∀ phase, answer = .ok phase → phase.Backed setup.outputDir s'.shared.disk ∧
    ∀ path ∈ phase.files, path ∈ s.run.phase.files ∨ s.shared.files.isFile path = true

section

open Act

variable {setup : Setup} {s s' : Scene} {t : Timeline} {assets : List Asset}
  {background : Option Asset}

/-- A stage that leaves the disk alone. -/
theorem advances_of_same {answer : Except Failure Phase} (disk : s'.shared.disk = s.shared.disk)
    (notes : s'.run = s.run.noted s'.run)
    (ends : ∀ phase, answer = .ok phase → phase.Backed setup.outputDir s.shared.disk ∧
      ∀ path ∈ phase.files, path ∈ s.run.phase.files ∨ s.shared.files.isFile path = true) :
    Advances setup s answer s' :=
  ⟨notes, disk ▸ .refl, .inl (congrArg Disk.started disk), disk ▸ ends⟩

/-- A stage that fails before it has touched the disk. -/
theorem advances_of_error {f : Failure} (disk : s'.shared.disk = s.shared.disk)
    (notes : s'.run = s.run.noted s'.run) : Advances setup s (.error f) s' :=
  advances_of_same disk notes fun _ failed => by cases failed

theorem locate_advances :
    Advances setup s ((locate setup).result s).1 ((locate setup).result s).2 := by
  obtain ⟨disk, notes⟩ := (within_locate allows_disks : Via Eq (locate setup)) s
  refine advances_of_same disk.symm notes fun phase ok => ?_
  obtain ⟨-, t, assets, rfl, -, -, hassets⟩ := locate_ok (Prod.ext ok rfl)
  exact ⟨trivial, fun path hpath => .inr (Library.isFile_assets hassets hpath)⟩

theorem ground_advances (phase : s.run.phase = .located t assets) :
    Advances setup s ((ground setup t assets).result s).1 ((ground setup t assets).result s).2 := by
  obtain ⟨disk, notes⟩ := (within_ground : Via Eq (ground setup t assets)) s
  refine advances_of_same disk.symm notes fun _ ok => ?_
  obtain ⟨background, rfl, hbackground⟩ := ground_ok (Prod.ext ok rfl)
  refine ⟨trivial, fun path hpath => ?_⟩
  rw [phase]
  rcases List.mem_append.1 hpath with ground | asset
  · exact .inr (Library.isFile_background hbackground (Option.mem_toList.1 ground))
  · exact .inl asset

theorem prepare_advances (phase : s.run.phase = .grounded t assets background) :
    Advances setup s ((prepare setup t assets background).result s).1
      ((prepare setup t assets background).result s).2 := by
  obtain ⟨m, disk, notes, ⟨f, h⟩ | ⟨sweeper, files, n, done, h⟩⟩ :=
    prepare_result setup t assets background s
  · rw [h]
    exact advances_of_error disk notes
  · rw [h]
    have started : m.shared.started = s.shared.started := congrArg Disk.started disk
    have prepared : Disk.Step setup.outputDir s.shared.disk ⟨sweeper, files, m.shared.started⟩ :=
      started ▸ .prepare done
    refine ⟨notes, .single prepared, .inl started, ?_⟩
    rintro _ ⟨⟩
    refine ⟨(Sweeper.prepare_ok (d := s.shared.disk) done).1, fun path hpath => ?_⟩
    rw [phase]
    exact .inl hpath

/-- A phase in which nothing is left to look up or to start. -/
theorem ends_of_reading (dir : String) {d : Disk} {command : Command}
    (told : d.Told command.outputPath) {phase : Phase}
    (h : phase = .finished .done ∨ ∃ pause, phase = .encoding t command pause) :
    phase.Backed dir d ∧ phase.files = [] := by
  obtain rfl | ⟨pause, rfl⟩ := h
  · exact ⟨trivial, rfl⟩
  · exact ⟨told, rfl⟩

theorem readOn_advances {command : Command} (told : s.shared.disk.Told command.outputPath) :
    Advances setup s ((readOn setup t command).result s).1
      ((readOn setup t command).result s).2 := by
  have via : Via (Disk.Writes command.outputPath) (readOn setup t command) := via_readOn
  obtain ⟨writes, notes⟩ := via s
  have steps : Disk.Steps setup.outputDir _ _ := Disk.Writes.steps writes told
  refine ⟨notes, steps, .inl (Disk.Writes.started writes), fun phase ok => ?_⟩
  obtain ⟨backed, none⟩ := ends_of_reading setup.outputDir (Disk.Steps.told steps told)
    (readOn_ok (Prod.ext ok rfl))
  exact ⟨backed, none ▸ List.forall_mem_nil _⟩

theorem launch_advances (phase : s.run.phase = .prepared t assets background)
    (swept : s.shared.sweeper.hasSwept setup.outputDir = true) :
    Advances setup s ((launch setup t assets background).result s).1
      ((launch setup t assets background).result s).2 := by
  have before : (launch setup t assets background).result s =
      (arrange setup t assets background s.run >>= fun part =>
        encode setup t s.run part.1 part.2).result s := by
    rw [launch_eq, result_run_bind]
  have via : Via Eq (arrange setup t assets background s.run) := within_arrange allows_disks s.run
  obtain ⟨disk, notes⟩ := via s
  rw [before, result_bind]
  rcases arranged : (arrange setup t assets background s.run).result s with ⟨f | ⟨command, argv⟩, m⟩
  · rw [arranged] at disk notes
    exact advances_of_error disk.symm notes
  · rw [arranged] at disk notes
    obtain ⟨compiled, written⟩ := arrange_ok arranged
    obtain ⟨writes, notes', ends⟩ := encode_result setup t s.run command argv m
    have disk : m.shared.disk = s.shared.disk := disk.symm
    have started : m.shared.started = s.shared.started := congrArg Disk.started disk
    rw [disk, started] at writes
    have told : Disk.Told { s.shared.disk with started := s.shared.started ++ [argv] }
        command.outputPath :=
      ⟨argv, List.mem_append_right _ List.mem_cons_self, Command.getLast?_arguments written⟩
    have rest : Disk.Steps setup.outputDir _ _ := Disk.Writes.steps writes told
    have steps : Disk.Steps setup.outputDir s.shared.disk _ := .head (.start argv swept) rest
    refine ⟨?_, steps, .inr ⟨argv, Disk.Writes.started writes, swept, fun path hpath => ?_⟩,
      fun p ok => ?_⟩
    · rw [notes', notes]
      rfl
    · rw [phase]
      exact (Compiler.filesOf_compiled compiled written).subset hpath
    · obtain ⟨backed, none⟩ := ends_of_reading setup.outputDir (Disk.Steps.told rest told)
        (ends p ok)
      exact ⟨backed, none ▸ List.forall_mem_nil _⟩

/-- What a stage does, whatever it is. -/
theorem stage_advances (setup : Setup) {s : Scene}
    (backed : s.run.phase.Backed setup.outputDir s.shared.disk) :
    Advances setup s ((stage setup s.run.phase).result s).1
      ((stage setup s.run.phase).result s).2 := by
  have still {phase : Phase} (none : phase.files = [])
      (any : phase.Backed setup.outputDir s.shared.disk) : Advances setup s (.ok phase) s := by
    refine advances_of_same rfl rfl ?_
    rintro _ ⟨⟩
    exact ⟨any, none ▸ List.forall_mem_nil _⟩
  cases phase : s.run.phase with
  | unstarted => exact locate_advances
  | entering => exact locate_advances
  | located t assets => exact ground_advances phase
  | grounded t assets background => exact prepare_advances phase
  | prepared t assets background =>
    rw [phase] at backed
    exact launch_advances phase backed
  | encoding t command pause =>
    rw [phase] at backed
    exact readOn_advances backed
  | finished outcome => exact still rfl trivial
  | «over» => exact still rfl trivial

end

end Montage
