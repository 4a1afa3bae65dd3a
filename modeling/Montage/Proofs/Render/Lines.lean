import Montage.Proofs.Render.Script
import Montage.Proofs.Render.Stages

/-!
# Lines across portions

The encoder's messages come in chunks that end anywhere, also within a line or between the two
characters of one line end. What is unfinished is carried over to the next chunk, so the chunks do
not show: the lines that are handed on are the non-empty stretches of the whole text between its
line ends, in order and each once (`takes_all`), as long as no stretch is longer than what is
carried over. Only the end of the messages shows as one more line, an empty one, if the last line
was finished.

What is done with a line is a parameter here (`Act.takeAll`). It may do anything but look at the
notes that reading takes itself (`Act.Aside`); reporting the progress is an instance
(`Act.aside_readLine`).
-/
namespace Montage

namespace Progress

/-! ## Stretches -/

/-- The non-empty stretches of a text between its line ends. -/
def stretches (text : String) : List String :=
  ((text.toList.splitOnP isLineEnd).filter (!·.isEmpty)).map String.ofList

/-- The line that follows the last line end, if it is empty. -/
def emptyRest (text : String) : List String :=
  if text.toList.getLast?.all isLineEnd then [""] else []

/-- No characters of a line end. -/
def IsInside (cs : List Char) : Prop := ∀ c ∈ cs, isLineEnd c = false

/-- No stretch without line ends is longer than what is carried over. -/
def IsShort (text : String) : Prop :=
  ∀ cs, cs <:+: text.toList → IsInside cs → (cs.length : Int) ≤ Act.pendingLimit

theorem cutLines_eq_splitOnP (cs : List Char) : cutLines cs = cs.splitOnP isLineEnd := by
  induction cs with
  | nil => rfl
  | cons c rest ih =>
    rw [cutLines, ih, List.splitOnP_cons_eq_if_modifyHead]
    obtain ⟨line, lines, cut⟩ := List.exists_cons_of_ne_nil (List.splitOnP_ne_nil isLineEnd rest)
    rw [cut]
    rfl

/-- A text ends with a stretch inside a line, with a line end before it unless it is all. -/
theorem exists_open (cs : List Char) : ∃ rest, IsInside rest ∧
    (cs = rest ∨ ∃ front c, isLineEnd c = true ∧ cs = front ++ c :: rest) := by
  induction cs with
  | nil => exact ⟨[], nofun, .inl rfl⟩
  | cons c cs ih =>
    obtain ⟨rest, inside, rfl | ⟨front, d, ends, rfl⟩⟩ := ih
    · cases h : isLineEnd c with
      | true => exact ⟨cs, inside, .inr ⟨[], c, h, rfl⟩⟩
      | false => exact ⟨c :: cs, List.forall_mem_cons.2 ⟨h, inside⟩, .inl rfl⟩
    · exact ⟨rest, inside, .inr ⟨c :: front, d, ends, rfl⟩⟩

theorem splitLines_inside {p : String} (inside : IsInside p.toList) : splitLines p = ([], p) := by
  simp [splitLines, cutLines_eq_splitOnP, List.splitOnP_eq_singleton inside]

/-- What follows a line end is cut without what precedes it. -/
theorem splitLines_after {s t : String} {front rest : List Char} {c : Char}
    (ends : isLineEnd c = true) (hs : s.toList = front ++ c :: rest) (ht : t.toList = rest) :
    splitLines s =
      (((front.splitOnP isLineEnd).filter (!·.isEmpty)).map String.ofList ++ (splitLines t).1,
        (splitLines t).2) := by
  have some_last := List.splitOnP_ne_nil isLineEnd rest
  unfold splitLines
  rw [hs, ht, cutLines_eq_splitOnP, cutLines_eq_splitOnP, List.splitOnP_append_cons _ _ ends]
  simp only [List.dropLast_append_of_ne_nil some_last, List.filter_append, List.map_append,
    List.getLast?_append_of_ne_nil _ some_last]

/-- What is left of a text without its finished lines. -/
theorem splitLines_rest (s : String) : (splitLines s).2.toList <:+ s.toList ∧
    IsInside (splitLines s).2.toList ∧
    ((splitLines s).2 = "" ↔ s.toList.getLast?.all isLineEnd = true) ∧
    ∀ t, splitLines (s ++ t) = ((splitLines s).1 ++ (splitLines ((splitLines s).2 ++ t)).1,
      (splitLines ((splitLines s).2 ++ t)).2) := by
  have last_inside {rest : List Char} (inside : IsInside rest) {l : Char}
      (last : rest.getLast? = some l) : isLineEnd l = false :=
    inside l (List.mem_of_getLast? last)
  obtain ⟨rest, inside, whole | ⟨front, c, ends, split⟩⟩ := exists_open s.toList
  · rw [splitLines_inside (whole ▸ inside)]
    refine ⟨List.suffix_refl _, whole ▸ inside, ?_, fun t => rfl⟩
    rw [← String.toList_eq_nil_iff, whole]
    cases last : rest.getLast? with
    | none => simpa using last
    | some l =>
      have filled : rest ≠ [] := by rintro rfl; cases last
      simp [filled, last_inside inside last]
  · have text : (String.ofList rest).toList = rest := String.toList_ofList
    have first := splitLines_after ends split text
    rw [splitLines_inside (p := String.ofList rest) (by rwa [text]), List.append_nil] at first
    rw [first]
    refine ⟨?_, ?_, ?_, fun t => ?_⟩
    · rw [text, split]
      exact ⟨front ++ [c], by simp⟩
    · rwa [text]
    · rw [← String.toList_eq_nil_iff, text, split]
      cases last : rest.getLast? with
      | none =>
        obtain rfl := List.getLast?_eq_none_iff.1 last
        simp [ends]
      | some l =>
        have filled : rest ≠ [] := by rintro rfl; cases last
        simp [List.getLast?_append, List.getLast?_cons, last, filled, last_inside inside last]
    · have behind : (s ++ t).toList = front ++ c :: (rest ++ t.toList) := by simp [split]
      exact splitLines_after ends behind (by simp)

/-- The stretches of a text are its finished lines, and the rest unless that is empty. -/
theorem stretches_eq (text : String) : stretches text =
    (splitLines text).1 ++ if (splitLines text).2 = "" then [] else [(splitLines text).2] := by
  have some_last := List.splitOnP_ne_nil isLineEnd text.toList
  unfold stretches splitLines
  rw [cutLines_eq_splitOnP]
  generalize text.toList.splitOnP isLineEnd = pieces at some_last
  obtain ⟨front, last, rfl⟩ := List.eq_nil_or_concat pieces |>.resolve_left some_last
  cases last <;> simp

/-- The finished lines of a text and its rest are its stretches, and an empty one behind the last
line end. -/
theorem splitLines_eq_stretches (text : String) :
    (splitLines text).1 ++ [(splitLines text).2] = stretches text ++ emptyRest text := by
  have empty := (splitLines_rest text).2.2.1
  rw [stretches_eq, emptyRest]
  by_cases rest : (splitLines text).2 = ""
  · rw [if_pos rest, if_pos (empty.1 rest), List.append_nil, rest]
  · rw [if_neg rest, if_neg (mt empty.2 rest), List.append_nil]

/-! ## Chunks -/

/-- The finished lines of a chunk behind an unfinished one, and what is unfinished then. -/
def take (pending chunk : String) : List String × String :=
  let (lines, rest) := splitLines (pending ++ chunk)
  (lines, Text.tail Act.pendingLimit rest)

/-- The finished lines of chunks behind an unfinished one, and what is unfinished in the end. -/
def takes (pending : String) : List String → List String × String
  | [] => ([], pending)
  | chunk :: chunks =>
    let (lines, rest) := take pending chunk
    let (more, last) := takes rest chunks
    (lines ++ more, last)

theorem takes_cons (pending chunk : String) (chunks : List String) :
    takes pending (chunk :: chunks) =
      ((take pending chunk).1 ++ (takes (take pending chunk).2 chunks).1,
        (takes (take pending chunk).2 chunks).2) := rfl

/-- A text of at most so many characters has no longer stretch. -/
theorem isShort_of_length_le {text : String} (h : (text.toList.length : Int) ≤ Act.pendingLimit) :
    IsShort text := by
  intro cs part _
  have := part.length_le
  omega

theorem IsShort.mono {s t : String} (h : IsShort t) (part : s.toList <:+: t.toList) : IsShort s :=
  fun cs infix_s inside => h cs (infix_s.trans part) inside

/-- Where no line is too long to be carried over, the chunks do not show. -/
theorem takes_eq {pending : String} {chunks : List String} (inside : IsInside pending.toList)
    (short : IsShort (pending ++ String.join chunks)) :
    takes pending chunks = splitLines (pending ++ String.join chunks) := by
  induction chunks generalizing pending with
  | nil => simp [takes, splitLines_inside inside]
  | cons chunk chunks ih =>
    obtain ⟨suffix, inside', -, split⟩ := splitLines_rest (pending ++ chunk)
    rw [String.join_cons, ← String.append_assoc] at short ⊢
    have part : (splitLines (pending ++ chunk)).2.toList <:+:
        (pending ++ chunk ++ String.join chunks).toList := by
      rw [String.toList_append]
      exact List.infix_append_of_infix_left suffix.isInfix
    have kept : Text.tail Act.pendingLimit (splitLines (pending ++ chunk)).2 =
        (splitLines (pending ++ chunk)).2 := by
      rw [Text.tail, Text.tailOf_eq_self (short _ part inside'), String.ofList_toList]
    have later := ih inside' (short.mono (by
      rw [String.toList_append, String.toList_append]
      exact (List.suffix_append_self_iff.2 suffix).isInfix))
    rw [split, ← later, takes_cons, take]
    simp only [kept]

/-- The lines of a text in chunks, the unfinished one last, are its stretches. -/
theorem takes_all {text : String} (short : IsShort text) {chunks : List String}
    (cut : String.join chunks = text) :
    (takes "" chunks).1 ++ [(takes "" chunks).2] = stretches text ++ emptyRest text := by
  have inside : IsInside ("" : String).toList := nofun
  have whole : "" ++ String.join chunks = text := by rw [cut, String.empty_append]
  rw [takes_eq inside (whole ▸ short), whole, splitLines_eq_stretches]

/-- Portions are taken like their texts. -/
theorem foldl_intake (portions : List (List UInt8)) (read : List String) (pending : String) :
    portions.foldl intake (read, pending) =
      (read ++ (takes pending (portions.map Text.decodeLenient)).1,
        (takes pending (portions.map Text.decodeLenient)).2) := by
  induction portions generalizing read pending with
  | nil => simp [takes]
  | cons bytes portions ih =>
    rw [List.foldl_cons, List.map_cons, takes_cons, ← List.append_assoc]
    exact ih ..

/-- The lines that a script comes to are the stretches of its messages. -/
theorem lines_eq_stretches {text : String} (short : IsShort text) {portions : List (List UInt8)}
    (cut : String.join (portions.map Text.decodeLenient) = text) :
    lines portions = stretches text ++ emptyRest text := by
  rw [← takes_all short cut, lines, intakes, foldl_intake, List.nil_append]

end Progress

/-! ## Acts that do not look at what is read -/

/-- The scene with what another run notes of its encoder. -/
def Scene.keeping (s : Scene) (notes : Run) : Scene :=
  { s with run := { s.run with
    tail := notes.tail, pending := notes.pending, process := notes.process } }

namespace Act

variable {α β : Type}

/-- Whatever is noted of the encoder, an act does the same and leaves the notes as they are. -/
def Aside (act : Act α) : Prop := ∀ (s : Scene) (notes : Run),
  act.result (s.keeping notes) = ((act.result s).1, (act.result s).2.keeping notes)

theorem aside_pure (a : α) : Aside (pure a) := fun _ _ => rfl

theorem Aside.bind {x : Act α} {f : α → Act β} (hx : Aside x) (hf : ∀ a, Aside (f a)) :
    Aside (x >>= f) := by
  intro s notes
  rw [result_bind, result_bind, hx]
  generalize x.result s = r
  obtain ⟨_ | a, m⟩ := r
  · rfl
  · exact hf a m notes

theorem aside_forM {f : α → Act Unit} (h : ∀ x, Aside (f x)) (xs : List α) :
    Aside (xs.forM f) := by
  induction xs with
  | nil => exact aside_pure ()
  | cons x xs ih => exact (h x).bind fun _ => ih

/-- Looking at the run is no look at what it notes of the encoder. -/
theorem aside_run_bind {f : Run → Act β} (same : ∀ r notes : Run, f { r with
      tail := notes.tail, pending := notes.pending, process := notes.process } = f r)
    (h : ∀ r, Aside (f r)) : Aside (run >>= f) := by
  intro s notes
  rw [result_run_bind, result_run_bind]
  exact (congrArg (fun act => Act.result act _) (same s.run notes)).trans (h s.run s notes)

theorem aside_pureFault (x : Except Fault α) : Aside (pureFault x) := by
  intro s notes
  cases x <;> rfl

theorem aside_pureFailure (x : Except Failure α) : Aside (pureFailure x) := by
  intro s notes
  cases x <;> rfl

theorem aside_call (f : Registry.CallOn α) : Aside (call f) := by
  intro s notes
  have called (s : Scene) : (call f).result s =
      (pureFailure (f s.shared.registry s.run.id s.shared.now).2).result
        { s with shared := { s.shared with
            registry := (f s.shared.registry s.run.id s.shared.now).1 } } := rfl
  rw [called, called]
  exact aside_pureFailure (f s.shared.registry s.run.id s.shared.now).2
    { s with shared := { s.shared with
        registry := (f s.shared.registry s.run.id s.shared.now).1 } } notes

theorem aside_announce (f : Registry.CallOn Job) (kind : String) (data : Job → Json) :
    Aside (announce f kind data) := by
  have told (job : Job) : Aside (do publish kind (data job); return job) := fun _ _ => rfl
  exact (aside_call f).bind told

theorem aside_notify (percent : Float) : Aside (notify percent) := by
  intro s notes
  rw [result_notify, result_notify]
  cases observes : s.run.observes <;> simp [Scene.keeping, Run.noticed, observes]

theorem aside_report (setup : Setup) (percent : Float) : Aside (report setup percent) := by
  rw [report_eq]
  refine aside_run_bind (fun _ _ => rfl) fun r => ?_
  dsimp only
  split
  · exact aside_pure ()
  split
  · exact aside_pure ()
  have noted : Aside (setRun fun r => { r with lastReported := percent }) := fun _ _ => rfl
  exact noted.bind fun _ => (aside_announce _ _ _).bind fun job => aside_notify job.progress

/-- Reporting the progress that a line tells does not look at other lines. -/
theorem aside_readLine (setup : Setup) (duration : Number) (line : String) :
    Aside (readLine setup duration line) := by
  refine (aside_pureFault _).bind fun time => ?_
  cases time with
  | none => exact aside_pure ()
  | some seconds => exact (aside_pureFault _).bind fun p => aside_report setup p

/-! ## The loop -/

/-- Takes a chunk of messages: its end is kept, and its finished lines are handed on. -/
def takeChunk (setup : Setup) (read : String → Act Unit) (chunk : String) : Act Unit := do
  setRun fun r => { r with tail := Text.appendTail setup.settings.tailLength r.tail chunk }
  let (lines, rest) := Progress.splitLines ((← run).pending ++ chunk)
  setRun fun r => { r with pending := Text.tail pendingLimit rest }
  lines.forM read

/-- Takes chunks of messages in turn, and the unfinished line in the end. -/
def takeAll (setup : Setup) (read : String → Act Unit) (chunks : List String) : Act Unit := do
  chunks.forM (takeChunk setup read)
  read (← run).pending

/-- A portion is taken as the chunk of text that it is. -/
theorem readPortion_eq (setup : Setup) (duration : Number) (bytes : List UInt8) :
    readPortion setup duration bytes =
      takeChunk setup (readLine setup duration) (Text.decodeLenient bytes) := rfl

/-- Reads the messages of an encoder that writes portions, and the unfinished line when they have
ended. -/
def readAll (setup : Setup) (command : Command) (portions : List (List UInt8)) : Act Unit := do
  let _ ← guarded (readSteps setup command (portions.map .output))
  guarded (do readLine setup command.duration (← run).pending)

/-- Two acts succeed or fail alike, and what they leave differs at most in what is noted of the
encoder. -/
def Alike (x : Except Failure α × Scene) (y : Except Failure Unit × Scene) : Prop :=
  x.1.map (fun _ => ()) = y.1 ∧ x.2 = y.2.keeping x.2.run

/-- Behind an unfinished line, an act hands lines to `read` and does nothing else, but for notes of
the encoder; it leaves an unfinished line. -/
def Hands (read : String → Act Unit) (p : String) (act : Act α) (lines : List String) (q : String) :
    Prop :=
  ∀ s : Scene, s.run.pending = p →
    Alike (act.result s) ((lines.forM read).result s) ∧
      ((act.result s).1.isOk = true → (act.result s).2.run.pending = q)

section

variable {read : String → Act Unit} {p q r : String} {lines more : List String} {setup : Setup}

theorem Aside.pending {act : Act α} (h : Aside act) (s : Scene) :
    (act.result s).2.run.pending = s.run.pending :=
  congrArg (fun answer => answer.2.run.pending) (h s s.run)

theorem forM_singleton (f : α → Act Unit) (x : α) : [x].forM f = f x := by
  rw [List.forM_eq_forM, List.forM_cons, List.forM_nil, bind_pure_unit]

theorem alike_self (x : Except Failure Unit × Scene) : Alike x x :=
  ⟨by cases x.1 <;> rfl, rfl⟩

/-- What takes notes of the encoder hands nothing on. -/
theorem hands_nothing {act : Act α} (h : ∀ s : Scene, ∃ a notes, notes.pending = s.run.pending ∧
    act.result s = (.ok a, s.keeping notes)) : Hands read p act [] p := by
  rintro s rfl
  obtain ⟨a, notes, same, run⟩ := h s
  rw [run]
  exact ⟨⟨rfl, rfl⟩, fun _ => same⟩

theorem Hands.bind (aside : ∀ line, Aside (read line)) {x : Act α} {f : α → Act β}
    (hx : Hands read p x lines q) (hf : ∀ a, Hands read q (f a) more r) :
    Hands read p (x >>= f) (lines ++ more) r := by
  intro s hs
  obtain ⟨⟨answer, left⟩, unfinished⟩ := hx s hs
  rw [List.forM_eq_forM, List.forM_append, result_bind, result_bind]
  generalize x.result s = first at answer left unfinished
  generalize (lines.forM read).result s = told at answer left
  obtain ⟨x, m⟩ := first
  obtain ⟨y, n⟩ := told
  cases answer
  cases x with
  | error e => exact ⟨⟨rfl, left⟩, nofun⟩
  | ok a =>
    obtain ⟨⟨answer', left'⟩, unfinished'⟩ := hf a m (unfinished rfl)
    have later : (more.forM read).result m = _ := left ▸ aside_forM aside more n m.run
    rw [later] at answer' left'
    exact ⟨⟨answer', left'⟩, unfinished'⟩

theorem Hands.guarded {act : Act α} (h : Hands read p act lines q) :
    Hands read p (guarded act) lines q := by
  intro s hs
  obtain ⟨⟨answer, left⟩, unfinished⟩ := h s hs
  rcases run : act.result s with ⟨f | a, m⟩
  · rw [run] at answer left
    rw [result_guarded_error run]
    exact ⟨⟨answer, congrArg (fun t : Scene =>
      { t with run := { t.run with process := m.run.process.map Process.kill } }) left⟩, nofun⟩
  · rw [run] at answer left unfinished
    rw [result_guarded_ok run]
    exact ⟨⟨answer, left⟩, unfinished⟩

theorem hands_takeChunk (aside : ∀ line, Aside (read line)) (chunk : String) :
    Hands read p (takeChunk setup read chunk) (Progress.take p chunk).1
      (Progress.take p chunk).2 := by
  rintro s rfl
  have run : (takeChunk setup read chunk).result s =
      ((Progress.take s.run.pending chunk).1.forM read).result (s.keeping { s.run with
        tail := Text.appendTail setup.settings.tailLength s.run.tail chunk
        pending := (Progress.take s.run.pending chunk).2 }) := rfl
  rw [run, aside_forM aside]
  exact ⟨⟨(alike_self _).1, rfl⟩, fun _ => rfl⟩

theorem hands_pending (aside : ∀ line, Aside (read line)) :
    Hands read p (do read (← run).pending) [p] p := by
  rintro s rfl
  rw [forM_singleton]
  exact ⟨alike_self _, fun _ => (aside s.run.pending).pending s⟩

/-- Chunks in turn. -/
theorem hands_chunks (aside : ∀ line, Aside (read line)) (chunks : List String) :
    Hands read p (chunks.forM (takeChunk setup read)) (Progress.takes p chunks).1
      (Progress.takes p chunks).2 := by
  induction chunks generalizing p with
  | nil => exact hands_nothing fun s => ⟨(), s.run, rfl, rfl⟩
  | cons chunk chunks ih =>
    rw [Progress.takes_cons, List.forM_eq_forM, List.forM_cons]
    exact (hands_takeChunk aside chunk).bind aside fun _ => ih

/-- An encoder that writes portions is read like their texts. -/
theorem hands_readSteps (command : Command) (portions : List (List UInt8)) :
    Hands (readLine setup command.duration) p (readSteps setup command (portions.map .output))
      (Progress.takes p (portions.map Text.decodeLenient)).1
      (Progress.takes p (portions.map Text.decodeLenient)).2 := by
  have aside := aside_readLine setup command.duration
  induction portions generalizing p with
  | nil => exact hands_nothing fun s => ⟨.ended, s.run, rfl, rfl⟩
  | cons bytes portions ih =>
    have noted : Hands (readLine setup command.duration) p
        (setProcess fun e => { e with remaining := portions.map .output }) [] p :=
      hands_nothing fun s => ⟨(), { s.run with process := s.run.process.map fun e =>
        { e with remaining := portions.map .output } }, rfl, rfl⟩
    have portion : Hands (readLine setup command.duration) p
        (readPortion setup command.duration bytes) (Progress.take p (Text.decodeLenient bytes)).1
        (Progress.take p (Text.decodeLenient bytes)).2 := by
      rw [readPortion_eq]
      exact hands_takeChunk aside _
    rw [List.map_cons, List.map_cons, Progress.takes_cons]
    exact noted.bind aside fun _ => portion.bind aside fun _ => ih

end

/-! ## Reading everything -/

theorem readLine_empty (setup : Setup) (duration : Number) :
    readLine setup duration "" = pure () := by
  have none : Progress.time? "" = .ok none := rfl
  rw [readLine, none]
  rfl

theorem forM_emptyRest (setup : Setup) (duration : Number) (text : String) :
    (Progress.emptyRest text).forM (readLine setup duration) = pure () := by
  unfold Progress.emptyRest
  split
  · rw [forM_singleton, readLine_empty]
  · rfl

/-- **Lines.** However a text is cut, the lines that are handed on are its non-empty stretches, in
order and each once, and an empty one behind the last line end. So an encoder's messages are read as
these stretches are. -/
theorem stretches_handed {text : String} (short : Progress.IsShort text) {chunks : List String}
    (cut : String.join chunks = text) (setup : Setup) (s : Scene) (start : s.run.pending = "") :
    (∀ read : String → Act Unit, (∀ line, Aside (read line)) →
      Alike ((takeAll setup read chunks).result s)
        (((Progress.stretches text ++ Progress.emptyRest text).forM read).result s)) ∧
    ∀ (command : Command) (portions : List (List UInt8)),
      portions.map Text.decodeLenient = chunks →
        Alike ((readAll setup command portions).result s)
          (((Progress.stretches text).forM (readLine setup command.duration)).result s) := by
  have taken := Progress.takes_all short cut
  constructor
  · intro read aside
    rw [← taken]
    exact (((hands_chunks aside chunks).bind aside fun _ => hands_pending aside) s start).1
  · rintro command portions rfl
    have aside := aside_readLine setup command.duration
    have all : (Progress.stretches text).forM (readLine setup command.duration) =
        (Progress.stretches text ++ Progress.emptyRest text).forM
          (readLine setup command.duration) := by
      have rest := forM_emptyRest setup command.duration text
      rw [List.forM_eq_forM] at rest
      rw [List.forM_eq_forM, List.forM_append, rest, bind_pure_unit]
    rw [all, ← taken]
    exact (((hands_readSteps command portions).guarded.bind aside fun _ =>
      (hands_pending aside).guarded) s start).1

/-- A scene in which nothing has been read. -/
def silence : Scene where
  shared := { registry := .fresh .standard none, sweeper := .fresh [], files := .empty }
  run := { id := "", request := { timeline := .null }, script := {} }

/-- Notes a line among the command lines. -/
def noteLine (line : String) : Act Unit :=
  setShared fun w => { w with started := w.started ++ [[line]] }

/-- A line end of two characters that fall into two chunks is one line end. -/
theorem stretches_handed_crlf :
    let text := "frame=1\r\nframe=2\n\nspeed"
    let chunks := ["frame", "=1\r", "\nframe=2\n\nspe", "ed"]
    Progress.IsShort text ∧ String.join chunks = text ∧ silence.run.pending = "" ∧
      ((takeAll (.make .standard (.make .standard none none) none none) noteLine
        chunks).result silence).2.shared.started = [["frame=1"], ["frame=2"], ["speed"]] := by
  intro text chunks
  have short : Progress.IsShort text := Progress.isShort_of_length_le (by decide +kernel)
  have cut : String.join chunks = text := by decide +kernel
  have handed := (stretches_handed short cut
    (.make .standard (.make .standard none none) none none) silence rfl).1 noteLine
    fun _ _ _ => rfl
  have lines : Progress.stretches text ++ Progress.emptyRest text =
      ["frame=1", "frame=2", "speed"] := by decide +kernel
  rw [lines] at handed
  refine ⟨short, cut, rfl, ?_⟩
  rw [handed.2]
  rfl

end Act
end Montage
