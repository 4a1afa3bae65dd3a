import Montage.Proofs.Asset.Probing
import Montage.Proofs.Json.Equality
import Montage.Proofs.Number.Quotient

/-!
# The first stream of each kind

What probing tells about the streams of a file are the first picture stream and the first sound
stream of the report. All else that the report lists, further streams of the two kinds included,
changes nothing, wherever it stands (`streams_told`): reading the list of streams is taking up its
first picture and then its first sound (`foldlM_addStream`).
-/
namespace Montage.Probe

/-- A stream that is a sound. -/
def isSound : Json → Bool
  | .object stream => match Json.lookup "codec_type" stream with
    | some (.string kind) => kind == "audio"
    | _ => false
  | _ => false

/-- The kind of stream that a stream says it is. -/
theorem isPicture_iff (s : Json) :
    isPicture s = true ↔ s.get? "codec_type" = some (.string "video") := by
  unfold isPicture Json.get?
  split
  · split <;> simp_all
  · simp_all

theorem isSound_iff (s : Json) :
    isSound s = true ↔ s.get? "codec_type" = some (.string "audio") := by
  unfold isSound Json.get?
  split
  · split <;> simp_all
  · simp_all

/-! ## Taking up streams -/

/-- What is known when a stream is the first picture, with this rate. -/
def seeing (info : MediaInfo) (s : Json) (rate : Option Float) : MediaInfo :=
  { info with
    hasVideo := true
    width := (s.get? "width").getD .null
    height := (s.get? "height").getD .null
    videoCodec := (s.get? "codec_name").getD .null
    frameRate := rate }

/-- What is known when a stream is the first sound. -/
def hearing (info : MediaInfo) (s : Json) : MediaInfo :=
  { info with hasAudio := true, audioCodec := (s.get? "codec_name").getD .null }

/-- The rate that a stream tells. -/
def rateOf (s : Json) : Except Fault (Option Float) :=
  rate ((s.get? "r_frame_rate").getD (.string "0/1"))

/-- A picture is taken up, if there is one and it is the first. -/
def withPicture (info : MediaInfo) : Option Json → Except Fault MediaInfo
  | none => .ok info
  | some s => if info.hasVideo then .ok info else (rateOf s).map (seeing info s)

/-- A sound is taken up, if there is one and it is the first. -/
def withSound (info : MediaInfo) : Option Json → MediaInfo
  | none => info
  | some s => if info.hasAudio then info else hearing info s

variable {info : MediaInfo} {stream : Json}

theorem withPicture_some (info : MediaInfo) (p : Json) : withPicture info (some p) =
    if info.hasVideo then .ok info else (rateOf p).map (seeing info p) := rfl

theorem withSound_some (info : MediaInfo) (s : Json) : withSound info (some s) =
    if info.hasAudio then info else hearing info s := rfl

theorem withPicture_of_hasVideo (seen : info.hasVideo = true) (p : Option Json) :
    withPicture info p = .ok info := by
  cases p with
  | none => rfl
  | some p => exact if_pos seen

theorem withSound_of_hasAudio (heard : info.hasAudio = true) (s : Option Json) :
    withSound info s = info := by
  cases s with
  | none => rfl
  | some s => exact if_pos heard

/-- After the first sound no other one is taken up. -/
theorem withSound_withSound (info : MediaInfo) (s : Json) (t : Option Json) :
    withSound (withSound info (some s)) t = withSound info (some s) := by
  refine withSound_of_hasAudio ?_ t
  rw [withSound_some]
  split
  · next heard => exact heard
  · rfl

theorem withSound_seeing (info : MediaInfo) (p : Json) (r : Option Float) (s : Option Json) :
    withSound (seeing info p r) s = seeing (withSound info s) p r := by
  cases s with
  | none => rfl
  | some s =>
    rw [withSound_some, withSound_some]
    by_cases heard : info.hasAudio <;> simp [heard, seeing, hearing]

theorem hasVideo_withSound (info : MediaInfo) (s : Option Json) :
    (withSound info s).hasVideo = info.hasVideo := by
  cases s with
  | none => rfl
  | some s =>
    rw [withSound_some]
    split <;> rfl

/-- A picture and a sound can be taken up in either order. -/
theorem withPicture_withSound (info : MediaInfo) (p s : Option Json) :
    withPicture (withSound info s) p = (withPicture info p).map (withSound · s) := by
  cases p with
  | none => rfl
  | some p =>
    rw [withPicture_some, withPicture_some, hasVideo_withSound]
    by_cases seen : info.hasVideo
    · rw [if_pos seen, if_pos seen]
      rfl
    · rw [if_neg seen, if_neg seen]
      cases rateOf p with
      | error => rfl
      | ok r => exact congrArg Except.ok (withSound_seeing info p r s).symm

theorem addStream_sound (sound : isSound stream = true) :
    addStream info stream = .ok (withSound info (some stream)) := by
  unfold isSound at sound
  split at sound
  · next members =>
    split at sound
    · next kind codec =>
      obtain rfl := eq_of_beq sound
      unfold addStream member withSound
      simp only [codec, bind, Except.bind]
      split <;> rfl
    · cases sound
  · cases sound

theorem addStream_silent (object : IsObject stream) (picture : isPicture stream = false)
    (sound : isSound stream = false) : addStream info stream = .ok info := by
  obtain ⟨members, rfl⟩ := object
  unfold isPicture at picture
  unfold isSound at sound
  unfold addStream member
  simp only [bind, Except.bind]
  split
  · next codec => simp [codec] at picture
  · next codec => simp [codec] at sound
  · rfl

/-- Reading the list of streams is taking up its first picture and its first sound. -/
theorem foldlM_addStream {items : List Json} (objects : ∀ s ∈ items, IsObject s)
    (info : MediaInfo) : items.foldlM addStream info =
      (withPicture info (items.find? isPicture)).map (withSound · (items.find? isSound)) := by
  induction items generalizing info with
  | nil => rfl
  | cons s items ih =>
    obtain ⟨object, objects⟩ := List.forall_mem_cons.1 objects
    have rest (info : MediaInfo) := ih objects info
    rw [List.foldlM_cons, List.find?_cons, List.find?_cons]
    cases picture : isPicture s with
    | true =>
      have sound : isSound s = false := by
        rw [isPicture_iff] at picture
        rw [Bool.eq_false_iff, ne_eq, isSound_iff, picture]
        simp
      rw [sound, addStream_picture picture]
      by_cases seen : info.hasVideo
      · rw [if_pos seen, withPicture_of_hasVideo seen]
        exact (rest info).trans (by rw [withPicture_of_hasVideo seen])
      · rw [if_neg seen, withPicture_some, if_neg seen]
        cases rated : rateOf s with
        | error f =>
          rw [rateOf] at rated
          rw [rated]
          rfl
        | ok r =>
          rw [rateOf] at rated
          rw [rated]
          exact (rest (seeing info s r)).trans (by rw [withPicture_of_hasVideo rfl]; rfl)
    | false =>
      cases sound : isSound s with
      | true =>
        rw [addStream_sound sound]
        refine (rest _).trans ?_
        rw [withPicture_withSound]
        cases withPicture info (items.find? isPicture) with
        | error => rfl
        | ok seen => exact congrArg Except.ok (withSound_withSound seen s _)
      | false =>
        rw [addStream_silent object picture sound]
        exact rest info

/-! ## Rates -/

/-- A stream tells its rate as a ratio of two whole numbers. -/
def HasRatio (s : Json) (n d : Int) : Prop := ∃ num den : String,
  (s.get? "r_frame_rate").getD (.string "0/1") = .string (num ++ "/" ++ den) ∧
    '/' ∉ num.toList ∧ '/' ∉ den.toList ∧
    Decimal.probedWhole? num = some n ∧ Decimal.probedWhole? den = some d

/-- A rate that is missing is zero to one. -/
theorem hasRatio_missing {s : Json} (missing : s.get? "r_frame_rate" = none) : HasRatio s 0 1 := by
  refine ⟨"0", "1", ?_, by decide, by decide, by decide +kernel, by decide +kernel⟩
  rw [missing]
  rfl

theorem occursAmong_of_mem {c : Char} {cs : List Char} (mem : c ∈ cs) :
    occursAmong [c] cs = true := by
  induction cs with
  | nil => cases mem
  | cons d cs ih =>
    rw [occursAmong, Bool.or_eq_true]
    rcases List.mem_cons.1 mem with rfl | later
    · exact .inl (by simp)
    · exact .inr (ih later)

theorem parts_ratio {num den : String} (hn : '/' ∉ num.toList) (hd : '/' ∉ den.toList) :
    Path.parts (num ++ "/" ++ den) = [num, den] := by
  have chars : (num ++ "/" ++ den).toList = num.toList ++ '/' :: den.toList := by simp
  rw [Path.parts, chars, List.splitOn_append_cons_self_of_not_mem hn,
    List.splitOn_eq_singleton hd]
  simp

/-- The rate of a ratio is its quotient, or unknown if that is by zero or less. -/
theorem rateOf_ratio {s : Json} {n d : Int} (ratio : HasRatio s n d) :
    rateOf s = if 0 < d then (Number.quotientInt n d).map some else .ok none := by
  obtain ⟨num, den, text, hn, hd, first, second⟩ := ratio
  have slash : contains "/" (.string (num ++ "/" ++ den)) = .ok true :=
    congrArg Except.ok (occursAmong_of_mem (c := '/') (by simp))
  have whole_num : whole num = .ok n := by rw [whole, first]
  have whole_den : whole den = .ok d := by rw [whole, second]
  rw [rateOf, text, rate, slash]
  simp only [bind, Except.bind, if_true, parts_ratio hn hd, whole_num, whole_den]
  split
  · cases Number.quotientInt n d <;> rfl
  · rfl

/-! ## Reports -/

/-- What a report with this format, first picture and first sound tells. -/
def summary (format picture sound : Option Json) : Except Fault MediaInfo := do
  let length ← duration (format.getD (.object []))
  (withPicture { durationMs := length } picture).map (withSound · sound)

/-- On a file the prober reports an object, with streams that are objects. -/
structure Reports (files : Files) (path : String) (members : List (String × Json))
    (items : List Json) : Prop where
  reply : ∃ reply, (files.find? path).bind (·.reply) = some reply ∧ reply.exit = 0 ∧
    Json.read reply.output = .ok (.object members)
  streams : Json.lookup "streams" members = some (.array items)
  objects : ∀ s ∈ items, IsObject s

/-- What is known of streams: whether there are a picture and a sound, and the first of each. -/
structure Tells (items : List Json) (info : MediaInfo) : Prop where
  video : info.hasVideo = true ↔ ∃ s ∈ items, s.get? "codec_type" = some (.string "video")
  audio : info.hasAudio = true ↔ ∃ s ∈ items, s.get? "codec_type" = some (.string "audio")
  width : info.width = ((items.find? isPicture).bind (·.get? "width")).getD .null
  height : info.height = ((items.find? isPicture).bind (·.get? "height")).getD .null
  videoCodec : info.videoCodec = ((items.find? isPicture).bind (·.get? "codec_name")).getD .null
  audioCodec : info.audioCodec = ((items.find? isSound).bind (·.get? "codec_name")).getD .null
  still : items.find? isPicture = none → info.frameRate = none
  rate : ∀ s n d, items.find? isPicture = some s → HasRatio s n d →
    if 0 < d then ∃ x, info.frameRate = some x ∧ IsNearestDouble (n / d) x
    else info.frameRate = none

variable {files : Files} {path : String} {members : List (String × Json)} {items : List Json}

/-- Nothing but the format, the first picture and the first sound bears on the result. -/
theorem Reports.media (h : Reports files path members items) (prober : String) :
    media prober files path = (summary (Json.lookup "format" members) (items.find? isPicture)
      (items.find? isSound)).mapError .fault := by
  obtain ⟨reply, there, exit, read⟩ := h.reply
  have told : ofReport (.object members) = summary (Json.lookup "format" members)
      (items.find? isPicture) (items.find? isSound) := by
    rw [ofReport_object, h.streams, summary]
    cases duration ((Json.lookup "format" members).getD (.object [])) with
    | error => rfl
    | ok length => exact foldlM_addStream h.objects { durationMs := length }
  unfold Probe.media
  rw [there]
  simp only [exit, ne_eq, not_true_eq_false, if_false, read, told]
  cases summary _ _ _ <;> rfl

theorem exists_isPicture (items : List Json) : (items.find? isPicture).isSome = true ↔
    ∃ s ∈ items, s.get? "codec_type" = some (.string "video") := by
  simp only [List.find?_isSome, isPicture_iff]

theorem exists_isSound (items : List Json) : (items.find? isSound).isSome = true ↔
    ∃ s ∈ items, s.get? "codec_type" = some (.string "audio") := by
  simp only [List.find?_isSome, isSound_iff]

/-- What is known when the first picture has been taken up. -/
structure Saw (picture : Option Json) (info : MediaInfo) : Prop where
  seen : info.hasVideo = picture.isSome
  width : info.width = (picture.bind (·.get? "width")).getD .null
  height : info.height = (picture.bind (·.get? "height")).getD .null
  codec : info.videoCodec = (picture.bind (·.get? "codec_name")).getD .null
  still : picture = none → info.frameRate = none
  rate : ∀ s, picture = some s → rateOf s = .ok info.frameRate

theorem saw_withPicture {length : Option Int} {picture : Option Json}
    (h : withPicture { durationMs := length } picture = .ok info) :
    Saw picture info ∧ info.hasAudio = false ∧ info.audioCodec = .null := by
  cases picture with
  | none =>
    cases h
    exact ⟨⟨rfl, rfl, rfl, rfl, fun _ => rfl, nofun⟩, rfl, rfl⟩
  | some p =>
    obtain ⟨r, rated, rfl⟩ := Graph.except_map_ok.1 h
    refine ⟨⟨rfl, rfl, rfl, rfl, nofun, ?_⟩, rfl, rfl⟩
    rintro s ⟨⟩
    exact rated

/-- Taking up a sound leaves the picture as it is. -/
theorem Saw.withSound {picture : Option Json} (h : Saw picture info) (s : Option Json) :
    Saw picture (withSound info s) := by
  cases s with
  | none => exact h
  | some s =>
    rw [withSound_some]
    split
    · exact h
    · exact ⟨h.seen, h.width, h.height, h.codec, h.still, h.rate⟩

theorem heard_withSound (new : info.hasAudio = false ∧ info.audioCodec = .null)
    (sound : Option Json) : (withSound info sound).hasAudio = sound.isSome ∧
      (withSound info sound).audioCodec = (sound.bind (·.get? "codec_name")).getD .null := by
  cases sound with
  | none => exact new
  | some s =>
    rw [withSound_some, new.1]
    exact ⟨rfl, rfl⟩

theorem tells_of_summary {format : Option Json} (h : summary format (items.find? isPicture)
    (items.find? isSound) = .ok info) : Tells items info := by
  obtain ⟨length, -, h⟩ := Graph.except_bind_ok.1 h
  obtain ⟨seen, taken, rfl⟩ := Graph.except_map_ok.1 h
  obtain ⟨saw, new⟩ := saw_withPicture taken
  have saw := saw.withSound (items.find? isSound)
  obtain ⟨heard, codec⟩ := heard_withSound new (items.find? isSound)
  refine ⟨?_, ?_, saw.width, saw.height, saw.codec, codec, saw.still, fun s n d first ratio => ?_⟩
  · rw [saw.seen, exists_isPicture]
  · rw [heard, exists_isSound]
  · have rated := saw.rate s first
    rw [rateOf_ratio ratio] at rated
    split at rated
    · next positive =>
      obtain ⟨x, quotient, some_x⟩ := Graph.except_map_ok.1 rated
      rw [if_pos positive]
      exact ⟨x, some_x.symm, Number.quotientInt_nearest positive quotient⟩
    · next least =>
      rw [if_neg least]
      exact (Except.ok.inj rated).symm

/-- **Streams.** If probing a file gives something, it tells of the first picture and the first
sound that are reported; and any report with the same format, first picture and first sound gives
the same. -/
theorem streams_told {prober : String} (reports : Reports files path members items)
    (returns : Probe.media prober files path = .ok info) : Tells items info ∧
      ∀ prober' files' path' members' items', Reports files' path' members' items' →
        Json.lookup "format" members' = Json.lookup "format" members →
        items'.find? isPicture = items.find? isPicture →
        items'.find? isSound = items.find? isSound →
        Probe.media prober' files' path' = .ok info := by
  have told := reports.media prober
  rw [returns] at told
  constructor
  · cases summed : summary (Json.lookup "format" members) (items.find? isPicture)
        (items.find? isSound) with
    | error f =>
      rw [summed] at told
      cases told
    | ok i =>
      rw [summed] at told
      cases told
      exact tells_of_summary summed
  · intro prober' files' path' members' items' reports' format picture sound
    rw [reports'.media prober', format, picture, sound]
    exact told.symm

/-- A file of which the prober prints these streams and nothing else. -/
def streaming (streams : String) : StoredFile :=
  { reply := some ⟨"\x7b\"streams\":[" ++ streams ++ "]\x7d", 0, ""⟩ }

/-- One file with two pictures and a sound, and one with the first picture and the sound in another
order, next to a stream of no kind. -/
def cinema : Files where
  entries := [
    (["a.mp4"], streaming
      ("\x7b\"codec_type\":\"video\",\"width\":16,\"r_frame_rate\":\"24/1\"\x7d," ++
        "\x7b\"codec_type\":\"video\"\x7d,\x7b\"codec_type\":\"audio\"\x7d")),
    (["b.mp4"], streaming
      ("\x7b\"codec_type\":\"audio\"\x7d,\x7b\x7d," ++
        "\x7b\"codec_type\":\"video\",\"width\":16,\"r_frame_rate\":\"24/1\"\x7d"))]
  directories := []

/-- The first picture of both. -/
def feature : Json := .object [("codec_type", .string "video"), ("width", .int 16),
  ("r_frame_rate", .string "24/1")]

/-- The picture that only one of them has. -/
def trailer : Json := .object [("codec_type", .string "video")]

/-- The sound of both. -/
def score : Json := .object [("codec_type", .string "audio")]

theorem streams_told_cinema : ∃ info, Probe.media "ffprobe" cinema "/a.mp4" = .ok info ∧
    Tells [feature, trailer, score] info ∧ Probe.media "ffprobe" cinema "/b.mp4" = .ok info := by
  have first : Reports cinema "/a.mp4" [("streams", .array [feature, trailer, score])]
      [feature, trailer, score] :=
    ⟨⟨_, rfl, rfl, by decide +kernel⟩, rfl, by simp [IsObject, feature, trailer, score]⟩
  have second : Reports cinema "/b.mp4" [("streams", .array [score, .object [], feature])]
      [score, .object [], feature] :=
    ⟨⟨_, rfl, rfl, by decide +kernel⟩, rfl, by simp [IsObject, feature, score]⟩
  cases returns : Probe.media "ffprobe" cinema "/a.mp4" with
  | error e =>
    have isOk : (Probe.media "ffprobe" cinema "/a.mp4").isOk = true := by decide +kernel
    rw [returns] at isOk
    cases isOk
  | ok info =>
    obtain ⟨tells, same⟩ := streams_told first returns
    exact ⟨info, rfl, tells, same "ffprobe" cinema "/b.mp4" _ _ second rfl rfl rfl⟩

end Montage.Probe
