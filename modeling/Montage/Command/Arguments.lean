import Montage.Command
import Montage.Graph.Printer
import Montage.Json.Literal
import Montage.Number.Compact

/-!
# Arguments of the encoder

A command as the argument vector that the encoder is started with. A constant quality of VP9
needs a bit rate of zero in place of a preset, and a container of the MP4 family has its index
moved to the front.
-/
namespace Montage

namespace Input

/-- The options of an input, then its path. -/
def arguments (i : Input) : List String := i.options ++ ["-i", i.path]

end Input

namespace Command

/-- The text of a parameter, or the standard one. -/
def parameter (c : Command) (name standard : String) : String :=
  match Json.lookup name c.parameters with
  | some v => v.text
  | none => standard

/-- The containers whose index is moved to the front. -/
def faststartFormats : List String := ["mp4", "mov"]

/-- The arguments that choose the video codec and how it spends bits. -/
def videoArguments (c : Command) : List String :=
  let codec := c.parameter "video_codec" "libx264"
  ["-c:v", codec] ++
  (if codec = "libvpx-vp9" then ["-b:v", "0"]
  else ["-preset", c.parameter "preset" "medium"]) ++
  ["-crf", c.parameter "crf" "18", "-pix_fmt", c.parameter "pix_fmt" "yuv420p"]

/-- The arguments that choose the audio codec. -/
def audioArguments (c : Command) : List String :=
  ["-c:a", c.parameter "audio_codec" "aac", "-b:a", c.parameter "audio_bitrate" "192k",
    "-ar", c.parameter "audio_sample_rate" "48000"]

/-- The argument vector of a command, the encoder's own path first and the output path last. -/
def arguments (c : Command) (encoder : String) : Except Fault (List String) := do
  let rate ← c.frameRate.compact
  let length ← c.duration.seconds
  return [encoder, "-y", "-hide_banner"] ++ c.inputs.flatMap Input.arguments ++
    ["-filter_complex", c.graph.print] ++
    ["-map", Graph.bracket c.videoLabel, "-map", Graph.bracket c.audioLabel] ++
    c.videoArguments ++ ["-r", rate] ++ c.audioArguments ++ ["-t", length] ++
    (if faststartFormats.contains c.format then ["-movflags", "+faststart"] else []) ++
    [c.outputPath]

end Command
end Montage
