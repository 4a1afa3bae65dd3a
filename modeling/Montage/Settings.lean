import Montage.Schema
import Montage.Text.Case

/-!
# Settings

What can be set from outside: the tools, the directories, the picture that a timeline without
its own measures gets, the encoder's parameters and the supervision of jobs. Settings are read
from named texts, in which the names are found in any mixture of capitals.
-/
namespace Montage

/-- Everything that can be set. -/
structure Settings where
  logLevel : String
  encoderPath : String
  proberPath : String
  assetsDir : String
  outputDir : String
  outputUrlPrefix : String
  cleanupExtensions : String
  width : Int
  height : Int
  frameRate : Float
  minDuration : Float
  preset : String
  pixelFormat : String
  audioBitrate : String
  audioSampleRate : Int
  probeMedia : Bool
  /-- how many characters of the encoder's messages an error keeps -/
  tailLength : Int
  /-- the seconds a job may take; zero sets no limit -/
  timeout : Float
  /-- the least difference between two progress reports, in percent -/
  progressStep : Float

namespace Settings

/-- The settings that hold where nothing is set. -/
def standard : Settings where
  logLevel := "INFO"
  encoderPath := "ffmpeg"
  proberPath := "ffprobe"
  assetsDir := "./assets"
  outputDir := "./output"
  outputUrlPrefix := "/output"
  cleanupExtensions := ".mp4,.mov,.webm,.avi,.json"
  width := 1920
  height := 1080
  frameRate := 30
  minDuration := 10
  preset := "medium"
  pixelFormat := "yuv420p"
  audioBitrate := "192k"
  audioSampleRate := 48000
  probeMedia := true
  tailLength := 500
  timeout := 3600
  progressStep := 1

/-- One setting: the text of that name, the last of several, or the standard. -/
def one {α : Type} (env : List (String × String)) (name : String) (read : Json → Parsed α)
    (standard : α) : Parsed α :=
  match env.reverse.find? fun v => Text.lower v.1 == name with
  | some v => (read (.string v.2)).under (.key name)
  | none => .ok standard

/-- The settings that an environment gives. -/
def ofEnvironment (env : List (String × String)) : Parsed Settings :=
  Settings.mk
    <$> one env "log_level" Schema.string standard.logLevel
    <*> one env "ffmpeg_path" Schema.string standard.encoderPath
    <*> one env "ffprobe_path" Schema.string standard.proberPath
    <*> one env "assets_dir" Schema.string standard.assetsDir
    <*> one env "output_dir" Schema.string standard.outputDir
    <*> one env "output_url_prefix" Schema.string standard.outputUrlPrefix
    <*> one env "output_cleanup_extensions_raw" Schema.string standard.cleanupExtensions
    <*> one env "render_output_width" Schema.int standard.width
    <*> one env "render_output_height" Schema.int standard.height
    <*> one env "render_fps" Schema.float standard.frameRate
    <*> one env "render_min_duration_s" Schema.float standard.minDuration
    <*> one env "render_preset" Schema.string standard.preset
    <*> one env "render_pix_fmt" Schema.string standard.pixelFormat
    <*> one env "render_audio_bitrate" Schema.string standard.audioBitrate
    <*> one env "render_audio_sample_rate" Schema.int standard.audioSampleRate
    <*> one env "probe_media" Schema.bool standard.probeMedia
    <*> one env "diagnostic_tail_chars" Schema.int standard.tailLength
    <*> one env "render_timeout_s" Schema.float standard.timeout
    <*> one env "progress_report_step" Schema.float standard.progressStep

/-- The extensions of the files that are swept from an output directory: small letters, blanks
around them dropped, empty ones left out. -/
def sweptExtensions (s : Settings) : List String :=
  ((s.cleanupExtensions.splitOn ",").map Text.strip).filterMap fun e =>
    if e.isEmpty then none else some (Text.lower e)

end Settings
end Montage
