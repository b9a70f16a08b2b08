import CameraPipeline.Media.Mode

/-!
Frame sizes, pixel layouts and codecs.
-/

namespace CameraPipeline

structure Geometry where
  width : UInt32
  height : UInt32
  deriving DecidableEq, Repr

/-- The size in the form `640x480`. -/
def Geometry.text (g : Geometry) : String :=
  Text.ofNat g.width.toNat ++ "x" ++ Text.ofNat g.height.toNat

inductive PixelFormat where
  | nv12 | nv16 | fbc0 | rgb888 | bayer10 | bayer12
  deriving DecidableEq, Repr

def PixelFormat.name : PixelFormat → String
  | nv12 => "Nv12"
  | nv16 => "Nv16"
  | fbc0 => "Fbc0"
  | rgb888 => "Rgb888"
  | bayer10 => "Bayer10"
  | bayer12 => "Bayer12"

def PixelFormat.all : List PixelFormat := [nv12, nv16, fbc0, rgb888, bayer10, bayer12]

inductive Codec where
  | h264 | h265 | mjpeg | jpeg | aac | g711a | pcm
  deriving DecidableEq, Repr

namespace Codec

def name : Codec → String
  | h264 => "H264"
  | h265 => "H265"
  | mjpeg => "Mjpeg"
  | jpeg => "Jpeg"
  | aac => "Aac"
  | g711a => "G711a"
  | pcm => "Pcm"

def all : List Codec := [h264, h265, mjpeg, jpeg, aac, g711a, pcm]

/-- Reads a codec in any ASCII case; blanks around it are not skipped. -/
def parse (text : String) : Except UnknownWord Codec :=
  match Text.upperAscii text with
  | "H.264" | "H264" => .ok h264
  | "H.265" | "H265" | "HEVC" => .ok h265
  | "MJPEG" => .ok mjpeg
  | "JPEG" => .ok jpeg
  | "AAC" => .ok aac
  | "G711A" => .ok g711a
  | "PCM" => .ok pcm
  | other => .error ⟨"codec", other⟩

instance : FromText Codec := ⟨fun s => (parse s).toOption⟩

end Codec
end CameraPipeline
