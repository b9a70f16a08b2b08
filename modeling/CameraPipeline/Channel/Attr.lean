import CameraPipeline.Channel.Handle
import CameraPipeline.Media.Format

/-!
The attributes with which channels are created. The server takes any attributes for any kind of
channel.
-/

namespace CameraPipeline

/-- Video input. -/
structure ViAttr where
  geometry : Geometry
  fps : UInt32
  format : PixelFormat
  bufferCount : UInt32
  smartAe : Bool
  deriving DecidableEq, Repr

/-- Lens warp. -/
structure GdcAttr where
  geometry : Geometry
  bufferCount : UInt32
  deriving DecidableEq, Repr

/-- Scaler. -/
structure VpssAttr where
  input : Geometry
  output : Geometry
  format : PixelFormat
  deriving DecidableEq, Repr

/-- Video encoder. Of every `srcFps` frames it keeps `dstFps`. -/
structure VencAttr where
  geometry : Geometry
  codec : Codec
  bitrateKbps : UInt32
  gop : UInt32
  srcFps : UInt32
  dstFps : UInt32
  bufferCount : UInt32
  memc : Bool
  deriving DecidableEq, Repr

/-- Still encoder. -/
structure JpegAttr where
  geometry : Geometry
  quality : UInt32
  deriving DecidableEq, Repr

/-- Overlay on the channel `attachTo`. -/
structure RgnAttr where
  attachTo : Handle
  geometry : Geometry
  deriving DecidableEq, Repr

/-- Video output. -/
structure VoAttr where
  geometry : Geometry
  format : PixelFormat
  deriving DecidableEq, Repr

/-- Video decoder. -/
structure VdecAttr where
  geometry : Geometry
  codec : Codec
  deriving DecidableEq, Repr

/-- Audio channels of every kind. -/
structure AudioAttr where
  codec : Codec
  sampleRate : UInt32
  channels : UInt32
  deriving DecidableEq, Repr

inductive ChannelAttr where
  | vi (attr : ViAttr)
  | gdc (attr : GdcAttr)
  | vpss (attr : VpssAttr)
  | venc (attr : VencAttr)
  | jpeg (attr : JpegAttr)
  | rgn (attr : RgnAttr)
  | vo (attr : VoAttr)
  | vdec (attr : VdecAttr)
  | audio (attr : AudioAttr)
  deriving DecidableEq, Repr

def ChannelAttr.overlaid? : ChannelAttr → Option Handle
  | rgn attr => some attr.attachTo
  | _ => none

/-- How many units a channel may give once it receives. -/
inductive Quota where
  | count (n : UInt32)
  | unlimited
  deriving DecidableEq, Repr

def Quota.text : Quota → String
  | count n => Text.ofNat n.toNat
  | unlimited => "unlimited"

end CameraPipeline
