import CameraPipeline.Media.Format

/-!
The choice of a sensor format. Slow motion turns stabilization and HDR off and reads the binned
sensor; time lapse turns HDR off; otherwise HDR picks the readout and stabilization only decides
whether the warp stage joins the record path.
-/

namespace CameraPipeline

/-- Sensor readouts described in the parameters. -/
inductive SensorVariant where
  | linear | dagHdr | staggeredHdr | binning
  deriving DecidableEq, Repr

namespace SensorVariant

def sectionName : SensorVariant → String
  | linear => "sensor.linear"
  | dagHdr => "sensor.dag_hdr"
  | staggeredHdr => "sensor.staggered_hdr"
  | binning => "sensor.binning"

/-- What a readout adds to the name of the tuning profile. -/
def suffix : SensorVariant → String
  | linear => "linear"
  | dagHdr => "dag_hdr"
  | staggeredHdr => "staggered_hdr"
  | binning => "binning"

def name : SensorVariant → String
  | linear => "Linear"
  | dagHdr => "DagHdr"
  | staggeredHdr => "StaggeredHdr"
  | binning => "Binning"

def key (v : SensorVariant) (field : String) : String := v.sectionName ++ ":" ++ field

end SensorVariant

/-- Why the parameters describe no pipeline. -/
inductive ConfigError where
  | param (fault : ParamFault)
  | unsupportedEis (eis : EisMode)
  | unconfiguredHdr (hdr : HdrMode) (variant : SensorVariant)
  deriving DecidableEq, Repr

def ConfigError.name : ConfigError → String
  | param fault => fault.name
  | unsupportedEis _ | unconfiguredHdr _ _ => "UnsupportedCombination"

def ConfigError.message : ConfigError → String
  | param fault => fault.message
  | unsupportedEis eis => s!"unsupported combination: EIS mode {eis.name} is not supported"
  | unconfiguredHdr hdr variant =>
    s!"unsupported combination: {hdr.name} HDR requested but {variant.sectionName} " ++
      "is not configured"

instance : MonadLift (Except ParamFault) (Except ConfigError) where
  monadLift r := r.mapError .param

structure SensorFormat where
  geometry : Geometry
  fps : UInt32
  bits : UInt32
  deriving DecidableEq, Repr

/-- What one choice of modes comes to; `eis` and `hdr` are those in effect. -/
structure Selection where
  mode : Mode
  eis : EisMode
  hdr : HdrMode
  variant : SensorVariant
  sensor : SensorFormat
  iqProfile : String
  aiqMode : AiqMode
  deriving DecidableEq, Repr

namespace Selection

def modeKey : String := "video.source:mode"
def eisKey : String := "video.source:eis_mode"
def hdrKey : String := "isp.0:hdr_mode"
def slowMotionRatioKey : String := "video.source:slow_motion_ratio"

/-- The linear readout where the parameters describe none. -/
def defaultLinear : SensorFormat := ⟨⟨3840, 2160⟩, 30, 10⟩

/-- Does the warp stage stand between the input and the record encoder? -/
def usesGdc (s : Selection) : Bool := s.eis ≠ .off

/-- The product, unless it exceeds 32 bits. -/
def mul? (a b : UInt32) : Option UInt32 :=
  if a.toNat * b.toNat < UInt32.size then some (a * b) else none

/-- The format in the section of `variant`, `none` where the section gives no width. -/
def sensor? (p : Params) (variant : SensorVariant) : Except ParamFault (Option SensorFormat) := do
  if (p.get? (variant.key "width")).isNone then return none
  let width ← p.require (variant.key "width")
  let height ← p.require (variant.key "height")
  let fps ← p.getOr (variant.key "fps") (30 : UInt32)
  let bits ← p.getOr (variant.key "bits") (10 : UInt32)
  return some ⟨⟨width, height⟩, fps, bits⟩

/-- The linear format with half the width and height, sped up by the slow-motion ratio. -/
def binned (p : Params) : Except ParamFault SensorFormat := do
  let linear := (← sensor? p .linear).getD defaultLinear
  let ratio ← p.getOr slowMotionRatioKey (4 : UInt32)
  match mul? linear.fps (max ratio 1) with
  | some fps =>
    return ⟨⟨linear.geometry.width / 2, linear.geometry.height / 2⟩, fps, linear.bits⟩
  | none => throw (.invalid slowMotionRatioKey (ToText.write ratio))

/-- Stabilization and HDR as `mode` leaves them. -/
def effective (mode : Mode) (eis : EisMode) (hdr : HdrMode) : EisMode × HdrMode :=
  match mode with
  | .slowMotion => (.off, .linear)
  | .timeLapse => (eis, .linear)
  | .video | .photo => (eis, hdr)

def variantOf : Mode → HdrMode → SensorVariant
  | .slowMotion, _ => .binning
  | _, .linear => .linear
  | _, .dag => .dagHdr
  | _, .staggered => .staggeredHdr

/-- The format of a readout; only the HDR readouts have to be configured. -/
def sensorFor (p : Params) (hdr : HdrMode) (variant : SensorVariant) :
    Except ConfigError SensorFormat := do
  match variant, ← sensor? p variant with
  | _, some format => return format
  | .linear, none => return defaultLinear
  | .binning, none => return (← binned p)
  | .dagHdr, none | .staggeredHdr, none => throw (.unconfiguredHdr hdr variant)

def choose (mode : Mode) (eis : EisMode) (hdr : HdrMode) (p : Params) :
    Except ConfigError Selection := do
  let (eis, hdr) := effective mode eis hdr
  if !eis.isSupported then throw (.unsupportedEis eis)
  let variant := variantOf mode hdr
  let sensor ← sensorFor p hdr variant
  let sensorName ← p.getOr "sensor.0:name" "sensor"
  return {
    mode, eis, hdr, variant, sensor
    iqProfile := sensorName ++ "_" ++ variant.suffix
    aiqMode := if hdr = .staggered then .hdr2 else .normal }

/-- Chooses for the modes that stand in the parameters. -/
def select (p : Params) : Except ConfigError Selection := do
  let mode ← p.getOr modeKey Mode.video
  let eis ← p.getOr eisKey EisMode.off
  let hdr ← p.getOr hdrKey HdrMode.linear
  choose mode eis hdr p

/-- Records the choice in effect; what the user asked for stays as it is. -/
def writeBack (s : Selection) (p : Params) : Params :=
  (((p.setValue "isp.0:force_iq_name" s.iqProfile).setValue
    "isp.0:aiq_mode" s.aiqMode).setValue
    "video.source:effective_eis" s.eis).setValue
    "isp.0:effective_hdr" s.hdr

end Selection
end CameraPipeline
