import CameraPipeline.Channel.Attr
import CameraPipeline.Media.Selection

/-!
The attributes of a whole pipeline, worked out from a selection and the parameters. Parameters
are read in a fixed order, so of several bad ones the first decides the error.
-/

namespace CameraPipeline

structure Buffers where
  vi : UInt32 := 4
  gdc : UInt32 := 3
  venc : UInt32 := 4
  deriving DecidableEq, Repr

structure DisplayAttr where
  vpss : VpssAttr
  vo : VoAttr
  deriving DecidableEq, Repr

/-- Everything needed to build one pipeline. -/
structure PipelineAttr where
  selection : Selection
  vi : ViAttr
  /-- The record encoder, in every mode but photo. -/
  main : Option VencAttr
  /-- The warp stage, with stabilization. -/
  gdc : Option GdcAttr
  sub : Option VencAttr
  photo : Option JpegAttr
  display : Option DisplayAttr
  /-- The overlay on the record encoder. -/
  osd : Option Geometry
  rawTap : Bool
  recordOnInit : Bool
  recordFps : UInt32
  deriving DecidableEq, Repr

namespace PipelineAttr

def enableRecordKey : String := "video.source:enable_record"
def enableDisplayKey : String := "video.source:enable_display"
def enableRtspKey : String := "video.source:enable_rtsp"
def enableRawTapKey : String := "video.source:enable_raw_tap"
def enableMemcKey : String := "video.source:enable_memc"
def smartAeKey : String := "isp.0:smart_ae"
def timeLapseIntervalKey : String := "video.source:time_lapse_interval"
def osdEnableKey : String := "osd.0:enable"

def geometryOr (p : Params) (part : String) (default : Geometry) :
    Except ParamFault Geometry := do
  let width ← p.getOr (part ++ ":width") default.width
  let height ← p.getOr (part ++ ":height") default.height
  return ⟨width, height⟩

/-- Frame rates into and out of the record encoder. Time lapse keeps one frame per interval. -/
def recordRates (p : Params) (mode : Mode) (fps : UInt32) :
    Except ParamFault (UInt32 × UInt32) := do
  if mode = .timeLapse then
    let interval ← p.getOr timeLapseIntervalKey (1 : UInt32)
    match Selection.mul? fps (max interval 1) with
    | some srcFps => return (srcFps, 1)
    | none => throw (.invalid timeLapseIntervalKey (ToText.write interval))
  else
    return (fps, fps)

def mainAttr (s : Selection) (p : Params) (buffers : Buffers) : Except ParamFault VencAttr := do
  let geometry ← geometryOr p "video.0" s.sensor.geometry
  let (srcFps, dstFps) ← recordRates p s.mode s.sensor.fps
  let codec ← p.getOr "video.0:codec" Codec.h265
  let bitrateKbps ← p.getOr "video.0:bitrate" 20000
  let gop ← p.getOr "video.0:gop" s.sensor.fps
  let memc ← p.getSwitch enableMemcKey false
  return { geometry, codec, bitrateKbps, gop, srcFps, dstFps, bufferCount := buffers.venc, memc }

/-- The encoder of the network stream, at no more than 30 frames a second. -/
def subAttr (s : Selection) (p : Params) (buffers : Buffers) : Except ParamFault VencAttr := do
  let fps := min s.sensor.fps 30
  let geometry ← geometryOr p "video.1" ⟨1280, 720⟩
  let codec ← p.getOr "video.1:codec" Codec.h264
  let bitrateKbps ← p.getOr "video.1:bitrate" 2000
  let gop ← p.getOr "video.1:gop" fps
  return {
    geometry, codec, bitrateKbps, gop, srcFps := s.sensor.fps, dstFps := fps
    bufferCount := buffers.venc, memc := false }

def photoAttr (s : Selection) (p : Params) : Except ParamFault JpegAttr := do
  let geometry ← geometryOr p "video.2" s.sensor.geometry
  let quality ← p.getOr "video.2:quality" 90
  return ⟨geometry, quality⟩

def displayAttr (s : Selection) (p : Params) : Except ParamFault DisplayAttr := do
  let panel ← geometryOr p "display.0" ⟨1280, 720⟩
  return ⟨⟨s.sensor.geometry, panel, .nv12⟩, ⟨panel, .rgb888⟩⟩

/-- The attribute, where it is asked for. -/
def whenOn {α : Type} (on : Bool) (attr : Except ParamFault α) :
    Except ParamFault (Option α) :=
  if on then some <$> attr else pure none

def derive (s : Selection) (p : Params) (buffers : Buffers) :
    Except ParamFault PipelineAttr := do
  let smartAe ← p.getSwitch smartAeKey false
  let main ← whenOn (s.mode ≠ .photo) (mainAttr s p buffers)
  let sub ← whenOn (← p.getSwitch enableRtspKey false) (subAttr s p buffers)
  let photo ← whenOn (s.mode = .photo) (photoAttr s p)
  let display ← whenOn (← p.getSwitch enableDisplayKey false) (displayAttr s p)
  let osd ← match main with
    | some venc => do
      let on ← p.getSwitch osdEnableKey false
      pure (if on then some venc.geometry else none)
    | none => pure none
  let rawTap ← p.getSwitch enableRawTapKey false
  let recordOnInit ← if s.mode = .photo then pure false else p.getSwitch enableRecordKey true
  return {
    selection := s
    vi := ⟨s.sensor.geometry, s.sensor.fps, .nv12, buffers.vi, smartAe⟩
    main
    gdc := main.bind fun venc =>
      if s.usesGdc then some ⟨venc.geometry, buffers.gdc⟩ else none
    sub, photo, display, osd, rawTap, recordOnInit
    recordFps := (main.map (·.dstFps)).getD 0 }

/-- Selects and derives: the attributes that the parameters ask for. -/
def plan (p : Params) (buffers : Buffers) : Except ConfigError PipelineAttr := do
  let selection ← Selection.select p
  derive selection p buffers

end PipelineAttr
end CameraPipeline
