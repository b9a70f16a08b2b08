import CameraPipeline.Error

/-!
Clips held in memory, and reading them. The packets of a track lie on a regular grid of times.
-/

namespace CameraPipeline

structure Packet where
  ptsMs : Nat
  isKey : Bool
  size : Nat
  deriving DecidableEq, Repr

/-- `count` packets at 0, `step`, 2 `step`, …; every `keyEvery`-th is a key frame, the first
included. -/
structure Timeline where
  count : Nat
  step : Nat
  keyEvery : Nat
  size : Nat
  deriving DecidableEq, Repr

namespace Timeline

def empty : Timeline := ⟨0, 1, 1, 0⟩

def packet? (t : Timeline) (i : Nat) : Option Packet :=
  if i < t.count then some ⟨i * t.step, i % t.keyEvery = 0, t.size⟩ else none

def packets (t : Timeline) : List Packet :=
  (List.range t.count).map fun i => ⟨i * t.step, i % t.keyEvery = 0, t.size⟩

/-- The index of the first packet that is not before `positionMs`. -/
def indexFrom (t : Timeline) (positionMs : Nat) : Nat :=
  min t.count ((positionMs + t.step - 1) / t.step)

end Timeline

structure VideoInfo where
  codec : Codec
  geometry : Geometry
  fps : UInt32
  deriving DecidableEq, Repr

/-- Whole milliseconds from one frame to the next. -/
def VideoInfo.frameIntervalMs (v : VideoInfo) : Nat := 1000 / max v.fps.toNat 1

structure AudioInfo where
  codec : Codec
  sampleRate : UInt32
  channels : UInt32
  packetMs : Nat
  deriving DecidableEq, Repr

structure MediaInfo where
  video : Option VideoInfo := none
  audio : Option AudioInfo := none
  durationMs : Nat := 0
  deriving DecidableEq, Repr

structure Clip where
  info : MediaInfo := {}
  video : Timeline := .empty
  audio : Timeline := .empty
  /-- The video packet whose read fails. -/
  failVideoAt : Option Nat := none
  deriving DecidableEq, Repr

namespace Clip

/-- Gives the clip a video track, a key frame every second. -/
def withVideo (c : Clip) (codec : Codec) (geometry : Geometry) (fps : UInt32)
    (durationMs : Nat) : Clip :=
  let video : VideoInfo := ⟨codec, geometry, fps⟩
  let step := max video.frameIntervalMs 1
  { c with
    info := { c.info with video, durationMs := max c.info.durationMs durationMs }
    video := ⟨durationMs / step, step, max fps.toNat 1, 256⟩ }

def withAudio (c : Clip) (codec : Codec) (sampleRate channels : UInt32) (packetMs : Nat)
    (durationMs : Nat) : Clip :=
  let step := max packetMs 1
  { c with
    info := { c.info with
      audio := some ⟨codec, sampleRate, channels, step⟩
      durationMs := max c.info.durationMs durationMs }
    audio := ⟨durationMs / step, step, 1, 64⟩ }

def withFailureAt (c : Clip) (index : Nat) : Clip := { c with failVideoAt := some index }

def timeline (c : Clip) : Track → Timeline
  | .video => c.video
  | .audio => c.audio

end Clip

/-- A clip being read: where each track's next read is. -/
structure Demuxer where
  clip : Clip
  videoPos : Nat := 0
  audioPos : Nat := 0
  deriving DecidableEq, Repr

namespace Demuxer

def pos (d : Demuxer) : Track → Nat
  | .video => d.videoPos
  | .audio => d.audioPos

def setPos (d : Demuxer) (track : Track) (pos : Nat) : Demuxer :=
  match track with
  | .video => { d with videoPos := pos }
  | .audio => { d with audioPos := pos }

/-- Reads the next packet, `none` at the end. A failing read is passed over by the next one. -/
def read (d : Demuxer) (track : Track) : Except DemuxFault (Option Packet) × Demuxer :=
  let pos := d.pos track
  if track = .video && d.clip.failVideoAt = some pos then
    (.error (.corruptPacket pos), d.setPos track (pos + 1))
  else
    match (d.clip.timeline track).packet? pos with
    | some packet => (.ok (some packet), d.setPos track (pos + 1))
    | none => (.ok none, d)

/-- Goes to the first packet that is not before a position within the clip. -/
def seek (d : Demuxer) (track : Track) (positionMs : Nat) : Except DemuxFault Demuxer :=
  if d.clip.info.durationMs < positionMs then .error (.seek positionMs)
  else .ok (d.setPos track ((d.clip.timeline track).indexFrom positionMs))

end Demuxer

/-- Paths by their parts: repeated and trailing slashes do not count, nor do parts `.`, except at
the front of a relative path. -/
def canonicalPath (path : String) : String :=
  let isAbsolute := path.toList.head? == some '/'
  let parts := (path.splitOn "/").filter (· != "")
  let parts := match isAbsolute, parts with
    | false, "." :: rest => "." :: rest.filter (· != ".")
    | _, parts => parts.filter (· != ".")
  (if isAbsolute then "/" else "") ++ "/".intercalate parts

structure ClipLibrary where
  clips : Table String Clip := .empty

namespace ClipLibrary

def register (l : ClipLibrary) (path : String) (clip : Clip) : ClipLibrary :=
  ⟨l.clips.insert (canonicalPath path) clip⟩

/-- Opens the clip at a path; it has to have a track. -/
def openClip (l : ClipLibrary) (path : String) : Except DemuxFault Demuxer :=
  match l.clips.get? (canonicalPath path) with
  | none => .error (.cannotOpen path)
  | some clip =>
    if clip.info.video.isNone && clip.info.audio.isNone then .error .noTracks
    else .ok { clip }

end ClipLibrary
end CameraPipeline
