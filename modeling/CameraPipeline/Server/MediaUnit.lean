import CameraPipeline.Channel.Attr

/-!
Units of media: encoded packets, stills and raw frames, each holding a buffer slot of its channel.
-/

namespace CameraPipeline

inductive UnitKind where
  | keyFrame | deltaFrame | jpeg | raw
  deriving DecidableEq, Repr

namespace UnitKind

def name : UnitKind → String
  | keyFrame => "KeyFrame"
  | deltaFrame => "DeltaFrame"
  | jpeg => "Jpeg"
  | raw => "Raw"

def all : List UnitKind := [keyFrame, deltaFrame, jpeg, raw]

/-- Can decoding start here? -/
def isKey : UnitKind → Bool
  | keyFrame | jpeg => true
  | deltaFrame | raw => false

end UnitKind

structure MediaUnit where
  source : Handle
  sequence : Nat
  ptsMicros : Nat
  kind : UnitKind
  slot : UInt32
  payload : List UInt8
  deriving DecidableEq, Repr

namespace MediaUnit

def isKey (u : MediaUnit) : Bool := u.kind.isKey

/-- A payload in which every byte is the low byte of the sequence number. -/
def pattern (sequence size : Nat) : List UInt8 := List.replicate size (UInt8.ofNat sequence)

/-- What a channel with attributes `attr` gives as its unit number `sequence`: the kind of the
unit and the rate that spaces the time stamps. -/
def kindAndRate (attr : ChannelAttr) (sequence : Nat) : UnitKind × UInt32 :=
  match attr with
  | .venc a => (if sequence % max a.gop.toNat 1 = 0 then .keyFrame else .deltaFrame, a.dstFps)
  | .jpeg _ => (.jpeg, 1)
  | .vi a => (.raw, a.fps)
  | _ => (.raw, 30)

/-- The time stamp of the unit number `sequence` at `fps` units a second, in microseconds. The
product wraps at 64 bits. -/
def stampMicros (sequence : Nat) (fps : UInt32) : Nat :=
  sequence * 1000000 % UInt64.size / max fps.toNat 1

/-- The unit number `sequence` of a channel, in the buffer `slot`. -/
def produce (source : Handle) (attr : ChannelAttr) (sequence : Nat) (slot : UInt32)
    (payloadSize : Nat) : MediaUnit :=
  let (kind, fps) := kindAndRate attr sequence
  { source, sequence, kind, slot
    ptsMicros := stampMicros sequence fps
    payload := pattern sequence payloadSize }

end MediaUnit
end CameraPipeline
