import CameraPipeline.Server.Fault
import CameraPipeline.Server.Injection
import CameraPipeline.Server.MediaUnit

/-!
The state of the media server: its live channels, their binds, the calls it accepted and the
failures still to be injected. It lives in memory and gives synthetic units.
-/

namespace CameraPipeline

/-- A live channel. `outstanding` holds the slots of the units not yet handed back. -/
structure Channel where
  attr : ChannelAttr
  enabled : Bool := false
  receiving : Option Quota := none
  produced : Nat := 0
  nextSlot : UInt32 := 0
  outstanding : List UInt32 := []
  deriving DecidableEq, Repr

structure Server where
  payloadSize : Nat
  nextId : ChannelKind → Nat := fun _ => 0
  channels : Table Handle Channel := .empty
  links : Table Link PUnit.{1} := .empty
  log : List Call := []
  failures : List FailureRule := []

namespace Server

/-- No more channels of one kind may live at a time. -/
def maxPerKind : Nat := 8

def live (s : Server) : List Handle := s.channels.keys

def liveOfKind (s : Server) (kind : ChannelKind) : List Handle :=
  s.live.filter (·.kind == kind)

def binds (s : Server) : List Link := s.links.keys

def isBound (s : Server) (h : Handle) : Bool := s.binds.any (·.touches h)

def hasUpstream (s : Server) (h : Handle) : Bool := s.binds.any (·.target == h)

def hasOverlay (s : Server) (h : Handle) : Bool :=
  s.channels.entries.any fun e => e.2.attr.overlaid? == some h

def isReceiving (s : Server) (h : Handle) : Bool :=
  (s.channels.get? h).any (·.receiving.isSome)

def attrOf (s : Server) (h : Handle) : Option ChannelAttr := (s.channels.get? h).map (·.attr)

def outstanding (s : Server) : Nat :=
  s.channels.entries.foldr (fun e n => e.2.outstanding.length + n) 0

def controlCalls (s : Server) : List Call := s.log.filter (·.isControl)

def countOf (s : Server) (op : Operation) : Nat := s.log.countP (·.operation == op)

def countFor (s : Server) (op : Operation) (h : Handle) : Nat :=
  s.log.countP fun c => c.operation == op && c.involves h

def clearLog (s : Server) : Server := { s with log := [] }

def inject (s : Server) (rule : FailureRule) : Server :=
  { s with failures := s.failures ++ [rule] }

def record (s : Server) (c : Call) : Server := { s with log := s.log ++ [c] }

def strike (s : Server) (op : Operation) (kind : ChannelKind) : Bool × Server :=
  let (hit, rules) := FailureRule.strike op kind s.failures
  (hit, { s with failures := rules })

/-- The channel `h`, which has to live. -/
def channel (s : Server) (h : Handle) : Except Fault Channel :=
  match s.channels.get? h with
  | some c => .ok c
  | none => .error (.notFound h)

/-- The channel `h`, which has to live and be enabled. -/
def enabledChannel (s : Server) (h : Handle) : Except Fault Channel := do
  let c ← s.channel h
  if c.enabled then return c else throw (.notEnabled h)

def update (s : Server) (h : Handle) (f : Channel → Channel) : Server :=
  match s.channels.get? h with
  | some c => { s with channels := s.channels.insert h (f c) }
  | none => s

end Server
end CameraPipeline
