import CameraPipeline.Server.Request

/-!
Fetching a unit. The server looks at a channel twice: it first notes the attempt and whether a
unit could be given, and later, if it still can, hands one out. Other calls may come between.
-/

namespace CameraPipeline
namespace Server

/-- Has the channel units left to give under its quota? -/
def quotaLeft (c : Channel) : Bool :=
  match c.receiving with
  | some .unlimited => true
  | some (.count n) => c.produced < n.toNat
  | none => false

/-- Would a fetch on `h` give a unit now? -/
def canProduce (s : Server) (h : Handle) : Bool :=
  match s.channels.get? h with
  | none => false
  | some c =>
    c.enabled && match h.kind with
      | .vi => true
      | .gdc | .vpss => s.hasUpstream h
      | .venc | .jpeg => quotaLeft c && s.hasUpstream h
      | _ => false

/-- The first look: notes the attempt and answers whether a unit could be given. -/
def probe (s : Server) (h : Handle) : Except Fault Bool × Server :=
  let (hit, s) := (s.record (.fetch h)).strike .fetch h.kind
  if hit then (.error .injected, s)
  else
    match s.channel h with
    | .error fault => (.error fault, s)
    | .ok _ => (.ok (s.canProduce h), s)

/-- The second look: hands out the channel's next unit, if it can. -/
def produce (s : Server) (h : Handle) : Option MediaUnit × Server :=
  match s.channels.get? h with
  | none => (none, s)
  | some c =>
    if s.canProduce h then
      (some (.produce h c.attr c.produced c.nextSlot s.payloadSize),
        { s with channels := s.channels.insert h { c with
            produced := c.produced + 1
            nextSlot := c.nextSlot + 1
            outstanding := c.outstanding.insert c.nextSlot } })
    else (none, s)

/-- Fetches from `h`, with nothing between the two looks; `none` is a timeout. -/
def fetch (s : Server) (h : Handle) : Except Fault (Option MediaUnit) × Server :=
  match s.probe h with
  | (.error fault, s) => (.error fault, s)
  | (.ok false, s) => (.ok none, s)
  | (.ok true, s) =>
    let (unit, s) := s.produce h
    (.ok unit, s)

end Server
end CameraPipeline
