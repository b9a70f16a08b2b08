import CameraPipeline.Server.State

/-!
The calls of the media server other than fetching. Each is first counted against the injected
failures, then checked against the server's rules, and only then carried out and recorded; a
refused call changes nothing but the count of the failure rules.
-/

namespace CameraPipeline

inductive Request where
  | create (kind : ChannelKind) (attr : ChannelAttr)
  | setAttr (h : Handle) (attr : ChannelAttr)
  | enable (h : Handle)
  | disable (h : Handle)
  | bind (l : Link)
  | unbind (l : Link)
  | startReceiving (h : Handle) (quota : Quota)
  | stopReceiving (h : Handle)
  | release (h : Handle) (slot : UInt32)
  | submit (h : Handle)
  | destroy (h : Handle)
  deriving DecidableEq, Repr

namespace Request

def operation : Request → Operation
  | create _ _ => .create
  | setAttr _ _ => .setAttr
  | enable _ => .enable
  | disable _ => .disable
  | bind _ => .bind
  | unbind _ => .unbind
  | startReceiving _ _ => .startReceiving
  | stopReceiving _ => .stopReceiving
  | release _ _ => .release
  | submit _ => .submit
  | destroy _ => .destroy

/-- The kind of channel that a request is about; of a link it is the target's. -/
def kind : Request → ChannelKind
  | create kind _ => kind
  | bind l | unbind l => l.target.kind
  | setAttr h _ | enable h | disable h | startReceiving h _ | stopReceiving h | release h _
  | submit h | destroy h => h.kind

/-- What reports of a failed request name: the kind of channel to be created, the link or the
channel. -/
def target : Request → String
  | create kind _ => kind.name
  | bind l | unbind l => l.text
  | setAttr h _ | enable h | disable h | startReceiving h _ | stopReceiving h | release h _
  | submit h | destroy h => h.text

/-- The record of the request, once it is carried out on channel `h`. -/
def call (h : Handle) : Request → Call
  | create _ _ => .create h
  | setAttr _ _ => .setAttr h
  | enable _ => .enable h
  | disable _ => .disable h
  | bind l => .bind l
  | unbind l => .unbind l
  | startReceiving _ quota => .startReceiving h quota
  | stopReceiving _ => .stopReceiving h
  | release _ _ => .release h
  | submit _ => .submit h
  | destroy _ => .destroy h

end Request

namespace Server

/-- The channel that the request is carried out on, or the rule that it breaks. -/
def permit (s : Server) : Request → Except Fault Handle
  | .create kind attr => do
    if maxPerKind ≤ (s.liveOfKind kind).length then throw (.exhausted kind)
    if let some base := attr.overlaid? then
      let _ ← s.channel base
    return ⟨kind, s.nextId kind⟩
  | .setAttr h _ | .enable h | .startReceiving h _ | .stopReceiving h => do
    let _ ← s.channel h
    return h
  | .disable h => do
    if s.isBound h then throw (.busy h)
    let _ ← s.channel h
    return h
  | .bind l => do
    let _ ← s.enabledChannel l.source
    let _ ← s.enabledChannel l.target
    if s.links.contains l then throw (.alreadyBound l)
    return l.target
  | .unbind l => do
    if !s.links.contains l then throw (.notBound l)
    return l.target
  | .release h slot => do
    let c ← s.channel h
    if !c.outstanding.contains slot then throw (.unknownUnit h slot)
    return h
  | .submit h => do
    let _ ← s.enabledChannel h
    return h
  | .destroy h => do
    let c ← s.channel h
    if c.enabled || c.receiving.isSome || !c.outstanding.isEmpty || s.isBound h ||
        s.hasOverlay h then
      throw (.busy h)
    return h

/-- The state after a permitted request on channel `h`. -/
def carryOut (s : Server) (h : Handle) : Request → Server
  | .create kind attr =>
    { s with
      nextId := fun k => if k = kind then s.nextId kind + 1 else s.nextId k
      channels := s.channels.insert h { attr } }
  | .setAttr _ attr => s.update h fun c => { c with attr }
  | .enable _ => s.update h fun c => { c with enabled := true }
  | .disable _ => s.update h fun c => { c with enabled := false }
  | .bind l => { s with links := s.links.insert l ⟨⟩ }
  | .unbind l => { s with links := s.links.erase l }
  | .startReceiving _ quota =>
    s.update h fun c => { c with receiving := some quota, produced := 0 }
  | .stopReceiving _ => s.update h fun c => { c with receiving := none }
  | .release _ slot => s.update h fun c => { c with outstanding := c.outstanding.erase slot }
  | .submit _ => s
  | .destroy _ => { s with channels := s.channels.erase h }

def perform (s : Server) (r : Request) : Except Fault Handle × Server :=
  let (hit, s) := s.strike r.operation r.kind
  if hit then (.error .injected, s)
  else
    match s.permit r with
    | .error fault => (.error fault, s)
    | .ok h => (.ok h, (s.carryOut h r).record (r.call h))

end Server
end CameraPipeline
