import CameraPipeline.Server.Call

/-!
Why the media server refuses a call.
-/

namespace CameraPipeline

inductive Fault where
  | notFound (h : Handle)
  | busy (h : Handle)
  | notBound (l : Link)
  | alreadyBound (l : Link)
  | notEnabled (h : Handle)
  | exhausted (kind : ChannelKind)
  | unknownUnit (h : Handle) (slot : UInt32)
  | rejected (status : UInt32)
  | injected
  deriving DecidableEq, Repr

namespace Fault

def name : Fault → String
  | notFound _ => "NotFound"
  | busy _ => "Busy"
  | notBound _ => "NotBound"
  | alreadyBound _ => "AlreadyBound"
  | notEnabled _ => "NotEnabled"
  | exhausted _ => "Exhausted"
  | unknownUnit _ _ => "UnknownUnit"
  | rejected _ => "Rejected"
  | injected => "Injected"

def message : Fault → String
  | notFound h => s!"channel {h.text} does not exist"
  | busy h => s!"channel {h.text} is busy (still bound or receiving)"
  | notBound l => s!"{l.text} is not bound"
  | alreadyBound l => s!"{l.text} is already bound"
  | notEnabled h => s!"channel {h.text} is not enabled"
  | exhausted kind => s!"no free {kind.name} channel"
  | unknownUnit h slot =>
    "unit from slot " ++ Text.ofNat slot.toNat ++ " is not outstanding on " ++ h.text
  | rejected status =>
    "media server rejected the call (status 0x" ++ Text.hex status.toNat ++ ")"
  | injected => "injected failure"

/-- The meaning of a status word of the server for a call on `h`; zero is success. -/
def ofStatus (status : UInt32) (h : Handle) : Option Fault :=
  if status = 0 then none
  else if status = 0xa0028005 then some (notFound h)
  else if status = 0xa0028012 then some (busy h)
  else if status = 0xa0028009 then some (notEnabled h)
  else if status = 0xa002800e then some (exhausted h.kind)
  else some (rejected status)

end Fault
end CameraPipeline
