import CameraPipeline.Channel.Attr

/-!
What can be asked of the media server, and the record it keeps of the calls it accepted.
-/

namespace CameraPipeline

inductive Operation where
  | create | setAttr | enable | disable | bind | unbind | startReceiving | stopReceiving
  | fetch | release | submit | destroy
  deriving DecidableEq, Repr

namespace Operation

def name : Operation → String
  | create => "create"
  | setAttr => "set_attr"
  | enable => "enable"
  | disable => "disable"
  | bind => "bind"
  | unbind => "unbind"
  | startReceiving => "start_receiving"
  | stopReceiving => "stop_receiving"
  | fetch => "fetch"
  | release => "release"
  | submit => "submit"
  | destroy => "destroy"

def all : List Operation :=
  [create, setAttr, enable, disable, bind, unbind, startReceiving, stopReceiving, fetch, release,
    submit, destroy]

end Operation

/-- An accepted call. Of fetches every attempt counts as accepted. -/
inductive Call where
  | create (h : Handle)
  | setAttr (h : Handle)
  | enable (h : Handle)
  | disable (h : Handle)
  | bind (l : Link)
  | unbind (l : Link)
  | startReceiving (h : Handle) (quota : Quota)
  | stopReceiving (h : Handle)
  | fetch (h : Handle)
  | release (h : Handle)
  | submit (h : Handle)
  | destroy (h : Handle)
  deriving DecidableEq, Repr

namespace Call

def operation : Call → Operation
  | create _ => .create
  | setAttr _ => .setAttr
  | enable _ => .enable
  | disable _ => .disable
  | bind _ => .bind
  | unbind _ => .unbind
  | startReceiving _ _ => .startReceiving
  | stopReceiving _ => .stopReceiving
  | fetch _ => .fetch
  | release _ => .release
  | submit _ => .submit
  | destroy _ => .destroy

def target : Call → String
  | bind l | unbind l => l.text
  | create h | setAttr h | enable h | disable h | startReceiving h _ | stopReceiving h | fetch h
  | release h | submit h | destroy h => h.text

def text (c : Call) : String :=
  let base := c.operation.name ++ " " ++ c.target
  match c with
  | startReceiving _ quota => base ++ " " ++ quota.text
  | _ => base

/-- Does the call name `h`, on either side of a link? -/
def involves (c : Call) (h : Handle) : Bool :=
  match c with
  | bind l | unbind l => l.touches h
  | create h' | setAttr h' | enable h' | disable h' | startReceiving h' _ | stopReceiving h'
  | fetch h' | release h' | submit h' | destroy h' => h' == h

/-- Control calls are all but the traffic of units. -/
def isControl : Call → Bool
  | fetch _ | release _ => false
  | _ => true

end Call
end CameraPipeline
