import CameraPipeline.Orchestrator.State

/-!
The commands of the orchestrator. A command answers whether it changed anything. Every change of
mode is a full teardown and rebuild; new settings are checked before anything is torn down.
-/

namespace CameraPipeline

/-- A step of a command. A failed step leaves what was done before it. -/
abbrev CommandAction := EStateM PipelineError Orchestrator

namespace CommandAction

/-- Turns the failure of `a` into a value. -/
def attempt {α : Type} (a : CommandAction α) : CommandAction (Except PipelineError α) := fun o =>
  match a o with
  | .ok v o => .ok (.ok v) o
  | .error e o => .ok (.error e) o

instance : MonadLift (Except ConfigError) CommandAction where
  monadLift r := ofExcept (r.mapError .config)

def onPlant {α : Type} (f : Plant → α × Plant) : CommandAction α := fun o =>
  let (v, plant) := f o.plant
  .ok v { o with plant }

def setBuilt (built : Option Built) : CommandAction Unit := modify fun o => { o with built }

def setParam (key value : String) : CommandAction Unit :=
  modify fun o => { o with params := o.params.insert key value }

end CommandAction

open CommandAction

namespace Orchestrator

def plan (o : Orchestrator) : Except ConfigError PipelineAttr :=
  PipelineAttr.plan o.params o.buffers

def init : CommandAction Bool := do
  let o ← get
  if o.isBuilt then return false
  let attr ← o.plan
  set { o with params := attr.selection.writeBack o.params }
  let built ← ofExcept (← onPlant (·.build o.makePump attr))
  setBuilt (some built)
  return true

/-- Tears everything down, whatever fails on the way. -/
def deinit : CommandAction Bool := do
  match (← get).built with
  | none => return false
  | some built =>
    setBuilt none
    let errors ← onPlant built.tearDown
    ofExcept (firstError errors)
    return true

def restart : CommandAction Bool := do
  let torn ← attempt deinit
  let _ ← init
  let _ ← ofExcept torn
  return true

/-- Stores `value` under `key` and rebuilds a pipeline that stands. If no pipeline can be planned
from the store then, it gets back what stood under the key, and the value is refused. -/
def reconfigure (key value : String) : CommandAction Bool := do
  let previous := (← get).params.get? key
  setParam key value
  if let .error e := (← get).plan then
    modify fun o => { o with params := Params.restore o.params key previous }
    throw (.config e)
  if (← get).isBuilt then
    let torn ← attempt deinit
    let rebuilt ← attempt init
    let _ ← ofExcept torn
    let _ ← ofExcept rebuilt
  return true

def setChoice {α : Type} [DecidableEq α] [FromText α] [ToText α] (key : String)
    (default value : α) : CommandAction Bool := do
  if (← (← get).params.getOr key default) = value then return false
  reconfigure key (ToText.write value)

def setSwitch (key : String) (on : Bool) : CommandAction Bool := do
  if (← (← get).params.getSwitch key false) = on then return false
  reconfigure key (Params.switchText on)

/-- Changes the input where it stands, without a rebuild. -/
def setSmartAe (on : Bool) : CommandAction Bool := do
  let o ← get
  if (← o.params.getSwitch PipelineAttr.smartAeKey false) = on then return false
  if let some built := o.built then
    let vi := { built.attr.vi with smartAe := on }
    let request := Request.setAttr built.handles.vi (.vi vi)
    match ← onPlant (·.ask request) with
    | .error fault => throw (.capability request fault)
    | .ok _ => setBuilt (some { built with attr := { built.attr with vi } })
  setParam PipelineAttr.smartAeKey (Params.switchText on)
  return true

def setDebug (on : Bool) : CommandAction Bool := do
  let o ← get
  set { o with verbose := on }
  return o.verbose != on

/-- Starts recording. Without a record encoder there is nothing to start. -/
def startRecord : CommandAction Bool := do
  let o ← get
  let some built := o.built | throw (.invalidState .notBuilt)
  if built.photo.isSome then throw (.sessionConflict .recording .photoCapture)
  let some venc := built.handles.main | return false
  if built.record.isSome then return false
  let session ←
    ofExcept (← onPlant (·.openRecord o.makePump built.attr built.handles.vi venc))
  setBuilt (some { built with record := some session })
  setParam PipelineAttr.enableRecordKey "1"
  return true

/-- Stops recording. If the pump does not drain, the session stays and can be stopped later. -/
def stopRecord : CommandAction Bool := do
  let some built := (← get).built | return false
  let some session := built.record | return false
  let (late, stack) ← onPlant fun p =>
    let (late, stack, p) := session.stack.stopPumps p
    ((late, stack), p)
  setBuilt (some { built with record := some { session with stack } })
  ofExcept (firstError late)
  setBuilt (some { built with record := none })
  let errors ← onPlant stack.unwind
  setParam PipelineAttr.enableRecordKey "0"
  ofExcept (firstError errors)
  return true

def closePhoto (built : Built) (session : PhotoSession) : CommandAction Unit := do
  setBuilt (some { built with photo := none })
  ofExcept (firstError (← onPlant session.stack.unwind))

/-- Starts a capture of `count` photos, in place of one that has ended. -/
def startPhoto (count : UInt32) : CommandAction Bool := do
  let o ← get
  let some built := o.built | throw (.invalidState .notBuilt)
  if built.record.isSome then throw (.sessionConflict .photoCapture .recording)
  let some jpeg := built.handles.jpeg
    | throw (.invalidState (.notPhotoMode built.attr.selection.mode))
  if count = 0 then throw (.invalidState .noPhotos)
  if let some previous := built.photo then
    if !(← onPlant previous.isDrained) then throw (.invalidState .photoRunning)
    closePhoto built previous
  let session ← ofExcept (← onPlant (·.openPhoto o.makePump built.handles.vi jpeg count))
  setBuilt (some { built with photo := some session })
  return true

/-- Ends the photo session, once all its photos are taken. -/
def stopPhoto : CommandAction Bool := do
  let o ← get
  let some built := o.built | return false
  let some session := built.photo | return false
  if !(← onPlant session.isDrained) then
    throw (.photoInProgress (session.progress o.plant).remaining)
  closePhoto built session
  return true

def run : Command → CommandAction Bool
  | .init => init
  | .deinit => deinit
  | .restart => restart
  | .setMode mode => setChoice Selection.modeKey .video mode
  | .setEis eis => setChoice Selection.eisKey .off eis
  | .setHdr hdr => setChoice Selection.hdrKey .linear hdr
  | .setMemc on => setSwitch PipelineAttr.enableMemcKey on
  | .setSmartAe on => setSmartAe on
  | .setRtsp on => setSwitch PipelineAttr.enableRtspKey on
  | .setDebug on => setDebug on
  | .startRecord => startRecord
  | .stopRecord => stopRecord
  | .startPhoto count => startPhoto count
  | .stopPhoto => stopPhoto
  | .enterSleep => deinit

/-- Carries out a command: whether it changed anything, and the state it leaves. -/
def handle (o : Orchestrator) (c : Command) : Except PipelineError Bool × Orchestrator :=
  match run c o with
  | .ok changed o => (.ok changed, o)
  | .error e o => (.error e, o)

/-- Gives the orchestrator up: the pipeline is torn down, and errors are lost. -/
def drop (o : Orchestrator) : Orchestrator := (o.handle .deinit).2

end Orchestrator
end CameraPipeline
