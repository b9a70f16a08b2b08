import CameraPipeline.Orchestrator.Build

/-!
The orchestrator owns the pipeline. It alone creates, links and destroys channels; parameters are
read from the store anew for every build.
-/

namespace CameraPipeline

inductive Command where
  | init
  | deinit
  | restart
  | setMode (mode : Mode)
  | setEis (eis : EisMode)
  | setHdr (hdr : HdrMode)
  | setMemc (on : Bool)
  | setSmartAe (on : Bool)
  | setRtsp (on : Bool)
  | setDebug (on : Bool)
  | startRecord
  | stopRecord
  | startPhoto (count : UInt32)
  | stopPhoto
  | enterSleep
  deriving DecidableEq, Repr

structure Orchestrator where
  plant : Plant
  params : Params
  tuning : PumpTuning := {}
  buffers : Buffers := {}
  /-- The sinks of pumps started from now on, in the order of their registration. -/
  feeds : List (Stream × SinkId) := []
  /-- Pumps log every unit. -/
  verbose : Bool := false
  built : Option Built := none

inductive PipelineState where
  | uninitialized
  | built (recording photo : Bool)
  deriving DecidableEq, Repr

structure PhotoProgress where
  taken : Nat
  max : Nat
  deriving DecidableEq, Repr

namespace PhotoProgress

def isFinished (p : PhotoProgress) : Bool := p.max ≤ p.taken

def remaining (p : PhotoProgress) : Nat := p.max - p.taken

end PhotoProgress

structure RecordStatus where
  active : Bool := false
  firstPts : Option Nat := none
  units : Nat := 0
  deriving DecidableEq, Repr

structure StatusReport where
  state : PipelineState
  record : RecordStatus
  photo : Option PhotoProgress
  deriving DecidableEq, Repr

/-- The units that a session's pump has taken, as a 32-bit count. -/
def PhotoSession.progress (s : PhotoSession) (p : Plant) : PhotoProgress :=
  let units := (p.pump? s.pump).elim 0 (·.stats.units)
  ⟨min units (UInt32.size - 1), s.max.toNat⟩

/-- Has the photo pump ended, so that its count is final? -/
def PhotoSession.isDrained (s : PhotoSession) (p : Plant) : Bool × Plant :=
  match s.stack.pumpOf? p .photo with
  | some id => p.waitPump id
  | none => (true, p)

namespace Orchestrator

def sinksOf (o : Orchestrator) (stream : Stream) : List SinkId :=
  o.feeds.filterMap fun (s, id) => if s = stream then some id else none

/-- Makes a pump that feeds the sinks registered for its stream. -/
def makePump (o : Orchestrator) : PumpMaker := fun stream source limit =>
  .ofTuning o.tuning stream source (o.sinksOf stream) limit

def isBuilt (o : Orchestrator) : Bool := o.built.isSome

def recordSession? (o : Orchestrator) : Option RecordSession := o.built.bind (·.record)

def photoSession? (o : Orchestrator) : Option PhotoSession := o.built.bind (·.photo)

def isRecording (o : Orchestrator) : Bool := o.recordSession?.isSome

def state (o : Orchestrator) : PipelineState :=
  match o.built with
  | none => .uninitialized
  | some b => .built b.record.isSome b.photo.isSome

def attr (o : Orchestrator) : Option PipelineAttr := o.built.map (·.attr)

def mode (o : Orchestrator) : Except ParamFault Mode :=
  o.params.getOr Selection.modeKey .video

def recordStatus (o : Orchestrator) : RecordStatus :=
  match o.recordSession? with
  | none => {}
  | some session =>
    let stats := (o.plant.pump? session.pump).elim {} (·.stats)
    { active := true, firstPts := stats.firstPts, units := stats.units }

def photoProgress (o : Orchestrator) : Option PhotoProgress :=
  o.photoSession?.map (·.progress o.plant)

def status (o : Orchestrator) : StatusReport := ⟨o.state, o.recordStatus, o.photoProgress⟩

/-- Waits for the photo pump to end by itself; without a session there is nothing to wait for. -/
def waitPhoto (o : Orchestrator) : Bool × Orchestrator :=
  match o.photoSession? with
  | none => (true, o)
  | some session =>
    let (ended, plant) := session.isDrained o.plant
    (ended, { o with plant })

end Orchestrator
end CameraPipeline
