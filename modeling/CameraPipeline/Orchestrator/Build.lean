import CameraPipeline.Plant.Stack

/-!
Building a pipeline. The input comes first, then the display, the record encoder, the network
encoder with its pump, the still encoder, and the pump of the raw frames. A recording lets the
record encoder receive, starts its pump, and links it to the input, through the warp stage where
there is one.
-/

namespace CameraPipeline

abbrev PumpMaker := Stream → Handle → Option UInt32 → Pump

structure RecordSession where
  stack : Stack
  pump : PumpId
  deriving DecidableEq, Repr

structure PhotoSession where
  stack : Stack
  pump : PumpId
  max : UInt32
  deriving DecidableEq, Repr

/-- The channels that later commands refer to. -/
structure BaseHandles where
  vi : Handle
  main : Option Handle
  jpeg : Option Handle
  deriving DecidableEq, Repr

structure Built where
  attr : PipelineAttr
  base : Stack
  handles : BaseHandles
  record : Option RecordSession := none
  photo : Option PhotoSession := none
  deriving DecidableEq, Repr

namespace Build

def optional {α β : Type} (part : Option α) (steps : α → Construction β) :
    Construction (Option β) :=
  match part with
  | none => pure none
  | some attr => some <$> steps attr

/-- Input, scaler, output; answers the scaler. -/
def display (vi : Handle) (attr : DisplayAttr) : Construction Handle := do
  let vpss ← Construction.createEnabled .vpss (.vpss attr.vpss)
  Construction.bind vi vpss
  let vo ← Construction.createEnabled .vo (.vo attr.vo)
  Construction.bind vpss vo
  return vpss

/-- The network encoder, already receiving and pumped when it is linked to `source`. -/
def subStream (make : PumpMaker) (source : Handle) (attr : VencAttr) : Construction Unit := do
  let sub ← Construction.createEnabled .venc (.venc attr)
  Construction.startReceiving sub .unlimited
  let _ ← Construction.start (make .sub sub none)
  Construction.bind source sub

/-- Everything but the sessions. -/
def base (make : PumpMaker) (attr : PipelineAttr) : Construction BaseHandles := do
  let vi ← Construction.createEnabled .vi (.vi attr.vi)
  let vpss ← optional attr.display (display vi)
  let main ← optional attr.main fun a => Construction.createEnabled .venc (.venc a)
  let _ ← optional attr.sub (subStream make (vpss.getD vi))
  let jpeg ← optional attr.photo fun a => Construction.createEnabled .jpeg (.jpeg a)
  if attr.rawTap then
    let _ ← Construction.start (make .rawTap vi none)
  return { vi, main, jpeg }

/-- Input, warp stage if any, record encoder. -/
def linkRecord (vi venc : Handle) (gdc : Option Handle) : Construction Unit :=
  match gdc with
  | some gdc => do
    Construction.bind vi gdc
    Construction.bind gdc venc
  | none => Construction.bind vi venc

def record (make : PumpMaker) (attr : PipelineAttr) (vi venc : Handle) :
    Construction PumpId := do
  Construction.startReceiving venc .unlimited
  let pump ← Construction.start (make .main venc none)
  let gdc ← optional attr.gdc fun a => Construction.createEnabled .gdc (.gdc a)
  let _ ← optional attr.osd fun geometry =>
    Construction.create .rgn (.rgn ⟨venc, geometry⟩)
  linkRecord vi venc gdc
  return pump

def photo (make : PumpMaker) (vi jpeg : Handle) (max : UInt32) : Construction PumpId := do
  Construction.startReceiving jpeg (.count max)
  let pump ← Construction.start (make .photo jpeg (some max))
  Construction.bind vi jpeg
  return pump

end Build

namespace Plant

def openRecord (p : Plant) (make : PumpMaker) (attr : PipelineAttr) (vi venc : Handle) :
    Except PipelineError RecordSession × Plant :=
  match p.construct (Build.record make attr vi venc) with
  | (.ok (pump, stack), p) => (.ok ⟨stack, pump⟩, p)
  | (.error e, p) => (.error e, p)

def openPhoto (p : Plant) (make : PumpMaker) (vi jpeg : Handle) (max : UInt32) :
    Except PipelineError PhotoSession × Plant :=
  match p.construct (Build.photo make vi jpeg max) with
  | (.ok (pump, stack), p) => (.ok ⟨stack, pump, max⟩, p)
  | (.error e, p) => (.error e, p)

/-- Builds a pipeline, with the recording that its attributes may ask for. If the recording fails
the rest is undone too. -/
def build (p : Plant) (make : PumpMaker) (attr : PipelineAttr) :
    Except PipelineError Built × Plant :=
  match p.construct (Build.base make attr) with
  | (.error e, p) => (.error e, p)
  | (.ok (handles, base), p) =>
    match handles.main, attr.recordOnInit with
    | some venc, true =>
      match p.openRecord make attr handles.vi venc with
      | (.ok session, p) => (.ok { attr, base, handles, record := some session }, p)
      | (.error e, p) => (.error e, (base.unwind p).2)
    | _, _ => (.ok { attr, base, handles }, p)

end Plant

def unwindSession (stack : Option Stack) (p : Plant) : List PipelineError × Plant :=
  match stack with
  | some stack => stack.unwind p
  | none => ([], p)

/-- Tears a pipeline down: the photo session, the recording, then the rest. Nothing is skipped;
the errors are in the order in which they arose. -/
def Built.tearDown (b : Built) (p : Plant) : List PipelineError × Plant :=
  let (photo, p) := unwindSession (b.photo.map (·.stack)) p
  let (record, p) := unwindSession (b.record.map (·.stack)) p
  let (base, p) := b.base.unwind p
  (photo ++ record ++ base, p)

end CameraPipeline
