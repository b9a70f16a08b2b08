import CameraPipeline.Plant.Plant

/-!
Steps that can be undone. Every step taken through a stack leaves its inverse on it. Unwinding
first stops the pumps of the stack and then undoes the other steps, newest first, whatever fails
on the way; the first failure is its result.
-/

namespace CameraPipeline

inductive Undo where
  | request (r : Request)
  | pump (id : PumpId)
  deriving DecidableEq, Repr

structure Stack where
  steps : List Undo := []
  deriving DecidableEq, Repr

namespace Stack

def push (s : Stack) (u : Undo) : Stack := ⟨u :: s.steps⟩

def isEmpty (s : Stack) : Bool := s.steps.isEmpty

/-- The pumps of the stack, oldest first. -/
def pumps (s : Stack) : List PumpId :=
  s.steps.reverse.filterMap fun
    | .pump id => some id
    | .request _ => none

/-- The oldest pump of a stream. -/
def pumpOf? (s : Stack) (plant : Plant) (stream : Stream) : Option PumpId :=
  s.pumps.find? fun id => (plant.pump? id).any (·.stream == stream)

/-- Stops the pumps, oldest first. Pumps that do not drain stay among the steps. -/
def stopEach (plant : Plant) : List Undo → List PipelineError × List Undo × Plant
  | [] => ([], [], plant)
  | .request r :: older =>
    let (errors, kept, plant) := stopEach plant older
    (errors, .request r :: kept, plant)
  | .pump id :: older =>
    let (errors, kept, plant) := stopEach plant older
    match plant.stopPump id plant.drainMillis with
    | (.ok _, plant) => (errors, kept, plant)
    | (.error late, plant) => (errors ++ [.drain late], .pump id :: kept, plant)

def stopPumps (s : Stack) (plant : Plant) : List PipelineError × Stack × Plant :=
  let (errors, steps, plant) := stopEach plant s.steps
  (errors, ⟨steps⟩, plant)

/-- Undoes the steps in turn. A pump that is still there is given up. -/
def undoEach (plant : Plant) : List Undo → List PipelineError × Plant
  | [] => ([], plant)
  | .request r :: older =>
    match plant.ask r with
    | (.ok _, plant) => undoEach plant older
    | (.error fault, plant) =>
      let (errors, plant) := undoEach plant older
      (.capability r fault :: errors, plant)
  | .pump id :: older => undoEach (plant.dropPump id) older

/-- Undoes everything; the stack is spent. The errors are in the order in which they arose. -/
def unwind (s : Stack) (plant : Plant) : List PipelineError × Plant :=
  let (late, s, plant) := s.stopPumps plant
  let (failed, plant) := undoEach plant s.steps
  (late ++ failed, plant)

end Stack

/-- The first of the errors, if there is one, is the result. -/
def firstError (errors : List PipelineError) : Except PipelineError Unit :=
  match errors with
  | [] => .ok ()
  | e :: _ => .error e

/-- A stack under construction on a plant. -/
structure Site where
  stack : Stack := {}
  plant : Plant

namespace Site

/-- Undoes every step. The site is left with an empty stack. -/
def unwind (site : Site) : List PipelineError × Site :=
  let (errors, plant) := site.stack.unwind site.plant
  (errors, { plant })

/-- Undoes every step after a failure. The failure stays the result, whatever the undoing does. -/
def rollback (site : Site) (cause : PipelineError) : PipelineError × Site :=
  (cause, site.unwind.2)

/-- Gives the stack up; what is still on it is undone. -/
def drop (site : Site) : Site := if site.stack.isEmpty then site else site.unwind.2

end Site

/-- Construction steps. A failed step leaves what the steps before it did. -/
abbrev Construction := EStateM PipelineError Site

namespace Construction

/-- Asks the server and keeps the inverse of the request. -/
def ask (r : Request) (inverse : Handle → Request) : Construction Handle := fun site =>
  match site.plant.ask r with
  | (.ok h, plant) => .ok h ⟨site.stack.push (.request (inverse h)), plant⟩
  | (.error fault, plant) => .error (.capability r fault) { site with plant }

def create (kind : ChannelKind) (attr : ChannelAttr) : Construction Handle :=
  ask (.create kind attr) .destroy

def enable (h : Handle) : Construction Unit := do
  let _ ← ask (.enable h) .disable

/-- The usual first two steps of a stage. -/
def createEnabled (kind : ChannelKind) (attr : ChannelAttr) : Construction Handle := do
  let h ← create kind attr
  enable h
  return h

def bind (source target : Handle) : Construction Unit := do
  let _ ← ask (.bind ⟨source, target⟩) fun _ => .unbind ⟨source, target⟩

def startReceiving (h : Handle) (quota : Quota) : Construction Unit := do
  let _ ← ask (.startReceiving h quota) .stopReceiving

def start (pump : Pump) : Construction PumpId := fun site =>
  let (id, plant) := site.plant.addPump pump
  .ok id ⟨site.stack.push (.pump id), plant.settle id⟩

end Construction

/-- Takes the steps on an empty stack. If one fails, those before it are undone and its error is
the result. -/
def Plant.construct {α : Type} (p : Plant) (steps : Construction α) :
    Except PipelineError (α × Stack) × Plant :=
  match steps { plant := p } with
  | .ok a site => (.ok (a, site.stack), site.plant)
  | .error e site => (.error e, (site.stack.unwind site.plant).2)

end CameraPipeline
