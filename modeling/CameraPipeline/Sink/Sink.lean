import CameraPipeline.Sink.Storage

/-!
The consumers of units: queues, the storage directory, consumers that refuse everything, and
gates, which keep a unit while they are held.
-/

namespace CameraPipeline

inductive SinkFault where
  | full (name : String)
  | disconnected (name : String)
  | io
  deriving DecidableEq, Repr

def SinkFault.name : SinkFault → String
  | full _ => "Full"
  | disconnected _ => "Disconnected"
  | io => "Io"

/-- The wording of a fault; what an operating system reports has none of its own. -/
def SinkFault.message? : SinkFault → Option String
  | full name => some s!"sink '{name}' is full, unit dropped"
  | disconnected name => some s!"sink '{name}' is disconnected"
  | io => none

/-- What a queue passes on of a unit. -/
structure Frame where
  stream : Stream
  ptsMicros : Nat
  sequence : Nat
  isKey : Bool
  payload : List UInt8
  deriving DecidableEq, Repr

def Frame.ofUnit (stream : Stream) (u : MediaUnit) : Frame :=
  ⟨stream, u.ptsMicros, u.sequence, u.isKey, u.payload⟩

/-- A bounded queue; `frames` is `none` once nobody reads it any more. -/
structure FrameQueue where
  name : String
  depth : Nat
  frames : Option (List Frame) := some []
  deriving DecidableEq, Repr

def FrameQueue.accept (q : FrameQueue) (f : Frame) : Except SinkFault FrameQueue :=
  match q.frames with
  | none => .error (.disconnected q.name)
  | some frames =>
    if frames.length < q.depth then .ok { q with frames := some (frames ++ [f]) }
    else .error (.full q.name)

inductive Refusal where
  | full | disconnected | io
  deriving DecidableEq, Repr

inductive Sink where
  | queue (q : FrameQueue)
  | storage (s : Storage)
  | refusing (why : Refusal)
  | gate

namespace Sink

def name : Sink → String
  | queue q => q.name
  | storage _ => "storage"
  | refusing _ => "refuse"
  | gate => "hold"

/-- Offers a unit to the sink, which may open files if that is granted. A gate that is not held takes
everything. -/
def accept (s : Sink) (stream : Stream) (u : MediaUnit) (granted : Bool := true) :
    Except SinkFault Sink :=
  match s with
  | queue q => queue <$> q.accept (.ofUnit stream u)
  | storage d =>
    match d.accept stream u granted with
    | some d => .ok (storage d)
    | none => .error .io
  | refusing .full => .error (.full "refuse")
  | refusing .disconnected => .error (.disconnected "refuse")
  | refusing .io => .error .io
  | gate => .ok gate

/-- Takes out what a queue holds; `none` if the sink is no queue or its reader is gone. -/
def drain : Sink → Option (List Frame) × Sink
  | queue q => (q.frames, queue { q with frames := q.frames.map fun _ => [] })
  | s => (none, s)

/-- Takes the reader of a queue away; was there one? -/
def dropReader : Sink → Bool × Sink
  | queue q => (q.frames.isSome, queue { q with frames := none })
  | s => (false, s)

end Sink
end CameraPipeline
