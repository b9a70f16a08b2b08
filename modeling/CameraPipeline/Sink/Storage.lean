import CameraPipeline.Pump.Stream
import CameraPipeline.Server.MediaUnit

/-!
The storage directory. A stream is appended to a file of its own, from its first key frame on;
a photo goes to a file of its own, named by its sequence number.

Each write is told whether the system grants that its file be opened. A file that stands open is
written without asking again.
-/

namespace CameraPipeline

inductive StorageEntry where
  | file (bytes : List UInt8)
  | directory
  deriving DecidableEq, Repr

/-- A directory and the streams whose files stand open. -/
structure Storage where
  entries : Table String StorageEntry := .empty
  opened : List Stream := []

namespace Storage

def streamFile (stream : Stream) : String := stream.name ++ ".bin"

def photoFile (sequence : Nat) : String :=
  "photo_" ++ Text.padLeft 4 '0' (Text.ofNat sequence) ++ ".jpg"

/-- Opens `name` for writing at its end: its present bytes, `none` if that is not granted or it is
a directory. -/
def open? (s : Storage) (name : String) (granted : Bool := true) : Option (List UInt8) :=
  if granted then
    match s.entries.get? name with
    | some .directory => none
    | some (.file bytes) => some bytes
    | none => some []
  else none

def write (s : Storage) (name : String) (bytes : List UInt8) : Storage :=
  { s with entries := s.entries.insert name (.file bytes) }

/-- Stores a photo in place of any former file of its name. -/
def storePhoto (s : Storage) (u : MediaUnit) (granted : Bool := true) : Option Storage :=
  (s.open? (photoFile u.sequence) granted).map fun _ => s.write (photoFile u.sequence) u.payload

/-- Appends a unit of a stream. Before the stream's file is open, units that are no key frame are
skipped. -/
def append (s : Storage) (stream : Stream) (u : MediaUnit) (granted : Bool := true) :
    Option Storage :=
  if stream ∈ s.opened || u.isKey then
    (s.open? (streamFile stream) (stream ∈ s.opened || granted)).map fun bytes =>
      { s.write (streamFile stream) (bytes ++ u.payload) with opened := s.opened.insert stream }
  else some s

/-- Takes a unit; `none` if its file cannot be opened. -/
def accept (s : Storage) (stream : Stream) (u : MediaUnit) (granted : Bool := true) :
    Option Storage :=
  if stream = .photo then s.storePhoto u granted else s.append stream u granted

/-- Makes a directory called `name`, unless a file is in the way. -/
def makeDirectory (s : Storage) (name : String) : Bool × Storage :=
  match s.entries.get? name with
  | some (.file _) => (false, s)
  | _ => (true, { s with entries := s.entries.insert name .directory })

end Storage
end CameraPipeline
