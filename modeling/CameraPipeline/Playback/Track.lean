/-!
The two tracks of a clip and the states that a track goes through.
-/

namespace CameraPipeline

inductive Track where
  | video | audio
  deriving DecidableEq, Repr

namespace Track

def name : Track → String
  | video => "video"
  | audio => "audio"

def all : List Track := [video, audio]

def other : Track → Track
  | video => audio
  | audio => video

end Track

inductive TrackStatus where
  | uninitialized | pause | running
  deriving DecidableEq, Repr

/-- What happens to a track; `stop` pauses and rewinds, `error` is a failed read. -/
inductive TrackEvent where
  | setFile | play | pause | stop | eof | error | remove
  deriving DecidableEq, Repr

def TrackEvent.name : TrackEvent → String
  | setFile => "SetFile"
  | play => "Play"
  | pause => "Pause"
  | stop => "Stop"
  | eof => "Eof"
  | error => "Error"
  | remove => "Remove"

def TrackEvent.all : List TrackEvent := [setFile, play, pause, stop, eof, error, remove]

namespace TrackStatus

def name : TrackStatus → String
  | uninitialized => "Uninitialized"
  | pause => "Pause"
  | running => "Running"

def all : List TrackStatus := [uninitialized, pause, running]

/-- The status after an event, `none` where the event is illegal. -/
def next : TrackStatus → TrackEvent → Option TrackStatus
  | uninitialized, .setFile => some pause
  | pause, .play | running, .play => some running
  | pause, .pause | running, .pause | pause, .stop | running, .stop => some pause
  | running, .eof | running, .error => some pause
  | _, .remove => some uninitialized
  | _, _ => none

/-- The statuses after each event of a list, an illegal event keeping the status. -/
def run (s : TrackStatus) : List TrackEvent → List (Option TrackStatus) × TrackStatus
  | [] => ([], s)
  | e :: rest =>
    let (answers, last) := run ((s.next e).getD s) rest
    (s.next e :: answers, last)

end TrackStatus
end CameraPipeline
