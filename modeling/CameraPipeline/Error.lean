import CameraPipeline.Media.Selection
import CameraPipeline.Playback.Track
import CameraPipeline.Server.Request
import CameraPipeline.Worker

/-!
Everything that a command or a session control may report, with its wording.
-/

namespace CameraPipeline

/-- Why a clip could not be opened, read or positioned. -/
inductive DemuxFault where
  | cannotOpen (path : String)
  | noTracks
  | noTrack (track : Track)
  | corruptPacket (index : Nat)
  | seek (positionMs : Nat)
  deriving DecidableEq, Repr

def DemuxFault.name : DemuxFault → String
  | cannotOpen _ => "Open"
  | noTracks | noTrack _ => "NoTrack"
  | corruptPacket _ => "Read"
  | seek _ => "Seek"

def DemuxFault.message : DemuxFault → String
  | cannotOpen path => s!"cannot open '{path}'"
  | noTracks => "no audio or video track in file"
  | noTrack track => s!"no {track.name} track in file"
  | corruptPacket index => "read failed: corrupt video packet " ++ Text.ofNat index
  | seek positionMs => "seek to " ++ Text.ofNat positionMs ++ " ms failed"

inductive PlaybackFault where
  | noFile
  | invalidTransition (track : Track) (status : TrackStatus) (event : TrackEvent)
  | demux (fault : DemuxFault)
  | destroyed
  deriving DecidableEq, Repr

def PlaybackFault.name : PlaybackFault → String
  | noFile => "NoFile"
  | invalidTransition _ _ _ => "InvalidTransition"
  | demux fault => "Demux." ++ fault.name
  | destroyed => "Destroyed"

def PlaybackFault.message : PlaybackFault → String
  | noFile => "no file is loaded"
  | invalidTransition track status event =>
    s!"{track.name} track cannot go from {status.name} on {event.name}"
  | demux fault => fault.message
  | destroyed => "session has been destroyed"

inductive Session where
  | recording | photoCapture
  deriving DecidableEq, Repr

def Session.name : Session → String
  | recording => "recording"
  | photoCapture => "photo capture"

/-- Why a command does not fit the present state. -/
inductive InvalidState where
  | notBuilt
  | notPhotoMode (mode : Mode)
  | noPhotos
  | photoRunning
  | other (text : String)
  deriving DecidableEq, Repr

def InvalidState.message : InvalidState → String
  | notBuilt => "pipeline is not built"
  | notPhotoMode mode => s!"photo capture needs photo mode, pipeline is in {mode.name} mode"
  | noPhotos => "photo count must be at least 1"
  | photoRunning => "photo capture already running"
  | other text => text

inductive PipelineError where
  | config (e : ConfigError)
  | capability (request : Request) (fault : Fault)
  | timeout (h : Handle)
  | drain (d : DrainTimeout)
  /-- The system has not started the thread of a worker. -/
  | spawn (name reason : String)
  | invalidState (why : InvalidState)
  | sessionConflict (requested active : Session)
  | photoInProgress (remaining : Nat)
  | serviceClosed
  | playback (fault : PlaybackFault)
  deriving DecidableEq, Repr

namespace PipelineError

/-- A word for each cause; where a part of the system is to blame, its own word follows. -/
def name : PipelineError → String
  | config e => "Config." ++ e.name
  | capability _ fault => "Capability." ++ fault.name
  | timeout _ => "Timeout"
  | drain _ => "Drain"
  | spawn _ _ => "Spawn"
  | invalidState _ => "InvalidState"
  | sessionConflict _ _ => "SessionConflict"
  | photoInProgress _ => "PhotoInProgress"
  | serviceClosed => "ServiceClosed"
  | playback fault => "Playback." ++ fault.name

def message : PipelineError → String
  | config e => s!"configuration error: {e.message}"
  | capability request fault =>
    s!"{request.operation.name} on {request.target} failed: {fault.message}"
  | timeout h => s!"fetch on {h.text} timed out"
  | drain d => d.message
  | spawn name reason => s!"failed to spawn worker '{name}': {reason}"
  | invalidState why => s!"invalid state: {why.message}"
  | sessionConflict requested active =>
    s!"cannot start {requested.name} while {active.name} is active"
  | photoInProgress remaining =>
    "photo capture still in progress (" ++ Text.ofNat remaining ++ " remaining)"
  | serviceClosed => "orchestrator control thread is gone"
  | playback fault => s!"playback: {fault.message}"

/-- Does the error promise that no channel was touched? -/
def isPreMutation : PipelineError → Bool
  | config _ | invalidState _ | sessionConflict _ _ | photoInProgress _ => true
  | capability _ _ | timeout _ | drain _ | spawn _ _ | serviceClosed | playback _ => false

end PipelineError
end CameraPipeline
