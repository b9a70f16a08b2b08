import CameraPipeline.Orchestrator.Service
import CameraPipeline.Plant.Iteration
import CameraPipeline.Playback.Control

/-!
The whole program: an orchestrator behind its service and, if asked for, a player of a synthetic
clip, on one media server. The program goes on in rounds; in each, every pump runs once and every
track submits one packet.
-/

namespace CameraPipeline

structure Host where
  service : Service
  player : Option Player := none
  storage : Option SinkId := none

namespace Host

/-- Ten seconds of picture and sound. -/
def syntheticClip : Clip :=
  (({} : Clip).withVideo .h264 ⟨1280, 720⟩ 30 10000).withAudio .aac 48000 2 20 10000

def plant (h : Host) : Plant := h.service.orchestrator.plant

def setPlant (h : Host) (plant : Plant) : Host :=
  { h with service := { h.service with orchestrator := { h.service.orchestrator with plant } } }

/-- Lets the player act on the server that it shares with the orchestrator. -/
def withPlayer (h : Host) (f : Player → Player) : Host :=
  match h.player with
  | none => h
  | some player =>
    let player := f { player with plant := { player.plant with server := h.plant.server } }
    { h with player := some player }.setPlant { h.plant with server := player.plant.server }

def command (h : Host) (c : Command) : Except PipelineError Host :=
  match h.service.call (.command c) with
  | (.ok (.outcome (.error e)), _) | (.error e, _) => .error e
  | (_, service) => .ok { h with service }

def startPlayer (h : Host) (config : Config) (path : String) : Except PipelineError Host := do
  let player : Player := {
    plant := { server := h.plant.server, drainMillis := config.playback.drainTimeoutMs }
    library := ({} : ClipLibrary).register path syntheticClip
    queueDepth := config.playback.eventQueueDepth }
  let (answer, player) := player.control do
    Player.setFile path
    Player.play
  let _ ← answer
  return ({ h with player := some player }).withPlayer fun p => (p.settle .video).settle .audio

def start (config : Config) (params : Params) (isRecording : Bool) (play : Option String) :
    Except PipelineError Host := do
  let plant : Plant := {
    server := { payloadSize := 512 }, drainMillis := config.pump.drainTimeoutMs }
  let (storage, plant) := if isRecording then
      let (id, plant) := plant.addSink (.storage {})
      (some id, plant)
    else (none, plant)
  let orchestrator : Orchestrator := {
    plant, params, tuning := config.pump, buffers := config.buffers
    feeds := storage.toList.flatMap fun id => [(.main, id), (.photo, id)] }
  let host ← ({ service := { orchestrator }, storage } : Host).command .init
  match play with
  | none => return host
  | some path => host.startPlayer config path

/-- One step of the player: a packet of each track, and a new start at the end of the clip. -/
def playOn (p : Player) : Player :=
  let p := (p.letThrough .video 1).2
  let (events, p) := (p.letThrough .audio 1).2.drainEvents
  if .eof ∈ events then ((p.control Player.play).2.settle .video).settle .audio else p

/-- A round of the pumps and of the player. -/
def round (h : Host) : Host :=
  let ids := List.range h.plant.pumps.length
  (h.setPlant (ids.foldl (fun plant id => (plant.iterate id).2) h.plant)).withPlayer playOn

def statusLine (h : Host) : String :=
  match (h.service.call .status).1 with
  | .ok (.status r) =>
    let state := match r.state with
      | .uninitialized => "uninitialized"
      | .built true _ => "recording"
      | .built false true => "photo capture"
      | .built false false => "idle"
    "state " ++ state ++ ", " ++ Text.ofNat r.record.units ++ " units recorded"
  | .ok (.outcome _) => "no status"
  | .error e => e.message

def finish (h : Host) : Except PipelineError Bool × Host :=
  let h := h.withPlayer Player.drop
  match h.service.call .shutdown with
  | (.ok (.outcome r), service) => (r, { h with service })
  | (.ok (.status _), service) => (.ok false, { h with service })
  | (.error e, service) => (.error e, { h with service })

def recordedFiles (h : Host) : List (String × List UInt8) :=
  match h.storage.bind (h.plant.sinks[·]?) with
  | some (.storage s) => s.entries.entries.filterMap fun
    | (name, .file bytes) => some (name, bytes)
    | (_, .directory) => none
  | _ => []

end Host
end CameraPipeline
