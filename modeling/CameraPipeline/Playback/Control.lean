import CameraPipeline.Playback.Player

/-!
The controls of the player. A control is a sequence of single steps; between two of them the track
loops may have a turn.
-/

namespace CameraPipeline

/-- A control of the player. A failed step leaves what was done before it. -/
abbrev PlayerAction := EStateM PipelineError Player

namespace PlayerAction

/-- One step, after a turn of the track loops. -/
def step {α : Type} (f : Player → α × Player) : PlayerAction α := fun p =>
  let (v, p) := f p.takeTurn
  .ok v p

def fail {α : Type} (fault : PlaybackFault) : PlayerAction α := throw (.playback fault)

end PlayerAction

open PlayerAction

namespace Player

def clip (p : Player) : Except PipelineError LoadedClip :=
  match p.isDestroyed, p.loaded with
  | true, _ => .error (.playback .destroyed)
  | false, none => .error (.playback .noFile)
  | false, some l => .ok l

def durationMs (p : Player) : Except PipelineError Nat := (·.info.durationMs) <$> p.clip

def positionMs (p : Player) : Except PipelineError Nat := (·.positionMs) <$> p.clip

def status? (p : Player) (track : Track) : Option TrackStatus :=
  p.loaded.bind (·.status? track)

/-- Applies an event to a track. An illegal one changes nothing; a track that the clip does not
have is passed over. -/
def transition (p : Player) (track : Track) (event : TrackEvent) :
    Except PlaybackFault Unit × Player :=
  match p.loaded with
  | none => (.ok (), p)
  | some l =>
    match l.status? track with
    | none => (.ok (), p)
    | some status =>
      match status.next event with
      | none => (.error (.invalidTransition track status event), p)
      | some status => (.ok (), p.setLoaded (l.update track fun lane => { lane with status }))

def seekDemuxer (p : Player) (track : Track) (positionMs : Nat) :
    Except PlaybackFault Unit × Player :=
  match p.loaded with
  | none => (.ok (), p)
  | some l =>
    match l.demuxer.seek track positionMs with
    | .ok demuxer => (.ok (), p.setLoaded { l with demuxer })
    | .error fault => (.error (.demux fault), p)

def setPosition (p : Player) (track : Track) (positionMs : Nat) : Player :=
  match p.loaded with
  | none => p
  | some l => p.setLoaded (l.update track fun lane => { lane with positionMs })

def attemptStep (f : Player → Except PlaybackFault Unit × Player) : PlayerAction Unit := do
  match ← step f with
  | .ok _ => return ()
  | .error fault => fail fault

def emitStep (e : PlayerEvent) : PlayerAction Unit := step fun p => ((), p.emit e)

/-- Applies an event to the picture and then to the sound. -/
def applyEvent (event : TrackEvent) : PlayerAction Unit := do
  let _ ← ofExcept (← get).clip
  attemptStep (·.transition .video event)
  attemptStep (·.transition .audio event)

def play : PlayerAction Unit := do
  applyEvent .play
  emitStep .play

def pause : PlayerAction Unit := do
  applyEvent .pause
  emitStep .pause

/-- Moves a track, its reading first and then its position. -/
def seekTrack (track : Track) (positionMs : Nat) : PlayerAction Unit := do
  attemptStep (·.seekDemuxer track positionMs)
  step fun p => ((), p.setPosition track positionMs)

def rewindTrack (track : Track) : PlayerAction Unit := do
  if ((← get).status? track).isSome then seekTrack track 0

def stop : PlayerAction Unit := do
  applyEvent .stop
  rewindTrack .video
  rewindTrack .audio
  emitStep .stop

def seek (track : Track) (positionMs : Nat) : PlayerAction Unit := do
  let l ← ofExcept (← get).clip
  if (l.status? track).isNone then fail (.demux (.noTrack track))
  seekTrack track positionMs

/-- Decoder and output for the picture. -/
def buildVideo (info : VideoInfo) : Construction Handle := do
  let vdec ← Construction.createEnabled .vdec (.vdec ⟨info.geometry, info.codec⟩)
  let vo ← Construction.createEnabled .vo (.vo ⟨info.geometry, .rgb888⟩)
  Construction.bind vdec vo
  return vdec

/-- Decoder and output for the sound. -/
def buildAudio (info : AudioInfo) : Construction Handle := do
  let attr : ChannelAttr := .audio ⟨info.codec, info.sampleRate, info.channels⟩
  let adec ← Construction.createEnabled .adec attr
  let ao ← Construction.createEnabled .ao attr
  Construction.bind adec ao
  return adec

/-- The decode paths for the tracks that there are; answers their decoders. -/
def buildOutputs (info : MediaInfo) : Construction (Option Handle × Option Handle) := do
  let video ← info.video.mapM buildVideo
  let audio ← info.audio.mapM buildAudio
  return (video, audio)

/-- Ends the track loops, then undoes the decode paths, whatever fails on the way. -/
def removeFile : PlayerAction Unit := do
  step fun p => ((), p)
  let p ← get
  match p.loaded with
  | none => return ()
  | some l =>
    let (errors, plant) := l.stack.unwind p.plant
    set { p with loaded := none, plant }
    ofExcept (firstError errors)

/-- A track as it is right after its clip was loaded. -/
def freshLane (decoder : Handle) : Lane :=
  let lane : Lane := { decoder }
  { lane with status := (lane.status.next .setFile).getD lane.status }

/-- The tracks that have a decoder. -/
def tracksOf (video audio : Option Handle) : List Track :=
  (video.map fun _ => .video).toList ++ (audio.map fun _ => .audio).toList

/-- Has the loops of tracks started, one after the other, up to the first that the system refuses.
The second result is what is left of its answers. -/
def startLoops : List Track → List (Option String) →
    Except PipelineError Unit × List (Option String)
  | [], starts => (.ok (), starts)
  | _ :: _, [] => (.ok (), [])
  | track :: _, some reason :: starts =>
    (.error (.spawn s!"player-{track.name}" reason), starts)
  | _ :: tracks, none :: starts => startLoops tracks starts

/-- Opens the clip at `path`, builds its decode paths and starts the loops of its tracks. -/
def loadFile (path : String) : PlayerAction Unit := do
  let p ← get
  match p.library.openClip path with
  | .error fault => fail (.demux fault)
  | .ok demuxer =>
    let (answer, plant) := p.plant.construct (buildOutputs demuxer.clip.info)
    set { p with plant }
    let ((video, audio), stack) ← ofExcept answer
    match startLoops (tracksOf video audio) p.starts with
    | (.ok _, starts) =>
      set ({ p with plant, starts }.setLoaded
        { path, demuxer, stack, video := video.map freshLane, audio := audio.map freshLane })
    | (.error e, starts) =>
      -- a loop that has started found its track paused, so that ending it leaves nothing to undo
      let (e, site) := { stack, plant : Site }.rollback e
      set { p with plant := site.plant, starts }
      throw e

/-- Loads the clip at `path` in place of the loaded one. -/
def setFile (path : String) : PlayerAction Unit := do
  if (← get).isDestroyed then fail .destroyed
  if (← get).loaded.isSome then removeFile
  loadFile path

/-- Releases everything; the player is of no use afterwards. -/
def destroy : PlayerAction Unit := do
  if (← get).isDestroyed then return ()
  let answer ← fun p => match removeFile p with
    | .ok _ p => .ok (.ok ()) p
    | .error e p => .ok (.error e) p
  modify fun p => { p with isDestroyed := true }
  ofExcept (answer : Except PipelineError Unit)

def control {α : Type} (p : Player) (a : PlayerAction α) : Except PipelineError α × Player :=
  match a p with
  | .ok v p => (.ok v, p)
  | .error e p => (.error e, p)

/-- The next event, without waiting. -/
def pollEvent (p : Player) : Option PlayerEvent × Player :=
  match p.events with
  | [] => (none, p)
  | e :: events => (some e, { p with events })

def drainEvents (p : Player) : List PlayerEvent × Player := (p.events, { p with events := [] })

/-- Gives the player up. -/
def drop (p : Player) : Player := (p.control destroy).2

end Player
end CameraPipeline
