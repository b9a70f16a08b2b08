import CameraPipeline.Plant.Stack
import CameraPipeline.Playback.Clip

/-!
The player and its track loops. Each track of a loaded clip has a loop: it looks whether its track
runs, reads the next packet, stores its time as the position, and submits it to the decoder. At
the end of the packets it rewinds and pauses the track, and announces the end if the other track
does not run any more.

Loops and controls run at the same time; every step defined here is taken as a whole.
-/

namespace CameraPipeline

inductive PlayerEvent where
  | play
  | pause
  | stop
  /-- Every track has reached its end. -/
  | eof
  | error (fault : DemuxFault)
  deriving DecidableEq, Repr

def PlayerEvent.text : PlayerEvent → String
  | play => "Play"
  | pause => "Pause"
  | stop => "Stop"
  | eof => "Eof"
  | error fault => "Error(\"" ++ fault.message ++ "\")"

/-- What a track loop does next. -/
inductive LoopPhase where
  /-- Looks whether its track runs. -/
  | idle
  | reading
  /-- Stores the packet's time as the position. -/
  | placing (packet : Packet)
  /-- Submits the packet. -/
  | offering (packet : Packet)
  /-- Rewinds the reading, and then the position. -/
  | rewinding
  | zeroing
  /-- Pauses the track and looks at the other one. -/
  | closing
  | announcing
  | failing (fault : DemuxFault)
  | reporting (fault : DemuxFault)
  deriving DecidableEq, Repr

/-- A track of the loaded clip; `decoder` takes its packets. -/
structure Lane where
  decoder : Handle
  status : TrackStatus := .uninitialized
  positionMs : Nat := 0
  phase : LoopPhase := .idle
  deriving DecidableEq, Repr

structure LoadedClip where
  path : String
  demuxer : Demuxer
  stack : Stack
  video : Option Lane
  audio : Option Lane

namespace LoadedClip

def lane? (l : LoadedClip) : Track → Option Lane
  | .video => l.video
  | .audio => l.audio

def update (l : LoadedClip) (track : Track) (f : Lane → Lane) : LoadedClip :=
  match track with
  | .video => { l with video := l.video.map f }
  | .audio => { l with audio := l.audio.map f }

def setPhase (l : LoadedClip) (track : Track) (phase : LoopPhase) : LoadedClip :=
  l.update track fun lane => { lane with phase }

def status? (l : LoadedClip) (track : Track) : Option TrackStatus :=
  (l.lane? track).map (·.status)

def isRunning (l : LoadedClip) (track : Track) : Bool := l.status? track == some .running

def info (l : LoadedClip) : MediaInfo := l.demuxer.clip.info

/-- The position of the picture, or of the sound where there is no picture. -/
def positionMs (l : LoadedClip) : Nat :=
  (l.video <|> l.audio).elim 0 (·.positionMs)

end LoadedClip

structure Player where
  plant : Plant
  library : ClipLibrary := {}
  queueDepth : Nat := 16
  events : List PlayerEvent := []
  loaded : Option LoadedClip := none
  isDestroyed : Bool := false
  /-- Every packet that was submitted, taken or not. -/
  offers : List (Track × Packet) := []
  /-- Steps of the track loops, taken between the steps of the controls. -/
  turns : List (List Track) := []
  /-- What the system answers when the loops of tracks are to be started, one after the other: the
  reason for each that it refuses. When the answers are used up every loop starts. -/
  starts : List (Option String) := []

namespace Player

/-- Queues an event; beyond the depth of the queue it is lost. -/
def emit (p : Player) (e : PlayerEvent) : Player :=
  if p.events.length < max p.queueDepth 1 then { p with events := p.events ++ [e] } else p

def setLoaded (p : Player) (l : LoadedClip) : Player := { p with loaded := some l }

/-- Submits a packet to the decoder of its track; a refusal is ignored. -/
def submit (p : Player) (track : Track) (decoder : Handle) (packet : Packet) : Player :=
  { p with
    plant := (p.plant.ask (.submit decoder)).2
    offers := p.offers ++ [(track, packet)] }

/-- One step of the loop of a track. -/
def advance (p : Player) (track : Track) : Player :=
  match p.loaded with
  | none => p
  | some l =>
    match l.lane? track with
    | none => p
    | some lane =>
      match lane.phase with
      | .idle =>
        if lane.status = .running then p.setLoaded (l.setPhase track .reading) else p
      | .reading =>
        let (answer, demuxer) := l.demuxer.read track
        let phase := match answer with
          | .ok (some packet) => .placing packet
          | .ok none => .rewinding
          | .error fault => .failing fault
        p.setLoaded ({ l with demuxer }.setPhase track phase)
      | .placing packet =>
        p.setLoaded (l.update track fun lane =>
          { lane with positionMs := packet.ptsMs, phase := .offering packet })
      | .offering packet =>
        (p.setLoaded (l.setPhase track .idle)).submit track lane.decoder packet
      | .rewinding =>
        match l.demuxer.seek track 0 with
        | .ok demuxer => p.setLoaded ({ l with demuxer }.setPhase track .zeroing)
        | .error _ => p.setLoaded (l.setPhase track .closing)
      | .zeroing =>
        p.setLoaded (l.update track fun lane => { lane with positionMs := 0, phase := .closing })
      | .closing =>
        let phase := if l.isRunning track.other then .idle else .announcing
        p.setLoaded (l.update track fun lane =>
          { lane with status := (lane.status.next .eof).getD .pause, phase })
      | .announcing => (p.setLoaded (l.setPhase track .idle)).emit .eof
      | .failing fault =>
        p.setLoaded (l.update track fun lane =>
          { lane with
            status := (lane.status.next .error).getD lane.status, phase := .reporting fault })
      | .reporting fault => (p.setLoaded (l.setPhase track .idle)).emit (.error fault)

def takeTurn (p : Player) : Player :=
  match p.turns with
  | [] => p
  | turn :: turns => turn.foldl advance { p with turns }

/-- Does the loop of the track hold a packet that is about to be submitted? -/
def holds (p : Player) (track : Track) : Bool :=
  match p.loaded.bind (·.lane? track) with
  | some { phase := .offering _, .. } => true
  | _ => false

/-- A loop rests while it holds a packet, or finds that its track does not run. -/
def atRest (p : Player) (track : Track) : Bool :=
  match p.loaded.bind (·.lane? track) with
  | none => true
  | some lane =>
    match lane.phase with
    | .offering _ => true
    | .idle => lane.status ≠ .running
    | _ => false

/-- Lets a loop go on until it rests, which takes no more than six steps. -/
def settle (p : Player) (track : Track) : Player := go 6 p
where
  go : Nat → Player → Player
    | 0, p => p
    | n + 1, p => if p.atRest track then p else go n (p.advance track)

/-- Lets up to `n` held packets of a track through, one after the other; answers how many. -/
def letThrough (p : Player) (track : Track) : Nat → Nat × Player
  | 0 => (0, p)
  | n + 1 =>
    if p.holds track then
      let (count, p) := letThrough ((p.advance track).settle track) track n
      (count + 1, p)
    else (0, p)

end Player
end CameraPipeline
