import CameraPipeline.Error
import CameraPipeline.Pump.Pump
import CameraPipeline.Sink.Sink

/-!
A plant is the server with the pumps that drain it and the sinks that they feed.

The owner of a plant and its pumps run at the same time. Each call of the owner leaves room for a
turn of the pumps, a list of single steps taken before the call; with no turns given the pumps
stand still. The journal keeps which pumps were started and stopped, what was asked of the server
and what the pumps did, in order.
-/

namespace CameraPipeline

abbrev PumpId := Nat

/-- A step of the surroundings of the owner. -/
inductive Move where
  | advance (pump : PumpId)
  | stall (pump : PumpId)
  | unstall (pump : PumpId)
  | hold
  | letGo
  deriving DecidableEq, Repr

/-- What one step of a pump came to. -/
inductive PumpDeed where
  | checked (goesOn : Bool)
  | fetched (answer : FetchAnswer)
  | offered (sink : SinkId) (u : MediaUnit) (taken : Bool)
  | released (u : MediaUnit) (fault : Option Fault)
  deriving DecidableEq, Repr

inductive JournalEntry where
  | started (pump : PumpId)
  | asked (request : Request) (fault : Option Fault)
  | pumped (pump : PumpId) (deed : PumpDeed)
  | stopped (pump : PumpId) (drained : Bool)
  deriving DecidableEq, Repr

structure Plant where
  server : Server
  /-- How long a stopped pump is waited for. -/
  drainMillis : Nat
  pumps : List Pump := []
  sinks : List Sink := []
  /-- Gates keep what they are offered. -/
  gatesHeld : Bool := false
  turns : List (List Move) := []
  journal : List JournalEntry := []

namespace Plant

def pump? (p : Plant) (id : PumpId) : Option Pump := p.pumps[id]?

def setPump (p : Plant) (id : PumpId) (pump : Pump) : Plant :=
  { p with pumps := p.pumps.set id pump }

def addSink (p : Plant) (sink : Sink) : SinkId × Plant :=
  (p.sinks.length, { p with sinks := p.sinks ++ [sink] })

def setSink (p : Plant) (id : SinkId) (sink : Sink) : Plant :=
  { p with sinks := p.sinks.set id sink }

def note (p : Plant) (entry : JournalEntry) : Plant := { p with journal := p.journal ++ [entry] }

def addPump (p : Plant) (pump : Pump) : PumpId × Plant :=
  (p.pumps.length,
    { p with pumps := p.pumps ++ [pump], journal := p.journal ++ [.started p.pumps.length] })

/-- Offers a unit to a sink: whether it was taken, and the plant afterwards; no answer while a
gate is held. -/
def offer (p : Plant) (sink : SinkId) (stream : Stream) (u : MediaUnit) : Option (Bool × Plant) :=
  match p.sinks[sink]? with
  | none => some (false, p)
  | some .gate => if p.gatesHeld then none else some (true, p)
  | some s =>
    match s.accept stream u with
    | .ok s => some (true, p.setSink sink s)
    | .error _ => some (false, p)

/-- One step of a pump. A stalled pump does not fetch, and a unit kept by a gate stays there. -/
def advance (p : Plant) (id : PumpId) : Plant :=
  match p.pump? id with
  | none => p
  | some pump =>
    match pump.phase with
    | .checking =>
      if pump.stalled then p
      else (p.setPump id pump.check).note (.pumped id (.checked !pump.check.hasEnded))
    | .fetching =>
      if pump.stalled then p
      else
        let (answer, server) := p.server.fetch pump.source
        let answer := FetchAnswer.ofServer answer
        ({ p with server }.setPump id (pump.fetched answer)).note (.pumped id (.fetched answer))
    | .offering u sink rest =>
      match p.offer sink pump.stream u with
      | none => p
      | some (taken, p) =>
        (p.setPump id (pump.offered u rest taken)).note (.pumped id (.offered sink u taken))
    | .releasing u =>
      match p.server.perform (.release pump.source u.slot) with
      | (.ok _, server) =>
        ({ p with server }.setPump id (pump.released true)).note (.pumped id (.released u none))
      | (.error fault, server) =>
        ({ p with server }.setPump id (pump.released false)).note
          (.pumped id (.released u (some fault)))
    | .ended => p

def setStalled (p : Plant) (id : PumpId) (stalled : Bool) : Plant :=
  match p.pump? id with
  | none => p
  | some pump => p.setPump id { pump with stalled }

def move (p : Plant) : Move → Plant
  | .advance id => p.advance id
  | .stall id => p.setStalled id true
  | .unstall id => p.setStalled id false
  | .hold => { p with gatesHeld := true }
  | .letGo => { p with gatesHeld := false }

def takeTurn (p : Plant) : Plant :=
  match p.turns with
  | [] => p
  | turn :: turns => turn.foldl move { p with turns }

/-- Asks the server, after a turn of the pumps. -/
def ask (p : Plant) (request : Request) : Except Fault Handle × Plant :=
  let p := p.takeTurn
  match p.server.perform request with
  | (.ok h, server) => (.ok h, { p with server }.note (.asked request none))
  | (.error fault, server) => (.error fault, { p with server }.note (.asked request (some fault)))

/-- Lets a pump go on to its next check, as far as it gets. -/
def finishIteration (p : Plant) (id : PumpId) : Plant :=
  go ((p.pump? id).elim 0 fun pump => pump.sinks.length + 2) p
where
  go : Nat → Plant → Plant
    | 0, p => p
    | n + 1, p => if (p.pump? id).any Pump.isBusy then go n (p.advance id) else p

/-- Lets a pump whose next check is its last take that check. -/
def settle (p : Plant) (id : PumpId) : Plant :=
  if (p.pump? id).any Pump.isDone then p.advance id else p

/-- Lets a pump come to rest: at a check that it passes, at its end, or where it is kept. -/
def rest (p : Plant) (id : PumpId) : Plant := (p.finishIteration id).settle id

/-- Stops a pump: raises its flag, gives it time to end, and joins it if it did. A pump that has
not ended in time stays as it is. -/
def stopPump (p : Plant) (id : PumpId) (millis : Nat) : Except DrainTimeout Unit × Plant :=
  match p.pump? id with
  | none => (.ok (), p)
  | some pump =>
    if pump.worker.joined then (.ok (), p)
    else
      let p := (p.setPump id { pump with worker := pump.worker.requestStop }).takeTurn.rest id
      match p.pump? id with
      | none => (.ok (), p)
      | some pump =>
        let (answer, worker) := pump.worker.stop millis pump.hasEnded
        (answer, (p.setPump id { pump with worker }).note (.stopped id pump.hasEnded))

/-- Gives a pump up: it is asked to stop and waited for once more, and then left to itself. -/
def dropPump (p : Plant) (id : PumpId) : Plant :=
  match p.pump? id with
  | none => p
  | some pump => (p.stopPump id pump.worker.drainMillis).2

/-- Waits for a pump to end, without asking it to. -/
def waitPump (p : Plant) (id : PumpId) : Bool × Plant :=
  match p.pump? id with
  | none => (true, p)
  | some pump =>
    let (ended, worker) := pump.worker.wait pump.hasEnded
    (ended, p.setPump id { pump with worker })

def unstall (p : Plant) (id : PumpId) : Plant := (p.setStalled id false).settle id

/-- The gates let go; every pump that was kept by one finishes its unit. -/
def letGo (p : Plant) : Plant :=
  (List.range p.pumps.length).foldl
    (fun p id => if (p.pump? id).any Pump.isBusy then p.rest id else p)
    { p with gatesHeld := false }

end Plant
end CameraPipeline
