import CameraPipeline.Pump.Stats
import CameraPipeline.Pump.Stream
import CameraPipeline.Server.Fetch
import CameraPipeline.Tuning.Config
import CameraPipeline.Worker

/-!
The loop of a pump: look at the stop flag and the limit, fetch a unit, offer it to each sink in
turn, hand it back. The loop is an automaton; each step takes the answer of what the loop has just
called, so it runs against any server and any sinks.
-/

namespace CameraPipeline

abbrev SinkId := Nat

inductive FetchAnswer where
  | unit (u : MediaUnit)
  | timeout
  | eof
  | failed (fault : Fault)
  deriving DecidableEq, Repr

def FetchAnswer.ofServer : Except Fault (Option MediaUnit) → FetchAnswer
  | .ok (some u) => unit u
  | .ok none => timeout
  | .error fault => failed fault

/-- Where the loop stands: what it does next. -/
inductive PumpPhase where
  | checking
  | fetching
  /-- Offers the unit to a sink, and then to the rest. -/
  | offering (u : MediaUnit) (sink : SinkId) (rest : List SinkId)
  | releasing (u : MediaUnit)
  | ended
  deriving DecidableEq, Repr

/-- The phase of a unit that is still to be seen by `sinks`. -/
def PumpPhase.dispatch (u : MediaUnit) : List SinkId → PumpPhase
  | [] => releasing u
  | sink :: rest => offering u sink rest

structure Pump where
  stream : Stream
  source : Handle
  sinks : List SinkId
  /-- The loop ends by itself after this many units. -/
  limit : Option UInt32
  /-- How long a fetch waits for a unit. -/
  fetchMillis : Nat
  /-- Units to a window of the rate measurement. -/
  interval : Nat
  worker : Worker
  phase : PumpPhase := .checking
  taken : Nat := 0
  stats : PumpStats := {}
  windowUnits : Nat := 0
  /-- The call to fetch does not come back, not even for a stop. -/
  stalled : Bool := false
  deriving DecidableEq, Repr

namespace Pump

def ofTuning (tuning : PumpTuning) (stream : Stream) (source : Handle) (sinks : List SinkId)
    (limit : Option UInt32) : Pump :=
  { stream, source, sinks, limit
    fetchMillis :=
      if stream = .photo then tuning.photoFetchTimeoutMs else tuning.fetchTimeoutMs
    interval := tuning.diagInterval
    worker := { name := "pump-" ++ stream.name, drainMillis := tuning.drainTimeoutMs } }

def text (p : Pump) : String := p.stream.name ++ " " ++ p.source.text

def hasEnded (p : Pump) : Bool := p.phase = .ended

def atLimit (p : Pump) : Bool := p.limit.any (·.toNat ≤ p.taken)

/-- Goes on to the next fetch, unless the stop flag is up or the limit reached. -/
def check (p : Pump) : Pump :=
  { p with phase := if p.worker.stopRequested || p.atLimit then .ended else .fetching }

/-- Counts a finished unit for the rate; a full window is measured and starts anew. -/
def tick (p : Pump) : Pump :=
  if p.windowUnits + 1 < max p.interval 1 then { p with windowUnits := p.windowUnits + 1 }
  else { p with windowUnits := 0, stats := { p.stats with rateMeasured := true } }

def fetched (p : Pump) : FetchAnswer → Pump
  | .unit u =>
    { p with
      taken := p.taken + 1
      stats := p.stats.countUnit u.ptsMicros
      phase := .dispatch u p.sinks }
  | .timeout => { p with stats := p.stats.countTimeout, phase := .checking }
  | .eof => { p with phase := .ended }
  | .failed _ => { p with stats := p.stats.countError, phase := .checking }

/-- The sink at hand has taken or refused the unit `u`; `rest` has yet to see it. -/
def offered (p : Pump) (u : MediaUnit) (rest : List SinkId) (taken : Bool) : Pump :=
  { p with
    stats := if taken then p.stats else p.stats.countSinkError
    phase := .dispatch u rest }

/-- The unit has been handed back, or could not be. -/
def released (p : Pump) (taken : Bool) : Pump :=
  { { p with stats := if taken then p.stats else p.stats.countError }.tick with
    phase := .checking }

/-- Is the loop between a check and the next one? -/
def isBusy (p : Pump) : Bool :=
  match p.phase with
  | .checking | .ended => false
  | .fetching | .offering .. | .releasing _ => true

/-- At the check of a loop that would end there. -/
def isDone (p : Pump) : Bool :=
  p.phase = .checking && !p.stalled && (p.worker.stopRequested || p.atLimit)

end Pump
end CameraPipeline
