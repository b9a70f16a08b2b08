/-!
The counters of a pump.
-/

namespace CameraPipeline

structure PumpStats where
  units : Nat := 0
  timeouts : Nat := 0
  errors : Nat := 0
  sinkErrors : Nat := 0
  /-- The time stamp of the first unit, in microseconds. -/
  firstPts : Option Nat := none
  /-- A window of the rate measurement has closed. -/
  rateMeasured : Bool := false
  deriving DecidableEq, Repr

namespace PumpStats

/-- A time stamp as it is kept: its low 64 bits, of which all ones mean that there is none. -/
def stamp? (ptsMicros : Nat) : Option Nat :=
  let low := ptsMicros % UInt64.size
  if low = UInt64.size - 1 then none else some low

def countUnit (s : PumpStats) (ptsMicros : Nat) : PumpStats :=
  { s with units := s.units + 1, firstPts := s.firstPts <|> stamp? ptsMicros }

def countTimeout (s : PumpStats) : PumpStats := { s with timeouts := s.timeouts + 1 }

def countError (s : PumpStats) : PumpStats := { s with errors := s.errors + 1 }

def countSinkError (s : PumpStats) : PumpStats := { s with sinkErrors := s.sinkErrors + 1 }

end PumpStats
end CameraPipeline
