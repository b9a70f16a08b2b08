import CameraPipeline.Plant.Plant

/-!
Running a pump one iteration at a time, with an account of what happened.
-/

namespace CameraPipeline

/-- What an iteration of a pump came to. `release` is `none` while the unit is not handed back. -/
structure Iteration where
  answer : FetchAnswer
  release : Option (Except Fault Unit) := none

/-- Why a pump runs no iteration. -/
inductive Idleness where
  | ended
  | stalled
  deriving DecidableEq, Repr

namespace Iteration

/-- The account of an iteration, from the deeds of the pump in the journal. -/
def ofDeeds? (deeds : List PumpDeed) : Option Iteration := do
  let answer ← deeds.findSome? fun
    | .fetched answer => some answer
    | _ => none
  let release := deeds.findSome? fun
    | .released _ none => some (.ok ())
    | .released _ (some fault) => some (.error fault)
    | _ => none
  return { answer, release }

end Iteration

namespace Plant

/-- The deeds of a pump noted since the journal had `length` entries. -/
def deedsSince (p : Plant) (id : PumpId) (length : Nat) : List PumpDeed :=
  (p.journal.drop length).filterMap fun
    | .pumped id' deed => if id' = id then some deed else none
    | _ => none

def ready (p : Plant) (id : PumpId) : Except Idleness Pump :=
  match p.pump? id with
  | none => .error .ended
  | some pump =>
    if pump.hasEnded then .error .ended
    else if pump.stalled || pump.isBusy then .error .stalled
    else .ok pump

def iterate (p : Plant) (id : PumpId) : Except Idleness Iteration × Plant :=
  match p.ready id with
  | .error idle => (.error idle, p)
  | .ok _ =>
    let length := p.journal.length
    let p := (p.advance id).rest id
    match Iteration.ofDeeds? (p.deedsSince id length) with
    | some iteration => (.ok iteration, p)
    | none => (.error .ended, p)

def iterateTimes (p : Plant) (id : PumpId) : Nat → List (Except Idleness Iteration) × Plant
  | 0 => ([], p)
  | n + 1 =>
    let (answer, p) := p.iterate id
    let (answers, p) := iterateTimes p id n
    (answer :: answers, p)

/-- The next fetch of the pump answers that the stream has come to its end. -/
def endStream (p : Plant) (id : PumpId) : Except Idleness Iteration × Plant :=
  match p.ready id with
  | .error idle => (.error idle, p)
  | .ok pump =>
    (.ok { answer := .eof },
      (p.setPump id (pump.check.fetched .eof)).note (.pumped id (.fetched .eof)))

end Plant
end CameraPipeline
