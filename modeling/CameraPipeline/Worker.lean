import CameraPipeline.Text.Numeral

/-!
Worker threads and their owners. A stop raises the flag, waits a bounded time for the body to end
and joins the thread; if the body does not end in time the thread stays owned, so the stop can be
tried again.

The owner learns of the body's end by one message on a channel, and keeps in mind that it came. The
operations of `Worker` are told whether it has come by the time the wait is over; those of
`SpawnedWorker` look into the channel, and are told what the thread does meanwhile.
-/

namespace CameraPipeline

structure Worker where
  name : String
  /-- How long a dropped worker is waited for. -/
  drainMillis : Nat
  stopRequested : Bool := false
  /-- The end of the body has been seen. -/
  seenEnd : Bool := false
  /-- The thread is owned until it is joined. -/
  joined : Bool := false
  deriving DecidableEq, Repr

/-- A worker did not end within the time given to it. -/
structure DrainTimeout where
  worker : String
  millis : Nat
  deriving DecidableEq, Repr

def DrainTimeout.message (d : DrainTimeout) : String :=
  "worker '" ++ d.worker ++ "' did not stop within " ++ Text.span d.millis

namespace Worker

def requestStop (w : Worker) : Worker := { w with stopRequested := true }

def wait (w : Worker) (ended : Bool) : Bool × Worker :=
  (w.seenEnd || ended, { w with seenEnd := w.seenEnd || ended })

/-- Asks the body to stop, waits and joins. A joined worker is stopped already. -/
def stop (w : Worker) (millis : Nat) (ended : Bool) : Except DrainTimeout Unit × Worker :=
  if w.joined then (.ok (), w)
  else
    match w.requestStop.wait ended with
    | (true, w) => (.ok (), { w with joined := true })
    | (false, w) => (.error ⟨w.name, millis⟩, w)

end Worker

/-- How far a thread has come. -/
inductive ThreadPhase where
  | running
  /-- The body has ended, but the thread still holds its end of the channel. -/
  | leaving
  | gone
  deriving DecidableEq, Repr

/-- What a thread does on its own. Its message is sent as the body is left, in whichever way. -/
inductive ThreadStep where
  | returns
  | fails
  /-- Lets go of the channel and is gone. -/
  | leaves
  deriving DecidableEq, Repr

/-- A thread, and the channel from it to its owner, which has room for one message. -/
structure WorkerThread where
  phase : ThreadPhase := .running
  hasMessage : Bool := false
  deriving DecidableEq, Repr

/-- What is received from a channel. -/
inductive Reception where
  | message
  /-- There is no message, and none can come any more. -/
  | disconnected
  | nothing
  deriving DecidableEq, Repr

namespace WorkerThread

def step (t : WorkerThread) : ThreadStep → WorkerThread
  | .returns | .fails => if t.phase = .running then ⟨.leaving, true⟩ else t
  | .leaves => if t.phase = .leaving then { t with phase := .gone } else t

def after (t : WorkerThread) (steps : List ThreadStep) : WorkerThread := steps.foldl step t

def receive (t : WorkerThread) : Reception × WorkerThread :=
  if t.hasMessage then (.message, { t with hasMessage := false })
  else if t.phase = .gone then (.disconnected, t)
  else (.nothing, t)

/-- Waits for the thread to be gone. It does what is left to it after its body; the body itself does
not end for a join. -/
def join (t : WorkerThread) : WorkerThread := t.step .leaves

end WorkerThread

/-- A worker with its thread. -/
structure SpawnedWorker where
  worker : Worker
  thread : WorkerThread := {}
  deriving DecidableEq, Repr

namespace SpawnedWorker

def spawn (name : String) (drainMillis : Nat) : SpawnedWorker := { worker := { name, drainMillis } }

def requestStop (s : SpawnedWorker) : SpawnedWorker := { s with worker := s.worker.requestStop }

/-- Waits for the body to end. Once its end has been seen there is nothing to wait for. -/
def wait (s : SpawnedWorker) (meanwhile : List ThreadStep) : Bool × SpawnedWorker :=
  if s.worker.seenEnd then (true, s)
  else
    let (reception, thread) := (s.thread.after meanwhile).receive
    let (ended, worker) := s.worker.wait (reception ≠ .nothing)
    (ended, { worker, thread })

/-- Has the body ended? Asks without waiting. -/
def isFinished (s : SpawnedWorker) : Bool × SpawnedWorker := s.wait []

def join (s : SpawnedWorker) : SpawnedWorker :=
  { worker := { s.worker with joined := true }, thread := s.thread.join }

def stop (s : SpawnedWorker) (millis : Nat) (meanwhile : List ThreadStep) :
    Except DrainTimeout Unit × SpawnedWorker :=
  if s.worker.joined then (.ok (), s)
  else
    let (ended, s) := s.requestStop.wait meanwhile
    if ended then (.ok (), s.join) else (.error ⟨s.worker.name, millis⟩, s)

end SpawnedWorker

/-- The bodies that a worker may be given. -/
inductive WorkerBody where
  /-- Ends at once, by returning or by failing. -/
  | brief
  | untilStop
  /-- Heeds no request until it is let go, and then ends. -/
  | deaf
  deriving DecidableEq, Repr

/-- Has the body ended, given whether it was asked to stop? -/
def WorkerBody.hasEnded (b : WorkerBody) (stopRequested : Bool) : Bool :=
  match b with
  | brief => true
  | untilStop => stopRequested
  | deaf => false

def WorkerBody.letGo : WorkerBody → WorkerBody
  | deaf => brief
  | b => b

/-- What the thread does while it is waited for. -/
def WorkerBody.steps (b : WorkerBody) (stopRequested : Bool) : List ThreadStep :=
  if b.hasEnded stopRequested then [.returns, .leaves] else []

structure RunningWorker where
  spawned : SpawnedWorker
  body : WorkerBody
  deriving DecidableEq, Repr

namespace RunningWorker

def spawn (name : String) (body : WorkerBody) (drainMillis : Nat) : RunningWorker :=
  ⟨.spawn name drainMillis, body⟩

def wait (r : RunningWorker) : Bool × RunningWorker :=
  let (ended, spawned) := r.spawned.wait (r.body.steps r.spawned.worker.stopRequested)
  (ended, { r with spawned })

def requestStop (r : RunningWorker) : RunningWorker :=
  { r with spawned := r.spawned.requestStop }

def stop (r : RunningWorker) (millis : Nat) : Except DrainTimeout Unit × RunningWorker :=
  let (answer, spawned) := r.spawned.stop millis (r.body.steps true)
  (answer, { r with spawned })

def letGo (r : RunningWorker) : RunningWorker := { r with body := r.body.letGo }

end RunningWorker
end CameraPipeline
