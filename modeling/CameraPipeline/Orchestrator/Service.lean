import CameraPipeline.Orchestrator.Command

/-!
An orchestrator behind a queue of requests. Its control loop takes the requests one after the
other; a shutdown tears the pipeline down and ends the loop. Requests left in the queue at that
point, and all later ones, are answered that the service is closed.
-/

namespace CameraPipeline

inductive ServiceRequest where
  | command (c : Command)
  | status
  | shutdown
  deriving DecidableEq, Repr

inductive ServiceReply where
  | outcome (r : Except PipelineError Bool)
  | status (r : StatusReport)

/-- What a client gets: a reply, or the news that the service is closed. -/
abbrev ServiceAnswer := Except PipelineError ServiceReply

/-- Identifies a request among all that were sent. -/
abbrev Ticket := Nat

structure Service where
  orchestrator : Orchestrator
  isOpen : Bool := true
  queue : List (Ticket × ServiceRequest) := []
  nextTicket : Ticket := 0
  answers : List (Ticket × ServiceAnswer) := []

namespace Service

/-- What the control loop does with one request: its reply, the orchestrator afterwards, and
whether the loop goes on. -/
def serve (o : Orchestrator) : ServiceRequest → ServiceReply × Orchestrator × Bool
  | .command c =>
    let (outcome, o) := o.handle c
    (.outcome outcome, o, true)
  | .status => (.status o.status, o, true)
  | .shutdown =>
    let (outcome, o) := o.handle .deinit
    (.outcome outcome, o, false)

def answer (s : Service) (ticket : Ticket) (a : ServiceAnswer) : Service :=
  { s with answers := s.answers ++ [(ticket, a)] }

def send (s : Service) (r : ServiceRequest) : Ticket × Service :=
  let next := { s with nextTicket := s.nextTicket + 1 }
  (s.nextTicket,
    if s.isOpen then { next with queue := s.queue ++ [(s.nextTicket, r)] }
    else next.answer s.nextTicket (.error .serviceClosed))

/-- The control loop takes the next request. At its end it gives the orchestrator up and leaves
the rest of the queue unserved. -/
def step (s : Service) : Service :=
  match s.queue with
  | [] => s
  | (ticket, r) :: queue =>
    let (reply, orchestrator, goesOn) := serve s.orchestrator r
    let s := { s with orchestrator, queue }.answer ticket (.ok reply)
    if goesOn then s
    else
      queue.foldl (fun s e => s.answer e.1 (.error .serviceClosed))
        { s with orchestrator := s.orchestrator.drop, isOpen := false, queue := [] }

def run (s : Service) : Service := go s.queue.length s
where
  go : Nat → Service → Service
    | 0, s => s
    | n + 1, s => go n s.step

def answerTo? (s : Service) (ticket : Ticket) : Option ServiceAnswer :=
  (s.answers.find? (·.1 == ticket)).map (·.2)

def call (s : Service) (r : ServiceRequest) : ServiceAnswer × Service :=
  let (ticket, s) := s.send r
  let s := s.run
  ((s.answerTo? ticket).getD (.error .serviceClosed), s)

/-- Gives the service up, which shuts it down. -/
def drop (s : Service) : Service := (s.call .shutdown).2

end Service
end CameraPipeline
