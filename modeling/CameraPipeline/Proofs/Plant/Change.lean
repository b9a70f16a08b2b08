import CameraPipeline.Plant.Plant
import CameraPipeline.Proofs.Server.Permission

/-!
Every operation on a plant comes down to a few elementary changes. A property that each of them
keeps is kept by whatever the owner and its surroundings do, in any order.
-/

namespace CameraPipeline

/-- The elementary changes of a plant: steps of the surroundings, and what the owner does. -/
inductive Change where
  | move (m : Move)
  | turns (ts : List (List Move))
  | request (r : Request)
  | start (pump : Pump)
  | raise (id : PumpId)
  | await (id : PumpId)
  | join (id : PumpId) (millis : Nat)

namespace Change

def IsDrift : Change → Prop
  | move _ | turns _ => True
  | _ => False

/-- Changes by which the owner makes a pump stop. -/
def IsStop : Change → Prop
  | raise _ | join _ _ => True
  | _ => False

/-- Changes in which the owner asks the server only for `requests` and starts only `pumps`. -/
def Within (requests : Request → Prop) (pumps : Pump → Prop) : Change → Prop
  | request r => requests r
  | start pump => pumps pump
  | _ => True

/-- Changes without requests and without new pumps. -/
def IsQuiet : Change → Prop := Within (fun _ => False) fun _ => False

theorem IsDrift.quiet {c : Change} (h : c.IsDrift) : c.IsQuiet := by
  cases c <;> trivial

theorem Within.mono {requests requests' : Request → Prop} {pumps pumps' : Pump → Prop}
    (hr : ∀ r, requests r → requests' r) (hp : ∀ pump, pumps pump → pumps' pump) {c : Change}
    (h : c.Within requests pumps) : c.Within requests' pumps' := by
  cases c <;> first | trivial | exact hr _ h | exact hp _ h

theorem IsQuiet.within {requests : Request → Prop} {pumps : Pump → Prop} {c : Change}
    (h : c.IsQuiet) : c.Within requests pumps :=
  Within.mono (fun _ => False.elim) (fun _ => False.elim) h

end Change

namespace Plant

def serve (p : Plant) (r : Request) : Except Fault Handle × Plant :=
  match p.server.perform r with
  | (.ok h, server) => (.ok h, { p with server }.note (.asked r none))
  | (.error fault, server) => (.error fault, { p with server }.note (.asked r (some fault)))

def raise (p : Plant) (id : PumpId) : Plant :=
  match p.pump? id with
  | none => p
  | some pump => p.setPump id { pump with worker := pump.worker.requestStop }

def join (p : Plant) (id : PumpId) (millis : Nat) : Except DrainTimeout Unit × Plant :=
  match p.pump? id with
  | none => (.ok (), p)
  | some pump =>
    let (answer, worker) := pump.worker.stop millis pump.hasEnded
    (answer, (p.setPump id { pump with worker }).note (.stopped id pump.hasEnded))

def apply (p : Plant) : Change → Plant
  | .move m => p.move m
  | .turns ts => { p with turns := ts }
  | .request r => (p.serve r).2
  | .start pump => (p.addPump pump).2
  | .raise id => p.raise id
  | .await id => (p.waitPump id).2
  | .join id millis => (p.join id millis).2

/-- `q` comes from `p` by elementary changes that satisfy `P`. -/
inductive Steps (P : Change → Prop) : Plant → Plant → Prop
  | refl (p : Plant) : Steps P p p
  | cons {p q : Plant} (c : Change) (hc : P c) (rest : Steps P (p.apply c) q) : Steps P p q

namespace Steps

variable {P Q : Change → Prop} {p q r : Plant}

theorem one (c : Change) (hc : P c) : Steps P p (p.apply c) := .cons c hc (.refl _)

theorem trans (h : Steps P p q) (h' : Steps P q r) : Steps P p r := by
  induction h with
  | refl _ => exact h'
  | cons c hc _ ih => exact .cons c hc (ih h')

theorem mono (hPQ : ∀ c, P c → Q c) (h : Steps P p q) : Steps Q p q := by
  induction h with
  | refl _ => exact .refl _
  | cons c hc _ ih => exact .cons c (hPQ c hc) ih

/-- What every single change keeps, any number of them keeps. -/
theorem keeps {I : Plant → Prop} (hI : ∀ p c, P c → I p → I (p.apply c)) (h : Steps P p q)
    (hp : I p) : I q := by
  induction h with
  | refl _ => exact hp
  | cons c hc _ ih => exact ih (hI _ c hc hp)

theorem quiet (h : Steps Change.IsDrift p q) : Steps Change.IsQuiet p q :=
  h.mono fun _ => Change.IsDrift.quiet

theorem within {requests : Request → Prop} {pumps : Pump → Prop} (h : Steps Change.IsQuiet p q) :
    Steps (Change.Within requests pumps) p q :=
  h.mono fun _ => Change.IsQuiet.within

end Steps

section Decomposition

variable (p : Plant) (id : PumpId)

theorem ask_eq (r : Request) : p.ask r = p.takeTurn.serve r := rfl

theorem stopPump_eq (millis : Nat) :
    p.stopPump id millis =
      match p.pump? id with
      | none => (.ok (), p)
      | some pump =>
        if pump.worker.joined then (.ok (), p)
        else ((p.raise id).takeTurn.rest id).join id millis := by
  simp only [stopPump, raise, join]
  cases p.pump? id <;> rfl

theorem moves_steps (moves : List Move) : Steps Change.IsDrift p (moves.foldl move p) := by
  induction moves generalizing p with
  | nil => exact .refl p
  | cons m moves ih => exact .cons (.move m) trivial (ih (p.move m))

theorem takeTurn_steps : Steps Change.IsDrift p p.takeTurn := by
  simp only [takeTurn]
  split
  · exact .refl p
  · exact .cons (.turns _) trivial (moves_steps _ _)

theorem advance_steps : Steps Change.IsDrift p (p.advance id) := .one (.move (.advance id)) trivial

theorem finishIteration_steps : Steps Change.IsDrift p (p.finishIteration id) := by
  have go (n : Nat) (p : Plant) : Steps Change.IsDrift p (finishIteration.go id n p) := by
    induction n generalizing p with
    | zero => exact .refl p
    | succ n ih =>
        simp only [finishIteration.go]
        split
        · exact (advance_steps p id).trans (ih (p.advance id))
        · exact .refl p
  exact go _ p

theorem settle_steps : Steps Change.IsDrift p (p.settle id) := by
  simp only [settle]
  split
  · exact advance_steps p id
  · exact .refl p

theorem rest_steps : Steps Change.IsDrift p (p.rest id) :=
  (finishIteration_steps p id).trans (settle_steps _ id)

theorem ask_steps (r : Request) :
    Steps (Change.Within (· = r) fun _ => False) p (p.ask r).2 :=
  (takeTurn_steps p).quiet.within.trans (.one (.request r) rfl)

theorem stopPump_steps (millis : Nat) : Steps Change.IsQuiet p (p.stopPump id millis).2 := by
  rw [stopPump_eq]
  split
  · exact .refl p
  · split
    · exact .refl p
    · refine .cons (.raise id) trivial ?_
      refine (takeTurn_steps _).quiet.trans ?_
      exact (rest_steps _ id).quiet.trans (.one (.join id millis) trivial)

theorem dropPump_steps : Steps Change.IsQuiet p (p.dropPump id) := by
  simp only [dropPump]
  split
  · exact .refl p
  · exact stopPump_steps p id _

end Decomposition
end Plant
end CameraPipeline
