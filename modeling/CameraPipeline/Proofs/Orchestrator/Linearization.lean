import CameraPipeline.Orchestrator.Service
import CameraPipeline.Proofs.Orchestrator.Retry
import Mathlib.Data.List.Infix

/-!
The service linearizes its clients. However many there are, and however far the control loop is
behind them, the replies are those of one orchestrator that takes the requests one after the other,
in the order in which they entered the queue, up to the first shutdown. Every request is answered
once; those behind the shutdown do not reach the orchestrator.
-/

namespace CameraPipeline

/-- What may happen to a service: somebody sends a request, the control loop takes one from the
queue, or the surroundings of the orchestrator act. -/
inductive ServiceEvent where
  | send (r : ServiceRequest)
  | step
  | outside (e : Event)

/-- What happens to an orchestrator that has one caller. -/
inductive ServiceAct where
  | request (r : ServiceRequest)
  | outside (e : Event)

namespace ServiceEvent

def sent : List ServiceEvent → List ServiceRequest :=
  List.filterMap fun
    | .send r => some r
    | _ => none

def outsides : List ServiceEvent → List Event :=
  List.filterMap fun
    | .outside e => some e
    | _ => none

end ServiceEvent

namespace ServiceAct

def requests : List ServiceAct → List ServiceRequest :=
  List.filterMap fun
    | .request r => some r
    | _ => none

def outsides : List ServiceAct → List Event :=
  List.filterMap fun
    | .outside e => some e
    | _ => none

end ServiceAct

namespace Orchestrator

/-- One request, without a queue: the reply, and the orchestrator afterwards. -/
def reply (o : Orchestrator) : ServiceRequest → ServiceReply × Orchestrator
  | .command c => (.outcome (o.handle c).1, (o.handle c).2)
  | .status => (.status o.status, o)
  | .shutdown => (.outcome (o.handle .deinit).1, (o.handle .deinit).2)

/-- One act after the other: the replies, and the orchestrator afterwards. -/
def sequential (o : Orchestrator) : List ServiceAct → List ServiceReply × Orchestrator
  | [] => ([], o)
  | .request r :: acts =>
    ((o.reply r).1 :: ((o.reply r).2.sequential acts).1, ((o.reply r).2.sequential acts).2)
  | .outside e :: acts => (o.meet e).sequential acts

theorem sequential_append (o : Orchestrator) (acts acts' : List ServiceAct) :
    o.sequential (acts ++ acts') =
      ((o.sequential acts).1 ++ ((o.sequential acts).2.sequential acts').1,
        ((o.sequential acts).2.sequential acts').2) := by
  induction acts generalizing o with
  | nil => rfl
  | cons act acts ih =>
      cases act with
      | request r => simp only [List.cons_append, sequential, ih]
      | outside e => simp only [List.cons_append, sequential, ih]

theorem length_sequential (o : Orchestrator) (acts : List ServiceAct) :
    (o.sequential acts).1.length = (ServiceAct.requests acts).length := by
  induction acts generalizing o with
  | nil => rfl
  | cons act acts ih =>
      cases act with
      | request r => exact congrArg (· + 1) (ih _)
      | outside e => exact ih _

theorem built_shutdown (o : Orchestrator) : (o.reply .shutdown).2.built = none := by
  exact (left_run o .deinit) ▸ built_left_deinit o

theorem drop_of_down {o : Orchestrator} (down : o.built = none) : o.drop = o := by
  have hrun : run .deinit o = .ok false o := by rw [run, deinit_eq, down]
  rw [drop, handle, hrun]

end Orchestrator

namespace Service

open ServiceAct ServiceEvent

/-- The entries of a list, each with its place. -/
def numbered {α : Type} (xs : List α) : List (Ticket × α) := xs.mapIdx Prod.mk

section Numbered

variable {α β : Type}

theorem numbered_concat (xs : List α) (x : α) :
    numbered (xs ++ [x]) = numbered xs ++ [(xs.length, x)] := by
  simp [numbered, List.mapIdx_append]

theorem tickets_numbered (xs : List α) : (numbered xs).map (·.1) = List.range xs.length := by
  apply List.ext_getElem <;> simp [numbered]

/-- The places that are left get the same entry. -/
theorem numbered_fill (xs : List α) (ys : List β) (b : β) :
    numbered ys ++ ((numbered xs).drop ys.length).map (fun e => (e.1, b)) =
      numbered (ys ++ List.replicate (xs.length - ys.length) b) := by
  apply List.ext_getElem
  · simp [numbered]
  · intro i _ _
    simp only [numbered, List.getElem_append, List.getElem_mapIdx, List.length_mapIdx,
      List.getElem_map, List.getElem_drop, List.getElem_replicate]
    split
    · rfl
    · rename_i hi
      rw [Nat.add_sub_cancel' (Nat.le_of_not_lt hi)]

end Numbered

def spawn (o : Orchestrator) : Service := { orchestrator := o }

def meet (s : Service) : ServiceEvent → Service
  | .send r => (s.send r).2
  | .step => s.step
  | .outside e => { s with orchestrator := s.orchestrator.meet e }

def after (s : Service) (events : List ServiceEvent) : Service := events.foldl meet s

/-- What an event means to the orchestrator: a step of the control loop is the request that it
takes, and what is sent does not count until then. -/
def actsOf (s : Service) : ServiceEvent → List ServiceAct
  | .send _ => []
  | .step => s.queue.head?.toList.map (.request ·.2)
  | .outside e => [.outside e]

/-- What happens to the orchestrator in the course of `events`. -/
def acts (s : Service) : List ServiceEvent → List ServiceAct
  | [] => []
  | e :: events => s.actsOf e ++ (s.meet e).acts events

/-- The service has done what an orchestrator does to which `acts` happen, and has answered
accordingly what was `sent` to it. -/
structure Linearized (s : Service) (o : Orchestrator) (sent : List ServiceRequest)
    (acts : List ServiceAct) : Prop where
  tickets : s.nextTicket = sent.length
  inOrder : requests acts <+: sent
  orchestrator : s.orchestrator = (o.sequential acts).2
  serving : s.isOpen = true → .shutdown ∉ requests acts ∧
    s.queue = (numbered sent).drop (requests acts).length ∧
    s.answers = numbered ((o.sequential acts).1.map .ok)
  closed : s.isOpen = false → s.orchestrator.state = .uninitialized ∧ s.queue = [] ∧
    (∃ before, .shutdown ∉ before ∧ requests acts = before ++ [.shutdown]) ∧
    s.answers = numbered ((o.sequential acts).1.map .ok ++
      List.replicate (sent.length - (requests acts).length) (.error .serviceClosed))

theorem serve_eq (o : Orchestrator) (r : ServiceRequest) :
    serve o r = ((o.reply r).1, (o.reply r).2, decide (r ≠ .shutdown)) := by
  cases r <;> rfl

theorem foldl_answer (s : Service) (queue : List (Ticket × ServiceRequest)) (a : ServiceAnswer) :
    queue.foldl (fun s e => s.answer e.1 a) s =
      { s with answers := s.answers ++ queue.map fun e => (e.1, a) } := by
  induction queue generalizing s with
  | nil => simp
  | cons e queue ih =>
      rw [List.foldl_cons, ih]
      simp [answer]

/-- The control loop answers the request that it takes; a shutdown it answers last of all, and the
rest of the queue is refused. -/
theorem step_eq {s : Service} {ticket : Ticket} {r : ServiceRequest}
    {queue : List (Ticket × ServiceRequest)} (hq : s.queue = (ticket, r) :: queue) :
    s.step =
      if r = .shutdown then
        { s with
          orchestrator := (s.orchestrator.reply r).2
          isOpen := false
          queue := []
          answers := s.answers ++ [(ticket, .ok (s.orchestrator.reply r).1)] ++
            queue.map fun e => (e.1, .error .serviceClosed) }
      else
        { s with
          orchestrator := (s.orchestrator.reply r).2
          queue
          answers := s.answers ++ [(ticket, .ok (s.orchestrator.reply r).1)] } := by
  simp only [step, hq, serve_eq, foldl_answer, decide_eq_true_eq, ne_eq, ite_not]
  split
  · rename_i heq
    subst heq
    rw [answer, Orchestrator.drop_of_down s.orchestrator.built_shutdown]
  · rfl

section Steps

variable {s : Service} {o : Orchestrator} {sent : List ServiceRequest} {acts : List ServiceAct}

theorem linearized_spawn (o : Orchestrator) : (spawn o).Linearized o [] [] where
  tickets := rfl
  inOrder := List.nil_prefix
  orchestrator := rfl
  serving _ := ⟨List.not_mem_nil, rfl, rfl⟩
  closed h := nomatch h

namespace Linearized

theorem send (h : s.Linearized o sent acts) (r : ServiceRequest) :
    (s.send r).2.Linearized o (sent ++ [r]) acts := by
  have hle : (requests acts).length ≤ sent.length := h.inOrder.length_le
  have htickets : s.nextTicket + 1 = (sent ++ [r]).length := by simp [h.tickets]
  have horder : requests acts <+: sent ++ [r] := h.inOrder.trans (List.prefix_append sent [r])
  cases ho : s.isOpen with
  | true =>
      obtain ⟨hno, hq, ha⟩ := h.serving ho
      simp only [Service.send, ho, if_true]
      refine ⟨htickets, horder, h.orchestrator, fun _ => ⟨hno, ?_, ha⟩, nofun⟩
      rw [numbered_concat, List.drop_append_of_le_length (by simpa [numbered] using hle), ← hq,
        h.tickets]
  | false =>
      obtain ⟨hdown, hq, hlast, ha⟩ := h.closed ho
      simp only [Service.send, ho, Bool.false_eq_true, if_false]
      refine ⟨htickets, horder, h.orchestrator, nofun, fun _ => ⟨hdown, hq, hlast, ?_⟩⟩
      · simp only [answer]
        rw [ha, h.tickets, List.length_append, List.length_singleton, Nat.succ_sub hle,
          List.replicate_succ', ← List.append_assoc, numbered_concat]
        simp [Orchestrator.length_sequential, hle]

theorem outside (h : s.Linearized o sent acts) {e : Event} (he : e.IsOutside) :
    (s.meet (.outside e)).Linearized o sent (acts ++ [.outside e]) := by
  have hrequests : requests (acts ++ [.outside e]) = requests acts := by simp [requests]
  have hreplies : (o.sequential (acts ++ [.outside e])).1 = (o.sequential acts).1 := by
    simp [Orchestrator.sequential_append, Orchestrator.sequential]
  have hleft : (s.meet (.outside e)).orchestrator = (o.sequential (acts ++ [.outside e])).2 := by
    simp [Orchestrator.sequential_append, Orchestrator.sequential, meet, h.orchestrator]
  refine ⟨h.tickets, hrequests ▸ h.inOrder, hleft, fun ho => ?_, fun ho => ?_⟩
  · rw [hrequests, hreplies]
    exact h.serving ho
  · rw [hrequests, hreplies]
    obtain ⟨hdown, hrest⟩ := h.closed ho
    refine ⟨?_, hrest⟩
    rw [Orchestrator.state_eq_uninitialized_iff] at hdown ⊢
    exact (Orchestrator.built_meet he).trans hdown

/-- What the control loop takes is the first request that it has not yet served. -/
theorem next (h : s.Linearized o sent acts) {ticket : Ticket} {r : ServiceRequest}
    {queue : List (Ticket × ServiceRequest)} (hq : s.queue = (ticket, r) :: queue) :
    s.isOpen = true ∧ ticket = (requests acts).length ∧ requests acts ++ [r] <+: sent ∧
      queue = (numbered sent).drop ((requests acts).length + 1) := by
  have ho : s.isOpen = true := by
    cases ho : s.isOpen with
    | true => rfl
    | false => cases hq.symm.trans (h.closed ho).2.1
  obtain ⟨_, hrest, _⟩ := h.serving ho
  have hlt : (requests acts).length < sent.length := by
    by_contra hge
    rw [List.drop_eq_nil_of_le (by simpa [numbered] using hge)] at hrest
    cases hq.symm.trans hrest
  rw [hq, List.drop_eq_getElem_cons (by simpa [numbered] using hlt)] at hrest
  obtain ⟨hentry, hqueue⟩ := List.cons.inj hrest
  have hticket : ticket = (requests acts).length := by
    simpa [numbered] using congrArg (·.1) hentry
  have hr : r = sent[(requests acts).length] := by
    simpa [numbered] using congrArg (·.2) hentry
  exact ⟨ho, hticket, hr ▸ List.concat_get_prefix h.inOrder hlt, hqueue⟩

theorem step (h : s.Linearized o sent acts) :
    s.step.Linearized o sent (acts ++ s.queue.head?.toList.map (.request ·.2)) := by
  cases hq : s.queue with
  | nil =>
      have hstep : s.step = s := by rw [Service.step, hq]
      rw [hstep]
      simpa using h
  | cons entry queue =>
      obtain ⟨ticket, r⟩ := entry
      obtain ⟨ho, hticket, horder, hqueue⟩ := h.next hq
      obtain ⟨hno, _, ha⟩ := h.serving ho
      have hrequests : requests (acts ++ [.request r]) = requests acts ++ [r] := by
        simp [requests]
      have hsequential : o.sequential (acts ++ [.request r]) =
          ((o.sequential acts).1 ++ [(s.orchestrator.reply r).1], (s.orchestrator.reply r).2) := by
        simp [Orchestrator.sequential_append, Orchestrator.sequential, h.orchestrator]
      have hanswers : s.answers ++ [(ticket, .ok (s.orchestrator.reply r).1)] =
          numbered ((o.sequential (acts ++ [.request r])).1.map .ok) := by
        rw [hsequential, List.map_append, List.map_singleton, numbered_concat, ha, hticket,
          List.length_map, Orchestrator.length_sequential]
      rw [step_eq hq]
      simp only [List.head?_cons, Option.toList_some, List.map_singleton]
      split
      · rename_i hshutdown
        refine ⟨h.tickets, hrequests ▸ horder, by rw [hsequential], nofun, fun _ => ?_⟩
        refine ⟨?_, rfl, ⟨requests acts, hno, hshutdown ▸ hrequests⟩, ?_⟩
        · rw [Orchestrator.state_eq_uninitialized_iff, hshutdown]
          exact s.orchestrator.built_shutdown
        · dsimp only
          have hlength : ((o.sequential (acts ++ [.request r])).1.map Except.ok :
              List ServiceAnswer).length = (requests acts).length + 1 := by
            rw [List.length_map, Orchestrator.length_sequential, hrequests, List.length_append,
              List.length_singleton]
          rw [hanswers, hqueue, ← hlength, numbered_fill, hlength, hrequests, List.length_append,
            List.length_singleton]
      · rename_i hother
        refine ⟨h.tickets, hrequests ▸ horder, by rw [hsequential], fun _ => ?_, fun hclosed => ?_⟩
        · refine ⟨?_, ?_, hanswers⟩
          · rw [hrequests]
            simpa [Ne.symm hother] using hno
          · rw [hrequests, List.length_append, List.length_singleton]
            exact hqueue
        · cases ho.symm.trans hclosed

theorem meet (h : s.Linearized o sent acts) {e : ServiceEvent}
    (he : ∀ e', e = .outside e' → e'.IsOutside) :
    (s.meet e).Linearized o (sent ++ ServiceEvent.sent [e]) (acts ++ s.actsOf e) := by
  cases e with
  | send r =>
      rw [actsOf, List.append_nil]
      exact h.send r
  | step =>
      rw [actsOf, ServiceEvent.sent, List.filterMap_cons_none rfl, List.filterMap_nil,
        List.append_nil]
      exact h.step
  | outside e =>
      rw [ServiceEvent.sent, List.filterMap_cons_none rfl, List.filterMap_nil, List.append_nil]
      exact h.outside (he e rfl)

theorem after (h : s.Linearized o sent acts) {events : List ServiceEvent}
    (he : ∀ e, .outside e ∈ events → e.IsOutside) :
    (s.after events).Linearized o (sent ++ ServiceEvent.sent events) (acts ++ s.acts events) := by
  induction events generalizing s sent acts with
  | nil =>
      rw [Service.acts, List.append_nil]
      exact (List.append_nil sent).symm ▸ h
  | cons e events ih =>
      have hmeet : (s.meet e).Linearized o _ _ := h.meet fun e' heq => he e' (heq ▸ List.mem_cons_self)
      have hafter := ih hmeet fun e' hm => he e' (.tail _ hm)
      have hsent : ServiceEvent.sent (e :: events) =
          ServiceEvent.sent [e] ++ ServiceEvent.sent events := by
        simp only [ServiceEvent.sent, ← List.filterMap_append]
        rfl
      rw [hsent, Service.acts, ← List.append_assoc, ← List.append_assoc]
      exact hafter

/-- Once nothing is left in the queue, every request has its one answer. -/
theorem answered (h : s.Linearized o sent acts) (hq : s.queue = []) :
    s.answers.map (·.1) = List.range sent.length := by
  have hle : (requests acts).length ≤ sent.length := h.inOrder.length_le
  cases ho : s.isOpen with
  | true =>
      obtain ⟨_, hrest, ha⟩ := h.serving ho
      have hge : sent.length ≤ (requests acts).length := by
        simpa [numbered] using hrest.symm.trans hq
      rw [ha, tickets_numbered, List.length_map, Orchestrator.length_sequential,
        Nat.le_antisymm hle hge]
  | false =>
      obtain ⟨_, _, _, ha⟩ := h.closed ho
      rw [ha, tickets_numbered, List.length_append, List.length_map, List.length_replicate,
        Orchestrator.length_sequential, Nat.add_sub_cancel' hle]

end Linearized

end Steps

theorem outsides_acts (s : Service) (events : List ServiceEvent) :
    ServiceAct.outsides (s.acts events) = ServiceEvent.outsides events := by
  induction events generalizing s with
  | nil => rfl
  | cons e events ih =>
      cases e with
      | send r => exact ih _
      | outside e => exact congrArg (e :: ·) (ih _)
      | step =>
          rw [acts, actsOf]
          cases s.queue.head? <;> exact ih _

theorem queue_step (s : Service) : s.step.queue.length ≤ s.queue.length - 1 := by
  cases hq : s.queue with
  | nil => simp [step, hq]
  | cons entry queue =>
      rw [step_eq hq]
      split <;> simp

theorem go_eq (n : Nat) (s : Service) : run.go n s = s.after (List.replicate n .step) := by
  induction n generalizing s with
  | zero => rfl
  | succ n ih => exact ih s.step

theorem queue_go {n : Nat} {s : Service} (h : s.queue.length ≤ n) : (run.go n s).queue = [] := by
  induction n generalizing s with
  | zero => exact List.eq_nil_of_length_eq_zero (Nat.le_zero.mp h)
  | succ n ih =>
      refine ih ?_
      have := s.queue_step
      omega

theorem queue_run (s : Service) : s.run.queue = [] := queue_go (Nat.le_refl _)

/-- Whatever requests are sent and whenever the control loop takes them, the replies are those of
one orchestrator to which the requests happen in their order, along with what its surroundings do.
Once the control loop has caught up, every request has its one answer. -/
theorem after_linearized (o : Orchestrator) {events : List ServiceEvent}
    (he : ∀ e, .outside e ∈ events → e.IsOutside) :
    let s := (spawn o).after events
    let acts := (spawn o).acts events
    s.Linearized o (sent events) acts ∧ ServiceAct.outsides acts = ServiceEvent.outsides events ∧
      ∃ rest, ServiceAct.outsides rest = [] ∧ s.run.Linearized o (sent events) (acts ++ rest) ∧
        s.run.answers.map (·.1) = List.range (sent events).length := by
  intro s acts
  have h : s.Linearized o (sent events) acts := (linearized_spawn o).after he
  refine ⟨h, outsides_acts _ _, ?_⟩
  let steps : List ServiceEvent := List.replicate s.queue.length .step
  have hsteps : ServiceEvent.sent steps = [] ∧ ServiceEvent.outsides steps = [] := by
    simp [steps, ServiceEvent.sent, ServiceEvent.outsides]
  have hrun : s.run = s.after steps := go_eq _ _
  have hcaught : s.run.Linearized o (sent events) (acts ++ s.acts steps) := by
    have hafter : (s.after steps).Linearized o _ _ := h.after fun e hm => by simp [steps] at hm
    rwa [hsteps.1, List.append_nil, ← hrun] at hafter
  exact ⟨s.acts steps, (outsides_acts _ _).trans hsteps.2, hcaught,
    hcaught.answered s.queue_run⟩

/-- Two clients, and a shutdown between their requests. -/
def racing : List ServiceEvent :=
  [.send (.command .init), .send .status, .step, .send .shutdown,
    .send (.command (.setMode .photo)), .outside (.move (.advance 0)), .step, .step, .send .status]

theorem after_linearized_racing :
    ((spawn Orchestrator.bare).after racing).orchestrator.state = .uninitialized ∧
      ((spawn Orchestrator.bare).after racing).run.answers.map (·.1) = [0, 1, 2, 3, 4] := by
  have houtside : ∀ e, .outside e ∈ racing → e.IsOutside := by simp [racing, Event.IsOutside]
  obtain ⟨h, _, rest, _, _, hanswers⟩ := after_linearized Orchestrator.bare houtside
  exact ⟨(h.closed (by decide +kernel)).1, hanswers⟩

end Service
end CameraPipeline
