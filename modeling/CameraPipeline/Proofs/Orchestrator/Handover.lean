import CameraPipeline.Proofs.Orchestrator.PhotoSession
import CameraPipeline.Proofs.Plant.Count
import CameraPipeline.Proofs.Server.Reachable

/-!
From one photo session to the next. The stack of a session whose pump has ended unwinds without an
error as long as failures are injected on the traffic of units only, and leaves the channel as the
next session needs it. Unwinding asks every pump of the stack to stop.
-/

namespace CameraPipeline

/-- What pumps ask of the server. -/
def Operation.IsTraffic : Operation → Prop
  | .fetch | .release => True
  | _ => False

theorem Worker.stop_of_ended (w : Worker) (millis : Nat) : (w.stop millis true).1 = .ok () := by
  simp only [stop, wait, Bool.or_true]
  split <;> rfl

namespace Plant

variable {P : Change → Prop} {p q : Plant} {id : PumpId} {pump : Pump} {vi jpeg : Handle}

theorem Steps.failsOnly {Q : Operation → Prop} (h : Steps P p q) (hf : p.server.FailsOnly Q) :
    q.server.FailsOnly Q :=
  h.keeps_server (fun _ h hs => hs.fetch h) (fun _ r hs => hs.perform r) hf

theorem Steps.consistent (h : Steps P p q) (hc : p.server.Consistent) : q.server.Consistent :=
  h.keeps_server (fun _ h hs => hs.fetch h) (fun _ r hs => hs.perform r) hc

section Asked

/-- The pump was asked to stop. -/
def Asked (p : Plant) (id : PumpId) : Prop :=
  ∃ pump, p.pump? id = some pump ∧ pump.worker.stopRequested

theorem Continues.asked (h : p.Continues q) (ha : p.Asked id) : q.Asked id := by
  obtain ⟨pump, hp, ha⟩ := ha
  obtain ⟨pump', hp', hb⟩ := h id pump hp
  exact ⟨pump', hp', hb.asked ha⟩

theorem stopPump_asked (hh : p.Honest) (hp : p.pump? id = some pump) (millis : Nat) :
    (p.stopPump id millis).2.Asked id := by
  rw [stopPump_eq, hp]
  dsimp only
  split
  · rename_i hj
    exact ⟨pump, hp, (hh id pump hp).asked hj⟩
  · have hraised : (p.raise id).Asked id := by
      refine ⟨{ pump with worker := pump.worker.requestStop }, ?_, rfl⟩
      rw [raise, hp]
      exact pump?_setPump_self hp _
    have hs : Steps Change.IsQuiet (p.raise id)
        (((p.raise id).takeTurn.rest id).join id millis).2 :=
      (takeTurn_steps _).quiet.trans
        ((rest_steps _ id).quiet.trans (.one (.join id millis) trivial))
    exact hs.continues.asked hraised

theorem stopPump_of_ended (hp : p.pump? id = some pump) (he : pump.hasEnded) (millis : Nat) :
    (p.stopPump id millis).1 = .ok () := by
  rw [stopPump_eq, hp]
  dsimp only
  split
  · rfl
  · have hs : Steps Change.IsQuiet p ((p.raise id).takeTurn.rest id) :=
      .cons (.raise id) trivial ((takeTurn_steps _).quiet.trans (rest_steps _ id).quiet)
    obtain ⟨pump', hp', hb⟩ := hs.continues id pump hp
    simp only [join, hp']
    rw [hb.ended he]
    exact pump'.worker.stop_of_ended millis

end Asked

end Plant

namespace Stack

open Plant

variable {p : Plant} {id : PumpId} {pump : Pump}

theorem stopEach_asked {steps : List Undo} (hh : p.Honest) (hp : p.pump? id = some pump)
    (hm : .pump id ∈ steps) : (stopEach p steps).2.2.Asked id := by
  induction steps with
  | nil => cases hm
  | cons step older ih =>
      cases step with
      | request r => exact ih (Undo.mem_of_pump_mem hm)
      | pump k =>
          have holder := stopEach_steps p older
          have hstop : ((stopEach p older).2.2.stopPump k
              (stopEach p older).2.2.drainMillis).2.Asked id := by
            cases List.mem_cons.mp hm with
            | inl heq =>
                cases heq
                obtain ⟨pump', hp', _⟩ := holder.continues id pump hp
                exact stopPump_asked (holder.honest (fun _ => False.elim) hh) hp' _
            | inr hm => exact (stopPump_steps _ k _).continues.asked (ih hm)
          simp only [stopEach]
          split <;> rename_i ho <;> rwa [ho] at hstop

theorem unwind_asked {s : Stack} (hh : p.Honest) (hp : p.pump? id = some pump)
    (hm : .pump id ∈ s.steps) : (s.unwind p).2.Asked id :=
  (undoEach_steps _ _).continues.asked (stopEach_asked hh hp hm)

end Stack

namespace Plant

variable {p q : Plant} {id : PumpId} {pump : Pump} {vi jpeg : Handle}

/-- Requests of the owner do not fail as long as they keep to the rules. -/
def Serves (p : Plant) : Prop := p.server.FailsOnly Operation.IsTraffic

theorem Serves.ask {r : Request} {h : Handle} (hf : p.Serves) (hr : ¬r.operation.IsTraffic)
    (hp : ∀ s : Server, s.circuit = p.server.circuit → s.permit r = .ok h) :
    ∃ q, p.ask r = (.ok h, q) ∧ q.Serves ∧ q.server.circuit = p.server.circuit.after h r := by
  have ht := (takeTurn_steps p).quiet
  have hturn : p.takeTurn.server.FailsOnly Operation.IsTraffic := ht.failsOnly hf
  have hok : (p.ask r).1 = .ok h := by
    rw [ask_eq, answer_serve]
    exact Server.perform_of_permit (hturn.strike_eq_false hr _) (hp _ ht.circuit)
  have hs : (p.ask r).2.Serves := (ask_steps p r).failsOnly hf
  cases ho : p.ask r with
  | mk answer q =>
      rw [ho] at hok hs
      cases hok
      exact ⟨q, rfl, hs, by rw [(ask_ok ho).2]⟩

/-- A photo session can be opened on the channel. -/
structure Clear (p : Plant) (vi jpeg : Handle) : Prop where
  serves : p.Serves
  source : p.server.circuit.Enabled vi
  target : p.server.circuit.Enabled jpeg
  free : p.server.circuit.linked ⟨vi, jpeg⟩ = false

theorem Clear.openPhoto (hc : p.Clear vi jpeg) (make : PumpMaker) (n : UInt32) :
    ∃ s q, p.openPhoto make vi jpeg n = (.ok s, q) := by
  obtain ⟨p₁, hreceive, hserves₁, hcircuit₁⟩ := hc.serves.ask (r := .startReceiving jpeg (.count n))
    (fun h => h) fun s hs => Server.permit_startReceiving (hs ▸ hc.target.live) _
  have hs := settle_steps (p₁.addPump (make .photo jpeg (some n))).2 p₁.pumps.length
  have hcircuit₂ := hs.quiet.circuit.trans hcircuit₁
  have hkeeps {h : Handle} (he : p.server.circuit.Enabled h) :
      (p.server.circuit.after jpeg (.startReceiving jpeg (.count n))).Enabled h :=
    he.modify fun _ hn => hn
  obtain ⟨q, hbind, _⟩ := Serves.ask (r := .bind ⟨vi, jpeg⟩) (hs.failsOnly hserves₁)
    (fun h => h) fun s hs => by
      rw [hcircuit₂] at hs
      exact Server.permit_bind_of_enabled (hs ▸ hkeeps hc.source) (hs ▸ hkeeps hc.target)
        (hs ▸ hc.free)
  have hsteps : ∃ id stack, Build.photo make vi jpeg n { plant := p } = .ok id ⟨stack, q⟩ := by
    have hadd : p₁.addPump (make .photo jpeg (some n)) =
        (p₁.pumps.length, (p₁.addPump (make .photo jpeg (some n))).2) := rfl
    refine ⟨p₁.pumps.length, ⟨[.request (.unbind ⟨vi, jpeg⟩), .pump p₁.pumps.length,
      .request (.stopReceiving jpeg)]⟩, ?_⟩
    simp only [Build.photo, Construction.startReceiving, Construction.start, Construction.bind,
      Construction.ask, bind, EStateM.bind, hreceive, pure, EStateM.pure]
    rw [hadd]
    simp only [hbind]
    rfl
  obtain ⟨id, stack, hsteps⟩ := hsteps
  exact ⟨⟨stack, id, n⟩, q, by simp only [Plant.openPhoto, construct, hsteps]⟩

/-- What a session leaves whose pump has ended. -/
theorem Clear.of_unwind {s : Stack}
    (hs : s.steps = [.request (.unbind ⟨vi, jpeg⟩), .pump id, .request (.stopReceiving jpeg)])
    (hp : p.pump? id = some pump) (he : pump.hasEnded) (hf : p.Serves)
    (hc : p.server.Consistent) (hl : p.server.circuit.linked ⟨vi, jpeg⟩) :
    (s.unwind p).1 = [] ∧ (s.unwind p).2.Clear vi jpeg := by
  have hvi : p.server.circuit.Enabled vi :=
    hc.enabled_of_bound vi ⟨_, hl, by simp [Link.touches]⟩
  have hjpeg : p.server.circuit.Enabled jpeg :=
    hc.enabled_of_bound jpeg ⟨_, hl, by simp [Link.touches]⟩
  have hstop := stopPump_of_ended hp he p.drainMillis
  have hquiet := stopPump_steps p id p.drainMillis
  cases ho : p.stopPump id p.drainMillis with
  | mk answer p₁ =>
      rw [ho] at hstop hquiet
      cases hstop
      obtain ⟨p₂, hunbind, hserves₂, hcircuit₂⟩ := Serves.ask (p := p₁) (r := .unbind ⟨vi, jpeg⟩)
        (hquiet.failsOnly hf) (fun h => h)
        fun s hs => Server.permit_unbind (by rw [hs, hquiet.circuit]; exact hl)
      rw [hquiet.circuit] at hcircuit₂
      obtain ⟨p₃, hreceive, hserves₃, hcircuit₃⟩ := hserves₂.ask (r := .stopReceiving jpeg)
        (fun h => h)
        fun s hs => Server.permit_stopReceiving (by rw [hs, hcircuit₂]; exact hjpeg.live)
      rw [hcircuit₂] at hcircuit₃
      -- the pump leaves the stack when it is stopped, so only the two requests are undone
      have hunwind : s.unwind p = ([], p₃) := by
        simp only [Stack.unwind, Stack.stopPumps, hs, Stack.stopEach, ho, Stack.undoEach, hunbind,
          hreceive, List.append_nil]
      rw [hunwind]
      refine ⟨rfl, hserves₃, ?_, ?_, ?_⟩ <;> rw [hcircuit₃]
      · exact Circuit.Enabled.modify (c := p.server.circuit.setLink _ false) hvi fun _ hn => hn
      · exact Circuit.Enabled.modify (c := p.server.circuit.setLink _ false) hjpeg fun _ hn => hn
      · exact if_pos rfl

end Plant
end CameraPipeline
