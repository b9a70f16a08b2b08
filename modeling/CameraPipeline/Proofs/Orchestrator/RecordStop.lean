import CameraPipeline.Proofs.Orchestrator.FirstFailure
import CameraPipeline.Proofs.Orchestrator.Recording

/-!
Stopping a recording until it stops. Where its pump is late, an attempt changes nothing but that
pump's worker. So however many attempts have failed, the first one that finds the pump ended does
and leaves what it would have done and left as the very first one.
-/

namespace CameraPipeline

open Plant

/-- What may happen to the plant by itself. -/
def Event.Drifts : Event → Prop
  | move _ | turns _ | sinks _ => True
  | command _ | write _ | inject _ | register _ _ | waitPhoto => False

namespace Orchestrator

variable {o o' : Orchestrator} {b : Built} {s : RecordSession} {n : Nat}

theorem Untouched.of_controls (hc : o'.plant.server.controls = o.plant.server.controls)
    (hs : o'.state = o.state) : o.Untouched o' where
  calls := Server.controlCalls_of_controls hc
  live := Server.live_of_controls hc
  binds := Server.binds_of_controls hc
  receiving := Server.isReceiving_of_controls hc
  state := hs

/-- From `o` to `o'` it was tried `n` times to stop the recording, and each time its pump was late.
In between pumps and the readers of sinks went on, and nothing else happened. -/
inductive Waits : Orchestrator → Nat → Orchestrator → Prop
  | now (o : Orchestrator) : Waits o 0 o
  | event {o o' : Orchestrator} {n : Nat} (e : Event) (drifts : e.Drifts)
      (rest : Waits (o.meet e) n o') : Waits o n o'
  | failed {o o' : Orchestrator} {n : Nat} {late : DrainTimeout}
      (answer : (o.handle .stopRecord).1 = .error (.drain late))
      (rest : Waits (o.handle .stopRecord).2 n o') : Waits o (n + 1) o'

/-- At `o'` everything is as it was at `o`, but for the traffic of units and the worker of the
recording `s`. -/
structure Keeps (o o' : Orchestrator) (s : RecordSession) : Prop where
  frame : o' = { o with plant := o'.plant }
  controls : o'.plant.server.controls = o.plant.server.controls
  others : Spares (· = s.pump) o.plant o'.plant

namespace Keeps

theorem refl (o : Orchestrator) (s : RecordSession) : o.Keeps o s := ⟨rfl, rfl, .refl _⟩

theorem trans {o'' : Orchestrator} (h : o.Keeps o' s) (h' : o'.Keeps o'' s) : o.Keeps o'' s where
  frame := h'.frame.trans (by rw [h.frame])
  controls := h'.controls.trans h.controls
  others := h.others.trans h'.others

theorem untouched (h : o.Keeps o' s) : o.Untouched o' :=
  .of_controls h.controls (by rw [h.frame]; rfl)

end Keeps

/-- The recording cannot be stopped because its pump is late. The attempt has asked that pump to end
and done nothing else. -/
structure Declines (o : Orchestrator) (s : RecordSession) : Prop where
  answer : ∃ w, o.plant.worker? s.pump = some w ∧
    (o.handle .stopRecord).1 = .error (.drain ⟨w.name, o.plant.drainMillis⟩)
  keeps : o.Keeps (o.handle .stopRecord).2 s
  untouched : o.Untouched (o.handle .stopRecord).2
  acts : o.plant.Does [.stopped s.pump false] (o.handle .stopRecord).2.plant

/-- The recording that stood at `o` is stopped at `o'`: its pump is joined, if that was still to be
done, `undos` follow and lead to `controls`, and what is left is `o` without the recording. -/
structure Ends (o o' : Orchestrator) (b : Built) (s : RecordSession) (undos : List JournalEntry)
    (controls : Controls) : Prop where
  answer : (o'.handle .stopRecord).1 = report (undos.findSome? JournalEntry.refusal?)
  frame : (o'.handle .stopRecord).2 = { o with
    plant := (o'.handle .stopRecord).2.plant
    params := o.params.insert PipelineAttr.enableRecordKey "0"
    built := some { b with record := none } }
  acts : o'.plant.Does (s.stack.pumps.map (.stopped · true) ++ undos)
    (o'.handle .stopRecord).2.plant
  controls : (o'.handle .stopRecord).2.plant.server.controls = controls
  joined : (o'.handle .stopRecord).2.plant.isOut s.pump = false
  others : Spares (· = s.pump) o.plant (o'.handle .stopRecord).2.plant

/-- A stop that ends the recording does not report a pump. -/
theorem Ends.in_time {undos : List JournalEntry} {controls : Controls}
    (h : o.Ends o' b s undos controls) (late : DrainTimeout) :
    (o'.handle .stopRecord).1 ≠ .error (.drain late) := by
  intro heq
  rw [h.answer, report_eq_error] at heq
  obtain ⟨e, -, he⟩ := List.exists_of_findSome?_eq_some heq
  cases e with
  | asked r fault => cases fault <;> cases he
  | started | pumped | stopped => cases he

namespace Recording

theorem handle_late (hr : o.Recording b s) (h : o.plant.endsInTime s.pump = false) :
    ∃ w, o.plant.worker? s.pump = some w ∧
      o.handle .stopRecord = (.error (.drain ⟨w.name, o.plant.drainMillis⟩),
        { o with plant := (o.plant.stopPump s.pump o.plant.drainMillis).2 }) := by
  obtain ⟨w, hw, hlate⟩ := late?_stopPump hr.honest h
  have hsame : { b with record := some s } = b := by rw [← hr.session]
  have hrun : run .stopRecord o = .error (.drain ⟨w.name, o.plant.drainMillis⟩)
      { o with plant := (o.plant.stopPump s.pump o.plant.drainMillis).2 } := by
    rw [run, stopRecord_eq, hr.up]
    dsimp only
    rw [hr.session]
    dsimp only
    rw [hr.holds.stopPumps_late hr.honest h, hlate, hsame]
    rfl
  exact ⟨w, hw, by rw [handle, hrun]⟩

theorem handle_inTime (hr : o.Recording b s) (h : o.plant.endsInTime s.pump = true) :
    let undone := Stack.undoEach (o.plant.stopPump s.pump o.plant.drainMillis).2 s.stack.asks
    o.handle .stopRecord = (report undone.1.head?, { o with
      plant := undone.2
      params := o.params.insert PipelineAttr.enableRecordKey "0"
      built := some { b with record := none } }) := by
  intro undone
  have hunwind : Stack.unwind ⟨s.stack.asks⟩ (o.plant.stopPump s.pump o.plant.drainMillis).2 =
      undone :=
    Stack.unwind_of_requests s.stack.requests_asks _
  refine handle_of_told ?_
  rw [run, stopRecord_eq, hr.up]
  dsimp only
  rw [hr.session]
  dsimp only
  rw [hr.holds.stopPumps_inTime hr.honest h, hunwind]
  cases undone.1 <;> rfl

/-- An attempt that fails leaves the controls as they are, and all workers but one. -/
theorem declines (hr : o.Recording b s) (h : o.plant.endsInTime s.pump = false) :
    o.Declines s := by
  obtain ⟨w, hw, hhandle⟩ := hr.handle_late h
  have hkeeps : o.Keeps (o.handle .stopRecord).2 s := by
    rw [hhandle]
    exact ⟨rfl, (stopPump_steps o.plant s.pump _).controls hr.sourced,
      stopPump_spares o.plant s.pump _⟩
  refine ⟨⟨w, hw, by rw [hhandle]⟩, hkeeps, hkeeps.untouched, ?_⟩
  rw [hhandle]
  exact h ▸ (stopPump_endsInTime hr.honest (isOut_of_late hr.honest h) o.plant.drainMillis).2

theorem keeps (hr : o.Recording b s) (hk : o.Keeps o' s) (hh : o'.plant.Honest)
    (hs : o'.plant.Sourced) (hout : o'.plant.isOut s.pump = o.plant.isOut s.pump) :
    o'.Recording b s where
  up := (congrArg Orchestrator.built hk.frame).trans hr.up
  session := hr.session
  honest := hh
  sourced := hs
  holds := hr.holds.of_isOut hout
  closes := hr.closes

theorem quiet (hr : o.Recording b s) (hk : o.Keeps o' s)
    (hs : Steps Change.IsQuiet o.plant o'.plant)
    (hout : o'.plant.isOut s.pump = o.plant.isOut s.pump) : o'.Recording b s :=
  hr.keeps hk (hs.honest (fun _ => False.elim) hr.honest)
    (hs.sourced (fun _ => False.elim) hr.sourced) hout

/-- A recording is not disturbed by what happens by itself. -/
theorem meet_drifts (hr : o.Recording b s) {e : Event} (he : e.Drifts) :
    (o.meet e).Recording b s ∧ o.Keeps (o.meet e) s := by
  have hdrift {c : Change} (hc : c.IsDrift) :
      Recording { o with plant := o.plant.apply c } b s ∧
        o.Keeps { o with plant := o.plant.apply c } s := by
    have hone : Steps Change.IsDrift o.plant (o.plant.apply c) := .one c hc
    have hspares : Spares (fun _ => False) o.plant (o.plant.apply c) := hone.spares
    have hkeeps : o.Keeps { o with plant := o.plant.apply c } s :=
      ⟨rfl, hone.quiet.controls hr.sourced, hspares.mono fun _ => False.elim⟩
    exact ⟨hr.quiet hkeeps hone.quiet (hspares.isOut not_false), hkeeps⟩
  cases e with
  | command | write | inject | register | waitPhoto => exact he.elim
  | move m => exact hdrift (c := .move m) trivial
  | turns ts => exact hdrift (c := .turns ts) trivial
  | sinks sinks =>
      have hkeeps : o.Keeps (o.meet (.sinks sinks)) s := ⟨rfl, rfl, .of_pumps rfl rfl⟩
      exact ⟨hr.keeps hkeeps hr.honest hr.sourced rfl, hkeeps⟩

/-- A recording that could not be stopped still stands. -/
theorem handle_stopRecord (hr : o.Recording b s) (h : o.plant.endsInTime s.pump = false) :
    (o.handle .stopRecord).2.Recording b s := by
  have hkeeps := (hr.declines h).keeps
  obtain ⟨w, -, hhandle⟩ := hr.handle_late h
  rw [hhandle] at hkeeps ⊢
  refine hr.quiet hkeeps (stopPump_steps o.plant s.pump _) ?_
  rw [isOut_stopPump hr.honest, isOut_of_late hr.honest h, h]
  rfl

theorem settles (hr : o.Recording b s) :
    ∃ undos stop, Stack.Settles o.plant.server.controls s.stack.asks undos stop := by
  refine Stack.undoEach_settles (fun u hu => ?_) hr.sourced
  obtain ⟨r, rfl⟩ := s.stack.requests_asks u hu
  exact ⟨r, rfl, hr.closes r (List.mem_of_mem_filter hu)⟩

/-- A stop that finds the pump ended goes on to undo the rest. -/
theorem ends (hr : o'.Recording b s) (hk : o.Keeps o' s)
    (h : o'.plant.endsInTime s.pump = true) {undos : List JournalEntry} {stop : Controls}
    (hs : Stack.Settles o.plant.server.controls s.stack.asks undos stop) :
    o.Ends o' b s undos stop := by
  have hsteps := stopPump_steps o'.plant s.pump o'.plant.drainMillis
  obtain ⟨hdoes, herrors, hcontrols⟩ := hs.undoes _
    (hsteps.sourced (fun _ => False.elim) hr.sourced)
    ((hsteps.controls hr.sourced).trans hk.controls)
  have hspares : Spares (fun _ => False) (o'.plant.stopPump s.pump o'.plant.drainMillis).2 _ :=
    Stack.undoEach_spares s.stack.requests_asks _
  have hin := (isOut_stopPump hr.honest s.pump o'.plant.drainMillis).trans (congrArg (!·) h)
  have hhandle := hr.handle_inTime h
  dsimp only at hhandle
  constructor <;> rw [hhandle]
  · rw [herrors, List.head?_filterMap]
  · rw [hk.frame]
  · exact (hr.holds.does_inTime hr.honest h _).trans hdoes
  · exact hcontrols
  · exact (hspares.isOut not_false).trans hin
  · exact hk.others.trans ((stopPump_spares o'.plant s.pump _).trans
      (hspares.mono fun _ => False.elim))

theorem late_of_drain (hr : o.Recording b s) {late : DrainTimeout}
    (h : (o.handle .stopRecord).1 = .error (.drain late)) : o.plant.endsInTime s.pump = false := by
  rw [← Bool.not_eq_true]
  intro hin
  obtain ⟨undos, stop, hs⟩ := hr.settles
  exact (hr.ends (.refl o s) hin hs).in_time late h

/-- A recording stands as long as it waits to be stopped. -/
theorem waits (hr : o.Recording b s) (h : o.Waits n o') : o'.Recording b s ∧ o.Keeps o' s := by
  induction h with
  | now o => exact ⟨hr, .refl o s⟩
  | event e drifts _ ih =>
      obtain ⟨hmeet, hkeeps⟩ := hr.meet_drifts drifts
      exact (ih hmeet).imp_right hkeeps.trans
  | failed answer _ ih =>
      have hlate := hr.late_of_drain answer
      exact (ih (hr.handle_stopRecord hlate)).imp_right (hr.declines hlate).keeps.trans

end Recording

/-- A recording that stands at any time of any run. As long as its pump is late, each attempt to
stop it is refused with the name of that pump and leaves the controls of the server, the store and
the session as they were; the pump is not late any more when it has ended. Whether or not attempts
have failed before, the first one that finds the pump ended joins it, tries the same undos in the
same order, which lead to the same controls, and leaves the same store and the same pipeline. -/
theorem stopRecord_retried {o₀ : Orchestrator} (hf : o₀.Fresh) (events : List Event)
    (up : (o₀.after events).built = some b) (session : b.record = some s) :
    let o := o₀.after events
    ∃ undos stop, List.Forall₂ Undo.Tried s.stack.asks undos ∧ ∀ n o', o.Waits n o' →
      o.Keeps o' s ∧
      (∀ pump, o'.plant.pump? s.pump = some pump → pump.hasEnded →
        o'.plant.endsInTime s.pump = true) ∧
      (o'.plant.endsInTime s.pump = false → o'.Declines s) ∧
      (o'.plant.endsInTime s.pump = true → o.Ends o' b s undos stop) := by
  intro o
  have hr : o.Recording b s := (after_steady hf events).recording up session
  obtain ⟨undos, stop, hs⟩ := hr.settles
  refine ⟨undos, stop, hs.tried, fun n o' hwaits => ?_⟩
  obtain ⟨hr', hkeeps⟩ := hr.waits hwaits
  exact ⟨hkeeps, fun _ hp hended => endsInTime_of_hasEnded hp hended, hr'.declines,
    fun h => hr'.ends hkeeps h hs⟩

/-- A recording of which the pump hangs. -/
def stuck : Orchestrator := bare.after [.command .init, .move (.stall 0)]

/-- The recording cannot be stopped until its pump is free. Then it makes no difference whether that
was tried twice before, or never. -/
theorem stopRecord_retried_stuck :
    ∃ b s undos stop, stuck.built = some b ∧ b.record = some s ∧
      s.stack.asks = [.request (.unbind ⟨⟨.vi, 0⟩, ⟨.venc, 0⟩⟩),
        .request (.stopReceiving ⟨.venc, 0⟩)] ∧
      stuck.Declines s ∧ (∃ o', stuck.Waits 2 o' ∧ stuck.Ends o' b s undos stop) ∧
      ∃ o', stuck.Waits 0 o' ∧ stuck.Ends o' b s undos stop := by
  obtain ⟨b, s, up, session, hpump, hasks⟩ : ∃ b s, stuck.built = some b ∧ b.record = some s ∧
      s.pump = 0 ∧ s.stack.asks = [.request (.unbind ⟨⟨.vi, 0⟩, ⟨.venc, 0⟩⟩),
        .request (.stopReceiving ⟨.venc, 0⟩)] :=
    ⟨_, _, rfl, rfl, rfl, by decide +kernel⟩
  obtain ⟨undos, stop, -, hretried⟩ := stopRecord_retried fresh_bare _ up session
  have hfirst : (stuck.handle .stopRecord).1 = .error (.drain ⟨"pump-main", 100⟩) := by
    decide +kernel
  have hsecond : ((stuck.handle .stopRecord).2.handle .stopRecord).1 =
      .error (.drain ⟨"pump-main", 100⟩) := by
    decide +kernel
  have htwice : stuck.Waits 2 _ :=
    .failed hfirst (.failed hsecond (.event (.move (.unstall 0)) trivial (.now _)))
  have hnever : stuck.Waits 0 _ := .event (.move (.unstall 0)) trivial (.now _)
  refine ⟨b, s, undos, stop, up, session, hasks, (hretried 0 _ (.now _)).2.2.1 ?_,
    ⟨_, htwice, (hretried 2 _ htwice).2.2.2 ?_⟩, _, hnever, (hretried 0 _ hnever).2.2.2 ?_⟩
  · rw [hpump]
    decide +kernel
  · rw [hpump]
    decide +kernel
  · rw [hpump]
    decide +kernel

end Orchestrator
end CameraPipeline
