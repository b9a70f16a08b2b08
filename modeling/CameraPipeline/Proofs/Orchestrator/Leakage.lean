import CameraPipeline.Proofs.Orchestrator.Census
import CameraPipeline.Proofs.Plant.Cover

/-!
No leak is silent. Whatever is injected and however the pumps behave, a command that answers that
all is well leaves every channel and every link of the server covered by the stacks of the
pipeline. So when all commands answered so and no pipeline stands, the server is empty.
-/

namespace CameraPipeline

open Plant

namespace Plant

variable {p q : Plant} {make : PumpMaker} {below : List Undo}

theorem openRecord_covers {attr : PipelineAttr} {vi venc : Handle} {s : RecordSession}
    (hc : Covers below p.server.circuit)
    (ho : p.openRecord make attr vi venc = (.ok s, q)) :
    Covers (s.stack.steps ++ below) q.server.circuit :=
  (Build.climbs_record make attr vi venc).covers hc (construct_of_openRecord ho)

theorem openPhoto_covers {vi jpeg : Handle} {max : UInt32} {s : PhotoSession}
    (hc : Covers below p.server.circuit) (ho : p.openPhoto make vi jpeg max = (.ok s, q)) :
    Covers (s.stack.steps ++ below) q.server.circuit :=
  (Build.climbs_photo make vi jpeg max).covers hc (construct_of_openPhoto ho)

theorem build_covers {attr : PipelineAttr} {b : Built} (hc : Covers [] p.server.circuit)
    (ho : p.build make attr = (.ok b, q)) : Covers b.steps q.server.circuit := by
  simp only [build] at ho
  split at ho
  · cases ho
  · rename_i handles base p' hcons
    have hbase := (Build.climbs_base make attr).covers hc hcons
    rw [List.append_nil] at hbase
    split at ho
    · split at ho <;> cases ho
      rename_i hopen
      exact openRecord_covers hbase hopen
    · cases ho
      exact hbase

theorem unwindSession_covers (s : Option Stack)
    (hc : Covers (s.elim [] (·.steps) ++ below) p.server.circuit)
    (he : (unwindSession s p).1 = []) : Covers below (unwindSession s p).2.server.circuit := by
  cases s with
  | none => exact hc
  | some s => exact s.unwind_covers hc he

theorem tearDown_covers (b : Built) (hc : Covers b.steps p.server.circuit)
    (he : (b.tearDown p).1 = []) : Covers [] (b.tearDown p).2.server.circuit := by
  have hsteps : b.steps = (b.photo.map (·.stack)).elim [] (·.steps) ++
      ((b.record.map (·.stack)).elim [] (·.steps) ++ (b.base.steps ++ [])) := by
    simp only [Built.steps, List.append_nil, List.append_assoc]
    cases b.photo <;> cases b.record <;> rfl
  rw [hsteps] at hc
  simp only [Built.tearDown, List.append_eq_nil_iff] at he
  obtain ⟨⟨hphoto, hrecord⟩, hbase⟩ := he
  exact b.base.unwind_covers
    (unwindSession_covers _ (unwindSession_covers _ hc hphoto) hrecord) hbase

end Plant

namespace Orchestrator

open CommandAction

/-- What there is on the server, the stacks of the pipeline undo. -/
def Covered (o : Orchestrator) : Prop := Covers (o.built.elim [] Built.steps) o.plant.server.circuit

variable {o o' : Orchestrator} {changed : Bool}

theorem Covered.up {b : Built} (hc : o.Covered) (up : o.built = some b) :
    Covers b.steps o.plant.server.circuit := by
  rwa [Covered, up] at hc

theorem Covered.down (hc : o.Covered) (down : o.built = none) :
    Covers [] o.plant.server.circuit := by
  rwa [Covered, down] at hc

theorem Covered.quiet (hc : o.Covered) (hs : Steps Change.IsQuiet o.plant o'.plant)
    (hb : o'.built = o.built) : o'.Covered := by
  rwa [Covered, hb, hs.circuit]

theorem init_covered (hc : o.Covered) (h : init o = .ok changed o') : o'.Covered := by
  rw [init_eq] at h
  split at h
  · cases h
    exact hc
  · rename_i hup
    have down : o.built = none := by simpa [isBuilt] using hup
    split at h
    · cases h
    · dsimp only at h
      split at h <;> cases h
      exact build_covers (hc.down down) ‹_›

theorem deinit_covered (hc : o.Covered) (h : deinit o = .ok changed o') : o'.Covered := by
  rw [deinit_eq] at h
  split at h
  · cases h
    exact hc
  · rename_i b up
    dsimp only at h
    split at h <;> cases h
    exact tearDown_covers b (hc.up up) (firstError_ok ‹_›)

theorem reconfigure_covered {key value : String} (hc : o.Covered)
    (h : reconfigure key value o = .ok changed o') : o'.Covered := by
  cases reconfigure_eq_ok h with
  | inl heq =>
      subst heq
      exact hc
  | inr hcase =>
      obtain ⟨_, _, o₁, hd, hi⟩ := hcase
      have hasked : Covered { o with params := o.params.insert key value } := hc
      exact init_covered (deinit_covered hasked hd) hi

theorem setChoice_covered {α : Type} [DecidableEq α] [FromText α] [ToText α] {key : String}
    {default value : α} (hc : o.Covered) (h : setChoice key default value o = .ok changed o') :
    o'.Covered := by
  rw [setChoice_eq] at h
  split at h
  · cases h
  · split at h
    · cases h
      exact hc
    · exact reconfigure_covered hc h

theorem setSwitch_covered {key : String} {on : Bool} (hc : o.Covered)
    (h : setSwitch key on o = .ok changed o') : o'.Covered := by
  rw [setSwitch_eq] at h
  split at h
  · cases h
  · split at h
    · cases h
      exact hc
    · exact reconfigure_covered hc h

/-- Setting attributes changes neither the channels nor the links. -/
theorem setSmartAe_covered {on : Bool} (hc : o.Covered) (h : setSmartAe on o = .ok changed o') :
    o'.Covered := by
  rw [setSmartAe_eq] at h
  split at h
  · cases h
  · dsimp only at h
    split at h
    · cases h
      exact hc
    · split at h
      · cases h
        exact hc
      · rename_i b up
        split at h <;> cases h
        rename_i ho
        have hb := hc.up up
        refine ⟨fun k hk => ?_, fun l hl => ?_, hb.returns⟩
        · rw [(ask_ok ho).2] at hk
          exact hb.live k (Circuit.live_modify.mp hk)
        · rw [(ask_ok ho).2] at hl
          exact hb.linked l hl

theorem startRecord_covered (hc : o.Covered) (h : startRecord o = .ok changed o') :
    o'.Covered := by
  rw [startRecord_eq] at h
  split at h
  · cases h
  · rename_i b up
    split at h
    · cases h
    · rename_i free
      split at h
      · cases h
        exact hc
      · cases h
        exact hc
      · rename_i main _ idle
        split at h <;> cases h
        rename_i ho
        have hopen := openRecord_covers (hc.up up) ho
        refine hopen.of_requests fun r => ?_
        simp [Built.steps, idle, or_left_comm]

theorem stopRecord_covered (hc : o.Covered) (h : stopRecord o = .ok changed o') : o'.Covered := by
  rw [stopRecord_eq] at h
  split at h
  · cases h
    exact hc
  · rename_i b up
    split at h
    · cases h
      exact hc
    · rename_i session hs
      dsimp only at h
      split at h
      · cases h
      · split at h <;> cases h
        rename_i he
        let below := b.photo.elim [] (·.stack.steps) ++ b.base.steps
        have hstack : Covers (session.stack.steps ++ below) o.plant.server.circuit :=
          (hc.up up).of_requests fun r => by simp [Built.steps, hs, below, or_left_comm]
        have hstopped := session.stack.stopPumps_covers hstack
        have hdone := Stack.unwind_covers _ hstopped (firstError_ok he)
        exact hdone.of_requests fun r => by simp [Built.steps, below]

theorem closePhoto_covered {b : Built} {session : PhotoSession} {u : Unit} (hc : o.Covered)
    (up : o.built = some b) (hs : b.photo = some session)
    (h : closePhoto b session o = .ok u o') : o'.Covered := by
  rw [closePhoto_eq] at h
  dsimp only at h
  split at h <;> cases h
  rename_i he
  let below := b.record.elim [] (·.stack.steps) ++ b.base.steps
  have hstack : Covers (session.stack.steps ++ below) o.plant.server.circuit :=
    (hc.up up).of_requests fun r => by simp [Built.steps, hs, below]
  exact Stack.unwind_covers _ hstack (firstError_ok he)

theorem stopPhoto_covered (hc : o.Covered) (h : stopPhoto o = .ok changed o') : o'.Covered := by
  rw [stopPhoto_eq] at h
  split at h
  · cases h
    exact hc
  · rename_i b up
    split at h
    · cases h
      exact hc
    · rename_i session hs
      dsimp only at h
      split at h
      · split at h <;> cases h
        rename_i hclose
        have hw : Covered { o with plant := (session.isDrained o.plant).2 } :=
          hc.quiet (session.isDrained_steps o.plant) rfl
        exact closePhoto_covered hw up hs hclose
      · cases h

theorem clearPhoto_covered {b : Built} {u : Unit} (hc : o.Covered) (up : o.built = some b)
    (h : clearPhoto o b = .ok u o') : o'.Covered := by
  rw [clearPhoto] at h
  split at h
  · cases h
    exact hc
  · rename_i previous hs
    dsimp only at h
    split at h
    · have hw : Covered { o with plant := (previous.isDrained o.plant).2 } :=
        hc.quiet (previous.isDrained_steps o.plant) rfl
      exact closePhoto_covered hw up hs h
    · cases h

theorem startPhoto_covered {count : UInt32} (hc : o.Covered)
    (h : startPhoto count o = .ok changed o') : o'.Covered := by
  rw [startPhoto_eq] at h
  split at h
  · cases h
  · rename_i b up
    split at h
    · cases h
    · split at h
      · cases h
      · split at h
        · cases h
        · split at h
          · cases h
          · rename_i o₁ hclear
            have hb := (clearPhoto_covered hc up hclear).up (built_of_clearPhoto o up hclear)
            split at h <;> cases h
            exact (openPhoto_covers hb ‹_›).of_requests fun r => by simp [Built.steps]

/-- A command that answers that all is well leaves nothing uncovered. -/
theorem handle_covered {c : Command} (hc : o.Covered) (h : (o.handle c).1 = .ok changed) :
    (o.handle c).2.Covered := by
  have hrun := run_of_handle_ok h
  cases c with
  | init => exact init_covered hc hrun
  | deinit | enterSleep => exact deinit_covered hc hrun
  | restart =>
      obtain ⟨_, _, o₁, hd, hi⟩ := restart_eq_ok hrun
      exact init_covered (deinit_covered hc hd) hi
  | setMode mode | setEis eis | setHdr hdr => exact setChoice_covered hc hrun
  | setMemc on | setRtsp on => exact setSwitch_covered hc hrun
  | setSmartAe on => exact setSmartAe_covered hc hrun
  | setDebug on => exact hc
  | startRecord => exact startRecord_covered hc hrun
  | stopRecord => exact stopRecord_covered hc hrun
  | startPhoto count => exact startPhoto_covered hc hrun
  | stopPhoto => exact stopPhoto_covered hc hrun

/-- A command is answered that all is well. -/
def answersOk (o : Orchestrator) : Event → Bool
  | .command c => (o.handle c).1.isOk
  | _ => true

/-- All commands of a run are answered that all is well. -/
def allOk (o : Orchestrator) : List Event → Bool
  | [] => true
  | e :: events => o.answersOk e && (o.meet e).allOk events

theorem meet_covered {e : Event} (hc : o.Covered) (h : o.answersOk e) : (o.meet e).Covered := by
  cases e with
  | command c =>
      cases ho : (o.handle c).1 with
      | error e => simp [answersOk, ho, Except.isOk, Except.toBool] at h
      | ok changed => exact handle_covered hc ho
  | write | inject | turns | register | sinks => exact hc
  | move m => exact hc.quiet (.one (.move m) trivial) rfl
  | waitPhoto => exact hc.quiet (waitPhoto_steps o).1 (waitPhoto_steps o).2

theorem after_covered {events : List Event} (hc : o.Covered) (h : o.allOk events) :
    (o.after events).Covered := by
  induction events generalizing o with
  | nil => exact hc
  | cons e events ih =>
      obtain ⟨he, hrest⟩ := Bool.and_eq_true_iff.mp h
      exact ih (meet_covered hc he) hrest

theorem Fresh.covered (hf : o.Fresh) : o.Covered := by
  obtain ⟨n, hs⟩ := hf.server
  rw [Covered, hf.built, hs]
  exact .nothing

/-- Whatever failures were injected and however the pumps behaved: if every command answered that
all is well and no pipeline stands, then nothing lives on the server, nothing is linked and no
unit is out. -/
theorem clear_of_allOk (hf : o.Fresh) {events : List Event} (h : o.allOk events)
    (down : (o.after events).state = .uninitialized) :
    (o.after events).plant.server.live = [] ∧ (o.after events).plant.server.binds = [] ∧
      (o.after events).plant.server.outstanding = 0 := by
  have hb : (o.after events).built = none := state_eq_uninitialized_iff.mp down
  have hc := (after_covered hf.covered h).down hb
  refine Server.clear_of_circuit (fun k hk => ?_) fun l hl => ?_
  · cases hc.live k hk
  · cases hc.linked l hl

/-- A fetch that fails goes unnoticed, and leaves nothing behind. -/
def lostFetch : List Event :=
  [.command .init, .inject ⟨.fetch, none, 1, Nat.one_pos⟩, .move (.advance 0),
    .move (.advance 0), .command .stopRecord, .command .deinit]

theorem clear_of_allOk_lostFetch :
    (bare.after lostFetch).plant.server.live = [] ∧
      (bare.after lostFetch).plant.server.binds = [] ∧
      (bare.after lostFetch).plant.server.outstanding = 0 :=
  clear_of_allOk fresh_bare (by decide +kernel) (by decide +kernel)

/-- A release that fails goes unnoticed too, until its channel is to be destroyed. -/
def lostRelease : List Event :=
  [.command .init, .inject ⟨.release, none, 1, Nat.one_pos⟩, .move (.advance 0),
    .move (.advance 0), .move (.advance 0), .command .stopRecord]

example : ((bare.after lostRelease).handle .deinit).1 =
    .error (.capability (.destroy ⟨.venc, 0⟩) (.busy ⟨.venc, 0⟩)) := by
  decide +kernel

end Orchestrator
end CameraPipeline
