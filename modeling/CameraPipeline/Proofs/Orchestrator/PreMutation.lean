import CameraPipeline.Proofs.Orchestrator.Run

/-!
What errors promise. An error that calls itself pre-mutation comes from a command that left the
server and the state alone, with one exception: a restart plans after the teardown, so a store
that asks for no pipeline leaves a pipeline that stood torn down.
-/

namespace CameraPipeline

open Plant

namespace Plant

variable {p : Plant} {make : PumpMaker} {e : PipelineError}

theorem openRecord_error {attr : PipelineAttr} {vi main : Handle}
    (h : (p.openRecord make attr vi main).1 = .error e) : ∃ r fault, e = .capability r fault := by
  have hr := p.openRecord_meets make (fun _ => True) attr vi main trivial
  cases ho : p.openRecord make attr vi main with
  | mk answer q =>
      rw [ho] at h hr
      cases h
      exact hr.2

theorem openPhoto_error {vi jpeg : Handle} {max : UInt32}
    (h : (p.openPhoto make vi jpeg max).1 = .error e) : ∃ r fault, e = .capability r fault := by
  have hr := p.openPhoto_meets make (fun _ => True) vi jpeg max trivial
  cases ho : p.openPhoto make vi jpeg max with
  | mk answer q =>
      rw [ho] at h hr
      cases h
      exact hr.2

theorem build_error {attr : PipelineAttr} (h : (p.build make attr).1 = .error e) :
    ∃ r fault, e = .capability r fault := by
  have hb := p.build_staffed make True attr
  cases ho : p.build make attr with
  | mk answer q =>
      rw [ho] at h hb
      cases h
      exact hb.2

end Plant

theorem PhotoSession.server_isDrained (s : PhotoSession) (p : Plant) :
    (s.isDrained p).2.server = p.server := by
  simp only [isDrained, waitPump]
  split
  · split <;> rfl
  · rfl

namespace Orchestrator

open CommandAction

/-- No control call was made, and channels, binds, receiving flags and state are as they were. -/
structure Untouched (o o' : Orchestrator) : Prop where
  calls : o'.plant.server.controlCalls = o.plant.server.controlCalls
  live : o'.plant.server.live = o.plant.server.live
  binds : o'.plant.server.binds = o.plant.server.binds
  receiving : ∀ h, o'.plant.server.isReceiving h = o.plant.server.isReceiving h
  state : o'.state = o.state

theorem Untouched.of_server {o o' : Orchestrator} (hs : o'.plant.server = o.plant.server)
    (hst : o'.state = o.state) : o.Untouched o' :=
  ⟨hs ▸ rfl, hs ▸ rfl, hs ▸ rfl, fun _ => hs ▸ rfl, hst⟩

/-- If the result is an error that promises that nothing was touched, then nothing was. -/
def Truthful {α : Type} (o : Orchestrator) (r : EStateM.Result PipelineError Orchestrator α) :
    Prop :=
  ∀ e o', r = .error e o' → e.isPreMutation → o.Untouched o'

section Truthful

variable {α : Type} (o : Orchestrator)

theorem truthful_ok (a : α) (o' : Orchestrator) : o.Truthful (.ok a o') := by
  intro e o'' h
  cases h

theorem truthful_self (e : PipelineError) :
    o.Truthful (.error e o : EStateM.Result PipelineError Orchestrator α) := by
  intro _ _ h _
  cases h
  exact ⟨rfl, rfl, rfl, fun _ => rfl, rfl⟩

theorem truthful_late {e : PipelineError} (he : e.isPreMutation = false) (o' : Orchestrator) :
    o.Truthful (.error e o' : EStateM.Result PipelineError Orchestrator α) := by
  intro _ _ h hp
  cases h
  rw [he] at hp
  cases hp

theorem capability_fails {e : PipelineError} (h : ∃ r fault, e = .capability r fault) :
    e.IsFailure := by
  obtain ⟨r, fault, rfl⟩ := h
  trivial

/-- Where there is a plan, only the server can stop a build. -/
theorem init_fails {attr : PipelineAttr} (hp : o.plan = .ok attr) {e : PipelineError}
    {o' : Orchestrator} (h : init o = .error e o') : e.IsFailure := by
  rw [init_eq] at h
  split at h
  · cases h
  · rw [hp] at h
    dsimp only at h
    split at h <;> rename_i hb <;> cases h
    exact capability_fails (build_error (by rw [hb]))

theorem init_truthful : o.Truthful (init o) := by
  intro e o' h hpre
  cases hp : o.plan with
  | ok attr =>
      rw [(init_fails o hp h).late] at hpre
      cases hpre
  | error cfg =>
      rw [init_eq, hp] at h
      split at h
      · cases h
      · exact truthful_self o _ _ _ h hpre

theorem deinit_fails {e : PipelineError} {o' : Orchestrator} (h : deinit o = .error e o') :
    e.IsFailure := by
  rw [deinit_eq] at h
  split at h
  · cases h
  · rename_i b _
    dsimp only at h
    split at h <;> rename_i he <;> cases h
    exact b.tearDown_errors o.plant _ (firstError_mem he)

theorem deinit_truthful : o.Truthful (deinit o) := by
  intro e o' h hpre
  rw [(deinit_fails o h).late] at hpre
  cases hpre

theorem startRecord_truthful : o.Truthful (startRecord o) := by
  rw [startRecord_eq]
  split
  · exact truthful_self o _
  · split
    · exact truthful_self o _
    · split
      · exact truthful_ok o _ _
      · exact truthful_ok o _ _
      · split <;> rename_i hr
        · exact truthful_late o (capability_fails (openRecord_error (by rw [hr]))).late _
        · exact truthful_ok o _ _

theorem stopRecord_truthful : o.Truthful (stopRecord o) := by
  rw [stopRecord_eq]
  split
  · exact truthful_ok o _ _
  · split
    · exact truthful_ok o _ _
    · rename_i session _
      dsimp only
      split <;> rename_i hl
      · obtain ⟨late, rfl⟩ := Stack.stopEach_errors o.plant session.stack.steps _
          (firstError_mem hl)
        exact truthful_late o rfl _
      · split <;> rename_i he
        · exact truthful_late o (Stack.unwind_errors _ _ _ (firstError_mem he)).late _
        · exact truthful_ok o _ _

theorem closePhoto_late {b : Built} {session : PhotoSession} {e : PipelineError}
    {o' : Orchestrator} (h : closePhoto b session o = .error e o') : e.isPreMutation = false := by
  rw [closePhoto_eq] at h
  dsimp only at h
  split at h <;> rename_i he <;> cases h
  exact (session.stack.unwind_errors o.plant _ (firstError_mem he)).late

theorem stopPhoto_truthful : o.Truthful (stopPhoto o) := by
  rw [stopPhoto_eq]
  split
  · exact truthful_ok o _ _
  · split
    · exact truthful_ok o _ _
    · rename_i session _
      dsimp only
      split
      · split <;> rename_i hc
        · exact truthful_ok o _ _
        · exact truthful_late o (closePhoto_late _ hc) _
      · intro _ _ heq _
        cases heq
        exact .of_server (session.server_isDrained o.plant) rfl

theorem clearPhoto_truthful (b : Built) : o.Truthful (clearPhoto o b) := by
  rw [clearPhoto]
  split
  · exact truthful_ok o _ _
  · rename_i previous _
    dsimp only
    split
    · intro e o' h hp
      rw [closePhoto_late _ h] at hp
      cases hp
    · intro _ _ heq _
      cases heq
      exact .of_server (previous.server_isDrained o.plant) rfl

theorem startPhoto_truthful (count : UInt32) : o.Truthful (startPhoto count o) := by
  rw [startPhoto_eq]
  split
  · exact truthful_self o _
  · rename_i b _
    split
    · exact truthful_self o _
    · split
      · exact truthful_self o _
      · split
        · exact truthful_self o _
        · have hclear := clearPhoto_truthful o b
          split <;> rename_i hc
          · rw [hc] at hclear
            intro _ _ heq hp
            cases heq
            exact hclear _ _ rfl hp
          · split <;> rename_i hr
            · exact truthful_late o (capability_fails (openPhoto_error (by rw [hr]))).late _
            · exact truthful_ok o _ _

theorem setSmartAe_truthful (on : Bool) : o.Truthful (setSmartAe on o) := by
  rw [setSmartAe_eq]
  split
  · exact truthful_self o _
  · dsimp only
    split
    · exact truthful_ok o _ _
    · split
      · exact truthful_ok o _ _
      · split
        · exact truthful_late o rfl _
        · exact truthful_ok o _ _

/-- A teardown leaves the store, so what was planned before it is planned after it. -/
theorem plan_left_deinit : (left (deinit o)).plan = o.plan := by
  rw [left_deinit]
  split <;> rfl

theorem isBuilt_left_deinit : (left (deinit o)).isBuilt = false := by
  rw [left_deinit]
  split
  · simpa [isBuilt]
  · rfl

theorem reconfigure_truthful (key value : String) : o.Truthful (reconfigure key value o) := by
  rw [reconfigure_eq]
  dsimp only
  split
  · exact truthful_self o _
  · rename_i attr hp
    split
    · split
      · exact truthful_late o (deinit_fails _ ‹_›).late _
      · rename_i hi
        exact truthful_late o (init_fails _ ((plan_left_deinit _).trans hp) hi).late _
      · exact truthful_ok o _ _
    · exact truthful_ok o _ _

theorem setChoice_truthful {α : Type} [DecidableEq α] [FromText α] [ToText α] (key : String)
    (default value : α) : o.Truthful (setChoice key default value o) := by
  rw [setChoice_eq]
  split
  · exact truthful_self o _
  · split
    · exact truthful_ok o _ _
    · exact reconfigure_truthful o key _

theorem setSwitch_truthful (key : String) (on : Bool) : o.Truthful (setSwitch key on o) := by
  rw [setSwitch_eq]
  split
  · exact truthful_self o _
  · split
    · exact truthful_ok o _ _
    · exact reconfigure_truthful o key _

/-- A restart promises that nothing was touched just where the store asks for no pipeline; a
pipeline that stood is down by then. -/
theorem restart_error {e : PipelineError} {o' : Orchestrator} (h : restart o = .error e o')
    (hp : e.isPreMutation) :
    o' = left (deinit o) ∧ ∃ cfg, o.plan = .error cfg ∧ e = .config cfg := by
  rw [restart_eq] at h
  split at h
  · rename_i e' o'' hi
    cases h
    rw [init_eq, isBuilt_left_deinit, plan_left_deinit] at hi
    simp only [Bool.false_eq_true, if_false] at hi
    split at hi
    · rename_i cfg hplan
      cases hi
      exact ⟨rfl, cfg, hplan, rfl⟩
    · split at hi <;> rename_i hb <;> cases hi
      rw [(capability_fails (build_error (by rw [hb]))).late] at hp
      cases hp
  · split at h <;> rename_i hd <;> cases h
    rw [(deinit_fails _ hd).late] at hp
    cases hp

theorem restart_truthful (hb : o.isBuilt = false) : o.Truthful (restart o) := by
  intro e o' h hp
  obtain ⟨rfl, _⟩ := restart_error o h hp
  rw [left_deinit]
  have hb : o.built = none := by simpa [isBuilt] using hb
  rw [hb]
  exact ⟨rfl, rfl, rfl, fun _ => rfl, rfl⟩

/-- Every command keeps the promise of its errors but the restart of a pipeline that stands. -/
theorem run_truthful (c : Command) (hc : ¬(c = .restart ∧ o.isBuilt)) : o.Truthful (run c o) := by
  cases c with
  | init => exact init_truthful o
  | deinit | enterSleep => exact deinit_truthful o
  | restart => exact restart_truthful o (by simpa using hc)
  | setMode | setEis | setHdr => exact setChoice_truthful o _ _ _
  | setMemc | setRtsp => exact setSwitch_truthful o _ _
  | setSmartAe on => exact setSmartAe_truthful o on
  | setDebug on => exact truthful_ok o _ _
  | startRecord => exact startRecord_truthful o
  | stopRecord => exact stopRecord_truthful o
  | startPhoto count => exact startPhoto_truthful o count
  | stopPhoto => exact stopPhoto_truthful o

end Truthful

/-- A pre-mutation error tells the truth, unless a pipeline that stood was to be restarted. Then
the store asks for no pipeline, and the one that stood is down. -/
theorem handle_preMutation {o : Orchestrator} {c : Command} {e : PipelineError}
    (h : (o.handle c).1 = .error e) (hp : e.isPreMutation) :
    (o.Untouched (o.handle c).2 ↔ ¬(c = .restart ∧ o.isBuilt)) ∧
      (c = .restart → o.isBuilt → (o.handle c).2.state = .uninitialized ∧
        ∃ cfg, o.plan = .error cfg ∧ e = .config cfg) := by
  have hrun := run_of_handle_error h
  have hdown : c = .restart → o.isBuilt → (o.handle c).2.state = .uninitialized ∧
      ∃ cfg, o.plan = .error cfg ∧ e = .config cfg := by
    intro heq hb
    subst heq
    obtain ⟨ho, hcfg⟩ := restart_error o hrun hp
    have hn : (o.handle .restart).2.built = none := by
      simpa [ho, isBuilt] using isBuilt_left_deinit o
    exact ⟨by simp [state, hn], hcfg⟩
  refine ⟨⟨fun hu => ?_, fun hc => run_truthful o c hc e _ hrun hp⟩, hdown⟩
  intro hex
  obtain ⟨rfl, hb⟩ := hex
  have hs := hu.state
  rw [(hdown rfl hb).1] at hs
  obtain ⟨b, hb⟩ := Option.isSome_iff_exists.mp hb
  simp [state, hb] at hs

/-- A build, and then a store that asks for a stabilization that there is not. -/
def spoiledStore : List Event :=
  [.command .init, .write (Table.empty.insert Selection.eisKey "horizon_steady")]

theorem restart_spoiledStore :
    ((bare.after spoiledStore).handle .restart).1 =
      .error (.config (.unsupportedEis .horizonSteady)) := by
  rfl

theorem handle_preMutation_spoiledStore :
    ((bare.after spoiledStore).Untouched ((bare.after spoiledStore).handle .restart).2 ↔
      ¬(Command.restart = .restart ∧ (bare.after spoiledStore).isBuilt)) ∧
    (Command.restart = .restart → (bare.after spoiledStore).isBuilt →
      ((bare.after spoiledStore).handle .restart).2.state = .uninitialized ∧
        ∃ cfg, (bare.after spoiledStore).plan = .error cfg ∧
          (.config (.unsupportedEis .horizonSteady) : PipelineError) = .config cfg) :=
  handle_preMutation restart_spoiledStore rfl

/-- Not every pre-mutation error leaves the pipeline alone. -/
theorem not_untouched_of_preMutation :
    ¬∀ (events : List Event) (c : Command) (e : PipelineError),
      ((bare.after events).handle c).1 = .error e → e.isPreMutation →
        (bare.after events).Untouched ((bare.after events).handle c).2 := by
  intro h
  have hs := (h spoiledStore .restart _ restart_spoiledStore rfl).state
  revert hs
  decide +kernel

end Orchestrator
end CameraPipeline
