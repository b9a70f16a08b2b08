import CameraPipeline.Proofs.Media.Plan
import CameraPipeline.Proofs.Orchestrator.Equipment
import CameraPipeline.Proofs.Orchestrator.FirstFailure

/-!
Store and pipeline say the same. While nobody else writes to the store, a pipeline that stands has
the attributes that a plan from the store would give it now, records just if the plan says so, and
its channels have these attributes on the server. This holds on every way of changing a parameter,
by a rebuild, on the live input, or by starting and stopping the recording, whether or not it
succeeds. So a restart builds the same pipeline again.
-/

namespace CameraPipeline

open Plant

/-- Nobody but the commands writes to the store. -/
def Event.LeavesStore : Event → Prop
  | write _ => False
  | _ => True

/-- The pipeline is the one that the store asks for, and records just if the store says so. -/
def Built.Planned (b : Built) (p : Params) (buffers : Buffers) : Prop :=
  ∃ attr, PipelineAttr.plan p buffers = .ok attr ∧
    b.attr = { attr with recordOnInit := b.attr.recordOnInit } ∧
    b.record.isSome = attr.recordOnInit

namespace Built.Planned

variable {b b' : Built} {p : Params} {buffers : Buffers}

theorem of_same (h : b.Planned p buffers) (ha : b'.attr = b.attr)
    (hr : b'.record.isSome = b.record.isSome) : b'.Planned p buffers := by
  obtain ⟨attr, hp, hattr, hrecord⟩ := h
  exact ⟨attr, hp, ha ▸ hattr, hr.trans hrecord⟩

theorem setSmartAe (h : b.Planned p buffers) (on : Bool) :
    Planned { b with attr := { b.attr with vi := { b.attr.vi with smartAe := on } } }
      (p.insert PipelineAttr.smartAeKey (Params.switchText on)) buffers := by
  obtain ⟨attr, hp, hattr, hrecord⟩ := h
  refine ⟨_, PipelineAttr.plan_insert_smartAe hp on, ?_, hrecord⟩
  dsimp only
  rw [hattr]

theorem setRecord (h : b.Planned p buffers) (record : Option RecordSession)
    (hm : record.isSome → b.attr.main.isSome) :
    Planned { b with record }
      (p.insert PipelineAttr.enableRecordKey (Params.switchText record.isSome)) buffers := by
  obtain ⟨attr, hp, hattr, _⟩ := h
  refine ⟨_, PipelineAttr.plan_insert_enableRecord hp record.isSome, ?_, ?_⟩
  · dsimp only
    rw [hattr]
  · have hmain : b.attr.main = attr.main := by rw [hattr]
    rw [hmain] at hm
    cases record with
    | none => simp
    | some r => simp [hm rfl]

end Built.Planned

namespace Orchestrator

open CommandAction

variable {o o' : Orchestrator}

/-- The pipeline is the one that the store asks for, and the server has its channels. -/
def Coherent (o : Orchestrator) : Prop :=
  ∀ b, o.built = some b → b.Planned o.params o.buffers ∧ ∃ l : Layout, l.Equips b o.plant.server

theorem Coherent.of_down (down : o.built = none) : o.Coherent := by
  intro b hb
  rw [down] at hb
  cases hb

/-- Coherence is about the store, the pipeline and the attributes of channels alone. -/
theorem Coherent.transport (hc : o.Coherent) (hb : o'.built = o.built)
    (hp : o'.params = o.params) (hbuf : o'.buffers = o.buffers)
    (ht : ∀ h v, o.plant.server.attrOf h = some v → o'.plant.server.attrOf h = some v) :
    o'.Coherent := by
  intro b heq
  obtain ⟨hplan, l, he⟩ := hc b (hb ▸ heq)
  exact ⟨hp ▸ hbuf ▸ hplan, l, he.transport fun h v _ => ht h v⟩

theorem init_coherent (hc : o.Coherent) (hn : o.plant.server.Numbered) :
    (left (init o)).Coherent := by
  rw [init_eq]
  split
  · exact hc
  · rename_i hup
    have down : o.built = none := by simpa [isBuilt] using hup
    split
    · exact hc
    · rename_i attr hp
      dsimp only
      split
      · rename_i b plant ho
        obtain ⟨hattr, hrecord, l, he⟩ := build_equips hn ho
        intro _ heq
        cases heq
        refine ⟨⟨attr, PipelineAttr.plan_writeBack hp _, ?_, ?_⟩, l, he⟩
        · rw [hattr]
        · rw [hrecord, PipelineAttr.main_and_recordOnInit hp]
      · exact .of_down down

theorem numbered_left_deinit (hn : o.plant.server.Numbered) :
    (left (deinit o)).plant.server.Numbered := by
  rw [left_deinit]
  split
  · exact hn
  · rename_i b _
    have hstaffed : Staffed o.makePump True o.plant _ := b.tearDown_staffed o.plant
    exact hstaffed.numbered hn

/-- What is built anew is coherent, whatever stood before. -/
theorem rebuild_coherent (hn : o.plant.server.Numbered) :
    (left (init (left (deinit o)))).Coherent :=
  init_coherent (.of_down (built_left_deinit o)) (numbered_left_deinit hn)

theorem restart_coherent (hn : o.plant.server.Numbered) : (left (restart o)).Coherent := by
  have h : (left (init (left (deinit o)))).Coherent := rebuild_coherent hn
  rw [restart_eq]
  split <;> rename_i hi <;> rw [hi] at h
  · exact h
  · split <;> exact h

theorem reconfigure_coherent {key value : String} (hc : o.Coherent)
    (hn : o.plant.server.Numbered) : (left (reconfigure key value o)).Coherent := by
  let asked := { o with params := o.params.insert key value }
  have h : (left (init (left (deinit asked)))).Coherent := rebuild_coherent hn
  rw [reconfigure_eq]
  dsimp only
  split
  · exact hc
  · split
    · split <;> rename_i hi
      · exact h
      · rw [hi] at h
        exact h
      · rw [hi] at h
        exact h
    · rename_i hup
      exact .of_down (by simpa [isBuilt] using hup)

theorem setChoice_coherent {α : Type} [DecidableEq α] [FromText α] [ToText α] {key : String}
    {default value : α} (hc : o.Coherent) (hn : o.plant.server.Numbered) :
    (left (setChoice key default value o)).Coherent := by
  rw [setChoice_eq]
  split
  · exact hc
  · split
    · exact hc
    · exact reconfigure_coherent hc hn

theorem setSwitch_coherent {key : String} {on : Bool} (hc : o.Coherent)
    (hn : o.plant.server.Numbered) : (left (setSwitch key on o)).Coherent := by
  rw [setSwitch_eq]
  split
  · exact hc
  · split
    · exact hc
    · exact reconfigure_coherent hc hn

theorem setSmartAe_coherent {on : Bool} (hc : o.Coherent) (hn : o.plant.server.Numbered) :
    (left (setSmartAe on o)).Coherent := by
  rw [setSmartAe_eq]
  split
  · exact hc
  · dsimp only
    split
    · exact hc
    · split
      · rename_i down
        exact .of_down down
      · rename_i b up
        obtain ⟨hplan, l, he⟩ := hc b up
        have hset := he.setInput hn { b.attr.vi with smartAe := on }
        split <;> rename_i ho <;> rw [ho] at hset
        · intro _ heq
          cases up.symm.trans heq
          exact ⟨hplan, l, hset⟩
        · intro _ heq
          cases heq
          exact ⟨hplan.setSmartAe on, l, hset⟩

theorem startRecord_coherent (hc : o.Coherent) (hn : o.plant.server.Numbered) :
    (left (startRecord o)).Coherent := by
  rw [startRecord_eq]
  split
  · exact hc
  · rename_i b up
    obtain ⟨hplan, l, he⟩ := hc b up
    split
    · exact hc
    · split
      · exact hc
      · exact hc
      · rename_i main encoder _
        split <;> rename_i ho
        · intro _ heq
          cases up.symm.trans heq
          exact ⟨hplan, l, he.openRecord_fails hn ho⟩
        · rename_i session _
          obtain ⟨gdc, rgn, hopen⟩ := he.openRecord hn encoder ho
          have hmain : b.attr.main.isSome := by
            rw [← he.fits.main.1, he.main, encoder]
            rfl
          intro _ heq
          cases heq
          exact ⟨hplan.setRecord (some session) fun _ => hmain, _, hopen⟩

theorem stopRecord_coherent (hc : o.Coherent) (hn : o.plant.server.Numbered) :
    (left (stopRecord o)).Coherent := by
  rw [stopRecord_eq]
  split
  · exact hc
  · rename_i b up
    obtain ⟨hplan, l, he⟩ := hc b up
    split
    · exact hc
    · rename_i session hs
      dsimp only
      split
      · intro _ heq
        cases heq
        exact ⟨hplan.of_same rfl (by simp [hs]), l, he.stopRecord hn hs⟩
      · have hq := Stack.stopEach_steps o.plant session.stack.steps
        have hclose := (he.quiet hn hq).closeRecord (hq.numbered hn)
          ((he.record session hs).stopPumps o.plant)
        have hdone : (fun o' : Orchestrator => o'.Coherent) { o with
            plant := ((session.stack.stopPumps o.plant).2.1.unwind
              (session.stack.stopPumps o.plant).2.2).2
            params := o.params.insert PipelineAttr.enableRecordKey "0"
            built := some { b with record := none } } := by
          intro _ heq
          cases heq
          exact ⟨hplan.setRecord none nofun, _, hclose⟩
        split <;> exact hdone

theorem closePhoto_coherent {b : Built} {session : PhotoSession} (hc : o.Coherent)
    (hn : o.plant.server.Numbered) (up : o.built = some b) (hs : b.photo = some session) :
    (left (closePhoto b session o)).Coherent := by
  obtain ⟨hplan, l, he⟩ := hc b up
  have hdone : (fun o' : Orchestrator => o'.Coherent) { o with
      plant := (session.stack.unwind o.plant).2
      built := some { b with photo := none } } := by
    intro _ heq
    cases heq
    exact ⟨hplan.of_same rfl rfl, l, he.closePhoto hn (he.photo session hs)⟩
  rw [closePhoto_eq]
  dsimp only
  split <;> exact hdone

theorem isDrained_coherent (session : PhotoSession) (hc : o.Coherent)
    (hn : o.plant.server.Numbered) :
    Coherent { o with plant := (session.isDrained o.plant).2 } ∧
      (session.isDrained o.plant).2.server.Numbered :=
  have hs := session.isDrained_steps o.plant
  ⟨hc.transport rfl rfl rfl fun _ _ => hs.attrOf_quiet hn, hs.numbered hn⟩

theorem stopPhoto_coherent (hc : o.Coherent) (hn : o.plant.server.Numbered) :
    (left (stopPhoto o)).Coherent := by
  rw [stopPhoto_eq]
  split
  · exact hc
  · rename_i b up
    split
    · exact hc
    · rename_i session hs
      obtain ⟨hwait, hn⟩ := isDrained_coherent session hc hn
      have hclose := closePhoto_coherent hwait hn up hs
      dsimp only
      split
      · split <;> rename_i ho <;> rw [ho] at hclose <;> exact hclose
      · exact hwait

theorem clearPhoto_coherent {b : Built} (hc : o.Coherent) (hn : o.plant.server.Numbered)
    (up : o.built = some b) : (left (clearPhoto o b)).Coherent := by
  rw [clearPhoto]
  split
  · exact hc
  · rename_i previous hs
    obtain ⟨hwait, hn⟩ := isDrained_coherent previous hc hn
    dsimp only
    split
    · exact closePhoto_coherent hwait hn up hs
    · exact hwait

theorem startPhoto_coherent {count : UInt32} (hc : o.Coherent) (hk : o.Kinded)
    (hn : o.plant.server.Numbered) : (left (startPhoto count o)).Coherent := by
  rw [startPhoto_eq]
  split
  · exact hc
  · rename_i b up
    have hclear := clearPhoto_coherent hc hn up
    have htransitions : Transitions True o _ := clearPhoto_transitions o up
    have hsteps := (htransitions.staffed hk).2
    split
    · exact hc
    · split
      · exact hc
      · split
        · exact hc
        · split <;> rename_i o₁ hco <;> rw [hco] at hclear hsteps
          · exact hclear
          · have hb := built_of_clearPhoto o up hco
            obtain ⟨hplan, l, he⟩ := hclear _ hb
            have hn₁ : o₁.plant.server.Numbered := hsteps.numbered hn
            split <;> rename_i ho
            · intro _ heq
              cases hb.symm.trans heq
              exact ⟨hplan, l, he.openPhoto_fails hn₁ ho⟩
            · intro _ heq
              cases heq
              exact ⟨hplan.of_same rfl rfl, l, he.openPhoto hn₁ ho⟩

/-- Commands keep store and pipeline in step, whatever they come to. -/
theorem run_coherent (c : Command) (hc : o.Coherent) (hk : o.Kinded)
    (hn : o.plant.server.Numbered) : (left (run c o)).Coherent := by
  cases c with
  | init => exact init_coherent hc hn
  | deinit | enterSleep => exact .of_down (built_left_deinit o)
  | restart => exact restart_coherent hn
  | setMode mode | setEis eis | setHdr hdr => exact setChoice_coherent hc hn
  | setMemc on | setRtsp on => exact setSwitch_coherent hc hn
  | setSmartAe on => exact setSmartAe_coherent hc hn
  | setDebug on => exact hc
  | startRecord => exact startRecord_coherent hc hn
  | stopRecord => exact stopRecord_coherent hc hn
  | startPhoto count => exact startPhoto_coherent hc hk hn
  | stopPhoto => exact stopPhoto_coherent hc hn

theorem meet_numbered {e : Event} (hk : o.Kinded) (hn : o.plant.server.Numbered) :
    (o.meet e).plant.server.Numbered := by
  cases e with
  | command c => exact ((handle_transitions o c).staffed hk).2.numbered hn
  | write | inject | turns | register | sinks => exact hn
  | move m => exact Steps.numbered (.one (P := Change.IsQuiet) (.move m) trivial) hn
  | waitPhoto => exact (waitPhoto_steps o).1.numbered hn

theorem waitPhoto_frame (o : Orchestrator) :
    o.waitPhoto.2.params = o.params ∧ o.waitPhoto.2.buffers = o.buffers := by
  simp only [waitPhoto]
  split <;> exact ⟨rfl, rfl⟩

theorem meet_coherent {e : Event} (he : e.LeavesStore) (hc : o.Coherent) (hk : o.Kinded)
    (hn : o.plant.server.Numbered) : (o.meet e).Coherent := by
  cases e with
  | command c =>
      rw [meet, ← left_run]
      exact run_coherent c hc hk hn
  | write => exact he.elim
  | inject | turns | register | sinks => exact hc.transport rfl rfl rfl fun _ _ => id
  | move m =>
      have hs : Steps Change.IsQuiet o.plant (o.plant.move m) := .one (.move m) trivial
      exact hc.transport rfl rfl rfl fun _ _ => hs.attrOf_quiet hn
  | waitPhoto =>
      obtain ⟨hs, hb⟩ := waitPhoto_steps o
      obtain ⟨hp, hbuf⟩ := waitPhoto_frame o
      exact hc.transport hb hp hbuf fun _ _ => hs.attrOf_quiet hn

theorem Fresh.numbered (hf : o.Fresh) : o.plant.server.Numbered := by
  obtain ⟨n, hs⟩ := hf.server
  rw [hs]
  intro h hl
  cases hl

theorem after_coherent (hf : o.Fresh) {events : List Event}
    (he : ∀ e ∈ events, e.LeavesStore) :
    (o.after events).Coherent ∧ (o.after events).plant.server.Numbered := by
  have hi := after_keeps (I := fun o => o.Coherent ∧ o.Kinded ∧ o.plant.server.Numbered)
    (fun o e hleaves hi =>
      ⟨meet_coherent hleaves hi.1 hi.2.1 hi.2.2, meet_kinded e hi.2.1, meet_numbered hi.2.1 hi.2.2⟩)
    he ⟨.of_down hf.built, hf.kinded, hf.numbered⟩
  exact ⟨hi.1, hi.2.2⟩

theorem restart_fails {attr : PipelineAttr} {e : PipelineError} {o' : Orchestrator}
    (hp : o.plan = .ok attr) (h : restart o = .error e o') : e.IsFailure := by
  rw [restart_eq] at h
  split at h
  · rename_i hi
    cases h
    exact init_fails _ ((plan_left_deinit o).trans hp) hi
  · split at h <;> rename_i hd <;> cases h
    exact deinit_fails o hd

theorem restart_builds {attr : PipelineAttr} {changed : Bool} {o' : Orchestrator}
    (hn : o.plant.server.Numbered) (hp : o.plan = .ok attr) (h : restart o = .ok changed o') :
    ∃ b, o'.built = some b ∧ b.attr = attr ∧ b.record.isSome = attr.recordOnInit := by
  obtain ⟨_, _, o₁, hd, hi⟩ := restart_eq_ok h
  have hleft : left (deinit o) = o₁ := by rw [hd]; rfl
  have down : o₁.built = none := hleft ▸ built_left_deinit o
  have hn₁ : o₁.plant.server.Numbered := hleft ▸ numbered_left_deinit hn
  have hp₁ : o₁.plan = .ok attr := hleft ▸ (plan_left_deinit o).trans hp
  rw [init_eq, if_neg (by simp [isBuilt, down]), hp₁] at hi
  dsimp only at hi
  split at hi <;> cases hi
  rename_i b plant hbuild
  obtain ⟨hattr, hrecord, _⟩ := build_equips hn₁ hbuild
  exact ⟨b, rfl, hattr, hrecord.trans (PipelineAttr.main_and_recordOnInit hp)⟩

/-- A restart builds what the pipeline was built for, and records if it recorded, or it fails on the
plant. -/
theorem restart_rebuilds {b : Built} (hn : o.plant.server.Numbered)
    (hplan : b.Planned o.params o.buffers) :
    let restarted := o.handle .restart
    (∀ changed, restarted.1 = .ok changed → ∃ b', restarted.2.built = some b' ∧
        b'.attr = { b.attr with recordOnInit := b.record.isSome } ∧
        b'.record.isSome = b.record.isSome) ∧
      ∀ e, restarted.1 = .error e → e.IsFailure := by
  obtain ⟨attr, hp, hattr, hrecord⟩ := hplan
  have hsame : { b.attr with recordOnInit := b.record.isSome } = attr := by
    rw [hattr, hrecord]
  refine ⟨fun changed hok => ?_, fun e herror => ?_⟩
  · have hrun : restart o = .ok changed (o.handle .restart).2 :=
      run_of_handle_ok (c := .restart) (by rw [← hok])
    obtain ⟨b', up, hattr', hrecord'⟩ := restart_builds hn hp hrun
    exact ⟨b', up, hattr'.trans hsame.symm, hrecord'.trans hrecord.symm⟩
  · have hrun : restart o = .error e (o.handle .restart).2 :=
      run_of_handle_error (c := .restart) (by rw [← herror])
    exact restart_fails hp hrun

/-- The input is switched on a recording pipeline, the recording is stopped, and the server refuses
to switch the input back. -/
def liveSwitches : List Event :=
  [.command .init, .command (.setSmartAe true), .command .stopRecord,
    .inject ⟨.setAttr, none, 1, Nat.one_pos⟩, .command (.setSmartAe false)]

end Orchestrator
end CameraPipeline
