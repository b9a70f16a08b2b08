import CameraPipeline.Proofs.Orchestrator.Retry

/-!
Commands that are given again. Each command has a test of its own for whether there is anything to
do: the value in the store, the pipeline, a session or the verbosity. A command that asks for a
state passes its test as soon as it has succeeded, so that it changes nothing when it is given
again; a restart and the start of a capture do their work anew each time.
-/

namespace CameraPipeline

/-- Commands that ask for a state of the pipeline. -/
def Command.Settles : Command → Prop
  | .restart | .startPhoto _ => False
  | _ => True

/-- There is nothing for the command to do. -/
def Command.IsDone : Command → Orchestrator → Prop
  | .init, o => o.isBuilt
  | .deinit, o | .enterSleep, o => o.built = none
  | .restart, _ | .startPhoto _, _ => False
  | .setMode mode, o => (Setting.choice Selection.modeKey .video mode).holds o.params = .ok true
  | .setEis eis, o => (Setting.choice Selection.eisKey .off eis).holds o.params = .ok true
  | .setHdr hdr, o => (Setting.choice Selection.hdrKey .linear hdr).holds o.params = .ok true
  | .setMemc on, o => (Setting.switch PipelineAttr.enableMemcKey on).holds o.params = .ok true
  | .setRtsp on, o => (Setting.switch PipelineAttr.enableRtspKey on).holds o.params = .ok true
  | .setSmartAe on, o => o.params.getSwitch PipelineAttr.smartAeKey false = .ok on
  | .setDebug on, o => o.verbose = on
  | .startRecord, o =>
    ∃ b, o.built = some b ∧ b.photo = none ∧ (b.handles.main = none ∨ b.record.isSome)
  | .stopRecord, o => o.recordSession? = none
  | .stopPhoto, o => o.photoSession? = none

namespace Orchestrator

open CommandAction

variable {o o' : Orchestrator} {c : Command} {s : Setting} {changed : Bool}

theorem init_false_iff : init o = .ok false o' ↔ o.isBuilt ∧ o' = o := by
  rw [init_eq]
  constructor
  · intro h
    split at h
    · cases h
      exact ⟨‹_›, rfl⟩
    · split at h
      · cases h
      · dsimp only at h
        split at h <;> cases h
  · rintro ⟨up, rfl⟩
    rw [if_pos up]

theorem deinit_false_iff : deinit o = .ok false o' ↔ o.built = none ∧ o' = o := by
  rw [deinit_eq]
  constructor
  · intro h
    split at h
    · cases h
      exact ⟨‹_›, rfl⟩
    · dsimp only at h
      split at h <;> cases h
  · rintro ⟨down, rfl⟩
    rw [down]

theorem restart_ne_false : restart o ≠ .ok false o' := by
  rw [restart_eq]
  intro h
  split at h
  · cases h
  · split at h <;> cases h

/-- A reconfiguration that succeeds is a change. -/
theorem reconfigure_ne_false {key value : String} : reconfigure key value o ≠ .ok false o' := by
  rw [reconfigure_eq]
  intro h
  dsimp only at h
  split at h
  · cases h
  · split at h
    · split at h <;> cases h
    · cases h

theorem run_setting_false_iff (hs : c.setting? = some s) :
    run c o = .ok false o' ↔ s.holds o.params = .ok true ∧ o' = o := by
  rw [run_setting hs]
  constructor
  · intro h
    split at h
    · cases h
    · cases h
      exact ⟨‹_›, rfl⟩
    · exact (reconfigure_ne_false h).elim
  · rintro ⟨hholds, rfl⟩
    rw [hholds]

theorem setSmartAe_false_iff {on : Bool} :
    setSmartAe on o = .ok false o' ↔
      o.params.getSwitch PipelineAttr.smartAeKey false = .ok on ∧ o' = o := by
  rw [setSmartAe_eq]
  constructor
  · intro h
    split at h
    · cases h
    · rename_i present hp
      dsimp only at h
      split at h
      · rename_i heq
        cases h
        exact ⟨heq ▸ hp, rfl⟩
      · split at h
        · cases h
        · split at h <;> cases h
  · rintro ⟨hp, rfl⟩
    rw [hp]
    simp only [if_true]

theorem setDebug_eq (on : Bool) (o : Orchestrator) :
    setDebug on o = .ok (o.verbose != on) { o with verbose := on } := rfl

theorem setDebug_false_iff {on : Bool} :
    setDebug on o = .ok false o' ↔ o.verbose = on ∧ o' = o := by
  rw [setDebug_eq]
  constructor
  · intro h
    injection h with hsame hleft
    have hv : o.verbose = on := by simpa using hsame
    exact ⟨hv, by rw [← hleft, ← hv]⟩
  · rintro ⟨rfl, rfl⟩
    simp

theorem startRecord_false_iff :
    startRecord o = .ok false o' ↔ Command.startRecord.IsDone o ∧ o' = o := by
  rw [startRecord_eq]
  constructor
  · intro h
    split at h
    · cases h
    · rename_i b hb
      split at h
      · cases h
      · rename_i hp
        have hp : b.photo = none := by simpa using hp
        split at h
        · rename_i hm
          cases h
          exact ⟨⟨b, hb, hp, .inl hm⟩, rfl⟩
        · rename_i hr
          cases h
          exact ⟨⟨b, hb, hp, .inr (by simp [hr])⟩, rfl⟩
        · split at h <;> cases h
  · rintro ⟨⟨b, hb, hp, hidle⟩, rfl⟩
    rw [hb]
    cases hm : b.handles.main with
    | none => simp [hp, hm]
    | some main =>
        obtain ⟨session, hr⟩ := Option.isSome_iff_exists.mp (hidle.resolve_left (by simp [hm]))
        simp [hp, hm, hr]

theorem stopRecord_false_iff :
    stopRecord o = .ok false o' ↔ o.recordSession? = none ∧ o' = o := by
  rw [stopRecord_eq]
  simp only [recordSession?]
  cases hb : o.built with
  | none => simp [eq_comm]
  | some b =>
      cases hr : b.record with
      | none => simp [hr, eq_comm]
      | some session =>
          simp only [Option.bind_some, hr, reduceCtorEq, false_and, iff_false]
          intro h
          split at h
          · cases h
          · split at h <;> cases h

theorem stopPhoto_false_iff :
    stopPhoto o = .ok false o' ↔ o.photoSession? = none ∧ o' = o := by
  rw [stopPhoto_eq]
  simp only [photoSession?]
  cases hb : o.built with
  | none => simp [eq_comm]
  | some b =>
      cases hp : b.photo with
      | none => simp [hp, eq_comm]
      | some session =>
          simp only [Option.bind_some, hp, reduceCtorEq, false_and, iff_false]
          intro h
          split at h
          · split at h <;> cases h
          · cases h

theorem startPhoto_ne_false {count : UInt32} : startPhoto count o ≠ .ok false o' := by
  rw [startPhoto_eq]
  intro h
  split at h
  · cases h
  · split at h
    · cases h
    · split at h
      · cases h
      · split at h
        · cases h
        · split at h
          · cases h
          · split at h <;> cases h

/-- A command answers that it changed nothing just if there is nothing to do, and then it does
nothing. -/
theorem run_false_iff : run c o = .ok false o' ↔ c.IsDone o ∧ o' = o := by
  cases c with
  | init => exact init_false_iff
  | deinit | enterSleep => exact deinit_false_iff
  | restart => exact ⟨fun h => (restart_ne_false h).elim, fun h => h.1.elim⟩
  | setMode | setEis | setHdr | setMemc | setRtsp => exact run_setting_false_iff rfl
  | setSmartAe on => exact setSmartAe_false_iff
  | setDebug on => exact setDebug_false_iff
  | startRecord => exact startRecord_false_iff
  | stopRecord => exact stopRecord_false_iff
  | startPhoto count => exact ⟨fun h => (startPhoto_ne_false h).elim, fun h => h.1.elim⟩
  | stopPhoto => exact stopPhoto_false_iff

theorem built_of_deinit (h : deinit o = .ok changed o') : o'.built = none := by
  have hleft := built_left_deinit o
  rwa [h] at hleft

/-- The value is in the store, also after the rebuild has written its choices back. -/
theorem get?_of_reconfigure (hs : c.setting? = some s)
    (h : reconfigure s.key s.text o = .ok changed o') : o'.params.get? s.key = some s.text := by
  obtain rfl | ⟨torn, rebuilt, o₁, hd, hi⟩ := reconfigure_eq_ok h
  · exact Table.get?_insert_self _ _ _
  · have hparams : o₁.params = o.params.insert s.key s.text := by
      have hleft := params_left_deinit { o with params := o.params.insert s.key s.text }
      rwa [hd] at hleft
    have hdown : o₁.built = none := built_of_deinit hd
    cases hp : o₁.plan with
    | error e =>
        rw [init_eq, if_neg (by simp [isBuilt, hdown]), hp] at hi
        cases hi
    | ok attr =>
        have hleft := (left_init hdown hp).1
        rw [hi] at hleft
        have hleft : o'.params = attr.selection.writeBack o₁.params := hleft
        rw [hleft, Command.get?_writeBack hs, hparams]
        exact Table.get?_insert_self _ _ _

theorem holds_of_run (hs : c.setting? = some s) (h : run c o = .ok true o') :
    s.holds o'.params = .ok true := by
  rw [run_setting hs] at h
  split at h
  · cases h
  · cases h
  · exact Command.holds_of_stored hs (get?_of_reconfigure hs h)

theorem getSwitch_of_setSmartAe {on : Bool} (h : setSmartAe on o = .ok true o') :
    o'.params.getSwitch PipelineAttr.smartAeKey false = .ok on := by
  rw [setSmartAe_eq] at h
  split at h
  · cases h
  · dsimp only at h
    split at h
    · cases h
    · split at h
      · cases h
        exact Params.getSwitch_insert_self _ _ _ _
      · split at h <;> cases h
        exact Params.getSwitch_insert_self _ _ _ _

theorem isDone_of_startRecord (h : startRecord o = .ok true o') :
    Command.startRecord.IsDone o' := by
  rw [startRecord_eq] at h
  split at h
  · cases h
  · split at h
    · cases h
    · rename_i b _ hp
      have hp : b.photo = none := by simpa using hp
      split at h
      · cases h
      · cases h
      · split at h <;> cases h
        exact ⟨_, rfl, hp, .inr rfl⟩

theorem recordSession?_of_stopRecord (h : stopRecord o = .ok true o') :
    o'.recordSession? = none := by
  rw [stopRecord_eq] at h
  split at h
  · cases h
  · split at h
    · cases h
    · dsimp only at h
      split at h
      · cases h
      · split at h <;> cases h
        rfl

theorem photoSession?_of_stopPhoto (h : stopPhoto o = .ok true o') :
    o'.photoSession? = none := by
  rw [stopPhoto_eq] at h
  split at h
  · cases h
  · split at h
    · cases h
    · dsimp only at h
      split at h
      · split at h <;> cases h
        rename_i hc
        rw [closePhoto_eq] at hc
        dsimp only at hc
        split at hc <;> cases hc
        rfl
      · cases h

/-- A command that asks for a state leaves nothing to do when it succeeds. -/
theorem isDone_of_run (hc : c.Settles) (h : run c o = .ok changed o') : c.IsDone o' := by
  cases changed with
  | false =>
      obtain ⟨hdone, rfl⟩ := run_false_iff.mp h
      exact hdone
  | true =>
      cases c with
      | init =>
          by_cases up : o.isBuilt
          · have hsame : init o = .ok false o := init_false_iff.mpr ⟨up, rfl⟩
            cases hsame.symm.trans h
          · exact isBuilt_of_init (by simpa [isBuilt] using up) h
      | deinit | enterSleep => exact built_of_deinit h
      | restart | startPhoto => exact hc.elim
      | setMode | setEis | setHdr | setMemc | setRtsp => exact holds_of_run rfl h
      | setSmartAe on => exact getSwitch_of_setSmartAe h
      | setDebug on =>
          injection (setDebug_eq on o).symm.trans h with _ hleft
          exact hleft ▸ rfl
      | startRecord => exact isDone_of_startRecord h
      | stopRecord => exact recordSession?_of_stopRecord h
      | stopPhoto => exact photoSession?_of_stopPhoto h

theorem handle_of_isDone (h : c.IsDone o) : o.handle c = (.ok false, o) := by
  simp only [handle, run_false_iff.mpr ⟨h, rfl⟩]

/-- A command that asks for a state, given again after it succeeded, changes nothing. And whatever
the command, if it answers that it changed nothing then nothing has changed at all: neither the
server and what it was asked, nor the store, nor the pipeline with its sessions. -/
theorem handle_again (o : Orchestrator) (c : Command) :
    (c.Settles → ∀ changed, (o.handle c).1 = .ok changed →
      (o.handle c).2.handle c = (.ok false, (o.handle c).2)) ∧
    ((o.handle c).1 = .ok false → (o.handle c).2 = o) := by
  refine ⟨fun hc changed h => ?_, fun h => ?_⟩
  · exact handle_of_isDone (isDone_of_run hc (run_of_handle_ok h))
  · exact (run_false_iff.mp (run_of_handle_ok h)).2

/-- A pipeline that captures photos. -/
def photographing : Orchestrator := bare.after [.command .init, .command (.setMode .photo)]

/-- A setter that rebuilt, and the end of a recording that does not exist. -/
theorem handle_again_photographing :
    (photographing.handle (.setHdr .linear)).2 = photographing ∧
      ((photographing.handle (.setMode .video)).2.handle (.setMode .video)).1 = .ok false ∧
      (photographing.handle .stopRecord).2 = photographing := by
  have hvideo := (handle_again photographing (.setMode .video)).1 trivial true (by rfl)
  exact ⟨(handle_again photographing (.setHdr .linear)).2 (by rfl), congrArg Prod.fst hvideo,
    (handle_again photographing .stopRecord).2 (by rfl)⟩

end Orchestrator
end CameraPipeline
