import CameraPipeline.Orchestrator.Command

/-!
Commands step by step: what each action answers and which orchestrator it leaves.
-/

namespace CameraPipeline

namespace CommandAction

section Apply

variable {α β : Type} (o : Orchestrator)

theorem bind_apply (m : CommandAction α) (f : α → CommandAction β) :
    (m >>= f) o =
      match m o with
      | .ok a o => f a o
      | .error e o => .error e o := by
  simp only [bind, EStateM.bind]
  cases m o <;> rfl

theorem get_apply : (get : CommandAction Orchestrator) o = .ok o o := rfl

theorem set_apply (o' : Orchestrator) : (set o' : CommandAction PUnit) o = .ok ⟨⟩ o' := rfl

theorem modify_apply (f : Orchestrator → Orchestrator) :
    (modify f : CommandAction PUnit) o = .ok ⟨⟩ (f o) := rfl

theorem throw_apply (e : PipelineError) : (throw e : CommandAction α) o = .error e o := rfl

theorem if_apply (c : Prop) [Decidable c] (m m' : CommandAction α) :
    (if c then m else m') o = if c then m o else m' o := by
  split <;> rfl

theorem attempt_apply (a : CommandAction α) :
    attempt a o =
      match a o with
      | .ok v o => .ok (.ok v) o
      | .error e o => .ok (.error e) o := rfl

theorem onPlant_apply (f : Plant → α × Plant) :
    onPlant f o = .ok (f o.plant).1 { o with plant := (f o.plant).2 } := rfl

theorem setBuilt_apply (built : Option Built) : setBuilt built o = .ok () { o with built } := rfl

theorem setParam_apply (key value : String) :
    setParam key value o = .ok () { o with params := o.params.insert key value } := rfl

theorem ofExcept_apply (r : Except PipelineError α) :
    (ofExcept r : CommandAction α) o =
      match r with
      | .ok a => .ok a o
      | .error e => .error e o := by
  cases r <;> rfl

theorem lift_apply (r : Except ConfigError α) :
    (monadLift r : CommandAction α) o =
      match r with
      | .ok a => .ok a o
      | .error e => .error (.config e) o := by
  cases r <;> rfl

theorem liftParam_apply (r : Except ParamFault α) :
    (monadLift r : CommandAction α) o =
      match r with
      | .ok a => .ok a o
      | .error fault => .error (.config (.param fault)) o := by
  cases r <;> rfl

/-- The orchestrator that an action leaves, whatever it answers. -/
def left (r : EStateM.Result PipelineError Orchestrator α) : Orchestrator :=
  match r with
  | .ok _ o => o
  | .error _ o => o

@[simp] theorem left_ok (a : α) : left (.ok a o) = o := rfl

@[simp] theorem left_error (e : PipelineError) :
    left (.error e o : EStateM.Result PipelineError Orchestrator α) = o := rfl

end Apply

end CommandAction

namespace Orchestrator

open CommandAction

variable (o : Orchestrator)

theorem init_eq :
    init o =
      if o.isBuilt then .ok false o
      else
        match o.plan with
        | .error e => .error (.config e) o
        | .ok attr =>
          let o' := { o with params := attr.selection.writeBack o.params }
          match o.plant.build o.makePump attr with
          | (.ok b, plant) => .ok true { o' with plant, built := some b }
          | (.error e, plant) => .error e { o' with plant } := by
  simp only [init, bind_apply, get_apply]
  split
  · rfl
  · simp only [bind_apply, lift_apply]
    cases o.plan with
    | error e => rfl
    | ok attr =>
        simp only [set_apply, onPlant_apply, ofExcept_apply, setBuilt_apply]
        cases o.plant.build o.makePump attr with
        | mk r p => cases r <;> rfl

theorem deinit_eq :
    deinit o =
      match o.built with
      | none => .ok false o
      | some b =>
        let o' := { o with built := none, plant := (b.tearDown o.plant).2 }
        match firstError (b.tearDown o.plant).1 with
        | .ok _ => .ok true o'
        | .error e => .error e o' := by
  simp only [deinit, bind_apply, get_apply]
  cases o.built with
  | none => rfl
  | some b =>
      simp only [bind_apply, setBuilt_apply, onPlant_apply, ofExcept_apply]
      cases firstError (b.tearDown o.plant).1 <;> rfl

/-- The state after a teardown does not depend on what went wrong on the way. -/
theorem left_deinit :
    left (deinit o) =
      match o.built with
      | none => o
      | some b => { o with built := none, plant := (b.tearDown o.plant).2 } := by
  rw [deinit_eq]
  cases o.built with
  | none => rfl
  | some b => dsimp only; cases firstError (b.tearDown o.plant).1 <;> rfl

theorem restart_eq :
    restart o =
      match init (left (deinit o)) with
      | .error e o' => .error e o'
      | .ok _ o' =>
        match deinit o with
        | .ok _ _ => .ok true o'
        | .error e _ => .error e o' := by
  simp only [restart, bind_apply, attempt_apply, ofExcept_apply]
  cases deinit o with
  | ok v o' => dsimp only [left]; cases init o' <;> rfl
  | error e o' => dsimp only [left]; cases init o' <;> rfl

/-- A setter plans with the new value, and then rebuilds what stood. A value that no pipeline can be
planned with leaves nothing behind. -/
theorem reconfigure_eq (key value : String) :
    reconfigure key value o =
      let asked := { o with params := o.params.insert key value }
      match asked.plan with
      | .error e => .error (.config e) o
      | .ok _ =>
        if o.isBuilt then
          match deinit asked, init (left (deinit asked)) with
          | .error e _, r => .error e (left r)
          | .ok _ _, .error e o' => .error e o'
          | .ok _ _, .ok _ o' => .ok true o'
        else .ok true asked := by
  simp only [reconfigure, bind_apply, get_apply, setParam_apply]
  cases plan { o with params := o.params.insert key value } with
  | error e => simp only [bind_apply, modify_apply, throw_apply, Params.restore_insert]
  | ok attr =>
      simp only [bind_apply, get_apply, if_apply]
      change (if o.isBuilt then _ else _) = _
      cases o.isBuilt with
      | false => rfl
      | true =>
          simp only [if_true, attempt_apply, ofExcept_apply]
          cases deinit { o with params := o.params.insert key value } with
          | ok v o' => dsimp only [left]; cases init o' <;> rfl
          | error e o' => dsimp only [left]; cases init o' <;> rfl

theorem setChoice_eq {α : Type} [DecidableEq α] [FromText α] [ToText α] (key : String)
    (default value : α) :
    setChoice key default value o =
      match o.params.getOr key default with
      | .error fault => .error (.config (.param fault)) o
      | .ok present =>
        if present = value then .ok false o else reconfigure key (ToText.write value) o := by
  simp only [setChoice, bind_apply, get_apply, liftParam_apply]
  cases o.params.getOr key default with
  | error fault => rfl
  | ok present => simp only [if_apply]; rfl

theorem setSwitch_eq (key : String) (on : Bool) :
    setSwitch key on o =
      match o.params.getSwitch key false with
      | .error fault => .error (.config (.param fault)) o
      | .ok present =>
        if present = on then .ok false o else reconfigure key (Params.switchText on) o := by
  simp only [setSwitch, bind_apply, get_apply, liftParam_apply]
  cases o.params.getSwitch key false with
  | error fault => rfl
  | ok present => simp only [if_apply]; rfl

theorem setSmartAe_eq (on : Bool) :
    setSmartAe on o =
      match o.params.getSwitch PipelineAttr.smartAeKey false with
      | .error fault => .error (.config (.param fault)) o
      | .ok present =>
        let params := o.params.insert PipelineAttr.smartAeKey (Params.switchText on)
        if present = on then .ok false o
        else
          match o.built with
          | none => .ok true { o with params }
          | some b =>
            let vi := { b.attr.vi with smartAe := on }
            let request := Request.setAttr b.handles.vi (.vi vi)
            match o.plant.ask request with
            | (.error fault, plant) => .error (.capability request fault) { o with plant }
            | (.ok _, plant) =>
              .ok true { o with
                plant, params, built := some { b with attr := { b.attr with vi } } } := by
  obtain ⟨plant, params, tuning, buffers, feeds, verbose, built⟩ := o
  simp only [setSmartAe, bind_apply, get_apply, liftParam_apply]
  cases params.getSwitch PipelineAttr.smartAeKey false with
  | error fault => rfl
  | ok present =>
      simp only [if_apply]
      split
      · rfl
      · cases built with
        | none => rfl
        | some b =>
            simp only [bind_apply, onPlant_apply]
            cases plant.ask (.setAttr b.handles.vi (.vi { b.attr.vi with smartAe := on })) with
            | mk answer plant => cases answer <;> rfl

theorem startRecord_eq :
    startRecord o =
      match o.built with
      | none => .error (.invalidState .notBuilt) o
      | some b =>
        if b.photo.isSome then .error (.sessionConflict .recording .photoCapture) o
        else
          match b.handles.main, b.record with
          | none, _ | some _, some _ => .ok false o
          | some main, none =>
            match o.plant.openRecord o.makePump b.attr b.handles.vi main with
            | (.error e, plant) => .error e { o with plant }
            | (.ok session, plant) =>
              .ok true { o with
                plant
                params := o.params.insert PipelineAttr.enableRecordKey "1"
                built := some { b with record := some session } } := by
  obtain ⟨plant, params, tuning, buffers, feeds, verbose, built⟩ := o
  cases built with
  | none => rfl
  | some b =>
      obtain ⟨attr, base, handles, record, photo⟩ := b
      simp only [startRecord, bind_apply, get_apply, if_apply]
      split
      · rfl
      · cases handles.main with
        | none => rfl
        | some main =>
            cases record with
            | some s => rfl
            | none =>
                simp only [Option.isSome_none, Bool.false_eq_true, if_false, bind_apply,
                  onPlant_apply, ofExcept_apply, setBuilt_apply, setParam_apply]
                generalize Plant.openRecord _ _ _ _ _ = r
                obtain ⟨answer, plant⟩ := r
                cases answer <;> rfl

theorem stopRecord_eq :
    stopRecord o =
      match o.built with
      | none => .ok false o
      | some b =>
        match b.record with
        | none => .ok false o
        | some session =>
          let (late, stack, plant) := session.stack.stopPumps o.plant
          match firstError late with
          | .error e =>
            .error e { o with
              plant, built := some { b with record := some { session with stack } } }
          | .ok _ =>
            let o' := { o with
              plant := (stack.unwind plant).2
              params := o.params.insert PipelineAttr.enableRecordKey "0"
              built := some { b with record := none } }
            match firstError (stack.unwind plant).1 with
            | .error e => .error e o'
            | .ok _ => .ok true o' := by
  obtain ⟨plant, params, tuning, buffers, feeds, verbose, built⟩ := o
  cases built with
  | none => rfl
  | some b =>
      obtain ⟨attr, base, handles, record, photo⟩ := b
      cases record with
      | none => rfl
      | some session =>
          simp only [stopRecord, bind_apply, get_apply, onPlant_apply, setBuilt_apply,
            ofExcept_apply, setParam_apply]
          cases firstError (session.stack.stopPumps plant).1 with
          | error e => rfl
          | ok v =>
              dsimp only
              cases firstError ((session.stack.stopPumps plant).2.1.unwind
                (session.stack.stopPumps plant).2.2).1 <;> rfl

theorem closePhoto_eq (b : Built) (session : PhotoSession) :
    closePhoto b session o =
      let o' := { o with
        plant := (session.stack.unwind o.plant).2
        built := some { b with photo := none } }
      match firstError (session.stack.unwind o.plant).1 with
      | .error e => .error e o'
      | .ok _ => .ok () o' := by
  simp only [closePhoto, bind_apply, onPlant_apply, setBuilt_apply, ofExcept_apply]
  cases firstError (session.stack.unwind o.plant).1 <;> rfl

theorem stopPhoto_eq :
    stopPhoto o =
      match o.built with
      | none => .ok false o
      | some b =>
        match b.photo with
        | none => .ok false o
        | some session =>
          let o' := { o with plant := (session.isDrained o.plant).2 }
          if (session.isDrained o.plant).1 then
            match closePhoto b session o' with
            | .ok _ o'' => .ok true o''
            | .error e o'' => .error e o''
          else .error (.photoInProgress (session.progress o.plant).remaining) o' := by
  obtain ⟨plant, params, tuning, buffers, feeds, verbose, built⟩ := o
  cases built with
  | none => rfl
  | some b =>
      obtain ⟨attr, base, handles, record, photo⟩ := b
      cases photo with
      | none => rfl
      | some session =>
          simp only [stopPhoto, bind_apply, get_apply, onPlant_apply, if_apply]
          cases (session.isDrained plant).1 with
          | false => rfl
          | true =>
              simp only [Bool.not_true, Bool.false_eq_true, if_false, if_true]
              generalize closePhoto _ _ _ = closed
              cases closed <;> rfl

/-- Makes room for a photo session: one that stands has to have ended, and is closed. -/
def clearPhoto (b : Built) : EStateM.Result PipelineError Orchestrator Unit :=
  match b.photo with
  | none => .ok () o
  | some previous =>
    let o' := { o with plant := (previous.isDrained o.plant).2 }
    if (previous.isDrained o.plant).1 then closePhoto b previous o'
    else .error (.invalidState .photoRunning) o'

theorem startPhoto_eq (count : UInt32) :
    startPhoto count o =
      match o.built with
      | none => .error (.invalidState .notBuilt) o
      | some b =>
        if b.record.isSome then .error (.sessionConflict .photoCapture .recording) o
        else
          match b.handles.jpeg with
          | none => .error (.invalidState (.notPhotoMode b.attr.selection.mode)) o
          | some jpeg =>
            if count = 0 then .error (.invalidState .noPhotos) o
            else
              match clearPhoto o b with
              | .error e o' => .error e o'
              | .ok _ o' =>
                match o'.plant.openPhoto o.makePump b.handles.vi jpeg count with
                | (.error e, plant) => .error e { o' with plant }
                | (.ok session, plant) =>
                  .ok true { o' with plant, built := some { b with photo := some session } } := by
  obtain ⟨plant, params, tuning, buffers, feeds, verbose, built⟩ := o
  cases built with
  | none => rfl
  | some b =>
      obtain ⟨attr, base, handles, record, photo⟩ := b
      simp only [startPhoto, bind_apply, get_apply, if_apply]
      split
      · rfl
      · cases handles.jpeg with
        | none => rfl
        | some jpeg =>
            simp only [if_apply]
            split
            · rfl
            · cases photo with
              | none =>
                  simp only [clearPhoto, bind_apply, onPlant_apply, ofExcept_apply]
                  generalize Plant.openPhoto _ _ _ _ _ = r
                  obtain ⟨answer, plant⟩ := r
                  cases answer <;> rfl
              | some previous =>
                  simp only [clearPhoto, bind_apply, onPlant_apply, if_apply]
                  cases (previous.isDrained plant).1 with
                  | false => rfl
                  | true =>
                      simp only [Bool.not_true, Bool.false_eq_true, if_false, if_true]
                      generalize closePhoto _ _ _ = closed
                      cases closed with
                      | error e o => rfl
                      | ok v o =>
                          simp only [ofExcept_apply]
                          generalize Plant.openPhoto _ _ _ _ _ = r
                          obtain ⟨answer, plant⟩ := r
                          cases answer <;> rfl

theorem left_run (c : Command) : left (run c o) = (o.handle c).2 := by
  simp only [handle]
  cases run c o <;> rfl

section Answer

variable {o} {o' : Orchestrator} {c : Command} {changed : Bool}

theorem restart_eq_ok (h : restart o = .ok changed o') :
    ∃ torn rebuilt o₁, deinit o = .ok torn o₁ ∧ init o₁ = .ok rebuilt o' := by
  rw [restart_eq] at h
  split at h
  · cases h
  · rename_i hi
    split at h <;> cases h
    rename_i hd
    rw [hd] at hi
    exact ⟨_, _, _, hd, hi⟩

/-- A reconfiguration that succeeds stores the value, and tears down and rebuilds what stood. -/
theorem reconfigure_eq_ok {key value : String} (h : reconfigure key value o = .ok changed o') :
    o' = { o with params := o.params.insert key value } ∨
      ∃ torn rebuilt o₁, deinit { o with params := o.params.insert key value } = .ok torn o₁ ∧
        init o₁ = .ok rebuilt o' := by
  rw [reconfigure_eq] at h
  dsimp only at h
  split at h
  · cases h
  · split at h
    · split at h
      · cases h
      · cases h
      · rename_i hd hi
        cases h
        rw [hd] at hi
        exact .inr ⟨_, _, _, hd, hi⟩
    · cases h
      exact .inl rfl

theorem run_of_handle_ok (h : (o.handle c).1 = .ok changed) :
    run c o = .ok changed (o.handle c).2 := by
  simp only [handle] at h ⊢
  split at h
  · cases h
    assumption
  · cases h

theorem run_of_handle_error {e : PipelineError} (h : (o.handle c).1 = .error e) :
    run c o = .error e (o.handle c).2 := by
  simp only [handle] at h ⊢
  split at h
  · cases h
  · cases h
    assumption

end Answer

end Orchestrator
end CameraPipeline
