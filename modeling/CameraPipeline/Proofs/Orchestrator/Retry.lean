import CameraPipeline.Proofs.Media.Plan
import CameraPipeline.Proofs.Orchestrator.PreMutation

/-!
Retrying a setter that failed. The setter stores its value before it tears down and rebuilds, so
once it has failed the store has the value and a retry finds nothing to do. It answers that all is
well, and the pipeline is what the failed call left: up if only the teardown went wrong, and down
if the rebuild failed.
-/

namespace CameraPipeline

/-- What a setter sets: the key, the text that it stores, and whether a store has the value. -/
structure Setting where
  key : String
  text : String
  holds : Params → Except ParamFault Bool

namespace Setting

def choice {α : Type} [DecidableEq α] [FromText α] [ToText α] (key : String)
    (default value : α) : Setting where
  key := key
  text := ToText.write value
  holds p := (fun present => decide (present = value)) <$> p.getOr key default

def switch (key : String) (on : Bool) : Setting where
  key := key
  text := Params.switchText on
  holds p := (fun present => decide (present = on)) <$> p.getSwitch key false

theorem choice_holds {α : Type} [DecidableEq α] [FromText α] [ToText α] {key : String}
    (default : α) {value : α} (hr : FromText.read? (Text.trim (ToText.write value)) = some value)
    {p : Params} (hp : p.get? key = some (ToText.write value)) :
    (choice key default value).holds p = .ok true := by
  simp [choice, Params.getOr, Params.parse, hp, hr, Functor.map, Except.map]

theorem switch_holds {key : String} {on : Bool} {p : Params}
    (hp : p.get? key = some (Params.switchText on)) : (switch key on).holds p = .ok true := by
  have hs : Params.switch? (Params.switchText on) = some on := by cases on <;> rfl
  simp [switch, Params.getSwitch, hp, hs, Functor.map, Except.map]

end Setting

/-- The setters that rebuild. -/
def Command.setting? : Command → Option Setting
  | .setMode mode => some (.choice Selection.modeKey .video mode)
  | .setEis eis => some (.choice Selection.eisKey .off eis)
  | .setHdr hdr => some (.choice Selection.hdrKey .linear hdr)
  | .setMemc on => some (.switch PipelineAttr.enableMemcKey on)
  | .setRtsp on => some (.switch PipelineAttr.enableRtspKey on)
  | _ => none

section Stored

variable {c : Command} {s : Setting}

theorem Command.holds_of_stored (hs : c.setting? = some s) {p : Params}
    (hp : p.get? s.key = some s.text) : s.holds p = .ok true := by
  cases c <;> cases hs
  case setMode mode => exact Setting.choice_holds _ (by cases mode <;> rfl) hp
  case setEis eis => exact Setting.choice_holds _ (by cases eis <;> rfl) hp
  case setHdr hdr => exact Setting.choice_holds _ (by cases hdr <;> rfl) hp
  case setMemc on | setRtsp on => exact Setting.switch_holds hp

/-- What a build writes back leaves the settings as they are. -/
theorem Command.get?_writeBack (hs : c.setting? = some s) (selection : Selection) (p : Params) :
    (selection.writeBack p).get? s.key = p.get? s.key := by
  refine selection.get?_writeBack p ?_
  cases c <;> cases hs <;> simp only [Setting.choice, Setting.switch] <;> decide

end Stored

namespace Orchestrator

open CommandAction

variable {o : Orchestrator} {c : Command} {s : Setting}

theorem setChoice_of_setting {α : Type} [DecidableEq α] [FromText α] [ToText α] (key : String)
    (default value : α) (o : Orchestrator) :
    setChoice key default value o =
      match (Setting.choice key default value).holds o.params with
      | .error fault => .error (.config (.param fault)) o
      | .ok true => .ok false o
      | .ok false => reconfigure key (ToText.write value) o := by
  rw [setChoice_eq]
  simp only [Setting.choice]
  cases o.params.getOr key default with
  | error fault => rfl
  | ok present => by_cases h : present = value <;> simp [h, Functor.map, Except.map]

theorem setSwitch_of_setting (key : String) (on : Bool) (o : Orchestrator) :
    setSwitch key on o =
      match (Setting.switch key on).holds o.params with
      | .error fault => .error (.config (.param fault)) o
      | .ok true => .ok false o
      | .ok false => reconfigure key (Params.switchText on) o := by
  rw [setSwitch_eq]
  simp only [Setting.switch]
  cases o.params.getSwitch key false with
  | error fault => rfl
  | ok present => by_cases h : present = on <;> simp [h, Functor.map, Except.map]

/-- A setter does nothing if the store has the value, and reconfigures otherwise. -/
theorem run_setting (hs : c.setting? = some s) (o : Orchestrator) :
    run c o =
      match s.holds o.params with
      | .error fault => .error (.config (.param fault)) o
      | .ok true => .ok false o
      | .ok false => reconfigure s.key s.text o := by
  cases c <;> cases hs
  case setMode | setEis | setHdr => exact setChoice_of_setting _ _ _ o
  case setMemc | setRtsp => exact setSwitch_of_setting _ _ o

/-- A build leaves its choices in the store and, if it succeeds, a pipeline with the attributes
that were planned. -/
theorem left_init {attr : PipelineAttr} (down : o.built = none) (hp : o.plan = .ok attr) :
    (left (init o)).params = attr.selection.writeBack o.params ∧
      ∀ b, (left (init o)).built = some b → b.attr = attr := by
  rw [init_eq, if_neg (by simp [isBuilt, down]), hp]
  dsimp only
  have hb := o.plant.build_staffed o.makePump True attr
  cases ho : o.plant.build o.makePump attr with
  | mk answer plant =>
      rw [ho] at hb
      cases answer with
      | error e =>
          refine ⟨rfl, fun b hb' => ?_⟩
          cases down.symm.trans hb'
      | ok b =>
          refine ⟨rfl, ?_⟩
          intro _ heq
          cases heq
          exact hb.2.2.1

theorem built_left_deinit (o : Orchestrator) : (left (deinit o)).built = none := by
  simpa [isBuilt] using isBuilt_left_deinit o

theorem params_left_deinit (o : Orchestrator) : (left (deinit o)).params = o.params := by
  rw [left_deinit]
  split <;> rfl

theorem left_rebuild {attr : PipelineAttr} (hp : o.plan = .ok attr) :
    (left (init (left (deinit o)))).params = attr.selection.writeBack o.params ∧
      ∀ b, (left (init (left (deinit o)))).built = some b → b.attr = attr := by
  have h := left_init (built_left_deinit o) ((plan_left_deinit o).trans hp)
  rwa [params_left_deinit] at h

theorem isBuilt_of_init (down : o.built = none) {changed : Bool} {o' : Orchestrator}
    (h : init o = .ok changed o') : o'.isBuilt := by
  rw [init_eq, if_neg (by simp [isBuilt, down])] at h
  split at h
  · cases h
  · dsimp only at h
    split at h <;> cases h
    rfl

/-- A reconfiguration that the server stopped had planned, stored the value, torn down and tried
to rebuild. -/
theorem reconfigure_error {key text : String} {r : Request} {fault : Fault} {o' : Orchestrator}
    (h : reconfigure key text o = .error (.capability r fault) o') :
    ∃ attr, plan { o with params := o.params.insert key text } = .ok attr ∧
      o' = left (init (left (deinit { o with params := o.params.insert key text }))) := by
  rw [reconfigure_eq] at h
  dsimp only at h
  split at h
  · cases h
  · rename_i attr hp
    refine ⟨attr, hp, ?_⟩
    split at h
    · split at h
      · cases h
        rfl
      · rename_i hi
        cases h
        rw [hi]
        rfl
      · cases h
    · cases h

theorem reconfigure_ok {key text : String} {changed : Bool} {o' : Orchestrator}
    (h : reconfigure key text o = .ok changed o') :
    (o'.isBuilt ↔ o.isBuilt) ∧ ∀ b, o'.built = some b →
      plan { o with params := o.params.insert key text } = .ok b.attr := by
  rw [reconfigure_eq] at h
  dsimp only at h
  split at h
  · cases h
  · rename_i attr hp
    have hleft := left_rebuild hp
    split at h
    · rename_i up
      split at h
      · cases h
      · cases h
      · rename_i hi
        cases h
        rw [hi] at hleft
        have hup := isBuilt_of_init (built_left_deinit _) hi
        refine ⟨⟨fun _ => up, fun _ => hup⟩, fun b hb => ?_⟩
        rw [hp, hleft.2 b hb]
    · rename_i down
      cases h
      refine ⟨Iff.rfl, fun b hb => ?_⟩
      have hb : o.built = some b := hb
      simp [isBuilt, hb] at down

/-- The attributes are planned from a store that has the setting. -/
def Derived (s : Setting) (attr : PipelineAttr) : Prop :=
  ∃ (params : Params) (buffers : Buffers), params.get? s.key = some s.text ∧
    PipelineAttr.plan params buffers = .ok attr

/-- What a setter that the server stopped leaves: a store that has the value, and, if a pipeline
stands, one with attributes derived from it. -/
theorem setting_capability (hs : c.setting? = some s) {r : Request} {fault : Fault}
    (h : (o.handle c).1 = .error (.capability r fault)) :
    (o.handle c).2.params.get? s.key = some s.text ∧
      ∀ b, (o.handle c).2.built = some b → Derived s b.attr := by
  have hrun := run_of_handle_error h
  rw [run_setting hs] at hrun
  split at hrun
  · cases hrun
  · cases hrun
  · obtain ⟨attr, hp, ho⟩ := reconfigure_error hrun
    obtain ⟨hparams, hbuilt⟩ := left_rebuild hp
    rw [ho]
    refine ⟨?_, fun b hb => ?_⟩
    · rw [hparams, Command.get?_writeBack hs]
      exact Table.get?_insert_self _ _ _
    · exact ⟨_, _, Table.get?_insert_self _ _ _, (hbuilt b hb) ▸ hp⟩

/-- A setter failed on the server, and some time later, with no other command in between, it is
tried again and answers that all is well. Then the pipeline is up just if the failed call left it
up, with attributes derived from the value; and if nobody else wrote to the store the retry did
nothing. -/
theorem retry_isBuilt_iff (hs : c.setting? = some s) {r : Request} {fault : Fault}
    (hfail : (o.handle c).1 = .error (.capability r fault)) {o' : Orchestrator}
    (hsame : o'.built = (o.handle c).2.built) {changed : Bool}
    (hok : (o'.handle c).1 = .ok changed) :
    ((o'.handle c).2.isBuilt ↔ (o.handle c).2.isBuilt) ∧
      (∀ attr, (o'.handle c).2.attr = some attr → Derived s attr) ∧
      (o'.params = (o.handle c).2.params → o'.handle c = (.ok false, o')) := by
  obtain ⟨hstored, hderived⟩ := setting_capability hs hfail
  have hup : o'.isBuilt ↔ (o.handle c).2.isBuilt := by simp [isBuilt, hsame]
  have hrun := run_of_handle_ok hok
  rw [run_setting hs] at hrun
  refine ⟨?_, ?_, fun hparams => ?_⟩
  · split at hrun
    · cases hrun
    · rw [← (EStateM.Result.ok.inj hrun).2]
      exact hup
    · exact (reconfigure_ok hrun).1.trans hup
  · intro attr hattr
    obtain ⟨b, hb, rfl⟩ := Option.map_eq_some_iff.mp hattr
    split at hrun
    · cases hrun
    · rw [← (EStateM.Result.ok.inj hrun).2, hsame] at hb
      exact hderived b hb
    · exact ⟨_, _, Table.get?_insert_self _ _ _, (reconfigure_ok hrun).2 b hb⟩
  · have hholds : s.holds o'.params = .ok true :=
      Command.holds_of_stored hs (hparams ▸ hstored)
    have hdone : run c o' = .ok false o' := by rw [run_setting hs, hholds]
    simp [handle, hdone]

/-- A build, and then a channel that is not created. -/
def brokenCreate : List Event :=
  [.command .init, .inject ⟨.create, none, 1, Nat.one_pos⟩]

/-- What a switch to photos leaves that failed on the channel. -/
def halted : Orchestrator := ((bare.after brokenCreate).handle (.setMode .photo)).2

theorem setMode_brokenCreate :
    ∃ r fault, ((bare.after brokenCreate).handle (.setMode .photo)).1 =
      .error (.capability r fault) :=
  ⟨_, _, rfl⟩

theorem setMode_halted : (halted.handle (.setMode .photo)).1 = .ok false := by
  rfl

theorem retry_isBuilt_iff_halted :
    ((halted.handle (.setMode .photo)).2.isBuilt ↔ halted.isBuilt) ∧
      (∀ attr, (halted.handle (.setMode .photo)).2.attr = some attr →
        Derived (.choice Selection.modeKey Mode.video .photo) attr) ∧
      (halted.params = halted.params →
        halted.handle (.setMode .photo) = (.ok false, halted)) := by
  obtain ⟨r, fault, hfail⟩ := setMode_brokenCreate
  exact retry_isBuilt_iff (s := .choice Selection.modeKey Mode.video .photo) rfl hfail rfl
    setMode_halted

/-- Not every retry that succeeds leaves a pipeline. -/
theorem not_isBuilt_of_retry :
    ¬∀ (events : List Event) (c : Command), c.setting?.isSome → (bare.after events).isBuilt →
      (∃ r fault, ((bare.after events).handle c).1 = .error (.capability r fault)) →
        ∀ changed, (((bare.after events).handle c).2.handle c).1 = .ok changed →
          (((bare.after events).handle c).2.handle c).2.isBuilt := by
  intro h
  have hup := h brokenCreate (.setMode .photo) rfl (by rfl) setMode_brokenCreate false
    setMode_halted
  revert hup
  decide +kernel

end Orchestrator
end CameraPipeline
