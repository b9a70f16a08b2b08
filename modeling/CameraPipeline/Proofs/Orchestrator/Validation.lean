import CameraPipeline.Proofs.Orchestrator.Repetition

/-!
Setters that rebuild, and the store. A setter stores its value and plans from the whole store before
it tears down, and the rebuild plans from the same store again. So a value is refused before
anything has happened, or not at all; and the store of a setter that succeeds differs from the one
before in the value and, if there was something to rebuild, in the choices that the build writes
back.
-/

namespace CameraPipeline

/-- The value of the command can be read under its key. -/
def Command.IsStored : Command → Params → Prop
  | .setMode mode, p => p.require Selection.modeKey = .ok mode
  | .setEis eis, p => p.require Selection.eisKey = .ok eis
  | .setHdr hdr, p => p.require Selection.hdrKey = .ok hdr
  | .setMemc on, p => ∀ default, p.getSwitch PipelineAttr.enableMemcKey default = .ok on
  | .setRtsp on, p => ∀ default, p.getSwitch PipelineAttr.enableRtspKey default = .ok on
  | _, _ => False

/-- Why a setting is refused, if it is: what stands under the key cannot be read, or no pipeline can
be planned with the value. -/
def Setting.refusal? (s : Setting) (p : Params) (buffers : Buffers) : Option ConfigError :=
  match s.holds p with
  | .error fault => some (.param fault)
  | .ok true => none
  | .ok false =>
    match PipelineAttr.plan (p.insert s.key s.text) buffers with
    | .error e => some e
    | .ok _ => none

theorem Setting.refusal?_eq_none {s : Setting} {p : Params} {buffers : Buffers} {already : Bool}
    {attr : PipelineAttr} (hholds : s.holds p = .ok already)
    (hp : PipelineAttr.plan (p.insert s.key s.text) buffers = .ok attr) :
    s.refusal? p buffers = none := by
  cases already <;> simp only [refusal?, hholds, hp]

namespace Params

variable {p : Params} {key : String}

theorem require_of_get? {α : Type} [FromText α] [ToText α] {value : α}
    (hr : FromText.read? (Text.trim (ToText.write value)) = some value)
    (hp : p.get? key = some (ToText.write value)) : p.require key = .ok value := by
  simp [require, parse, hp, hr]

theorem getSwitch_of_get? {on : Bool} (hp : p.get? key = some (switchText on)) (default : Bool) :
    p.getSwitch key default = .ok on := by
  have hs : switch? (switchText on) = some on := by cases on <;> rfl
  simp [getSwitch, hp, hs]

end Params

section Stored

variable {c : Command} {s : Setting}

theorem Command.isStored_of_get? (hs : c.setting? = some s) {p : Params}
    (hp : p.get? s.key = some s.text) : c.IsStored p := by
  cases c <;> cases hs
  case setMode mode => exact Params.require_of_get? (by cases mode <;> rfl) hp
  case setEis eis => exact Params.require_of_get? (by cases eis <;> rfl) hp
  case setHdr hdr => exact Params.require_of_get? (by cases hdr <;> rfl) hp
  case setMemc on | setRtsp on => exact Params.getSwitch_of_get? hp

end Stored

namespace Orchestrator

open CommandAction

variable {o o' : Orchestrator} {c : Command} {s : Setting} {changed : Bool}

/-- What a setter that changed something leaves. -/
structure Adopted (o : Orchestrator) (c : Command) (s : Setting) (o' : Orchestrator) : Prop where
  text : o'.params.get? s.key = some s.text
  stored : c.IsStored o'.params
  others : ∀ key, key ≠ s.key → key ∉ Selection.written →
    o'.params.get? key = o.params.get? key
  /-- Without a pipeline there is nothing to write back. -/
  down : o.built = none → o' = { o with params := o.params.insert s.key s.text }
  /-- A pipeline is built again, as the store asks for now. -/
  up : o.isBuilt → ∃ b, o'.built = some b ∧
    o'.params = b.attr.selection.writeBack (o.params.insert s.key s.text) ∧
    plan { o with params := o.params.insert s.key s.text } = .ok b.attr ∧ o'.plan = .ok b.attr

theorem init_eq_ok (down : o.built = none) (h : init o = .ok changed o') :
    ∃ b, o'.built = some b ∧ o.plan = .ok b.attr ∧
      o'.params = b.attr.selection.writeBack o.params ∧ o'.buffers = o.buffers := by
  rw [init_eq, if_neg (by simp [isBuilt, down])] at h
  split at h
  · cases h
  · rename_i attr hp
    dsimp only at h
    have hb := o.plant.build_staffed o.makePump True attr
    split at h <;> rename_i ho <;> cases h
    rw [ho] at hb
    obtain ⟨-, -, hattr, -⟩ := hb
    subst hattr
    exact ⟨_, rfl, hp, rfl, rfl⟩

theorem buffers_left_deinit (o : Orchestrator) : (left (deinit o)).buffers = o.buffers := by
  rw [left_deinit]
  split <;> rfl

/-- A rebuild that succeeds has planned from the store as it is, and plans the same once it has
written its choices back. -/
theorem plan_of_rebuild (h : init (left (deinit o)) = .ok changed o') :
    ∃ b, o'.built = some b ∧ o.plan = .ok b.attr ∧
      o'.params = b.attr.selection.writeBack o.params ∧ o'.plan = .ok b.attr := by
  obtain ⟨b, hb, hp, hparams, hbuffers⟩ := init_eq_ok (built_left_deinit o) h
  rw [plan_left_deinit] at hp
  rw [params_left_deinit] at hparams
  rw [buffers_left_deinit] at hbuffers
  refine ⟨b, hb, hp, hparams, ?_⟩
  rw [plan, hparams, hbuffers]
  exact PipelineAttr.plan_writeBack hp _

/-- Only the plan that is made first can refuse a value: the one of the rebuild is the same. -/
theorem reconfigure_config {key text : String} {e : ConfigError}
    (h : reconfigure key text o = .error (.config e) o') :
    plan { o with params := o.params.insert key text } = .error e ∧ o' = o := by
  rw [reconfigure_eq] at h
  dsimp only at h
  split at h
  · rename_i hp
    cases h
    exact ⟨hp, rfl⟩
  · rename_i attr hp
    split at h
    · split at h <;> rename_i hfails <;> cases h
      · cases (deinit_fails _ hfails).late
      · cases (init_fails _ ((plan_left_deinit _).trans hp) ‹_›).late
    · cases h

theorem run_setting_config (hs : c.setting? = some s) {e : ConfigError}
    (h : run c o = .error (.config e) o') :
    o' = o ∧ s.refusal? o.params o.buffers = some e := by
  rw [run_setting hs] at h
  split at h <;> rename_i hholds
  · cases h
    exact ⟨rfl, by simp only [Setting.refusal?, hholds]⟩
  · cases h
  · obtain ⟨hp, rfl⟩ := reconfigure_config h
    rw [plan] at hp
    exact ⟨rfl, by simp only [Setting.refusal?, hholds, hp]⟩

theorem reconfigure_adopts (hs : c.setting? = some s)
    (h : reconfigure s.key s.text o = .ok changed o') : o.Adopted c s o' := by
  have htext := get?_of_reconfigure hs h
  have hinsert : ∀ key, key ≠ s.key →
      (o.params.insert s.key s.text).get? key = o.params.get? key :=
    fun _ hk => Table.get?_insert_of_ne _ _ hk
  rw [reconfigure_eq] at h
  dsimp only at h
  split at h
  · cases h
  · split at h
    · rename_i up
      split at h <;> cases h
      obtain ⟨b, hb, hp, hparams, hagain⟩ := plan_of_rebuild ‹_›
      refine ⟨htext, Command.isStored_of_get? hs htext, fun key hk hw => ?_, fun down => ?_,
        fun _ => ⟨b, hb, hparams, hp, hagain⟩⟩
      · rw [hparams, Selection.get?_writeBack _ _ hw]
        exact hinsert key hk
      · simp [isBuilt, down] at up
    · rename_i down
      cases h
      exact ⟨htext, Command.isStored_of_get? hs htext, fun key hk _ => hinsert key hk,
        fun _ => rfl, fun up => absurd up down⟩

/-- Setters are all or nothing, as far as the store and its plan go. A setter that answers with an
error of the configuration has left everything as it was, and it was refused for what the store
says. A value that was validated is not refused any more, whatever the rebuild meets. And a setter
that changed something has its value in the store and, where a pipeline stood, a pipeline as the
store asks for; nothing else is written but the choices of the build. -/
theorem setting_all_or_nothing (hs : c.setting? = some s) (o : Orchestrator) :
    (∀ e, (o.handle c).1 = .error (.config e) →
      (o.handle c).2 = o ∧ s.refusal? o.params o.buffers = some e) ∧
    (∀ already attr, s.holds o.params = .ok already →
      plan { o with params := o.params.insert s.key s.text } = .ok attr →
      ∀ e, (o.handle c).1 ≠ .error (.config e)) ∧
    ((o.handle c).1 = .ok true → o.Adopted c s (o.handle c).2) := by
  have hrefused : ∀ e, (o.handle c).1 = .error (.config e) →
      (o.handle c).2 = o ∧ s.refusal? o.params o.buffers = some e :=
    fun e h => run_setting_config hs (run_of_handle_error h)
  refine ⟨hrefused, fun already attr hholds hp e h => ?_, fun h => ?_⟩
  · have hnone := Setting.refusal?_eq_none hholds hp
    rw [(hrefused e h).2] at hnone
    cases hnone
  · have hrun := run_of_handle_ok h
    rw [run_setting hs] at hrun
    split at hrun
    · cases hrun
    · cases hrun
    · exact reconfigure_adopts hs hrun

/-- A pipeline with the defaults of an empty store. -/
def defaulted : Orchestrator := bare.after [.command .init]

/-- HDR without a readout for it is refused; motion compensation is switched on. -/
theorem setting_all_or_nothing_defaulted :
    (defaulted.handle (.setHdr .dag)).2 = defaulted ∧
      (∀ e, (defaulted.handle (.setMemc true)).1 ≠ .error (.config e)) ∧
      defaulted.Adopted (.setMemc true) (.switch PipelineAttr.enableMemcKey true)
        (defaulted.handle (.setMemc true)).2 := by
  obtain ⟨hrefused, -, -⟩ :=
    setting_all_or_nothing (c := .setHdr .dag) (s := .choice Selection.hdrKey HdrMode.linear .dag)
      rfl defaulted
  obtain ⟨-, hvalid, hadopted⟩ :=
    setting_all_or_nothing (c := .setMemc true) (s := .switch PipelineAttr.enableMemcKey true)
      rfl defaulted
  exact ⟨(hrefused _ (by rfl)).1, hvalid _ _ (by rfl) (by rfl), hadopted (by rfl)⟩

end Orchestrator
end CameraPipeline
