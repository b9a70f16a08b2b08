import CameraPipeline.Proofs.Orchestrator.Stages
import CameraPipeline.Proofs.Orchestrator.Transition

/-!
Which pumps the commands start, and on which channels. The plant moves on by elementary changes
only, in which every new pump is one that its stream calls for.
-/

namespace CameraPipeline

open Plant

/-- The pumps that commands start. -/
inductive Made (make : PumpMaker) (shooting : Prop) : Pump → Prop
  | encoder (stream : Stream) (h : Handle) (kind : h.kind = .venc)
      (coded : stream = .main ∨ stream = .sub) : Made make shooting (make stream h none)
  | tap (h : Handle) (kind : h.kind = .vi) : Made make shooting (make .rawTap h none)
  | photo (h : Handle) (max : UInt32) (allowed : shooting) (kind : h.kind = .jpeg) :
      Made make shooting (make .photo h (some max))

/-- Changes in which the owner starts only pumps that the streams call for. -/
abbrev Staffed (make : PumpMaker) (shooting : Prop) : Plant → Plant → Prop :=
  Plant.Steps (Change.Within (fun _ => True) (Made make shooting))

variable {make : PumpMaker} {shooting : Prop} {p q : Plant}

theorem Stack.unwind_staffed (s : Stack) (p : Plant) : Staffed make shooting p (s.unwind p).2 :=
  (s.unwind_steps p).mono fun _ => Change.Within.mono (fun _ => id) fun _ => False.elim

theorem unwindSession_staffed (s : Option Stack) (p : Plant) :
    Staffed make shooting p (unwindSession s p).2 := by
  cases s with
  | none => exact .refl p
  | some s => exact s.unwind_staffed p

theorem Built.tearDown_staffed (b : Built) (p : Plant) :
    Staffed make shooting p (b.tearDown p).2 :=
  ((unwindSession_staffed _ p).trans (unwindSession_staffed _ _)).trans (b.base.unwind_staffed _)

/-- What a teardown undoes, in its order. -/
def Built.steps (b : Built) : List Undo :=
  b.photo.elim [] (·.stack.steps) ++ b.record.elim [] (·.stack.steps) ++ b.base.steps

theorem unwindSession_errors (s : Option Stack) (p : Plant) :
    ∀ e ∈ (unwindSession s p).1, e.IsFailure := by
  cases s with
  | none => simp [unwindSession]
  | some s => exact s.unwind_errors p

theorem Built.tearDown_errors (b : Built) (p : Plant) :
    ∀ e ∈ (b.tearDown p).1, e.IsFailure := by
  intro e he
  cases List.mem_append.mp he with
  | inl he =>
      cases List.mem_append.mp he with
      | inl he => exact unwindSession_errors _ p e he
      | inr he => exact unwindSession_errors _ _ e he
  | inr he => exact b.base.unwind_errors _ e he

namespace Plant

theorem openRecord_meets (p : Plant) (make : PumpMaker) (pumps : Pump → Prop)
    (attr : PipelineAttr) (vi main : Handle) (hp : pumps (make .main main none)) :
    match p.openRecord make attr vi main with
    | (.ok _, q) => Steps (Change.Within (fun _ => True) pumps) p q
    | (.error e, q) =>
      Steps (Change.Within (fun _ => True) pumps) p q ∧ ∃ r fault, e = .capability r fault := by
  have hmeets : Construction.Meets pumps (Build.record make attr vi main) fun _ => True :=
    Build.meets_record hp
  have h := hmeets.construct p
  simp only [openRecord]
  cases hc : p.construct (Build.record make attr vi main) with
  | mk answer q =>
      rw [hc] at h
      cases answer with
      | ok a => exact h.1
      | error e => exact h

theorem openPhoto_meets (p : Plant) (make : PumpMaker) (pumps : Pump → Prop)
    (vi jpeg : Handle) (max : UInt32) (hp : pumps (make .photo jpeg (some max))) :
    match p.openPhoto make vi jpeg max with
    | (.ok _, q) => Steps (Change.Within (fun _ => True) pumps) p q
    | (.error e, q) =>
      Steps (Change.Within (fun _ => True) pumps) p q ∧ ∃ r fault, e = .capability r fault := by
  have hmeets : Construction.Meets pumps (Build.photo make vi jpeg max) fun _ => True :=
    Build.meets_photo hp
  have h := hmeets.construct p
  simp only [openPhoto]
  cases hc : p.construct (Build.photo make vi jpeg max) with
  | mk answer q =>
      rw [hc] at h
      cases answer with
      | ok a => exact h.1
      | error e => exact h

theorem openRecord_staffed (p : Plant) (make : PumpMaker) (shooting : Prop) (attr : PipelineAttr)
    (vi : Handle) {main : Handle} (hk : main.kind = .venc) :
    match p.openRecord make attr vi main with
    | (.ok _, q) => Staffed make shooting p q
    | (.error e, q) => Staffed make shooting p q ∧ ∃ r fault, e = .capability r fault :=
  p.openRecord_meets make _ attr vi main (.encoder .main main hk (.inl rfl))

theorem openPhoto_staffed (p : Plant) (make : PumpMaker) (vi : Handle) {jpeg : Handle}
    (hk : jpeg.kind = .jpeg) (max : UInt32) (hs : shooting) :
    match p.openPhoto make vi jpeg max with
    | (.ok _, q) => Staffed make shooting p q
    | (.error e, q) => Staffed make shooting p q ∧ ∃ r fault, e = .capability r fault :=
  p.openPhoto_meets make _ vi jpeg max (.photo jpeg max hs hk)

theorem build_staffed (p : Plant) (make : PumpMaker) (shooting : Prop) (attr : PipelineAttr) :
    match p.build make attr with
    | (.ok b, q) =>
      Staffed make shooting p q ∧ Build.Kinds b.handles ∧ b.attr = attr ∧ b.photo = none
    | (.error e, q) => Staffed make shooting p q ∧ ∃ r fault, e = .capability r fault := by
  have hmeets : Construction.Meets (Made make shooting) (Build.base make attr) Build.Kinds :=
    Build.meets_base (fun h hk => .encoder .sub h hk (.inr rfl)) (fun h hk => .tap h hk) attr
  have h := hmeets.construct p
  simp only [build]
  cases hc : p.construct (Build.base make attr) with
  | mk answer q =>
      rw [hc] at h
      cases answer with
      | error e => exact h
      | ok a =>
          obtain ⟨handles, base⟩ := a
          obtain ⟨hs, hk⟩ := h
          cases hm : handles.main with
          | none =>
              simp only [hm]
              exact ⟨hs, hk, trivial, trivial⟩
          | some main =>
              cases attr.recordOnInit with
              | false =>
                  simp only [hm]
                  exact ⟨hs, hk, trivial, trivial⟩
              | true =>
                  have hr := openRecord_staffed q make shooting attr handles.vi
                    (hk.main main hm)
                  simp only [hm]
                  cases ho : q.openRecord make attr handles.vi main with
                  | mk answer q' =>
                      rw [ho] at hr
                      cases answer with
                      | ok s => exact ⟨hs.trans hr, hk, rfl, rfl⟩
                      | error e =>
                          exact ⟨(hs.trans hr.1).trans (base.unwind_staffed q'), hr.2⟩

end Plant

/-- To look whether a session is over is to wait for its pump. -/
theorem PhotoSession.isDrained_awaits {P : Change → Prop} (hP : ∀ id, P (.await id))
    (s : PhotoSession) (p : Plant) : Plant.Steps P p (s.isDrained p).2 := by
  simp only [isDrained]
  split
  · exact .one (.await _) (hP _)
  · exact .refl p

theorem PhotoSession.isDrained_steps (s : PhotoSession) (p : Plant) :
    Plant.Steps Change.IsQuiet p (s.isDrained p).2 :=
  s.isDrained_awaits (fun _ => trivial) p

namespace Orchestrator

/-- The channels that a pipeline refers to are of the kinds that their roles call for. -/
def Kinded (o : Orchestrator) : Prop := ∀ b, o.built = some b → Build.Kinds b.handles

variable {o o' : Orchestrator}

theorem Transition.kinded (h : Transition shooting o o') (hk : o.Kinded) : o'.Kinded := by
  cases h with
  | settings | buildFails | setInput | openRecordFails | waitPhoto | openPhotoFails => exact hk
  | @build attr b plant down h =>
      have hb := o.plant.build_staffed o.makePump shooting attr
      rw [h] at hb
      intro _ heq
      cases heq
      exact hb.2.1
  | tearDown =>
      intro b hb
      cases hb
  | noteInput up | openRecord up | stopRecord up | closeRecord up | closePhoto up
  | openPhoto _ up =>
      have hb := hk _ up
      intro _ heq
      cases heq
      exact hb

theorem Transition.staffed (h : Transition shooting o o') (hk : o.Kinded) :
    Staffed o.makePump shooting o.plant o'.plant := by
  cases h with
  | settings | noteInput => exact .refl _
  | @build attr b plant down h =>
      have hb := o.plant.build_staffed o.makePump shooting attr
      rw [h] at hb
      exact hb.1
  | @buildFails attr e plant down h =>
      have hb := o.plant.build_staffed o.makePump shooting attr
      rw [h] at hb
      exact hb.1
  | @tearDown b _ => exact b.tearDown_staffed o.plant
  | setInput =>
      exact (ask_steps o.plant _).mono fun _ =>
        Change.Within.mono (fun _ _ => trivial) fun _ => False.elim
  | @openRecord b main s plant up _ _ encoder h =>
      have hr := openRecord_staffed o.plant o.makePump shooting b.attr
        b.handles.vi ((hk b up).main main encoder)
      rw [h] at hr
      exact hr
  | @openRecordFails b main e plant up _ _ encoder h =>
      have hr := openRecord_staffed o.plant o.makePump shooting b.attr
        b.handles.vi ((hk b up).main main encoder)
      rw [h] at hr
      exact hr.1
  | @stopRecord b s => exact (Stack.stopEach_steps o.plant s.stack.steps).within
  | @closeRecord b s => exact s.stack.unwind_staffed o.plant
  | @waitPhoto b s => exact (s.isDrained_steps o.plant).within
  | @closePhoto b s => exact s.stack.unwind_staffed o.plant
  | @openPhoto b jpeg count s plant allowed up _ _ encoder h =>
      have hr := openPhoto_staffed o.plant o.makePump b.handles.vi
        ((hk b up).jpeg jpeg encoder) count allowed
      rw [h] at hr
      exact hr
  | @openPhotoFails b jpeg count e plant allowed up _ _ encoder h =>
      have hr := openPhoto_staffed o.plant o.makePump b.handles.vi
        ((hk b up).jpeg jpeg encoder) count allowed
      rw [h] at hr
      exact hr.1

/-- A command moves the plant on by elementary changes, whatever it comes to. -/
theorem Transitions.staffed (h : Transitions shooting o o') (hk : o.Kinded) :
    o'.Kinded ∧ Staffed o.makePump shooting o.plant o'.plant := by
  induction h with
  | refl => exact ⟨hk, .refl _⟩
  | tail hs h ih =>
      obtain ⟨hk', hst⟩ := ih
      refine ⟨h.kinded hk', hst.trans ?_⟩
      rw [← Transitions.makePump hs]
      exact h.staffed hk'

end Orchestrator
end CameraPipeline
