import CameraPipeline.Proofs.Orchestrator.Actions
import Mathlib.Logic.Relation

/-!
The pieces of which commands consist. Each piece changes the pipeline at one point and takes the
plant along; whatever a command comes to, it has gone through some of them. A property that every
piece keeps is kept by every command, also where it fails.
-/

namespace CameraPipeline

/-- Commands that open a photo session. -/
def Command.Shoots : Command → Prop
  | .startPhoto _ => True
  | _ => False

namespace Orchestrator

/-- One piece of a command. Photo sessions are opened only where `shooting` holds. -/
inductive Transition (shooting : Prop) (o : Orchestrator) : Orchestrator → Prop
  | settings (params : Params) (verbose : Bool) : Transition shooting o { o with params, verbose }
  | build {attr : PipelineAttr} {b : Built} {plant : Plant} (down : o.built = none)
      (h : o.plant.build o.makePump attr = (.ok b, plant)) (planned : o.plan = .ok attr) :
      Transition shooting o { o with plant, built := some b }
  | buildFails {attr : PipelineAttr} {e : PipelineError} {plant : Plant} (down : o.built = none)
      (h : o.plant.build o.makePump attr = (.error e, plant)) :
      Transition shooting o { o with plant }
  | tearDown {b : Built} (up : o.built = some b) :
      Transition shooting o { o with built := none, plant := (b.tearDown o.plant).2 }
  | setInput {b : Built} (up : o.built = some b) (vi : ViAttr) :
      Transition shooting o
        { o with plant := (o.plant.ask (.setAttr b.handles.vi (.vi vi))).2 }
  | noteInput {b : Built} (up : o.built = some b) (vi : ViAttr) :
      Transition shooting o { o with built := some { b with attr := { b.attr with vi } } }
  | openRecord {b : Built} {main : Handle} {s : RecordSession} {plant : Plant}
      (up : o.built = some b) (idle : b.record = none) (free : b.photo = none)
      (encoder : b.handles.main = some main)
      (h : o.plant.openRecord o.makePump b.attr b.handles.vi main = (.ok s, plant)) :
      Transition shooting o { o with plant, built := some { b with record := some s } }
  | openRecordFails {b : Built} {main : Handle} {e : PipelineError} {plant : Plant}
      (up : o.built = some b) (idle : b.record = none) (free : b.photo = none)
      (encoder : b.handles.main = some main)
      (h : o.plant.openRecord o.makePump b.attr b.handles.vi main = (.error e, plant)) :
      Transition shooting o { o with plant }
  | stopRecord {b : Built} {s : RecordSession} (up : o.built = some b)
      (session : b.record = some s) :
      Transition shooting o
        { o with
          plant := (s.stack.stopPumps o.plant).2.2
          built := some { b with
            record := some { s with stack := (s.stack.stopPumps o.plant).2.1 } } }
  | closeRecord {b : Built} {s : RecordSession} (up : o.built = some b)
      (session : b.record = some s) :
      Transition shooting o
        { o with
          plant := (s.stack.unwind o.plant).2
          built := some { b with record := none } }
  | waitPhoto {b : Built} {s : PhotoSession} (up : o.built = some b)
      (session : b.photo = some s) :
      Transition shooting o { o with plant := (s.isDrained o.plant).2 }
  | closePhoto {b : Built} {s : PhotoSession} (up : o.built = some b)
      (session : b.photo = some s) :
      Transition shooting o
        { o with
          plant := (s.stack.unwind o.plant).2
          built := some { b with photo := none } }
  | openPhoto {b : Built} {jpeg : Handle} {count : UInt32} {s : PhotoSession} {plant : Plant}
      (allowed : shooting) (up : o.built = some b) (idle : b.record = none)
      (free : b.photo = none) (encoder : b.handles.jpeg = some jpeg)
      (h : o.plant.openPhoto o.makePump b.handles.vi jpeg count = (.ok s, plant)) :
      Transition shooting o { o with plant, built := some { b with photo := some s } }
  | openPhotoFails {b : Built} {jpeg : Handle} {count : UInt32} {e : PipelineError}
      {plant : Plant} (allowed : shooting) (up : o.built = some b) (idle : b.record = none)
      (free : b.photo = none) (encoder : b.handles.jpeg = some jpeg)
      (h : o.plant.openPhoto o.makePump b.handles.vi jpeg count = (.error e, plant)) :
      Transition shooting o { o with plant }

abbrev Transitions (shooting : Prop) : Orchestrator → Orchestrator → Prop :=
  Relation.ReflTransGen (Transition shooting)

open CommandAction Relation

variable {shooting : Prop} (o : Orchestrator)

theorem Transition.frame {o o' : Orchestrator} (h : Transition shooting o o') :
    o'.tuning = o.tuning ∧ o'.buffers = o.buffers ∧ o'.feeds = o.feeds := by
  cases h <;> exact ⟨rfl, rfl, rfl⟩

theorem Transitions.frame {o o' : Orchestrator} (h : Transitions shooting o o') :
    o'.tuning = o.tuning ∧ o'.buffers = o.buffers ∧ o'.feeds = o.feeds := by
  induction h with
  | refl => exact ⟨rfl, rfl, rfl⟩
  | tail _ hs ih =>
      obtain ⟨ht, hb, hf⟩ := hs.frame
      exact ⟨ht.trans ih.1, hb.trans ih.2.1, hf.trans ih.2.2⟩

theorem Transitions.makePump {o o' : Orchestrator} (h : Transitions shooting o o') :
    o'.makePump = o.makePump := by
  obtain ⟨ht, _, hf⟩ := h.frame
  funext stream source limit
  simp only [Orchestrator.makePump, sinksOf, ht, hf]

theorem init_transitions : Transitions shooting o (left (init o)) := by
  rw [init_eq]
  split
  · exact .refl
  · rename_i hup
    have hb : o.built = none := by simpa [isBuilt] using hup
    split
    · exact .refl
    · rename_i attr hp
      dsimp only
      split <;> rename_i ho
      · have hbuild : Transition shooting o _ := .build hb ho hp
        exact .head hbuild (.single (.settings _ o.verbose))
      · have hfails : Transition shooting o _ := .buildFails hb ho
        exact .head hfails (.single (.settings _ o.verbose))

theorem deinit_transitions : Transitions shooting o (left (deinit o)) := by
  rw [left_deinit]
  split
  · exact .refl
  · exact .single (.tearDown ‹_›)

theorem rebuild_transitions : Transitions shooting o (left (init (left (deinit o)))) :=
  (deinit_transitions o).trans (init_transitions _)

theorem restart_transitions : Transitions shooting o (left (restart o)) := by
  have h : Transitions shooting o _ := rebuild_transitions o
  rw [restart_eq]
  split <;> rename_i hi <;> rw [hi] at h
  · exact h
  · split <;> exact h

theorem reconfigure_transitions (key value : String) :
    Transitions shooting o (left (reconfigure key value o)) := by
  let asked := { o with params := o.params.insert key value }
  have hs : Transition shooting o asked := .settings _ o.verbose
  have h : Transitions shooting asked _ := rebuild_transitions asked
  rw [reconfigure_eq]
  dsimp only
  split
  · exact .refl
  · split
    · split <;> rename_i hi
      · exact .head hs h
      · rw [hi] at h
        exact .head hs h
      · rw [hi] at h
        exact .head hs h
    · exact .single hs

theorem setChoice_transitions {α : Type} [DecidableEq α] [FromText α] [ToText α] (key : String)
    (default value : α) : Transitions shooting o (left (setChoice key default value o)) := by
  rw [setChoice_eq]
  split
  · exact .refl
  · split
    · exact .refl
    · exact reconfigure_transitions o key _

theorem setSwitch_transitions (key : String) (on : Bool) :
    Transitions shooting o (left (setSwitch key on o)) := by
  rw [setSwitch_eq]
  split
  · exact .refl
  · split
    · exact .refl
    · exact reconfigure_transitions o key _

theorem setSmartAe_transitions (on : Bool) : Transitions shooting o (left (setSmartAe on o)) := by
  rw [setSmartAe_eq]
  split
  · exact .refl
  · dsimp only
    split
    · exact .refl
    · split
      · exact .single (.settings _ o.verbose)
      · rename_i b hb
        let vi := { b.attr.vi with smartAe := on }
        have hs : Transition shooting o _ := .setInput hb vi
        split <;> rename_i plant ha <;> rw [ha] at hs
        · exact .single hs
        · refine .head hs (.head (.noteInput (o := { o with plant }) hb vi) ?_)
          exact .single (.settings _ o.verbose)

theorem startRecord_transitions : Transitions shooting o (left (startRecord o)) := by
  rw [startRecord_eq]
  split
  · exact .refl
  · rename_i b hb
    split
    · exact .refl
    · rename_i hp
      have hp : b.photo = none := by simpa using hp
      split
      · exact .refl
      · exact .refl
      · rename_i main hm hr
        split <;> rename_i ho
        · exact .single (.openRecordFails hb hr hp hm ho)
        · have hopen : Transition shooting o _ := .openRecord hb hr hp hm ho
          exact .head hopen (.single (.settings _ o.verbose))

theorem stopRecord_transitions : Transitions shooting o (left (stopRecord o)) := by
  rw [stopRecord_eq]
  split
  · exact .refl
  · rename_i b hb
    split
    · exact .refl
    · rename_i session hs
      have hstop : Transition shooting o _ := .stopRecord hb hs
      dsimp only
      split
      · exact .single hstop
      · refine .head hstop (.head (.closeRecord rfl rfl) ?_)
        split <;> exact .single (.settings _ o.verbose)

theorem closePhoto_transitions {b : Built} {session : PhotoSession} (hb : o.built = some b)
    (hs : b.photo = some session) : Transitions shooting o (left (closePhoto b session o)) := by
  rw [closePhoto_eq]
  dsimp only
  split <;> exact .single (.closePhoto hb hs)

theorem stopPhoto_transitions : Transitions shooting o (left (stopPhoto o)) := by
  rw [stopPhoto_eq]
  split
  · exact .refl
  · rename_i b hb
    split
    · exact .refl
    · rename_i session hs
      have hwait : Transition shooting o _ := .waitPhoto hb hs
      have hclose : Transitions shooting { o with plant := (session.isDrained o.plant).2 } _ :=
        closePhoto_transitions _ hb hs
      dsimp only
      split
      · split <;> rename_i hc <;> rw [hc] at hclose <;> exact .head hwait hclose
      · exact .single hwait

theorem clearPhoto_transitions {b : Built} (hb : o.built = some b) :
    Transitions shooting o (left (clearPhoto o b)) := by
  rw [clearPhoto]
  split
  · exact .refl
  · rename_i previous hs
    have hwait : Transition shooting o _ := .waitPhoto hb hs
    dsimp only
    split
    · exact .head hwait (closePhoto_transitions _ hb hs)
    · exact .single hwait

theorem transitions_of_clearPhoto {b : Built} (hb : o.built = some b) {o' : Orchestrator}
    (h : clearPhoto o b = .ok () o') : Transitions shooting o o' := by
  have hclear : Transitions shooting o _ := clearPhoto_transitions o hb
  rwa [h] at hclear

/-- Room for a session is the pipeline without the session before. -/
theorem built_of_clearPhoto {b : Built} (hb : o.built = some b) {o' : Orchestrator}
    (h : clearPhoto o b = .ok () o') : o'.built = some { b with photo := none } := by
  rw [clearPhoto] at h
  split at h
  · rename_i hp
    cases h
    rw [hb, ← hp]
  · dsimp only at h
    split at h
    · rw [closePhoto_eq] at h
      dsimp only at h
      split at h <;> cases h
      rfl
    · cases h

theorem startPhoto_transitions (count : UInt32) :
    Transitions True o (left (startPhoto count o)) := by
  rw [startPhoto_eq]
  split
  · exact .refl
  · rename_i b hb
    have hclear : Transitions True o _ := clearPhoto_transitions o hb
    split
    · exact .refl
    · rename_i hr
      have hr : b.record = none := by simpa using hr
      split
      · exact .refl
      · rename_i jpeg hj
        split
        · exact .refl
        · split <;> rename_i o' hc <;> rw [hc] at hclear
          · exact hclear
          · have hb' := built_of_clearPhoto o hb hc
            have hmake : o'.makePump = o.makePump := Transitions.makePump hclear
            rw [← hmake]
            split <;> rename_i ho
            · exact hclear.tail (.openPhotoFails trivial hb' hr rfl hj ho)
            · have hopen : Transition True o' _ := .openPhoto trivial hb' hr rfl hj ho
              exact hclear.tail hopen

/-- Whatever a command comes to, it went through pieces, and only the start of a capture through
those that open a photo session. -/
theorem run_transitions (c : Command) : Transitions c.Shoots o (left (run c o)) := by
  cases c with
  | init => exact init_transitions o
  | deinit | enterSleep => exact deinit_transitions o
  | restart => exact restart_transitions o
  | setMode mode | setEis eis | setHdr hdr => exact setChoice_transitions o _ _ _
  | setMemc on | setRtsp on => exact setSwitch_transitions o _ on
  | setSmartAe on => exact setSmartAe_transitions o on
  | setDebug on => exact .single (.settings o.params on)
  | startRecord => exact startRecord_transitions o
  | stopRecord => exact stopRecord_transitions o
  | startPhoto count => exact startPhoto_transitions o count
  | stopPhoto => exact stopPhoto_transitions o

theorem handle_transitions (c : Command) : Transitions c.Shoots o (o.handle c).2 :=
  left_run o c ▸ run_transitions o c

end Orchestrator
end CameraPipeline
