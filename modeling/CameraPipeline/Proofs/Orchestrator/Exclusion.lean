import CameraPipeline.Proofs.Orchestrator.Coherence

/-!
A recording and a capture of photos exclude each other. A plan asks for one of the two encoders at
most, and a session opens only while the other one is not there. Neither a rollback nor a stop that
fails can bring both together: what they leave is a part of what was there before.
-/

namespace CameraPipeline

/-- One session at most, and the channels of the pipeline are those of a layout with one of the two
encoders at most. -/
structure Built.Exclusive (b : Built) : Prop where
  sessions : b.record = none ∨ b.photo = none
  encoders : b.handles.main = none ∨ b.handles.jpeg = none
  channels : ∃ l : Layout, l.Fits b.attr b.record.isSome ∧ l.handles = b.handles ∧
    ∀ h, .request (.destroy h) ∈ b.steps ↔ h ∈ l.channels

namespace Orchestrator

open Plant

variable {shooting : Prop} {o o' : Orchestrator}

/-- The pipeline has one session and one of the two encoders at most. On the server the input may
be ahead of the attributes that the pipeline is known to have. -/
def Exclusive (o : Orchestrator) : Prop :=
  ∀ b, o.built = some b →
    (b.record = none ∨ b.photo = none) ∧ (b.attr.main = none ∨ b.attr.photo = none) ∧
      ∃ (vi : ViAttr) (l : Layout),
        l.Equips { b with attr := { b.attr with vi } } o.plant.server

theorem Exclusive.of_down (down : o.built = none) : o.Exclusive := by
  intro b hb
  rw [down] at hb
  cases hb

theorem Exclusive.transport (he : o.Exclusive) (hb : o'.built = o.built)
    (ht : ∀ h v, o.plant.server.attrOf h = some v → o'.plant.server.attrOf h = some v) :
    o'.Exclusive := by
  intro b heq
  obtain ⟨hs, ha, vi, l, hl⟩ := he b (hb ▸ heq)
  exact ⟨hs, ha, vi, l, hl.transport fun h v _ => ht h v⟩

theorem Transition.exclusive (h : Transition shooting o o') (hn : o.plant.server.Numbered)
    (he : o.Exclusive) : o'.Exclusive := by
  cases h with
  | settings => exact he
  | @build attr b plant down h planned =>
      obtain ⟨rfl, _, l, hl⟩ := build_equips hn h
      have hb := o.plant.build_staffed o.makePump shooting b.attr
      rw [h] at hb
      intro _ heq
      cases heq
      exact ⟨.inr hb.2.2.2, PipelineAttr.encoders_of_plan planned, b.attr.vi, l, hl⟩
  | buildFails down => exact .of_down down
  | tearDown => exact .of_down rfl
  | setInput up vi =>
      intro _ heq
      cases up.symm.trans heq
      obtain ⟨hs, ha, vi₀, l, hl⟩ := he _ up
      have hset := hl.setInput hn vi
      dsimp only at hset ⊢
      split at hset <;> rename_i hask <;> rw [hask]
      · exact ⟨hs, ha, vi, l, hset⟩
      · exact ⟨hs, ha, vi₀, l, hset⟩
  | noteInput up vi =>
      intro _ heq
      cases heq
      obtain ⟨hs, ha, vi₀, l, hl⟩ := he _ up
      exact ⟨hs, ha, vi₀, l, hl⟩
  | openRecord up idle free encoder h =>
      intro _ heq
      cases heq
      obtain ⟨_, ha, vi, l, hl⟩ := he _ up
      obtain ⟨gdc, rgn, hopen⟩ := hl.openRecord hn encoder h
      exact ⟨.inr free, ha, vi, _, hopen⟩
  | openRecordFails up idle free encoder h =>
      intro _ heq
      cases up.symm.trans heq
      obtain ⟨hs, ha, vi, l, hl⟩ := he _ up
      exact ⟨hs, ha, vi, l, hl.openRecord_fails hn h⟩
  | stopRecord up session =>
      intro _ heq
      cases heq
      obtain ⟨hs, ha, vi, l, hl⟩ := he _ up
      exact ⟨.inr (hs.resolve_left (by simp [session])), ha, vi, l, hl.stopRecord hn session⟩
  | closeRecord up session =>
      intro _ heq
      cases heq
      obtain ⟨_, ha, vi, l, hl⟩ := he _ up
      exact ⟨.inl rfl, ha, vi, _, hl.closeRecord hn (hl.record _ session)⟩
  | @waitPhoto b s up session =>
      exact he.transport rfl fun _ _ => (s.isDrained_steps o.plant).attrOf_quiet hn
  | closePhoto up session =>
      intro _ heq
      cases heq
      obtain ⟨_, ha, vi, l, hl⟩ := he _ up
      exact ⟨.inr rfl, ha, vi, _, hl.closePhoto hn (hl.photo _ session)⟩
  | openPhoto allowed up idle free encoder h =>
      intro _ heq
      cases heq
      obtain ⟨_, ha, vi, l, hl⟩ := he _ up
      exact ⟨.inl idle, ha, vi, l, hl.openPhoto hn h⟩
  | openPhotoFails allowed up idle free encoder h =>
      intro _ heq
      cases up.symm.trans heq
      obtain ⟨hs, ha, vi, l, hl⟩ := he _ up
      exact ⟨hs, ha, vi, l, hl.openPhoto_fails hn h⟩

theorem Transitions.exclusive (h : Transitions shooting o o') (hk : o.Kinded)
    (hn : o.plant.server.Numbered) (he : o.Exclusive) : o'.Exclusive := by
  induction h with
  | refl => exact he
  | tail h ht ih =>
      exact ht.exclusive ((Transitions.staffed h hk).2.numbered hn) ih

theorem meet_exclusive {e : Event} (hk : o.Kinded) (hn : o.plant.server.Numbered)
    (he : o.Exclusive) : (o.meet e).Exclusive := by
  cases e with
  | command c => exact (handle_transitions o c).exclusive hk hn he
  | write | inject | turns | register | sinks => exact he.transport rfl fun _ _ => id
  | move m =>
      have hs : Steps Change.IsQuiet o.plant (o.plant.move m) := .one (.move m) trivial
      exact he.transport rfl fun _ _ => hs.attrOf_quiet hn
  | waitPhoto =>
      obtain ⟨hs, hb⟩ := waitPhoto_steps o
      exact he.transport hb fun _ _ => hs.attrOf_quiet hn

theorem Exclusive.built (he : o.Exclusive) {b : Built} (hb : o.built = some b) :
    b.Exclusive := by
  obtain ⟨hs, ha, vi, l, hl⟩ := he b hb
  have hd := hl.describes
  have hf := hd.fits
  have hfits : l.Fits b.attr b.record.isSome :=
    ⟨hf.vi, hf.vpss, hf.vo, hf.main, hf.sub, hf.encoders, hf.jpeg, hf.gdc, hf.rgn⟩
  have hhandles : l.handles = b.handles := hd.handles
  have hmain : b.handles.main.isSome = b.attr.main.isSome := hhandles ▸ hfits.main.1
  have hjpeg : b.handles.jpeg.isSome = b.attr.photo.isSome := hhandles ▸ hfits.jpeg.1
  refine ⟨hs, ha.imp (fun h => ?_) fun h => ?_, l, hfits, hhandles, hd.held⟩
  · simpa [h] using hmain
  · simpa [h] using hjpeg

theorem startPhoto_of_isRecording (h : o.isRecording) (count : UInt32) :
    o.handle (.startPhoto count) = (.error (.sessionConflict .photoCapture .recording), o) := by
  obtain ⟨r, hr⟩ := Option.isSome_iff_exists.mp h
  obtain ⟨b, hb, hr⟩ := Option.bind_eq_some_iff.mp hr
  have hrun : run (.startPhoto count) o =
      .error (.sessionConflict .photoCapture .recording) o := by
    rw [run, startPhoto_eq, hb]
    exact if_pos (by simp [hr])
  rw [handle, hrun]

theorem startRecord_of_photoSession (h : o.photoSession?.isSome) :
    o.handle .startRecord = (.error (.sessionConflict .recording .photoCapture), o) := by
  obtain ⟨s, hs⟩ := Option.isSome_iff_exists.mp h
  obtain ⟨b, hb, hs⟩ := Option.bind_eq_some_iff.mp hs
  have hrun : run .startRecord o = .error (.sessionConflict .recording .photoCapture) o := by
    rw [run, startRecord_eq, hb]
    exact if_pos (by simp [hs])
  rw [handle, hrun]

/-- In every run, whatever fails in it and whoever writes to the store, the pipeline has one session
and one of the two encoders at most; and while one session is open, the command that starts the
other reports the conflict and leaves everything as it was. -/
theorem after_exclusive (hf : o.Fresh) (events : List Event) :
    let o' := o.after events
    (∀ b, o'.built = some b → b.Exclusive) ∧
      (o'.isRecording → ∀ count, o'.handle (.startPhoto count) =
        (.error (.sessionConflict .photoCapture .recording), o')) ∧
      (o'.photoSession?.isSome → o'.handle .startRecord =
        (.error (.sessionConflict .recording .photoCapture), o')) := by
  have hany : ∀ e ∈ events, True := fun _ _ => trivial
  have hi := after_keeps (I := fun o => o.Exclusive ∧ o.Kinded ∧ o.plant.server.Numbered)
    (fun o e _ hi => ⟨meet_exclusive hi.2.1 hi.2.2 hi.1, meet_kinded e hi.2.1,
      meet_numbered hi.2.1 hi.2.2⟩)
    hany ⟨.of_down hf.built, hf.kinded, hf.numbered⟩
  exact ⟨fun b => hi.1.built, startPhoto_of_isRecording, startRecord_of_photoSession⟩

/-- The pump of a recording hangs, so that the recording cannot be stopped. -/
def lateStop : List Event := [.command .init, .move (.stall 0), .command .stopRecord]

/-- The teardown of that pipeline goes wrong too; photos are taken all the same. -/
def lateSwitch : List Event :=
  lateStop ++ [.inject ⟨.unbind, none, 1, Nat.one_pos⟩, .command (.setMode .photo),
    .command (.startPhoto 1)]

theorem after_exclusive_lateSwitch :
    ((bare.after lateStop).handle (.startPhoto 1)).1 =
        .error (.sessionConflict .photoCapture .recording) ∧
      ((bare.after lateSwitch).handle .startRecord).1 =
        .error (.sessionConflict .recording .photoCapture) :=
  ⟨congrArg Prod.fst ((after_exclusive fresh_bare lateStop).2.1 (by decide +kernel) 1),
    congrArg Prod.fst ((after_exclusive fresh_bare lateSwitch).2.2 (by decide +kernel))⟩

end Orchestrator
end CameraPipeline
