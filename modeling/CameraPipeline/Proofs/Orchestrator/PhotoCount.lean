import CameraPipeline.Proofs.Orchestrator.Exclusion
import CameraPipeline.Proofs.Orchestrator.Handover
import CameraPipeline.Proofs.Orchestrator.PreMutation

/-!
The count of a photo session, from its start until its pump is asked to stop. Whatever fails and
whatever the sinks do, the pump ends when it has fetched as many units as it was started for, each
of them offered and handed back once, and the channel has given just as many. Until then the
session can neither be stopped nor replaced, and afterwards it can.
-/

namespace CameraPipeline

open Plant

/-- The session stands on its stack, and its pump and its channel count together. -/
structure PhotoSession.Counted (s : PhotoSession) (vi jpeg : Handle) (p : Plant) : Prop where
  kind : jpeg.kind = .jpeg
  stack : s.stack.steps =
    [.request (.unbind ⟨vi, jpeg⟩), .pump s.pump, .request (.stopReceiving jpeg)]
  counting : ∃ pump us, p.Counting jpeg s.max s.pump pump us
  linked : p.server.circuit.linked ⟨vi, jpeg⟩

namespace PhotoSession

variable {s : PhotoSession} {vi jpeg : Handle} {p q : Plant}

theorem Counted.later (hs : s.Counted vi jpeg p) (h : Steps Change.LetsWork p q) :
    s.Counted vi jpeg q :=
  ⟨hs.kind, hs.stack, h.counting hs.kind hs.counting, h.linked hs.linked⟩

theorem Counted.of_same (hs : s.Counted vi jpeg p) (hp : q.pumps = p.pumps)
    (hj : q.journal = p.journal) (hc : q.server.channels = p.server.channels)
    (hl : q.server.links = p.server.links) : s.Counted vi jpeg q where
  kind := hs.kind
  stack := hs.stack
  counting := by
    obtain ⟨pump, us, hcount⟩ := hs.counting
    exact ⟨pump, us, hcount.of_same hp hj hc⟩
  linked := by
    rw [Server.linked_circuit, hl]
    exact hs.linked

theorem Counted.pumps (hs : s.Counted vi jpeg p) : s.stack.pumps = [s.pump] := by
  rw [Stack.pumps, hs.stack]
  rfl

theorem Counted.pump_mem (hs : s.Counted vi jpeg p) : .pump s.pump ∈ s.stack.steps := by
  simp [hs.stack]

section Count

variable {pump : Pump} {us : List MediaUnit}

/-- The session is over just when its pump has ended. -/
theorem Counted.isDrained (hs : s.Counted vi jpeg p) (hc : p.Counting jpeg s.max s.pump pump us) :
    (s.isDrained p).1 = pump.hasEnded := by
  rw [isDrained_eq hs.pumps hc.found hc.stream]
  simp only [waitPump, hc.found, Worker.wait]
  cases hseen : pump.worker.seenEnd with
  | true => exact (hc.takes.honest.seenEnd hseen).symm
  | false => exact Bool.false_or _

theorem progress_of_counting (hc : p.Counting jpeg s.max s.pump pump us) :
    s.progress p = ⟨us.length, s.max.toNat⟩ := by
  have hle : us.length ≤ UInt32.size - 1 :=
    Nat.le_trans hc.takes.length_le (Nat.le_pred_of_lt s.max.toNat_lt)
  simp only [progress, hc.found, Option.elim_some, hc.takes.units, Nat.min_eq_left hle]

end Count

/-- The count of a session never decreases. -/
theorem taken_le (s : PhotoSession) (h : p.Continues q) :
    (s.progress p).taken ≤ (s.progress q).taken := by
  simp only [progress]
  cases hp : p.pump? s.pump with
  | none => exact Nat.zero_le _
  | some pump =>
      obtain ⟨pump', hp', hb⟩ := h s.pump pump hp
      have hu := hb.units
      rw [hp']
      dsimp only [Option.elim_some]
      omega

end PhotoSession

theorem Plant.max_of_openPhoto {p q : Plant} {make : PumpMaker} {vi jpeg : Handle} {n : UInt32}
    {s : PhotoSession} (ho : p.openPhoto make vi jpeg n = (.ok s, q)) : s.max = n := by
  simp only [openPhoto] at ho
  split at ho <;> cases ho
  rfl

/-- A session opens with a new pump, on a channel that begins to count. -/
theorem Plant.openPhoto_counted {p q : Plant} (o : Orchestrator) {vi jpeg : Handle} {n : UInt32}
    {s : PhotoSession} (hr : p.Recorded) (hk : jpeg.kind = .jpeg)
    (ho : p.openPhoto o.makePump vi jpeg n = (.ok s, q)) :
    p.pump? s.pump = none ∧ s.Counted vi jpeg q ∧
      ∃ pump, q.pump? s.pump = some pump ∧ pump.sinks = o.sinksOf .photo := by
  obtain ⟨k, k', p₁, hreceive, hid, hbind, hstack⟩ := openPhoto_eq_ok ho
  have hmax := max_of_openPhoto ho
  have hsteps : Steps (Change.Within (· = .startReceiving jpeg (.count n)) fun _ => False) p p₁ := by
    have h := ask_steps p (.startReceiving jpeg (.count n))
    rwa [hreceive] at h
  have hcounts : p₁.server.Counts jpeg n 0 := by
    have hans : (p.takeTurn.server.perform (.startReceiving jpeg (.count n))).1 = .ok k := by
      rw [← answer_serve, ← ask_eq, hreceive]
    have h := Server.counts_startReceiving hans
    rwa [← server_serve, ← ask_eq, hreceive] at h
  let pump := o.makePump .photo jpeg (some n)
  have hopened : (p₁.addPump pump).2.Counting jpeg n p₁.pumps.length pump [] :=
    counting_addPump (hsteps.recorded hr) rfl hcounts rfl rfl
      ((Orchestrator.fairMaker_makePump o).honest _ _ _) rfl rfl rfl
  have hwork : Steps Change.LetsWork (p₁.addPump pump).2 q := by
    have hdrift := (settle_steps (p₁.addPump pump).2 s.pump).trans (takeTurn_steps _)
    have hbound := (hdrift.mono fun _ => Change.IsDrift.letsWork).trans
      (.one (.request (.bind ⟨vi, jpeg⟩)) ⟨trivial, id⟩)
    have hq : (((p₁.addPump pump).2.settle s.pump).takeTurn.serve (.bind ⟨vi, jpeg⟩)).2 = q := by
      rw [← ask_eq, hbind]
    exact hq ▸ hbound
  obtain ⟨pump', hp', hbecomes⟩ := hwork.continues _ pump hopened.found
  refine ⟨?_, ⟨hk, ?_, ?_, ?_⟩, pump', hid ▸ hp', hbecomes.sinks⟩
  · rw [hid]
    exact List.getElem?_eq_none (Nat.le_of_eq hsteps.pumps_length.symm)
  · rw [hstack, Server.eq_of_permit (ask_ok hreceive).1 rfl]
  · rw [hmax, hid]
    exact hwork.counting hk ⟨pump, [], hopened⟩
  · rw [(ask_ok hbind).2]
    exact if_pos rfl

namespace Orchestrator

variable {shooting : Prop} {o o' : Orchestrator} {s : PhotoSession}

/-- The session that is open is counted, if there is one. -/
def Counted (o : Orchestrator) : Prop :=
  ∀ b s, o.built = some b → b.photo = some s →
    ∃ jpeg, b.handles.jpeg = some jpeg ∧ s.Counted b.handles.vi jpeg o.plant

theorem Counted.later (hc : o.Counted) (hb : o'.built = o.built)
    (h : Steps Change.LetsWork o.plant o'.plant) : o'.Counted := by
  intro b s hup hs
  obtain ⟨jpeg, hj, hcount⟩ := hc b s (hb ▸ hup) hs
  exact ⟨jpeg, hj, hcount.later h⟩

theorem Transition.counted (h : Transition shooting o o') (hk : o.Kinded) (he : o.Exclusive)
    (hr : o.plant.Recorded) (hc : o.Counted) : o'.Counted := by
  cases h with
  | settings => exact hc
  | @build attr b plant down h planned =>
      have hb := o.plant.build_staffed o.makePump shooting attr
      rw [h] at hb
      intro _ s heq hs
      cases heq
      cases hb.2.2.2.symm.trans hs
  | buildFails down =>
      intro b s hup
      cases down.symm.trans hup
  | tearDown =>
      intro b s hup
      cases hup
  | @setInput b up vi =>
      refine hc.later rfl (((takeTurn_steps o.plant).mono fun _ => Change.IsDrift.letsWork).trans ?_)
      exact .one (.request (.setAttr b.handles.vi (.vi vi))) ⟨trivial, id⟩
  | @noteInput b up vi =>
      intro _ s heq hs
      cases heq
      exact hc b s up hs
  | openRecord up idle free =>
      intro _ s heq hs
      cases heq
      cases free.symm.trans hs
  | openRecordFails up idle free | openPhotoFails allowed up idle free =>
      intro _ s heq hs
      cases up.symm.trans heq
      cases free.symm.trans hs
  | stopRecord up session | closeRecord up session =>
      -- a pump may hang while a recording is stopped, but then no session of photos is open
      intro _ s heq hs
      cases heq
      cases (he _ up).1 with
      | inl hidle => cases hidle.symm.trans session
      | inr hfree => cases hfree.symm.trans hs
  | @waitPhoto b s up session =>
      exact hc.later rfl (s.isDrained_awaits (fun _ => ⟨trivial, id⟩) o.plant)
  | closePhoto up session =>
      intro _ s heq hs
      cases heq
      cases hs
  | @openPhoto b jpeg count s plant allowed up idle free encoder h =>
      intro _ _ heq hs
      cases heq
      cases hs
      exact ⟨jpeg, encoder, (openPhoto_counted o hr ((hk b up).jpeg jpeg encoder) h).2.1⟩

/-- What holds of an orchestrator at any time, whatever fails. -/
structure Orderly (o : Orchestrator) : Prop where
  kinded : o.Kinded
  honest : o.plant.Honest
  recorded : o.plant.Recorded
  consistent : o.plant.server.Consistent
  exclusive : o.Exclusive
  counted : o.Counted

theorem Orderly.transition (ho : o.Orderly) (h : Transition shooting o o') : o'.Orderly := by
  obtain ⟨hk, hs⟩ := Transitions.staffed (.single h) ho.kinded
  exact {
    kinded := hk
    honest := hs.honest (fun _ => honest_of_made) ho.honest
    recorded := hs.recorded ho.recorded
    consistent := hs.consistent ho.consistent
    exclusive := h.exclusive ho.consistent.numbered ho.exclusive
    counted := h.counted ho.kinded ho.exclusive ho.recorded ho.counted }

theorem Orderly.transitions (ho : o.Orderly) (h : Transitions shooting o o') : o'.Orderly := by
  induction h with
  | refl => exact ho
  | tail _ ht ih => exact ih.transition ht

/-- The surroundings leave the pipeline as it is. -/
theorem Orderly.later (ho : o.Orderly) (hb : o'.built = o.built)
    (h : Steps Change.LetsWork o.plant o'.plant) (hq : Steps Change.IsQuiet o.plant o'.plant) :
    o'.Orderly where
  kinded b hup := ho.kinded b (hb ▸ hup)
  honest := hq.honest (fun _ => False.elim) ho.honest
  recorded := hq.recorded ho.recorded
  consistent := hq.consistent ho.consistent
  exclusive := ho.exclusive.transport hb fun _ _ => hq.attrOf_quiet ho.consistent.numbered
  counted := ho.counted.later hb h

theorem Orderly.of_same (ho : o.Orderly) (hb : o'.built = o.built)
    (hp : o'.plant.pumps = o.plant.pumps) (hj : o'.plant.journal = o.plant.journal)
    {rules : List FailureRule}
    (hs : o'.plant.server = { o.plant.server with failures := rules }) : o'.Orderly where
  kinded b hup := ho.kinded b (hb ▸ hup)
  honest id pump hpump := ho.honest id pump (by rwa [pump?, hp] at hpump)
  recorded id hid := by
    rw [deeds_of_journal hj]
    exact ho.recorded id (by rwa [pump?, hp] at hid)
  consistent := hs ▸ ho.consistent.of_circuit rfl rfl
  exclusive := ho.exclusive.transport hb fun _ _ hv => hs ▸ hv
  counted b s hup hphoto := by
    obtain ⟨jpeg, hjpeg, hcount⟩ := ho.counted b s (hb ▸ hup) hphoto
    exact ⟨jpeg, hjpeg, hcount.of_same hp hj (hs ▸ rfl) (hs ▸ rfl)⟩

theorem Orderly.meet (ho : o.Orderly) (e : Event) : (o.meet e).Orderly := by
  cases e with
  | command c => exact ho.transitions (handle_transitions o c)
  | write => exact ho.of_same rfl rfl rfl rfl
  | inject rule => exact ho.of_same rfl rfl rfl rfl
  | move m =>
      have hs : Steps Change.IsDrift o.plant (o.plant.move m) := .one (.move m) trivial
      exact ho.later rfl (hs.mono fun _ => Change.IsDrift.letsWork) hs.quiet
  | turns | register | sinks => exact ho.of_same rfl rfl rfl rfl
  | waitPhoto =>
      obtain ⟨hs, hb⟩ := waitPhoto_awaits (P := Change.LetsWork) (fun _ => ⟨trivial, id⟩) o
      exact ho.later hb hs (waitPhoto_steps o).1

theorem Orderly.after (ho : o.Orderly) (events : List Event) : (o.after events).Orderly :=
  after_keeps (P := fun _ => True) (fun _ e _ ho => ho.meet e) (fun _ _ => trivial) ho

theorem Fresh.orderly (hf : o.Fresh) : o.Orderly where
  kinded := hf.kinded
  honest id pump hp := by simp [pump?, hf.pumps] at hp
  recorded id _ := by simp [deeds, deedsSince, hf.journal]
  consistent := by
    obtain ⟨n, hs⟩ := hf.server
    exact hs ▸ (Server.Reachable.fresh n).consistent
  exclusive := .of_down hf.built
  counted b s hup := by cases hf.built.symm.trans hup

/-- The parts of the session that is open. -/
theorem Orderly.session (ho : o.Orderly) (hs : o.photoSession? = some s) :
    ∃ b jpeg pump us, o.built = some b ∧ b.photo = some s ∧ b.handles.jpeg = some jpeg ∧
      s.Counted b.handles.vi jpeg o.plant ∧ o.plant.Counting jpeg s.max s.pump pump us := by
  obtain ⟨b, hb, hphoto⟩ := Option.bind_eq_some_iff.mp hs
  obtain ⟨jpeg, hj, hcounted⟩ := ho.counted b s hb hphoto
  obtain ⟨pump, us, hcount⟩ := hcounted.counting
  exact ⟨b, jpeg, pump, us, hb, hphoto, hj, hcounted, hcount⟩

section Held

/-- The session is still open, or its pump was asked to stop. -/
def Holds (o : Orchestrator) (s : PhotoSession) : Prop :=
  o.photoSession? = some s ∨ o.plant.Asked s.pump

/-- What ends a session asks its pump to stop. -/
theorem Transition.holds (h : Transition shooting o o') (ho : o.Orderly)
    (hs : o.photoSession? = some s) : o'.Holds s := by
  obtain ⟨b, jpeg, pump, us, hb, hphoto, _, hcounted, hcount⟩ := ho.session hs
  have hasked : (s.stack.unwind o.plant).2.Asked s.pump :=
    Stack.unwind_asked ho.honest hcount.found hcounted.pump_mem
  cases h with
  | settings | setInput | waitPhoto => exact .inl hs
  | build down | buildFails down => cases hb.symm.trans down
  | tearDown up =>
      cases hb.symm.trans up
      right
      have hrest : Staffed o.makePump False (s.stack.unwind o.plant).2 (b.tearDown o.plant).2 := by
        rw [Built.tearDown, hphoto]
        exact (unwindSession_staffed _ _).trans (b.base.unwind_staffed _)
      exact hrest.continues.asked hasked
  | noteInput up vi =>
      cases hb.symm.trans up
      exact .inl hphoto
  | openRecord up idle free | openRecordFails up idle free =>
      cases hb.symm.trans up
      cases free.symm.trans hphoto
  | stopRecord up session | closeRecord up session =>
      cases hb.symm.trans up
      exact .inl hphoto
  | closePhoto up session =>
      cases hb.symm.trans up
      cases hphoto.symm.trans session
      exact .inr hasked
  | openPhoto allowed up idle free | openPhotoFails allowed up idle free =>
      cases hb.symm.trans up
      cases free.symm.trans hphoto

theorem Transitions.holds (h : Transitions shooting o o') (ho : o.Orderly) (hs : o.Holds s) :
    o'.Holds s := by
  induction h with
  | refl => exact hs
  | tail h ht ih =>
      have ho' := ho.transitions h
      cases ih with
      | inl hs => exact ht.holds ho' hs
      | inr ha =>
          have hstaffed := (Transitions.staffed (.single ht) ho'.kinded).2
          exact .inr (hstaffed.continues.asked ha)

theorem meet_continues (hk : o.Kinded) (e : Event) : o.plant.Continues (o.meet e).plant := by
  cases e with
  | command c => exact ((handle_transitions o c).staffed hk).2.continues
  | write | inject | turns | register | sinks => exact .of_pumps rfl
  | move m => exact apply_continues o.plant (.move m)
  | waitPhoto => exact (waitPhoto_steps o).1.continues

theorem after_continues (hk : o.Kinded) (events : List Event) :
    o.plant.Continues (o.after events).plant :=
  (after_keeps (I := fun o' => o'.Kinded ∧ o.plant.Continues o'.plant) (P := fun _ => True)
    (fun _ e _ hi => ⟨meet_kinded e hi.1, hi.2.trans (meet_continues hi.1 e)⟩)
    (fun _ _ => trivial) ⟨hk, .refl _⟩).2

theorem Holds.meet (hs : o.Holds s) (ho : o.Orderly) (e : Event) : (o.meet e).Holds s := by
  have houtside (he : e.IsOutside) : (o.meet e).Holds s :=
    hs.imp (fun hs => (congrArg (·.bind (·.photo)) (built_meet he)).trans hs)
      (meet_continues ho.kinded e).asked
  cases e with
  | command c => exact (handle_transitions o c).holds ho hs
  | write | inject | move | turns | register | sinks | waitPhoto => exact houtside trivial

theorem Holds.after (hs : o.Holds s) (ho : o.Orderly) (events : List Event) :
    (o.after events).Holds s :=
  (after_keeps (I := fun o => o.Orderly ∧ o.Holds s) (P := fun _ => True)
    (fun _ e _ hi => ⟨hi.1.meet e, hi.2.meet hi.1 e⟩) (fun _ _ => trivial) ⟨ho, hs⟩).2

end Held

section Answers

variable {b : Built} {jpeg : Handle} {m : UInt32}

theorem stopPhoto_early (hb : o.built = some b) (hs : b.photo = some s)
    (hd : (s.isDrained o.plant).1 = false) :
    o.handle .stopPhoto = (.error (.photoInProgress (s.progress o.plant).remaining),
      { o with plant := (s.isDrained o.plant).2 }) := by
  have hrun : run .stopPhoto o = .error (.photoInProgress (s.progress o.plant).remaining)
      { o with plant := (s.isDrained o.plant).2 } := by
    rw [run, stopPhoto_eq, hb]
    dsimp only
    rw [hs]
    dsimp only
    rw [hd]
    rfl
  rw [handle, hrun]

theorem startPhoto_early (hb : o.built = some b) (hs : b.photo = some s) (hr : b.record = none)
    (hj : b.handles.jpeg = some jpeg) (hd : (s.isDrained o.plant).1 = false) (m : UInt32) :
    ∃ why, (o.handle (.startPhoto m)).1 = .error (.invalidState why) ∧
      (o.handle (.startPhoto m)).2.plant.server = o.plant.server := by
  have hclear : clearPhoto o b = .error (.invalidState .photoRunning)
      { o with plant := (s.isDrained o.plant).2 } := by
    rw [clearPhoto, hs]
    dsimp only
    rw [hd]
    rfl
  have hrun : run (.startPhoto m) o = if m = 0 then .error (.invalidState .noPhotos) o else
      .error (.invalidState .photoRunning) { o with plant := (s.isDrained o.plant).2 } := by
    rw [run, startPhoto_eq]
    simp only [hb, hr, Option.isSome_none, Bool.false_eq_true, if_false, hj, hclear]
  rw [handle, hrun]
  split_ifs
  · exact ⟨_, rfl, rfl⟩
  · exact ⟨_, rfl, s.server_isDrained o.plant⟩

/-- On a clear channel a session opens. -/
theorem startPhoto_of_clear {o₁ : Orchestrator} (hb : o.built = some b) (hr : b.record = none)
    (hj : b.handles.jpeg = some jpeg) (hm : m ≠ 0) (hclear : clearPhoto o b = .ok () o₁)
    (hc : o₁.plant.Clear b.handles.vi jpeg) : (o.handle (.startPhoto m)).1 = .ok true := by
  obtain ⟨s, plant, hopen⟩ := hc.openPhoto o.makePump m
  have hrun : run (.startPhoto m) o =
      .ok true { o₁ with plant, built := some { b with photo := some s } } := by
    rw [run, startPhoto_eq, hb]
    simp only [hr, Option.isSome_none, Bool.false_eq_true, if_false, hj, hm, hclear, hopen]
  rw [handle, hrun]

/-- A session that is over and unwinds without an error makes room. -/
theorem stopPhoto_over (hb : o.built = some b) (hs : b.photo = some s)
    (hd : (s.isDrained o.plant).1 = true)
    (hu : (s.stack.unwind (s.isDrained o.plant).2).1 = []) :
    ∃ o₁, o.handle .stopPhoto = (.ok true, o₁) ∧ clearPhoto o b = .ok () o₁ ∧
      o₁.plant = (s.stack.unwind (s.isDrained o.plant).2).2 ∧
      o₁.built = some { b with photo := none } := by
  let closed := { o with
    plant := (s.stack.unwind (s.isDrained o.plant).2).2
    built := some { b with photo := none } }
  have hclose : closePhoto b s { o with plant := (s.isDrained o.plant).2 } = .ok () closed := by
    rw [closePhoto_eq]
    dsimp only
    rw [hu]
    rfl
  refine ⟨closed, ?_, ?_, rfl, rfl⟩
  · have hrun : run .stopPhoto o = .ok true closed := by
      rw [run, stopPhoto_eq, hb]
      dsimp only
      rw [hs]
      dsimp only
      rw [if_pos hd, ← hb, hclose]
    rw [handle, hrun]
  · rw [clearPhoto, hs]
    dsimp only
    rw [if_pos hd, hclose]

end Answers

/-- What a session shows of itself as long as nobody has asked its pump to stop. -/
structure Exacting (o : Orchestrator) (s : PhotoSession) (pump : Pump) : Prop where
  progress : o.photoProgress = some ⟨(o.plant.unitsOf s.pump).length, s.max.toNat⟩
  bounded : (o.plant.unitsOf s.pump).length ≤ s.max.toNat
  /-- While the pump runs the session can neither be stopped nor replaced. -/
  stop : pump.hasEnded = false →
    (o.handle .stopPhoto).1 =
        .error (.photoInProgress (s.max.toNat - (o.plant.unitsOf s.pump).length)) ∧
      (o.handle .stopPhoto).2.plant.server = o.plant.server
  start : pump.hasEnded = false → ∀ m, ∃ why,
    (o.handle (.startPhoto m)).1 = .error (.invalidState why) ∧
      (o.handle (.startPhoto m)).2.plant.server = o.plant.server
  exact : pump.hasEnded → Exact s.max.toNat pump.sinks (o.plant.deeds s.pump)
  quota : pump.hasEnded → ∃ c, o.plant.server.channels.get? pump.source = some c ∧
    c.receiving = some (.count s.max) ∧ c.produced = s.max.toNat
  /-- Once it has ended the session can be stopped and replaced. -/
  again : pump.hasEnded → o.plant.Serves →
    (o.handle .stopPhoto).1 = .ok true ∧ ∀ m, m ≠ 0 →
      (o.handle (.startPhoto m)).1 = .ok true ∧
        ((o.handle .stopPhoto).2.handle (.startPhoto m)).1 = .ok true

/-- Nobody asks the pump of an open session to stop. -/
theorem Orderly.willing (ho : o.Orderly) (hs : o.photoSession? = some s) :
    ∃ pump, o.plant.pump? s.pump = some pump ∧ pump.worker.stopRequested = false := by
  obtain ⟨_, _, pump, _, _, _, _, _, hcount⟩ := ho.session hs
  exact ⟨pump, hcount.found, hcount.takes.willing⟩

theorem Orderly.exacting (ho : o.Orderly) (hs : o.photoSession? = some s) {pump : Pump}
    (hp : o.plant.pump? s.pump = some pump) : o.Exacting s pump := by
  obtain ⟨b, jpeg, pump', us, hb, hphoto, hj, hcounted, hcount⟩ := ho.session hs
  obtain rfl : pump = pump' := Option.some.inj (hp.symm.trans hcount.found)
  have hr : b.record = none := (ho.exclusive b hb).1.resolve_right (by simp [hphoto])
  have hus : o.plant.unitsOf s.pump = us := hcount.takes.fetched
  have hprogress := PhotoSession.progress_of_counting hcount
  have hdrained := hcounted.isDrained hcount
  exact {
    progress := by rw [photoProgress, hs, Option.map_some, hprogress, hus]
    bounded := hus ▸ hcount.takes.length_le
    stop he := by
      rw [stopPhoto_early hb hphoto (hdrained.trans he), hprogress, hus]
      exact ⟨rfl, s.server_isDrained o.plant⟩
    start he := startPhoto_early hb hphoto hr hj (hdrained.trans he)
    exact := hcount.takes.exact
    quota he := by
      obtain ⟨c, hc, hreceiving, hle, hle'⟩ := hcount.quota
      have hfull : us.length = s.max.toNat := hus ▸ (hcount.takes.exact he).fetched
      exact ⟨c, hcount.source ▸ hc, hreceiving, Nat.le_antisymm hle' (hfull ▸ hle)⟩
    again he hserves := by
      have hwait : Steps Change.LetsWork o.plant (s.isDrained o.plant).2 :=
        s.isDrained_awaits (fun _ => ⟨trivial, id⟩) o.plant
      obtain ⟨pump', hp', hbecomes⟩ := hwait.continues s.pump pump hp
      obtain ⟨hunwind, hclear⟩ := Clear.of_unwind hcounted.stack hp' (hbecomes.ended he)
        (hwait.failsOnly hserves) (hwait.consistent ho.consistent) (hwait.linked hcounted.linked)
      obtain ⟨o₁, hstop, hroom, hplant, hbuilt⟩ :=
        stopPhoto_over hb hphoto (hdrained.trans he) hunwind
      rw [← hplant] at hclear
      rw [hstop]
      exact ⟨rfl, fun m hm => ⟨startPhoto_of_clear hb hr hj hm hroom hclear,
        startPhoto_of_clear hbuilt hr hj hm rfl hclear⟩⟩ }

/-- A start opens a session with a new pump, which feeds the sinks of photos. -/
theorem Orderly.startPhoto (ho : o.Orderly) {n : UInt32} {changed : Bool}
    (h : (o.handle (.startPhoto n)).1 = .ok changed) :
    ∃ s pump, (o.handle (.startPhoto n)).2.photoSession? = some s ∧ s.max = n ∧
      o.plant.pump? s.pump = none ∧
      (o.handle (.startPhoto n)).2.plant.pump? s.pump = some pump ∧
      pump.sinks = o.sinksOf .photo := by
  obtain ⟨_, b, jpeg, o₁, s, plant, hb, hj, hclear, hopen, hleft⟩ := startPhoto_eq_ok h
  have hcleared : Transitions False o o₁ := transitions_of_clearPhoto o hb hclear
  have ho₁ := ho.transitions hcleared
  obtain ⟨hnew, _, pump, hpump, hsinks⟩ :=
    openPhoto_counted o ho₁.recorded ((ho.kinded b hb).jpeg jpeg hj) hopen
  refine ⟨s, pump, by rw [hleft]; rfl, max_of_openPhoto hopen, ?_, by rw [hleft]; exact hpump,
    hsinks⟩
  cases hp : o.plant.pump? s.pump with
  | none => rfl
  | some pump =>
      obtain ⟨_, hp₁, _⟩ := (hcleared.staffed ho.kinded).2.continues s.pump pump hp
      cases hnew.symm.trans hp₁

/-- In every run, whatever fails in it and whatever the sinks do, a session that was started for
`n` photos is exact as long as nobody asks its pump to stop: it takes `n` photos and no more, counts
them upwards, and is over when they are taken. -/
theorem startPhoto_counts (hf : o.Fresh) (before : List Event) {n : UInt32} {changed : Bool}
    (opened : ((o.after before).handle (.startPhoto n)).1 = .ok changed) :
    let start := o.after before
    let running := (start.handle (.startPhoto n)).2
    ∃ s, running.photoSession? = some s ∧ s.max = n ∧
      start.plant.pump? s.pump = none ∧ start.plant.deeds s.pump = [] ∧
      ∀ later, let o' := running.after later
        ∃ pump, o'.plant.pump? s.pump = some pump ∧ pump.sinks = start.sinksOf .photo ∧
          (o'.photoSession? = some s ↔ pump.worker.stopRequested = false) ∧
          (pump.worker.stopRequested = false → o'.Exacting s pump) ∧
          ∀ more, (s.progress o'.plant).taken ≤ (s.progress (o'.after more).plant).taken := by
  intro start running
  have hstart : start.Orderly := hf.orderly.after before
  have hrunning : running.Orderly := hstart.transitions (handle_transitions start _)
  obtain ⟨s, pump₀, hs, hmax, hnew, hp₀, hsinks⟩ := hstart.startPhoto opened
  refine ⟨s, hs, hmax, hnew, hstart.recorded _ hnew, fun later => ?_⟩
  have hlater := hrunning.after later
  obtain ⟨pump, hp, hbecomes⟩ := after_continues hrunning.kinded later s.pump pump₀ hp₀
  have hopen : (running.after later).photoSession? = some s ↔
      pump.worker.stopRequested = false := by
    constructor
    · intro hs
      obtain ⟨pump', hp', hw⟩ := hlater.willing hs
      obtain rfl : pump = pump' := Option.some.inj (hp.symm.trans hp')
      exact hw
    · intro hw
      have hholds : (running.after later).Holds s := Holds.after (.inl hs) hrunning later
      refine hholds.resolve_right fun hasked => ?_
      obtain ⟨pump', hp', hasked⟩ := hasked
      obtain rfl : pump = pump' := Option.some.inj (hp.symm.trans hp')
      cases hw.symm.trans hasked
  exact ⟨pump, hp, hbecomes.sinks.trans hsinks, hopen, fun hw => hlater.exacting (hopen.mpr hw) hp,
    fun more => s.taken_le (after_continues hlater.kinded more)⟩

/-- A pipeline for photos, with one sink. -/
def still : List Event := [.register .photo .gate, .command (.setMode .photo), .command .init]

/-- The first release and the second fetch fail while the pump runs to its end. -/
def shaky : List Event :=
  [.inject ⟨.release, none, 1, Nat.one_pos⟩, .inject ⟨.fetch, none, 2, Nat.two_pos⟩] ++
    List.replicate 11 (.move (.advance 0))

theorem startPhoto_counts_shaky :
    ((bare.after still).handle (.startPhoto 2)).1 = .ok true ∧
      let o' := ((bare.after still).handle (.startPhoto 2)).2.after shaky
      o'.photoProgress = some ⟨2, 2⟩ ∧ Exact 2 [0] (o'.plant.deeds 0) := by
  have opened : ((bare.after still).handle (.startPhoto 2)).1 = .ok true := by decide +kernel
  obtain ⟨s, hs, hmax, _, _, hlater⟩ := startPhoto_counts fresh_bare still opened
  have hid : s.pump = 0 := by
    have hpump : ((bare.after still).handle (.startPhoto 2)).2.photoSession?.map (·.pump) =
        some 0 := by decide +kernel
    rw [hs] at hpump
    exact Option.some.inj hpump
  obtain ⟨pump, hp, hsinks, _, hexacting, _⟩ := hlater shaky
  have hend : ((((bare.after still).handle (.startPhoto 2)).2.after shaky).plant.pump? s.pump).map
      (fun pump => (pump.worker.stopRequested, pump.hasEnded)) = some (false, true) := by
    rw [hid]
    decide +kernel
  rw [hp] at hend
  obtain ⟨hw, he⟩ := Prod.mk.inj (Option.some.inj hend)
  have hexact := (hexacting hw).exact he
  have hprogress := (hexacting hw).progress
  have htwo : s.max.toNat = 2 := by rw [hmax]; rfl
  have hgate : (bare.after still).sinksOf .photo = [0] := by decide +kernel
  rw [Plant.unitsOf, hexact.fetched, htwo] at hprogress
  rw [htwo, hid, hsinks, hgate] at hexact
  exact ⟨opened, hprogress, hexact⟩

end Orchestrator
end CameraPipeline
