import CameraPipeline.Proofs.Orchestrator.Run
import CameraPipeline.Proofs.Plant.Crew

/-!
The order of a teardown. A pipeline has a stack for its base and, while it records or takes
photos, one for the session. The session is undone first, and only then the pumps of the base are
stopped; so all pumps are stopped before anything is taken away from a channel just if there is no
session or the base has no pump.
-/

namespace CameraPipeline

open Plant

/-- The pumps of the base run on below those of a session, and there are some just if there is a
network encoder or the raw frames are tapped. -/
structure Built.Manned (b : Built) (p : Plant) : Prop where
  base : b.base.Unstopped p
  crew : (∃ id, .pump id ∈ b.base.steps) ↔ b.attr.sub.isSome ∨ b.attr.rawTap
  record : ∀ s, b.record = some s → b.photo = none ∧ s.stack.Attends b.base p
  photo : ∀ s, b.photo = some s → b.record = none ∧ s.stack.Attends b.base p

namespace Built.Manned

variable {b : Built} {p q : Plant}

theorem later (hb : b.Manned p) (hlen : p.pumps.length ≤ q.pumps.length)
    (hj : StopsOnly (.pump · ∉ b.base.steps) p q) : b.Manned q where
  base := hb.base.later hlen hj
  crew := hb.crew
  record s hs := (hb.record s hs).imp_right fun hatt => hatt.later hlen
  photo s hs := (hb.photo s hs).imp_right fun hatt => hatt.later hlen

/-- A teardown unwinds two stacks in turn, of which the first is empty just if no session
stands. -/
theorem tearDown (hb : b.Manned p) :
    ∃ s : Stack, b.steps = s.steps ++ b.base.steps ∧
      (b.tearDown p).2 = (b.base.unwind (s.unwind p).2).2 ∧
      (∀ id, .pump id ∈ s.steps → id < p.pumps.length ∧ .pump id ∉ b.base.steps) ∧
      (∀ r, .request r ∈ s.steps → r.withdrawn?.isSome) ∧
      ((∀ r, .request r ∉ s.steps) ↔ b.record = none ∧ b.photo = none) := by
  obtain ⟨attr, base, handles, record, photo⟩ := b
  cases record with
  | some s =>
      obtain ⟨hp, hs⟩ := hb.record s rfl
      obtain rfl : photo = none := hp
      obtain ⟨r, hr⟩ := hs.busy
      exact ⟨s.stack, rfl, rfl, hs.pumps, hs.takes, fun h => absurd hr (h r), by simp⟩
  | none =>
      cases photo with
      | none =>
          have hnone (u : Undo) : u ∉ ({} : Stack).steps := List.not_mem_nil
          exact ⟨{}, rfl, rfl, fun _ hm => absurd hm (hnone _), fun _ hm => absurd hm (hnone _),
            fun _ => ⟨rfl, rfl⟩, fun _ _ => hnone _⟩
      | some s =>
          have hs := (hb.photo s rfl).2
          obtain ⟨r, hr⟩ := hs.busy
          exact ⟨s.stack, by simp [steps], rfl, hs.pumps, hs.takes, fun h => absurd hr (h r),
            by simp⟩

/-- A session is opened over the base. -/
theorem opened (hb : b.Manned p) {s : Stack}
    (hs : Site.Manned p ⟨s, q⟩ ∧ ∃ r, .request r ∈ s.steps) : b.Manned q ∧ s.Attends b.base q :=
  ⟨hb.later hs.1.grows hs.1.stopsOnly, hs.1.apart hb.base, hs.1.takes, hs.2⟩

theorem recording (hb : b.Manned q) {s : RecordSession} (hs : s.stack.Attends b.base q)
    (free : b.photo = none) : { b with record := some s }.Manned q where
  base := hb.base
  crew := hb.crew
  record _ heq := by
    cases heq
    exact ⟨free, hs⟩
  photo := by simp [free]

theorem shooting (hb : b.Manned q) {s : PhotoSession} (hs : s.stack.Attends b.base q)
    (idle : b.record = none) : { b with photo := some s }.Manned q where
  base := hb.base
  crew := hb.crew
  record := by simp [idle]
  photo _ heq := by
    cases heq
    exact ⟨idle, hs⟩

/-- A session is closed: its own pumps are stopped, and those of the base run on. -/
theorem closed (hb : b.Manned p) {s : Stack} (hs : s.Attends b.base p) :
    b.Manned (s.unwind p).2 := by
  refine hb.later (Nat.le_of_eq (s.unwind_steps p).pumps_length.symm) ?_
  exact (s.unwind_stopsOnly p).mono fun id hm => (hs.pumps id hm).2

/-- A session failed to open: pumps came and went, but none of the base. -/
theorem undone (hb : b.Manned p) (hq : p.KeepsPumps q) : b.Manned q :=
  hb.later hq.1 (hq.2.mono fun id hid hm => Nat.not_lt_of_le hid (hb.base id hm).1)

end Built.Manned

theorem PhotoSession.journal_isDrained (s : PhotoSession) (p : Plant) :
    (s.isDrained p).2.journal = p.journal := by
  simp only [isDrained, waitPump]
  split
  · split <;> rfl
  · rfl

namespace Plant

variable {p q : Plant} {make : PumpMaker} {attr : PipelineAttr}

theorem base_manned (hl : p.Logged) {handles : BaseHandles} {base : Stack}
    (ho : p.construct (Build.base make attr) = (.ok (handles, base), q)) :
    Site.Manned p ⟨base, q⟩ ∧ Built.Manned { attr, base, handles } q := by
  have hok := Construction.construct_ok ho
  have hsite := (Build.climbs_base make attr).manned p
  rw [hok] at hsite
  refine ⟨hsite, hsite.unstopped_stack hl, ?_, by simp, by simp⟩
  exact (Build.crews_base make attr hok).trans (by simp)

theorem build_manned {b : Built} (hl : p.Logged) (ho : p.build make attr = (.ok b, q)) :
    b.Manned q := by
  simp only [build] at ho
  split at ho
  · cases ho
  · rename_i handles base p' hcons
    have hbase := (base_manned hl hcons).2
    split at ho
    · split at ho <;> cases ho
      rename_i hopen
      obtain ⟨hb, hatt⟩ := hbase.opened
        ((Build.receives_record make attr _ _).opened (construct_of_openRecord hopen))
      exact hb.recording hatt rfl
    · cases ho
      exact hbase

end Plant

namespace Orchestrator

variable {shooting : Prop} {o o' : Orchestrator}

/-- Joins are on record, and the pumps of the pipeline are those of its stacks. -/
structure Manned (o : Orchestrator) : Prop where
  honest : o.plant.Honest
  logged : o.plant.Logged
  built : ∀ b, o.built = some b → b.Manned o.plant

theorem Transition.built_manned (h : Transition shooting o o') (hm : o.Manned) :
    ∀ b, o'.built = some b → b.Manned o'.plant := by
  cases h with
  | settings => exact hm.built
  | @build attr b plant down h =>
      intro _ heq
      cases heq
      exact build_manned hm.logged h
  | @buildFails attr e plant down h => simp [down]
  | tearDown =>
      intro _ hup
      cases hup
  | @setInput b up vi =>
      have hsteps := ask_steps o.plant (.setAttr b.handles.vi (.vi vi))
      exact fun b' hb => (hm.built b' hb).later (Nat.le_of_eq hsteps.pumps_length.symm)
        (ask_stopsOnly _ _)
  | @noteInput b up vi =>
      have hb := hm.built b up
      intro _ heq
      cases heq
      exact ⟨hb.base, hb.crew, hb.record, hb.photo⟩
  | @openRecord b main s plant up idle free encoder h =>
      obtain ⟨hb, hatt⟩ := (hm.built b up).opened
        ((Build.receives_record _ _ _ _).opened (construct_of_openRecord h))
      intro _ heq
      cases heq
      exact hb.recording hatt free
  | @openPhoto b jpeg count s plant allowed up idle free encoder h =>
      obtain ⟨hb, hatt⟩ := (hm.built b up).opened
        ((Build.receives_photo _ _ _ _).opened (construct_of_openPhoto h))
      intro _ heq
      cases heq
      exact hb.shooting hatt idle
  | @openRecordFails b main e plant up idle free encoder h =>
      exact fun b' hb => (hm.built b' hb).undone
        ((Build.climbs_record _ _ _ _).undone (construct_of_openRecord_error h))
  | @openPhotoFails b jpeg count e plant allowed up idle free encoder h =>
      exact fun b' hb => (hm.built b' hb).undone
        ((Build.climbs_photo _ _ _ _).undone (construct_of_openPhoto_error h))
  | @stopRecord b s up session =>
      have hb := hm.built b up
      obtain ⟨free, hs⟩ := hb.record s session
      have hlater : b.Manned (s.stack.stopPumps o.plant).2.2 := by
        have hsteps := Stack.stopEach_steps o.plant s.stack.steps
        refine hb.later (Nat.le_of_eq hsteps.pumps_length.symm) ?_
        exact (Stack.stopEach_stopsOnly o.plant s.stack.steps).mono fun id hm =>
          (hs.pumps id hm).2
      intro _ heq
      cases heq
      exact hlater.recording hs.stopPumps free
  | @closeRecord b s up session =>
      have hb := hm.built b up
      obtain ⟨free, hs⟩ := hb.record s session
      have hlater := hb.closed hs
      intro _ heq
      cases heq
      exact ⟨hlater.base, hlater.crew, by simp, by simp [free]⟩
  | @closePhoto b s up session =>
      have hb := hm.built b up
      obtain ⟨idle, hs⟩ := hb.photo s session
      have hlater := hb.closed hs
      intro _ heq
      cases heq
      exact ⟨hlater.base, hlater.crew, by simp [idle], by simp⟩
  | @waitPhoto b s up session =>
      have hsteps := s.isDrained_steps o.plant
      exact fun b' hb => (hm.built b' hb).later (Nat.le_of_eq hsteps.pumps_length.symm)
        (.of_same (s.journal_isDrained o.plant))

theorem isNew_makePump (o : Orchestrator) (stream : Stream) (source : Handle)
    (limit : Option UInt32) : (o.makePump stream source limit).IsNew :=
  ⟨o.fairMaker_makePump.honest _ _ _, rfl⟩

theorem Transition.manned (h : Transition shooting o o') (hk : o.Kinded) (hm : o.Manned) :
    o'.Manned := by
  have hmade (pump : Pump) (hp : Made o.makePump shooting pump) : pump.IsNew := by
    cases hp <;> exact o.isNew_makePump _ _ _
  obtain ⟨hh, hl⟩ := (h.staffed hk).logged hmade hm.honest hm.logged
  exact ⟨hh, hl, h.built_manned hm⟩

theorem Transitions.manned (h : Transitions shooting o o') (hk : o.Kinded) (hm : o.Manned) :
    o'.Manned := by
  induction h with
  | refl => exact hm
  | tail h ht ih => exact ht.manned (Transitions.staffed h hk).1 ih

theorem Manned.quiet (hm : o.Manned) (h : Steps Change.IsQuiet o.plant o'.plant)
    (hj : StopsOnly (fun _ => False) o.plant o'.plant)
    (hb : o'.built = o.built) : o'.Manned := by
  obtain ⟨hh, hl⟩ := h.logged (fun _ => False.elim) hm.honest hm.logged
  refine ⟨hh, hl, fun b hup => ?_⟩
  exact (hm.built b (hb ▸ hup)).later (Nat.le_of_eq h.pumps_length.symm)
    (hj.mono fun _ => False.elim)

theorem meet_manned (e : Event) (hk : o.Kinded) (hm : o.Manned) : (o.meet e).Manned := by
  cases e with
  | command c => exact (handle_transitions o c).manned hk hm
  | write | inject | turns | register | sinks =>
      exact ⟨hm.honest, ⟨hm.logged.joined, hm.logged.known⟩, fun b up =>
        (hm.built b up).later (Nat.le_refl _) (.of_same rfl)⟩
  | move m =>
      have hone : Steps Change.IsDrift o.plant (o.plant.move m) := .one (.move m) trivial
      exact hm.quiet hone.quiet hone.stopsOnly rfl
  | waitPhoto =>
      obtain ⟨hsteps, hb⟩ := waitPhoto_steps o
      refine hm.quiet hsteps (.of_same ?_) hb
      simp only [meet, waitPhoto]
      split
      · rfl
      · rename_i s _
        exact s.journal_isDrained o.plant

theorem Fresh.manned (hf : o.Fresh) : o.Manned where
  honest id pump hp := by simp [Plant.pump?, hf.pumps] at hp
  logged := ⟨fun id pump hp => by simp [Plant.pump?, hf.pumps] at hp,
    fun id drained hm => by simp [hf.journal] at hm⟩
  built := by simp [hf.built]

theorem after_manned (hf : o.Fresh) (events : List Event) :
    (o.after events).Kinded ∧ (o.after events).Manned := by
  refine after_keeps (I := fun o => o.Kinded ∧ o.Manned) (P := fun _ => True)
    (fun o e _ hi => ?_) (fun _ _ => trivial) ⟨hf.kinded, hf.manned⟩
  exact ⟨meet_kinded e hi.1, meet_manned e hi.1 hi.2⟩

theorem after_drainsTo (hf : o.Fresh) (events : List Event) (c : Command)
    (hd : ((o.after events).handle c).2.plant.Drained) :
    (o.after events).plant.DrainsTo ((o.after events).handle c).2.plant :=
  ((handle_transitions _ c).staffed (after_manned hf events).1).2.drainsTo hd

/-- A teardown in which every pump drains stops them all before it takes anything away from a
channel just if no session stands or the base has no pump. -/
theorem Manned.deinit_stopsFirst_iff (hm : o.Manned) {b : Built} (up : o.built = some b)
    (hd : o.plant.DrainsTo (o.handle .deinit).2.plant) :
    StopsFirst (.pump · ∈ b.steps) o.plant (o.handle .deinit).2.plant ↔
      (b.record = none ∧ b.photo = none) ∨ ¬(b.attr.sub.isSome ∨ b.attr.rawTap) := by
  have hb := hm.built b up
  obtain ⟨s, hsteps, hq, hs, htakes, hnone⟩ := hb.tearDown
  have hdeinit : (o.handle .deinit).2.plant = (b.base.unwind (s.unwind o.plant).2).2 := by
    rw [← left_run, run, left_deinit, up]
    exact hq
  rw [hdeinit] at hd ⊢
  rw [hsteps, Stack.stopsFirst_unwind_iff hm.honest hm.logged hs hb.base htakes hd, hnone,
    ← hb.crew, not_exists]

/-- The next build lays the base of the pipeline `attr`, but its recording breaks off at `site`. -/
inductive RecordFails (o : Orchestrator) (attr : PipelineAttr) (base : Stack) (site : Site) : Prop
  | intro {handles : BaseHandles} {p : Plant} {main : Handle} {e : PipelineError}
      (down : o.built = none) (plan : o.plan = .ok attr)
      (lays : o.plant.construct (Build.base o.makePump attr) = (.ok (handles, base), p))
      (encoder : handles.main = some main) (records : attr.recordOnInit)
      (fails : Build.record o.makePump attr handles.vi main { plant := p } = .error e site) :
      RecordFails o attr base site

namespace RecordFails

variable {attr : PipelineAttr} {base : Stack} {site : Site}

/-- What the recording did is undone, and then the base. -/
theorem plant_init (h : o.RecordFails attr base site) :
    (o.handle .init).2.plant = (base.unwind (site.stack.unwind site.plant).2).2 := by
  cases h with
  | @intro handles p main e down plan lays encoder records fails =>
      have hup : o.isBuilt = false := by simp [isBuilt, down]
      have hopen : p.openRecord o.makePump attr handles.vi main =
          (.error e, (site.stack.unwind site.plant).2) := by
        simp only [Plant.openRecord, Plant.construct, fails]
      rw [← left_run, run, init_eq, hup, plan]
      simp [Plant.build, lays, encoder, records, hopen]

/-- The recording has nothing to undo just if it broke off at its first step. -/
theorem stack_eq_empty_iff (h : o.RecordFails attr base site) :
    site.stack = {} ↔ ∀ r, .request r ∉ site.stack.steps := by
  cases h with
  | @intro handles p main e down plan lays encoder records fails =>
      have hasks := (Build.receives_record o.makePump attr handles.vi main).asks p
      rw [fails] at hasks
      cases hasks with
      | inl hrefused =>
          obtain ⟨_, _, heq⟩ := hrefused
          cases heq
          exact ⟨fun _ _ hm => absurd hm List.not_mem_nil, fun _ => rfl⟩
      | inr hasked =>
          obtain ⟨r, hr⟩ := hasked
          exact ⟨fun h => absurd (h ▸ hr) List.not_mem_nil, fun h => absurd hr (h r)⟩

/-- Up to there all joins are on record, and nothing was taken away. -/
theorem manned (h : o.RecordFails attr base site) (hm : o.Manned) :
    site.plant.Honest ∧ site.plant.Logged ∧ Notes (¬·.Withdraws) o.plant site.plant ∧
      base.Unstopped site.plant ∧
      ((∃ id, .pump id ∈ base.steps) ↔ attr.sub.isSome ∨ attr.rawTap) ∧
      (∀ id, .pump id ∈ site.stack.steps → id < site.plant.pumps.length ∧ .pump id ∉ base.steps) ∧
      ∀ r, .request r ∈ site.stack.steps → r.withdrawn?.isSome := by
  cases h with
  | @intro handles p main e down plan lays encoder records fails =>
      obtain ⟨hsite, hb⟩ := base_manned hm.logged lays
      have hnew := o.isNew_makePump
      have hmeets : Construction.Meets Pump.IsNew (Build.base o.makePump attr) Build.Kinds :=
        Build.meets_base (fun h _ => hnew .sub h none) (fun h _ => hnew .rawTap h none) attr
      have hmeets' : Construction.Meets Pump.IsNew
          (Build.record o.makePump attr handles.vi main) fun _ => True :=
        Build.meets_record (hnew .main main none)
      have hsteps := hmeets.construct o.plant
      have hsteps' := hmeets' { plant := p }
      have hsession := (Build.climbs_record o.makePump attr handles.vi main).manned p
      rw [lays] at hsteps
      rw [fails] at hsteps' hsession
      obtain ⟨hh, hl⟩ := (hsteps.1.trans hsteps'.1).logged (fun _ hp => hp) hm.honest hm.logged
      exact ⟨hh, hl, hsite.untouched.trans hsession.untouched,
        hb.base.later hsession.grows hsession.stopsOnly, hb.crew, hsession.apart hb.base,
        hsession.takes⟩

end RecordFails

/-- The rollback of a build whose recording fails stops all pumps before it takes anything away
from a channel just if the recording had done nothing yet or the base has no pump. -/
theorem Manned.init_stopsFirst_iff (hm : o.Manned) {attr : PipelineAttr} {base : Stack}
    {site : Site} (hfails : o.RecordFails attr base site)
    (hd : o.plant.DrainsTo (o.handle .init).2.plant) :
    StopsFirst (.pump · ∈ site.stack.steps ++ base.steps) o.plant (o.handle .init).2.plant ↔
      site.stack = {} ∨ ¬(attr.sub.isSome ∨ attr.rawTap) := by
  obtain ⟨hh, hl, hnone, hbase, hcrew, hs, htakes⟩ := hfails.manned hm
  have hunwind := (site.stack.unwind_steps site.plant).journal.trans
    (base.unwind_steps (site.stack.unwind site.plant).2).journal
  rw [hfails.plant_init] at hd ⊢
  rw [StopsFirst.skip_iff hnone hunwind, Stack.stopsFirst_unwind_iff hh hl hs hbase htakes
    (hd.split hnone.journal hunwind).2, hfails.stack_eq_empty_iff, ← hcrew, not_exists]

/-- When all pumps drain: a teardown stops every pump of the pipeline before anything is taken away
from a channel just if no session stands or the base has no pump; and so does the rollback of a
build whose recording fails, just if the recording had done nothing yet or the base has no pump. -/
theorem after_stopsFirst_iff (hf : o.Fresh) (events : List Event) :
    (∀ b, (o.after events).built = some b →
      (o.after events).plant.DrainsTo ((o.after events).handle .deinit).2.plant →
      (StopsFirst (.pump · ∈ b.steps) (o.after events).plant
          ((o.after events).handle .deinit).2.plant ↔
        (b.record = none ∧ b.photo = none) ∨ ¬(b.attr.sub.isSome ∨ b.attr.rawTap))) ∧
    ∀ attr base site, (o.after events).RecordFails attr base site →
      (o.after events).plant.DrainsTo ((o.after events).handle .init).2.plant →
      (StopsFirst (.pump · ∈ site.stack.steps ++ base.steps) (o.after events).plant
          ((o.after events).handle .init).2.plant ↔
        site.stack = {} ∨ ¬(attr.sub.isSome ∨ attr.rawTap)) :=
  have hm := (after_manned hf events).2
  ⟨fun _ up hd => hm.deinit_stopsFirst_iff up hd,
    fun _ _ _ hfails hd => hm.init_stopsFirst_iff hfails hd⟩

/-- A pipeline with a network encoder records. -/
def recordBesideSub : List Event :=
  [.write ((.empty : Params).insert PipelineAttr.enableRtspKey "1"), .command .init]

/-- The record encoder is unlinked while the pump of the network encoder still runs. -/
theorem not_stopsFirst_recordBesideSub :
    bare.Fresh ∧ (bare.after recordBesideSub).isBuilt ∧
      ((bare.after recordBesideSub).handle .deinit).2.plant.Drained ∧
      ¬StopsFirst (.pump · ∈ (bare.after recordBesideSub).built.elim [] Built.steps)
        (bare.after recordBesideSub).plant
        ((bare.after recordBesideSub).handle .deinit).2.plant := by
  refine ⟨fresh_bare, by decide +kernel, by decide +kernel, fun h => ?_⟩
  have hj : ((bare.after recordBesideSub).handle .deinit).2.plant.journal =
      ((bare.after recordBesideSub).handle .deinit).2.plant.journal.take 14 ++
        .asked (.unbind ⟨⟨.vi, 0⟩, ⟨.venc, 0⟩⟩) none ::
          ((bare.after recordBesideSub).handle .deinit).2.plant.journal.drop 15 := by
    decide +kernel
  have hp : (bare.after recordBesideSub).plant.journal <+:
      ((bare.after recordBesideSub).handle .deinit).2.plant.journal.take 14 := by decide +kernel
  have hsub : .pump 0 ∈ (bare.after recordBesideSub).built.elim [] Built.steps := by
    decide +kernel
  exact absurd (h _ _ _ hj hp rfl 0 hsub) (by decide +kernel)

/-- The same pipeline after its recording was stopped. -/
def idleBesideSub : List Event := recordBesideSub ++ [.command .stopRecord]

/-- The recording of the next build fails when it is to be linked. -/
def failBesideSub : List Event :=
  [.write ((.empty : Params).insert PipelineAttr.enableRtspKey "1"),
    .inject ⟨.bind, none, 2, Nat.two_pos⟩]

/-- Once the recording is over, all pumps are stopped first; when it fails on the way, the pump of
the network encoder is not. -/
theorem after_stopsFirst_iff_besideSub :
    StopsFirst (.pump · ∈ (bare.after idleBesideSub).built.elim [] Built.steps)
        (bare.after idleBesideSub).plant ((bare.after idleBesideSub).handle .deinit).2.plant ∧
      ∃ ids : PumpId → Prop, ids 0 ∧ ids 1 ∧
        ¬StopsFirst ids (bare.after failBesideSub).plant
          ((bare.after failBesideSub).handle .init).2.plant := by
  constructor
  · obtain ⟨b, up⟩ : ∃ b, (bare.after idleBesideSub).built = some b :=
      Option.isSome_iff_exists.mp (by decide +kernel)
    have hrecord : (bare.after idleBesideSub).built.bind (·.record) = none := by decide +kernel
    have hphoto : (bare.after idleBesideSub).built.bind (·.photo) = none := by decide +kernel
    rw [up] at hrecord hphoto ⊢
    have hd := after_drainsTo fresh_bare idleBesideSub .deinit (by decide +kernel)
    exact ((after_stopsFirst_iff fresh_bare idleBesideSub).1 b up hd).mpr (.inl ⟨hrecord, hphoto⟩)
  · have hd := after_drainsTo fresh_bare failBesideSub .init (by decide +kernel)
    obtain ⟨attr, base, site, hfails, hown, hrest, hsub⟩ :
      ∃ attr base site, (bare.after failBesideSub).RecordFails attr base site ∧
        .pump 1 ∈ site.stack.steps ∧ .pump 0 ∈ base.steps ∧ attr.sub.isSome :=
      ⟨_, _, _, .intro rfl rfl rfl rfl rfl rfl, by decide +kernel, by decide +kernel, rfl⟩
    refine ⟨(.pump · ∈ site.stack.steps ++ base.steps), List.mem_append_right _ hrest,
      List.mem_append_left _ hown, fun h => ?_⟩
    have hiff := (after_stopsFirst_iff fresh_bare failBesideSub).2 attr base site hfails hd
    cases hiff.mp h with
    | inl hempty => exact absurd (hempty ▸ hown) List.not_mem_nil
    | inr hnone => exact hnone (.inl hsub)

end Orchestrator

end CameraPipeline
