import CameraPipeline.Proofs.Orchestrator.Repetition
import CameraPipeline.Proofs.Orchestrator.TeardownOrder
import CameraPipeline.Proofs.Plant.Failure

/-!
Which failure a command reports. A teardown unwinds the stacks of the pipeline one after the other
and tries everything on them, so the journal tells which of its failures came first; a rebuild
breaks off at its first failure. A setter reports the first failure of both, a restart that of the
rebuild even where the teardown has failed before.
-/

namespace CameraPipeline

open Plant

namespace Site

variable {p : Plant} {site site' : Site}

/-- A pump that is started has a number of its own. -/
theorem Step.distinct (h : Step site site') (hs : Manned p site)
    (hn : site.stack.pumps.Nodup) : site'.stack.pumps.Nodup := by
  cases h with
  | asked =>
      rw [Stack.push, Stack.pumps_cons_request]
      exact hn
  | refused => exact hn
  | started pump =>
      rw [Stack.push, Stack.pumps_cons_pump]
      refine hn.append (List.nodup_singleton _) fun id hid hnew => ?_
      obtain rfl := List.mem_singleton.mp hnew
      exact Nat.lt_irrefl _ (hs.pumps _ (Stack.mem_pumps.mp hid)).2

theorem Climbs.distinct (h : Site.Climbs { plant := p } site) : site.stack.pumps.Nodup := by
  refine (h.keeps (I := fun site => Manned p site ∧ site.stack.pumps.Nodup)
    (fun _ _ hstep hs => ⟨hs.1.step hstep, hstep.distinct hs.1 hs.2⟩) ⟨.start p, ?_⟩).2
  exact List.nodup_nil

end Site

theorem Construction.Climbs.distinct {α : Type} {m : Construction α} (hm : Climbs m)
    {p q : Plant} {a : α} {s : Stack} (ho : p.construct m = (.ok (a, s), q)) : s.pumps.Nodup := by
  have h := hm.construct p
  rw [ho] at h
  exact Site.Climbs.distinct h

/-- Stopped pumps leave a stack, and the others stay as they are. -/
theorem Stack.distinct_stopPumps {s : Stack} (hn : s.pumps.Nodup) (p : Plant) :
    (s.stopPumps p).2.1.pumps.Nodup := by
  have hkept : (s.stopPumps p).2.1.steps = s.steps.filter (isLeft (s.stopPumps p).2.2) :=
    (stopped_stopEach p hn).kept
  have hpumps := pumps_filter (s.stopPumps p).2.2 s.steps
  rw [← hkept] at hpumps
  exact hpumps ▸ hn.filter _

namespace Built

/-- The stacks of a pipeline, in the order of its teardown. -/
def levels (b : Built) : List Stack :=
  b.photo.elim [] (fun s => [s.stack]) ++ b.record.elim [] (fun s => [s.stack]) ++ [b.base]

/-- No pump stands twice on a stack. -/
structure Distinct (b : Built) : Prop where
  base : b.base.pumps.Nodup
  record : ∀ s, b.record = some s → s.stack.pumps.Nodup
  photo : ∀ s, b.photo = some s → s.stack.pumps.Nodup

theorem Distinct.levels {b : Built} (hb : b.Distinct) : ∀ s ∈ b.levels, s.pumps.Nodup := by
  obtain ⟨attr, base, handles, record, photo⟩ := b
  have hbase := hb.base
  have hrecord := hb.record
  have hphoto := hb.photo
  cases record <;> cases photo <;> simp_all [Built.levels]

theorem distinct_of_build {p q : Plant} {make : PumpMaker} {attr : PipelineAttr} {b : Built}
    (ho : p.build make attr = (.ok b, q)) : b.Distinct := by
  simp only [build] at ho
  split at ho
  · cases ho
  · rename_i handles base p' hcons
    have hbase := (Build.climbs_base make attr).distinct hcons
    split at ho
    · split at ho <;> cases ho
      rename_i hopen
      have hrecord := (Build.climbs_record make attr _ _).distinct (construct_of_openRecord hopen)
      refine ⟨hbase, fun _ heq => ?_, fun _ heq => ?_⟩ <;> cases heq
      exact hrecord
    · cases ho
      refine ⟨hbase, fun _ heq => ?_, fun _ heq => ?_⟩ <;> cases heq

end Built

namespace Stack

variable {levels : List Stack} {p q : Plant} {acts : List JournalEntry}

/-- The owner has unwound the stacks by `acts`, one after the other. -/
inductive UnwindEach : List Stack → Plant → List JournalEntry → Plant → Prop
  | nil (p : Plant) : UnwindEach [] p [] p
  | cons {s : Stack} {rest : List Stack} {p m q : Plant} {acts later : List JournalEntry}
      (first : s.Unwinds p acts m) (each : UnwindEach rest m later q) :
      UnwindEach (s :: rest) p (acts ++ later) q

theorem UnwindEach.does (h : UnwindEach levels p acts q) : p.Does acts q := by
  induction h with
  | nil p => exact .refl p
  | cons first _ ih => exact first.does.trans ih

def unwindEach : List Stack → Plant → List PipelineError × Plant
  | [], p => ([], p)
  | s :: rest, p =>
    let (errors, p) := s.unwind p
    let (later, p) := unwindEach rest p
    (errors ++ later, p)

theorem unwindEach_steps (levels : List Stack) (p : Plant) :
    Steps (Change.Within (fun _ => True) fun _ => False) p (unwindEach levels p).2 := by
  induction levels generalizing p with
  | nil => exact .refl p
  | cons s rest ih =>
      have hs : Steps (Change.Within (fun _ => True) fun _ => False) p (s.unwind p).2 :=
        (s.unwind_steps p).mono fun _ => Change.Within.mono (fun _ _ => trivial) fun _ => id
      exact hs.trans (ih (s.unwind p).2)

theorem unwindEach_tells (hh : p.Honest) (hn : ∀ s ∈ levels, s.pumps.Nodup) :
    ∃ acts, UnwindEach levels p acts (unwindEach levels p).2 ∧
      ∀ z : Plant, z.Knows (unwindEach levels p).2 →
        (unwindEach levels p).1.head? = acts.findSome? z.failure? := by
  induction levels generalizing p with
  | nil => exact ⟨[], .nil p, fun _ _ => rfl⟩
  | cons s rest ih =>
      obtain ⟨acts, hfirst, htells⟩ := unwind_tells hh (hn s (.head _))
      have hh' : (s.unwind p).2.Honest := (s.unwind_steps p).honest (fun _ => False.elim) hh
      obtain ⟨later, heach, htells'⟩ := ih hh' fun s hs => hn s (.tail _ hs)
      refine ⟨acts ++ later, .cons hfirst heach, fun z hz => ?_⟩
      have hlater := htells' z hz
      have hknows := (unwindEach_steps rest (s.unwind p).2).knows
      rw [List.findSome?_append, ← htells z (hz.trans hknows), ← hlater]
      exact List.head?_append

end Stack

theorem Built.tearDown_eq (b : Built) (p : Plant) :
    b.tearDown p = Stack.unwindEach b.levels p := by
  obtain ⟨attr, base, handles, record, photo⟩ := b
  cases record <;> cases photo <;> simp [tearDown, unwindSession, levels, Stack.unwindEach]

/-- A teardown tries everything, and its first failure is its first error. -/
theorem Built.tearDown_tells {b : Built} {p : Plant} (hh : p.Honest) (hb : b.Distinct) :
    ∃ torn, Stack.UnwindEach b.levels p torn (b.tearDown p).2 ∧
      ∀ z : Plant, z.Knows (b.tearDown p).2 →
        (b.tearDown p).1.head? = torn.findSome? z.failure? := by
  rw [b.tearDown_eq]
  exact Stack.unwindEach_tells hh hb.levels

namespace Orchestrator

open CommandAction

variable {shooting : Prop} {o o' : Orchestrator} {b : Built} {c : Command} {s : Setting}

section Distinct

/-- No pump stands twice on a stack of the pipeline. -/
def Distinct (o : Orchestrator) : Prop := ∀ b, o.built = some b → b.Distinct

theorem Transition.distinct (h : Transition shooting o o') (hd : o.Distinct) : o'.Distinct := by
  cases h with
  | settings | buildFails | setInput | openRecordFails | waitPhoto | openPhotoFails => exact hd
  | build down h =>
      intro _ heq
      cases heq
      exact Built.distinct_of_build h
  | tearDown =>
      intro _ hup
      cases hup
  | noteInput up =>
      have hb := hd _ up
      intro _ heq
      cases heq
      exact ⟨hb.base, hb.record, hb.photo⟩
  | openRecord up idle free encoder h =>
      have hb := hd _ up
      intro _ heq
      cases heq
      refine ⟨hb.base, fun _ hs => ?_, hb.photo⟩
      cases hs
      exact (Build.climbs_record _ _ _ _).distinct (construct_of_openRecord h)
  | stopRecord up session =>
      have hb := hd _ up
      intro _ heq
      cases heq
      refine ⟨hb.base, fun _ hs => ?_, hb.photo⟩
      cases hs
      exact Stack.distinct_stopPumps (hb.record _ session) _
  | closeRecord up =>
      have hb := hd _ up
      intro _ heq
      cases heq
      exact ⟨hb.base, nofun, hb.photo⟩
  | closePhoto up =>
      have hb := hd _ up
      intro _ heq
      cases heq
      exact ⟨hb.base, hb.record, nofun⟩
  | openPhoto allowed up idle free encoder h =>
      have hb := hd _ up
      intro _ heq
      cases heq
      refine ⟨hb.base, hb.record, fun _ hs => ?_⟩
      cases hs
      exact (Build.climbs_photo _ _ _ _).distinct (construct_of_openPhoto h)

theorem Transitions.distinct (h : Transitions shooting o o') (hd : o.Distinct) : o'.Distinct := by
  induction h with
  | refl => exact hd
  | tail _ ht ih => exact ht.distinct ih

theorem meet_distinct (e : Event) (hd : o.Distinct) : (o.meet e).Distinct := by
  cases e with
  | command c => exact (handle_transitions o c).distinct hd
  | write | inject | move | turns | register | sinks => exact hd
  | waitPhoto =>
      intro b hb
      exact hd b ((waitPhoto_steps o).2 ▸ hb)

theorem after_distinct (hf : o.Fresh) (events : List Event) : (o.after events).Distinct := by
  refine after_keeps (P := fun _ => True) (fun o e _ hd => meet_distinct e hd)
    (fun _ _ => trivial) fun b hb => ?_
  rw [hf.built] at hb
  cases hb

end Distinct

/-- The result of a command that did its work and reports the failure `e?`, if there is one. -/
def told (e? : Option PipelineError) (o : Orchestrator) :
    EStateM.Result PipelineError Orchestrator Bool :=
  match e? with
  | none => .ok true o
  | some e => .error e o

/-- The answer of a command that reports the failure `e?`. -/
def report : Option PipelineError → Except PipelineError Bool
  | none => .ok true
  | some e => .error e

theorem report_eq_error {e? : Option PipelineError} {e : PipelineError} :
    report e? = .error e ↔ e? = some e := by
  cases e? <;> simp [report]

section Told

variable {e? torn? rebuilt? : Option PipelineError}

theorem left_told : left (told e? o) = o := by
  cases e? <;> rfl

theorem handle_of_told (h : run c o = told e? o') : o.handle c = (report e?, o') := by
  rw [handle, h]
  cases e? <;> rfl

theorem deinit_told (up : o.built = some b) :
    deinit o = told (b.tearDown o.plant).1.head?
      { o with built := none, plant := (b.tearDown o.plant).2 } := by
  rw [deinit_eq, up]
  cases he : (b.tearDown o.plant).1 <;> simp only [he] <;> rfl

/-- A build reports its first failure. -/
theorem init_told (down : o.built = none) {attr : PipelineAttr} (hp : o.plan = .ok attr) :
    ∃ rebuilt? o', init o = told rebuilt? o' ∧ o.plant.Fails rebuilt? o'.plant ∧
      o'.plant.Knows o.plant := by
  have htells := o.plant.build_tells o.makePump attr
  have hsteps := o.plant.build_staffed o.makePump True attr
  rw [init_eq, if_neg (by simp [isBuilt, down]), hp]
  dsimp only
  split <;> rename_i hb <;> rw [hb] at htells hsteps
  · exact ⟨none, _, rfl, htells, hsteps.1.knows⟩
  · exact ⟨some _, _, rfl, htells, hsteps.1.knows⟩

/-- A restart reports the rebuild first. -/
theorem restart_told {o₁ : Orchestrator} (hd : deinit o = told torn? o₁)
    (hi : init o₁ = told rebuilt? o') : restart o = told (rebuilt?.or torn?) o' := by
  rw [restart_eq, hd, left_told, hi]
  cases rebuilt? <;> cases torn? <;> rfl

/-- A setter reports the teardown first. -/
theorem reconfigure_told {key text : String} {attr : PipelineAttr} {o₁ : Orchestrator}
    (up : o.isBuilt) (hp : plan { o with params := o.params.insert key text } = .ok attr)
    (hd : deinit { o with params := o.params.insert key text } = told torn? o₁)
    (hi : init o₁ = told rebuilt? o') : reconfigure key text o = told (torn?.or rebuilt?) o' := by
  rw [reconfigure_eq]
  dsimp only
  rw [hp, hd, left_told, hi]
  simp only [up, if_true]
  cases rebuilt? <;> cases torn? <;> rfl

end Told

section Reports

variable {torn : List JournalEntry}

/-- A setter has done nothing, or it reports the first failure of its teardown and its rebuild. -/
theorem setting_reports (hs : c.setting? = some s) (up : o.built = some b)
    (htorn : ∀ z : Plant, z.Knows (b.tearDown o.plant).2 →
      (b.tearDown o.plant).1.head? = torn.findSome? z.failure?) :
    (o.handle c).2 = o ∨
      ∃ rebuilt, (b.tearDown o.plant).2.Does rebuilt (o.handle c).2.plant ∧
        (o.handle c).1 =
          report ((torn ++ rebuilt).findSome? (o.handle c).2.plant.failure?) := by
  have hrun := run_setting hs o
  cases hholds : s.holds o.params with
  | error fault =>
      rw [hholds] at hrun
      exact .inl (by rw [← left_run, hrun]; rfl)
  | ok already =>
      rw [hholds] at hrun
      cases already with
      | true => exact .inl (by rw [← left_run, hrun]; rfl)
      | false =>
          cases hp : plan { o with params := o.params.insert s.key s.text } with
          | error e =>
              have hrun : run c o = .error (.config e) o := by
                rw [hrun, reconfigure_eq]
                simp only [hp]
              exact .inl (by rw [← left_run, hrun]; rfl)
          | ok attr =>
              have hd := deinit_told (o := { o with params := o.params.insert s.key s.text }) up
              obtain ⟨rebuilt?, o', hi, ⟨rebuilt, hdoes, hfirst⟩, hknows⟩ :=
                init_told (o := { o with
                  params := o.params.insert s.key s.text
                  built := none
                  plant := (b.tearDown o.plant).2 }) rfl hp
              have hstands : o.isBuilt := by simp [isBuilt, up]
              have hreport := handle_of_told (hrun.trans (reconfigure_told hstands hp hd hi))
              refine .inr ⟨rebuilt, ?_, ?_⟩ <;> rw [hreport]
              · exact hdoes
              · rw [List.findSome?_append, hfirst, ← htorn _ hknows]

/-- A restart reports what the rebuild meets, and what the teardown met only where the rebuild
succeeds. -/
theorem restart_reports (up : o.built = some b)
    (htorn : ∀ z : Plant, z.Knows (b.tearDown o.plant).2 →
      (b.tearDown o.plant).1.head? = torn.findSome? z.failure?) :
    ∃ rebuilt, (b.tearDown o.plant).2.Does rebuilt (o.handle .restart).2.plant ∧
      (∀ attr, o.plan = .ok attr → (o.handle .restart).1 =
        report ((rebuilt.findSome? (o.handle .restart).2.plant.failure?).or
          (torn.findSome? (o.handle .restart).2.plant.failure?))) ∧
      ∀ e, o.plan = .error e → rebuilt = [] ∧ (o.handle .restart).1 = .error (.config e) := by
  have hd := deinit_told up
  cases hp : o.plan with
  | error e =>
      have hi : init { o with built := none, plant := (b.tearDown o.plant).2 } =
          told (some (.config e)) { o with built := none, plant := (b.tearDown o.plant).2 } := by
        rw [init_eq]
        simp only [isBuilt, Option.isSome_none, Bool.false_eq_true, if_false]
        rw [show plan { o with built := none, plant := (b.tearDown o.plant).2 } = .error e from hp]
        rfl
      have hreport := handle_of_told (c := .restart) (restart_told hd hi)
      rw [hreport]
      refine ⟨[], .refl _, fun _ h => ?_, fun _ h => ?_⟩ <;> cases h
      exact ⟨rfl, rfl⟩
  | ok attr =>
      obtain ⟨rebuilt?, o', hi, ⟨rebuilt, hdoes, hfirst⟩, hknows⟩ :=
        init_told (o := { o with built := none, plant := (b.tearDown o.plant).2 }) rfl hp
      have hreport := handle_of_told (c := .restart) (restart_told hd hi)
      rw [hreport]
      refine ⟨rebuilt, hdoes, fun _ _ => ?_, fun _ h => ?_⟩
      · rw [hfirst, ← htorn _ hknows]
      · cases h

/-- A restart of which every call is granted and every pump drains succeeds. -/
theorem restart_succeeds (hh : o.plant.Honest) (hd : o.Distinct) (up : o.built = some b)
    {attr : PipelineAttr} (hp : o.plan = .ok attr) {acts : List JournalEntry}
    (hdoes : o.plant.Does acts (o.handle .restart).2.plant) (hs : ∀ act ∈ acts, act.succeeds) :
    (o.handle .restart).1 = .ok true := by
  obtain ⟨torn, heach, htorn⟩ := Built.tearDown_tells hh (hd b up)
  obtain ⟨rebuilt, hrebuilt, hanswer, -⟩ := restart_reports up htorn
  obtain rfl := hdoes.unique (heach.does.trans hrebuilt)
  obtain ⟨htorn, hrebuilt⟩ := List.forall_mem_append.mp hs
  have hnone {acts : List JournalEntry} (h : ∀ act ∈ acts, act.succeeds) :
      acts.findSome? (o.handle .restart).2.plant.failure? = none :=
    List.findSome?_eq_none_iff.mpr fun act ha => failure?_of_succeeds _ (h act ha)
  rw [hanswer attr hp, hnone htorn, hnone hrebuilt]
  rfl

/-- On a pipeline that stands, at any time of any run: a teardown unwinds the photo session, the
recording and the base, and tries everything on them, whatever fails and whichever pumps do not
drain. To deinitialize or to sleep reports the first failure that the journal tells of; so does a
setter, which builds again after the teardown, unless it has done nothing at all. A restart reports
what its rebuild meets, and what its teardown met only where the rebuild succeeds. -/
theorem after_reports_first {o₀ : Orchestrator} (hf : o₀.Fresh) (events : List Event) :
    let o := o₀.after events
    ∀ b, o.built = some b → ∃ torn q, Stack.UnwindEach b.levels o.plant torn q ∧
      (∀ c, c = .deinit ∨ c = .enterSleep →
        (o.handle c).2.plant = q ∧ (o.handle c).1 = report (torn.findSome? q.failure?)) ∧
      (∀ c s, c.setting? = some s → (o.handle c).2 = o ∨
        ∃ rebuilt, q.Does rebuilt (o.handle c).2.plant ∧
          (o.handle c).1 =
            report ((torn ++ rebuilt).findSome? (o.handle c).2.plant.failure?)) ∧
      ∃ rebuilt, q.Does rebuilt (o.handle .restart).2.plant ∧
        (∀ attr, o.plan = .ok attr → (o.handle .restart).1 =
          report ((rebuilt.findSome? (o.handle .restart).2.plant.failure?).or
            (torn.findSome? (o.handle .restart).2.plant.failure?))) ∧
        ∀ e, o.plan = .error e → rebuilt = [] ∧ (o.handle .restart).1 = .error (.config e) := by
  intro o b up
  have hh : o.plant.Honest := (after_manned hf events).2.honest
  obtain ⟨torn, heach, htorn⟩ := Built.tearDown_tells hh (after_distinct hf events b up)
  refine ⟨torn, _, heach, fun c hc => ?_, fun c s hs => setting_reports hs up htorn,
    restart_reports up htorn⟩
  have hrun : run c o = deinit o := by
    obtain rfl | rfl := hc <;> rfl
  rw [handle_of_told (hrun.trans (deinit_told up)), htorn _ (.refl _)]
  exact ⟨rfl, rfl⟩

/-- A recording, of which the encoder will not be disabled and the input not be created again. -/
def faulty : Orchestrator := bare.after [.command .init,
  .inject ⟨.disable, none, 1, Nat.one_pos⟩, .inject ⟨.create, none, 1, Nat.one_pos⟩]

/-- A switch to photos reports the encoder. -/
theorem after_reports_first_faulty :
    ∃ b torn q, faulty.built = some b ∧ Stack.UnwindEach b.levels faulty.plant torn q ∧
      torn.findSome? q.failure? = some (.capability (.disable ⟨.venc, 0⟩) .injected) ∧
      ∃ rebuilt, q.Does rebuilt (faulty.handle (.setMode .photo)).2.plant ∧
        (torn ++ rebuilt).findSome? (faulty.handle (.setMode .photo)).2.plant.failure? =
          some (.capability (.disable ⟨.venc, 0⟩) .injected) := by
  obtain ⟨b, up⟩ : ∃ b, faulty.built = some b := ⟨_, rfl⟩
  obtain ⟨torn, q, heach, hdeinit, hsetting, -⟩ := after_reports_first fresh_bare _ b up
  refine ⟨b, torn, q, up, heach, report_eq_error.mp ?_, ?_⟩
  · exact (hdeinit .deinit (.inl rfl)).2.symm.trans (by rfl)
  · obtain hsame | ⟨rebuilt, hdoes, hanswer⟩ := hsetting (.setMode .photo) _ rfl
    · exact absurd (congrArg isBuilt hsame) (by decide +kernel)
    · exact ⟨rebuilt, hdoes, report_eq_error.mp (hanswer.symm.trans (by rfl))⟩

/-- A restart does not always report its first failure. -/
theorem not_first_of_restart :
    ¬∀ (events : List Event) (acts : List JournalEntry), (bare.after events).isBuilt →
      (bare.after events).plant.Does acts ((bare.after events).handle .restart).2.plant →
        ((bare.after events).handle .restart).1 =
          report (acts.findSome? ((bare.after events).handle .restart).2.plant.failure?) := by
  intro h
  have hj : (faulty.handle .restart).2.plant.journal = faulty.plant.journal ++
      (faulty.handle .restart).2.plant.journal.drop faulty.plant.journal.length := by
    decide +kernel
  have hanswer : (faulty.handle .restart).1 = _ := h _ _ (by rfl) ⟨_, hj, rfl⟩
  revert hanswer
  decide +kernel

end Reports

end Orchestrator
end CameraPipeline
