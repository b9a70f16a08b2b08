import CameraPipeline.Proofs.Plant.Climb
import CameraPipeline.Proofs.Plant.StopOrder
import CameraPipeline.Proofs.Plant.Teardown

/-!
The first failure. A request that is refused and a pump that does not end in time leave an entry in
the journal, so the journal tells which failure came first. An unwinding goes on after a failure, a
construction breaks off and is rolled back; either way the first failure is the one that is
reported.
-/

namespace CameraPipeline

/-- An honest pump is joined just if it has ended. -/
theorem Pump.Honest.joined_stop {pump : Pump} (h : pump.Honest) (millis : Nat) :
    (pump.worker.stop millis pump.hasEnded).2.joined = pump.hasEnded := by
  simp only [Worker.stop]
  split
  · rename_i hj
    rw [hj, h.joined hj]
  · rename_i hj
    simp only [Worker.wait, Worker.requestStop]
    cases he : pump.hasEnded with
    | true => simp
    | false =>
        have hseen : pump.worker.seenEnd = false := by
          simpa [he] using h.seenEnd
        simpa [hseen] using hj

theorem Worker.name_stop (w : Worker) (millis : Nat) (ended : Bool) :
    (w.stop millis ended).2.name = w.name := by
  simp only [stop]
  split
  · rfl
  · split <;> rename_i hw <;> exact (congrArg (·.2.name) hw).symm

/-- The entry tells of no failure: no request was refused, and no pump was too late to be joined. -/
def JournalEntry.succeeds : JournalEntry → Bool
  | .asked _ fault => fault.isNone
  | .stopped _ drained => drained
  | .started _ | .pumped _ _ => true

namespace Plant

/-- The failure that an entry of the journal tells of, with the name that the pump has in `p`. -/
def failure? (p : Plant) : JournalEntry → Option PipelineError
  | .asked r (some fault) => some (.capability r fault)
  | .stopped id false => (p.worker? id).map fun w => .drain ⟨w.name, p.drainMillis⟩
  | .asked _ none | .stopped _ true | .started _ | .pumped _ _ => none

theorem failure?_of_succeeds (p : Plant) {e : JournalEntry} (h : e.succeeds) :
    p.failure? e = none := by
  cases e with
  | asked r fault =>
      obtain rfl : fault = none := Option.isNone_iff_eq_none.mp h
      rfl
  | stopped id drained =>
      obtain rfl : drained = true := h
      rfl
  | started | pumped => rfl

/-- `q` has the pumps of `p` under the same names. -/
structure Knows (q p : Plant) : Prop where
  name : ∀ id w, p.worker? id = some w → (q.worker? id).map (·.name) = some w.name
  drainMillis : q.drainMillis = p.drainMillis

variable {P : Change → Prop} {p q r z : Plant} {id : PumpId} {acts acts' : List JournalEntry}

section Knows

theorem Spares.knows (h : Spares (fun _ => False) p q) : q.Knows p :=
  ⟨fun id w hw => by rw [h.worker? id not_false, hw]; rfl, h.drainMillis⟩

theorem Knows.refl (p : Plant) : p.Knows p := ⟨fun _ _ hw => by rw [hw]; rfl, rfl⟩

theorem Knows.trans (h : r.Knows q) (h' : q.Knows p) : r.Knows p := by
  refine ⟨fun id w hw => ?_, h.drainMillis.trans h'.drainMillis⟩
  obtain ⟨w', hq, hname⟩ := Option.map_eq_some_iff.mp (h'.name id w hw)
  exact (h.name id w' hq).trans (congrArg some hname)

theorem Knows.setPump {pump pump' : Pump} (hp : p.pump? id = some pump)
    (hq : q.pumps = p.pumps.set id pump') (hw : pump'.worker.name = pump.worker.name)
    (hm : q.drainMillis = p.drainMillis) : q.Knows p := by
  refine ⟨fun k w hk => ?_, hm⟩
  have hq : q.pump? k = (p.setPump id pump').pump? k := by rw [pump?, hq]; rfl
  obtain ⟨pump₁, hp₁, rfl⟩ := Option.map_eq_some_iff.mp hk
  rw [worker?, hq]
  by_cases hid : k = id
  · subst hid
    obtain rfl : pump = pump₁ := Option.some.inj (hp.symm.trans hp₁)
    rw [pump?_setPump_self hp]
    exact congrArg some hw
  · rw [pump?_setPump_ne p hid, hp₁]
    rfl

/-- Pumps keep their names. -/
theorem apply_knows (p : Plant) (c : Change) : (p.apply c).Knows p := by
  have hdrift (c : Change) (hc : c.IsDrift) : (p.apply c).Knows p :=
    Spares.knows (Steps.spares (.one c hc))
  cases c with
  | move | turns => exact hdrift _ trivial
  | request r =>
      refine Spares.knows (.of_pumps (pumps_serve p r) ?_)
      simp only [apply, serve]
      split <;> rfl
  | start pump =>
      refine ⟨fun id w hw => ?_, rfl⟩
      obtain ⟨pump', hp, rfl⟩ := Option.map_eq_some_iff.mp hw
      have hne : id ≠ p.pumps.length := Nat.ne_of_lt (List.getElem?_eq_some_iff.mp hp).1
      rw [worker?, apply, pump?_addPump, if_neg hne, hp]
      rfl
  | raise id =>
      simp only [apply, raise]
      split
      · exact .refl p
      · rename_i hp
        exact .setPump hp rfl rfl rfl
  | await id =>
      simp only [apply, waitPump]
      split
      · exact .refl p
      · rename_i hp
        exact .setPump hp rfl rfl rfl
  | join id millis =>
      simp only [apply, join]
      split
      · exact .refl p
      · rename_i pump hp
        exact .setPump hp rfl (pump.worker.name_stop millis _) rfl

theorem Steps.knows (h : Steps P p q) : q.Knows p := by
  induction h with
  | refl p => exact .refl p
  | cons c _ _ ih => exact ih.trans (apply_knows _ c)

end Knows

/-- What the owner has done from `p` to `q` is determined. -/
theorem Does.unique (h : p.Does acts q) (h' : p.Does acts' q) : acts = acts' := by
  obtain ⟨since, hq, rfl⟩ := h
  obtain ⟨since', hq', rfl⟩ := h'
  rw [hq] at hq'
  rw [List.append_cancel_left hq']

theorem Steps.does (h : Steps P p q) : ∃ acts, p.Does acts q := by
  obtain ⟨since, hq⟩ := h.journal
  exact ⟨_, since, hq.symm, rfl⟩

/-- From `p` to `q` the first failure was `e?`, not one of a pump. -/
def Fails (p : Plant) (e? : Option PipelineError) (q : Plant) : Prop :=
  ∃ acts, p.Does acts q ∧ ∀ z : Plant, acts.findSome? z.failure? = e?

section Fails

variable {e? e'? : Option PipelineError}

theorem Fails.trans (h : p.Fails e? q) (h' : q.Fails e'? r) : p.Fails (e?.or e'?) r := by
  obtain ⟨acts, hdoes, hfirst⟩ := h
  obtain ⟨acts', hdoes', hfirst'⟩ := h'
  refine ⟨acts ++ acts', hdoes.trans hdoes', fun z => ?_⟩
  rw [List.findSome?_append, hfirst, hfirst']

/-- After a failure it makes no difference what else fails. -/
theorem Fails.goOn {e : PipelineError} (h : p.Fails (some e) q) (hs : Steps P q r) :
    p.Fails (some e) r := by
  obtain ⟨acts, hdoes, hfirst⟩ := h
  obtain ⟨later, hlater⟩ := hs.does
  refine ⟨acts ++ later, hdoes.trans hlater, fun z => ?_⟩
  rw [List.findSome?_append, hfirst]
  rfl

theorem Steps.fails_none (h : Steps Change.IsDrift p q) : p.Fails none q :=
  ⟨[], h.does_nothing, fun _ => rfl⟩

end Fails

/-- The note on a stop tells of a failure just if the pump is still out. -/
theorem stopPump_tells (hh : p.Honest) (h : p.isOut id = true) :
    let q := (p.stopPump id p.drainMillis).2
    ∃ drained, p.Does [.stopped id drained] q ∧
      ∀ z : Plant, z.Knows q → z.failure? (.stopped id drained) = q.late? id := by
  intro q
  obtain ⟨pump, hp, -, -, hworker, hdoes⟩ := stopPump_notes h p.drainMillis
  refine ⟨pump.hasEnded, hdoes, fun z hz => ?_⟩
  have hcoaxed : (p.coaxed id).Honest := by
    have hraise : Steps Change.IsQuiet p (p.raise id) := .one (.raise id) trivial
    exact (hraise.trans (coaxed_steps p id).quiet).honest (fun _ => False.elim) hh
  have hjoined := (hcoaxed id pump hp).joined_stop p.drainMillis
  obtain ⟨w', hz', hname⟩ := Option.map_eq_some_iff.mp (hz.name id _ hworker)
  rw [late?, hworker, Option.bind_some, hjoined]
  cases pump.hasEnded with
  | true => rfl
  | false =>
      have hmillis : z.drainMillis = p.drainMillis :=
        hz.drainMillis.trans (stopPump_spares p id _).drainMillis
      simp [failure?, hz', hname, hmillis, Worker.name_stop, q, (stopPump_spares p id _).drainMillis]

end Plant

/-- An undo that asks the server fails just if it is refused. -/
theorem Undo.Tried.failure? {r : Request} {e : JournalEntry} (h : Tried (.request r) e)
    (z : Plant) : z.failure? e = e.refusal? := by
  cases h with
  | request _ fault => cases fault <;> rfl

namespace Stack

open Plant

variable {p : Plant} {s : Stack}

/-- The owner has unwound the stack by `acts`: up to some moment `m` it has stopped the pumps,
oldest first; from then on it has tried every step that was left, newest first. -/
def Unwinds (s : Stack) (p : Plant) (acts : List JournalEntry) (q : Plant) : Prop :=
  ∃ m stops undos, acts = stops ++ undos ∧ p.Does stops m ∧ m.Does undos q ∧
    List.Forall₂ Undo.Tried ((s.pumps.filter p.isOut).map .pump) stops ∧
    List.Forall₂ Undo.Tried (s.steps.filter (isLeft m)) undos

theorem Unwinds.does {acts : List JournalEntry} {q : Plant} (h : s.Unwinds p acts q) :
    p.Does acts q := by
  obtain ⟨m, stops, undos, rfl, hstops, hundos, -⟩ := h
  exact hstops.trans hundos

/-- The errors of the pumps are what the notes on their stops tell of. -/
theorem stopEach_tells (hh : p.Honest) (steps : List Undo) :
    ∃ stops, p.Does stops (stopEach p steps).2.2 ∧
      ∀ z : Plant, z.Knows (stopEach p steps).2.2 →
        (stopEach p steps).1 = stops.filterMap z.failure? := by
  induction steps with
  | nil => exact ⟨[], .refl p, fun _ _ => rfl⟩
  | cons step older ih =>
      obtain ⟨stops, hdoes, htells⟩ := ih
      cases step with
      | request r => exact ⟨stops, hdoes, htells⟩
      | pump id =>
          have hm := (stopEach_steps p older).honest (fun _ => False.elim) hh
          have hstop := stopPump_steps (stopEach p older).2.2 id (stopEach p older).2.2.drainMillis
          rw [stopEach_pump]
          cases ho : (stopEach p older).2.2.isOut id with
          | true =>
              obtain ⟨drained, hone, hlate⟩ := stopPump_tells hm ho
              refine ⟨stops ++ [.stopped id drained], hdoes.trans hone, fun z hz => ?_⟩
              rw [htells z (hz.trans hstop.knows), List.filterMap_append, ← hlate z hz]
              cases hl : z.failure? (.stopped id drained) <;> simp [hl]
          | false =>
              rw [stopPump_of_not_isOut ho]
              refine ⟨stops, hdoes, fun z hz => ?_⟩
              have hnone : (stopEach p older).2.2.late? id = none := by
                simpa [← isSome_late?] using ho
              simp [htells z hz, hnone]

/-- When all pumps have been joined, only requests are left. -/
theorem request_of_isLeft {m : Plant} {steps : List Undo}
    (hm : (pumps ⟨steps⟩).filterMap m.late? = []) :
    ∀ u ∈ steps.filter (isLeft m), ∃ r, u = .request r := by
  intro u hu
  obtain ⟨hu, hleft⟩ := List.mem_filter.mp hu
  cases u with
  | request r => exact ⟨r, rfl⟩
  | pump id =>
      have hnone := List.filterMap_eq_nil_iff.mp hm id (mem_pumps.mpr hu)
      rw [← Option.not_isSome_iff_eq_none, isSome_late?] at hnone
      exact absurd hleft hnone

/-- Undos that only ask the server fail just where they are refused. -/
theorem findSome?_refusal? {steps : List Undo} {undos : List JournalEntry}
    (h : List.Forall₂ Undo.Tried steps undos) (hr : ∀ u ∈ steps, ∃ r, u = .request r)
    (z : Plant) : undos.findSome? z.failure? = undos.findSome? JournalEntry.refusal? := by
  induction h with
  | nil => rfl
  | @cons u e steps undos hu _ ih =>
      obtain ⟨r, rfl⟩ := hr u (.head _)
      rw [List.findSome?_cons, List.findSome?_cons, hu.failure? z,
        ih fun u hu => hr u (.tail _ hu)]

/-- An unwinding tries everything, and the first failure among the attempts is its result. -/
theorem unwind_tells (hh : p.Honest) (hnodup : s.pumps.Nodup) :
    ∃ acts, s.Unwinds p acts (s.unwind p).2 ∧
      ∀ z : Plant, z.Knows (s.unwind p).2 →
        (s.unwind p).1.head? = acts.findSome? z.failure? := by
  have hstop := stopped_stopEach p hnodup
  obtain ⟨stops, hdoes, htried⟩ := hstop.does
  obtain ⟨stops', hdoes', htells⟩ := stopEach_tells hh s.steps
  obtain rfl := hdoes.unique hdoes'
  have hpumps := pumps_filter (stopEach p s.steps).2.2 s.steps
  rw [← hstop.kept] at hpumps
  obtain ⟨undos, hundo, htried', herrors⟩ :=
    undoEach_does (stopEach p s.steps).2.2 (hpumps ▸ hnodup.filter _)
      fun id hid => (List.mem_filter.mp (hpumps ▸ hid)).2
  have hundone := (undoEach_steps (stopEach p s.steps).2.2 (stopEach p s.steps).2.1).knows
  rw [hstop.kept] at htried'
  refine ⟨stops ++ undos, ⟨_, stops, undos, rfl, hdoes, hundo, htried, htried'⟩, fun z hz => ?_⟩
  have hlate := htells z (hz.trans hundone)
  have hall : (s.unwind p).1 = (stopEach p s.steps).1 ++ undos.filterMap JournalEntry.refusal? :=
    congrArg ((stopEach p s.steps).1 ++ ·) herrors
  rw [hall, List.head?_append, List.head?_filterMap, hlate, List.head?_filterMap,
    List.findSome?_append]
  -- a pump that is left to the undoing has failed to stop before
  cases hfirst : stops.findSome? z.failure? with
  | some e => rfl
  | none =>
      have hnone : (stopEach p s.steps).1 = [] := by
        rw [hlate, List.filterMap_eq_nil_iff]
        exact List.findSome?_eq_none_iff.mp hfirst
      rw [hstop.errors] at hnone
      rw [findSome?_refusal? htried' (request_of_isLeft hnone)]

end Stack

namespace Construction

variable {α β : Type} {m : Construction α}

/-- The error of a construction that has broken off. -/
def error? : EStateM.Result PipelineError Site α → Option PipelineError
  | .ok _ _ => none
  | .error e _ => some e

/-- The steps break off at the first failure, and report it. -/
def Tells (m : Construction α) : Prop :=
  ∀ site : Site, site.plant.Fails (error? (m site)) (reached (m site)).plant

namespace Tells

theorem pure (a : α) : Tells (Pure.pure a : Construction α) :=
  fun site => ⟨[], .refl site.plant, fun _ => rfl⟩

theorem bind {f : α → Construction β} (hm : Tells m) (hf : ∀ a, Tells (f a)) :
    Tells (m >>= f) := by
  intro site
  have h := hm site
  simp only [Bind.bind, EStateM.bind]
  cases ho : m site with
  | ok a site' =>
      rw [ho] at h
      exact h.trans (hf a site')
  | error e site' =>
      rw [ho] at h
      exact h

theorem optional {part : Option α} {steps : α → Construction β} (h : ∀ a, Tells (steps a)) :
    Tells (Build.optional part steps) := by
  cases part with
  | none => exact pure none
  | some a => exact bind (h a) fun b => pure (some b)

end Tells

theorem tells_ask (r : Request) (inverse : Handle → Request) : Tells (ask r inverse) := by
  intro site
  simp only [ask]
  obtain ⟨h, hanswer, hdoes⟩ | ⟨fault, hanswer, hdoes⟩ := Plant.ask_does site.plant r
  · split <;> rename_i ho <;> rw [ho] at hanswer hdoes
    · exact ⟨_, hdoes, fun _ => rfl⟩
    · cases hanswer
  · split <;> rename_i ho <;> rw [ho] at hanswer hdoes
    · cases hanswer
    · cases hanswer
      exact ⟨_, hdoes, fun _ => rfl⟩

theorem tells_done (r : Request) (inverse : Handle → Request) :
    Tells (do let _ ← ask r inverse : Construction Unit) :=
  .bind (tells_ask r inverse) fun _ => .pure ()

theorem tells_createEnabled (kind : ChannelKind) (attr : ChannelAttr) :
    Tells (createEnabled kind attr) :=
  .bind (tells_ask _ _) fun h => .bind (tells_done _ _) fun _ => .pure h

theorem tells_start (pump : Pump) : Tells (start pump) := by
  intro site
  have hstart : site.plant.Fails none (site.plant.addPump pump).2 :=
    ⟨[.started site.plant.pumps.length], .one rfl rfl, fun _ => rfl⟩
  exact hstart.trans (Plant.settle_steps _ _).fails_none

/-- A construction that is rolled back reports its first failure, whatever comes of the undoing. -/
theorem Tells.construct (hm : Tells m) (p : Plant) :
    match p.construct m with
    | (.ok _, q) => p.Fails none q
    | (.error e, q) => p.Fails (some e) q := by
  have h := hm { plant := p }
  simp only [Plant.construct]
  cases ho : m { plant := p } with
  | ok a site =>
      rw [ho] at h
      exact h
  | error e site =>
      rw [ho] at h
      exact h.goOn (site.stack.unwind_steps site.plant)

end Construction

namespace Build

open Construction

variable (make : PumpMaker) (attr : PipelineAttr) (vi : Handle)

theorem tells_display (attr : DisplayAttr) : Tells (display vi attr) :=
  .bind (tells_createEnabled _ _) fun _ => .bind (tells_done _ _) fun _ =>
    .bind (tells_createEnabled _ _) fun _ => .bind (tells_done _ _) fun _ => .pure _

theorem tells_subStream (source : Handle) (attr : VencAttr) :
    Tells (subStream make source attr) :=
  .bind (tells_createEnabled _ _) fun _ => .bind (tells_done _ _) fun _ =>
    .bind (tells_start _) fun _ => tells_done _ _

theorem tells_base : Tells (base make attr) := by
  refine .bind (tells_createEnabled _ _) fun vi => ?_
  refine .bind (.optional fun a => tells_display vi a) fun vpss => ?_
  refine .bind (.optional fun a => tells_createEnabled _ _) fun main => ?_
  refine .bind (.optional fun a => tells_subStream make _ a) fun _ => ?_
  refine .bind (.optional fun a => tells_createEnabled _ _) fun jpeg => ?_
  dsimp only
  split
  · exact .bind (tells_start _) fun _ => .pure _
  · exact .pure _

theorem tells_linkRecord (venc : Handle) (gdc : Option Handle) :
    Tells (linkRecord vi venc gdc) := by
  cases gdc with
  | none => exact tells_done _ _
  | some gdc => exact .bind (tells_done _ _) fun _ => tells_done _ _

theorem tells_record (venc : Handle) : Tells (record make attr vi venc) := by
  refine .bind (tells_done _ _) fun _ => ?_
  refine .bind (tells_start _) fun pump => ?_
  refine .bind (.optional fun a => tells_createEnabled _ _) fun gdc => ?_
  refine .bind (.optional fun a => tells_ask _ _) fun _ => ?_
  exact .bind (tells_linkRecord vi venc gdc) fun _ => .pure pump

end Build

/-- A build reports its first failure, also where the recording fails on top of the base. -/
theorem Plant.build_tells (p : Plant) (make : PumpMaker) (attr : PipelineAttr) :
    match p.build make attr with
    | (.ok _, q) => p.Fails none q
    | (.error e, q) => p.Fails (some e) q := by
  have hbase := (Build.tells_base make attr).construct p
  simp only [build]
  cases ho : p.construct (Build.base make attr) with
  | mk answer q =>
      rw [ho] at hbase
      cases answer with
      | error e => exact hbase
      | ok a =>
          obtain ⟨handles, base⟩ := a
          cases hm : handles.main with
          | none => simpa only [hm] using hbase
          | some main =>
              cases attr.recordOnInit with
              | false => simpa only [hm] using hbase
              | true =>
                  have hrecord := (Build.tells_record make attr handles.vi main).construct q
                  simp only [hm]
                  split <;> rename_i hr
                  · split at hr <;> cases hr
                    rw [construct_of_openRecord ‹_›] at hrecord
                    exact hbase.trans hrecord
                  · split at hr <;> cases hr
                    rw [construct_of_openRecord_error ‹_›] at hrecord
                    exact (hbase.trans hrecord).goOn (base.unwind_steps _)

end CameraPipeline
