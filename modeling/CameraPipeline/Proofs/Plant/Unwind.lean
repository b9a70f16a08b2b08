import CameraPipeline.Proofs.Plant.Laid
import CameraPipeline.Proofs.Plant.Ledger
import CameraPipeline.Proofs.Plant.Notes

/-!
Unwinding a stack. Stopping the pumps leaves the circuit; undoing the other steps leads back to
the ground. No step fails as long as every pump drains and no failure is injected on what gives
back, because then no unit is out of a channel when it is to be destroyed.
-/

namespace CameraPipeline

/-- The server refused a call, or a pump did not drain. -/
def PipelineError.IsFailure : PipelineError → Prop
  | .capability _ _ | .drain _ => True
  | _ => False

theorem PipelineError.IsFailure.late {e : PipelineError} (h : e.IsFailure) :
    e.isPreMutation = false := by
  cases e <;> first | rfl | exact h.elim

theorem firstError_mem {errors : List PipelineError} {e : PipelineError}
    (h : firstError errors = .error e) : e ∈ errors := by
  cases errors with
  | nil => cases h
  | cons e' errors =>
      cases h
      exact .head _

theorem firstError_ok {errors : List PipelineError} {u : Unit} (h : firstError errors = .ok u) :
    errors = [] := by
  cases errors with
  | nil => rfl
  | cons e errors => cases h

theorem Undo.mem_of_pump_mem {id : PumpId} {r : Request} {older : List Undo}
    (hm : .pump id ∈ .request r :: older) : .pump id ∈ older := by
  simpa using hm

theorem Undo.mem_of_request_mem {id : PumpId} {r : Request} {older : List Undo}
    (hm : .request r ∈ .pump id :: older) : .request r ∈ older := by
  simpa using hm

namespace Worker

variable {w : Worker} {millis : Nat} {ended : Bool}

theorem stop_ok (ho : (w.stop millis ended).1 = .ok ()) :
    w.joined ∨ w.seenEnd ∨ ended := by
  simp only [stop] at ho
  split at ho
  · exact .inl ‹_›
  · split at ho
    · rename_i hw
      simp only [wait, requestStop, Prod.mk.injEq, Bool.or_eq_true] at hw
      exact .inr hw.1
    · cases ho

theorem stop_error {late : DrainTimeout} (he : (w.stop millis ended).1 = .error late) :
    ended = false := by
  simp only [stop] at he
  split at he
  · cases he
  · split at he
    · cases he
    · rename_i hw
      simp only [wait, Prod.mk.injEq, Bool.or_eq_false_iff] at hw
      exact hw.1.2

end Worker

namespace Plant

variable {p : Plant} {id : PumpId} {millis : Nat}

theorem join_ok (hh : p.Honest) (ho : (p.join id millis).1 = .ok ()) (h : Handle) :
    ¬(p.join id millis).2.Reads id h := by
  intro hex
  obtain ⟨pump', hpump', hrun, _⟩ := hex
  simp only [join] at ho hpump'
  split at hpump'
  · rename_i hp
    rw [hp] at hpump'
    cases hpump'
  · rename_i pump hp
    rw [hp] at ho
    rw [pump?_note, pump?_setPump_self hp] at hpump'
    cases hpump'
    have he : pump.hasEnded := by
      obtain hj | hs | he := Worker.stop_ok ho
      · exact (hh id pump hp).joined hj
      · exact (hh id pump hp).seenEnd hs
      · exact he
    exact absurd (hrun.symm.trans he) Bool.false_ne_true

/-- A pump whose stop succeeded runs no more. -/
theorem stopPump_ok (hh : p.Honest) (ho : (p.stopPump id millis).1 = .ok ()) (h : Handle) :
    ¬(p.stopPump id millis).2.Reads id h := by
  rw [stopPump_eq] at ho ⊢
  split at ho
  · rename_i hp
    intro hex
    obtain ⟨pump, hpump, _⟩ := hex
    rw [hp] at hpump
    cases hpump
  · rename_i pump hp
    split at ho
    · rename_i hj
      rw [if_pos hj]
      intro hex
      obtain ⟨pump', hpump, hrun, _⟩ := hex
      rw [hp] at hpump
      cases hpump
      exact absurd (hrun.symm.trans ((hh id pump hp).joined hj)) Bool.false_ne_true
    · rename_i hj
      rw [if_neg hj]
      have hs : Steps Change.IsQuiet p ((p.raise id).takeTurn.rest id) :=
        .cons (.raise id) trivial ((takeTurn_steps _).quiet.trans (rest_steps _ id).quiet)
      exact join_ok (hs.honest (fun _ => False.elim) hh) ho h

theorem stopPump_error {late : DrainTimeout} (he : (p.stopPump id millis).1 = .error late) :
    ¬p.DrainsTo (p.stopPump id millis).2 := by
  have hs : Steps Change.IsQuiet p ((p.raise id).takeTurn.rest id) :=
    .cons (.raise id) trivial ((takeTurn_steps _).quiet.trans (rest_steps _ id).quiet)
  rw [stopPump_eq] at he ⊢
  split at he
  · cases he
  · split at he
    · cases he
    · rename_i hj
      rw [if_neg hj]
      simp only [join] at he ⊢
      split at he
      · cases he
      · rw [Worker.stop_error he]
        intro hd
        obtain ⟨since, hnoted, hlate⟩ := (hd.split hs.journal (List.prefix_append _ _)).2
        obtain rfl := List.append_cancel_left hnoted
        cases hlate _ (.head _)

end Plant

namespace Stack

open Plant

variable {ground c : Circuit} {p : Plant} {id : PumpId}

theorem stopEach_steps (p : Plant) (steps : List Undo) :
    Plant.Steps Change.IsQuiet p (stopEach p steps).2.2 := by
  induction steps with
  | nil => exact .refl p
  | cons step older ih =>
      cases step with
      | request r => exact ih
      | pump id =>
          have hs := stopPump_steps (stopEach p older).2.2 id (stopEach p older).2.2.drainMillis
          simp only [stopEach]
          split <;> rename_i ho <;> rw [ho] at hs <;> exact ih.trans hs

/-- Stopping fails only for pumps that do not drain. -/
theorem stopEach_errors (p : Plant) (steps : List Undo) :
    ∀ e ∈ (stopEach p steps).1, ∃ late, e = .drain late := by
  induction steps with
  | nil => simp [stopEach]
  | cons step older ih =>
      cases step with
      | request r => exact ih
      | pump id =>
          simp only [stopEach]
          split
          · exact ih
          · rename_i late q ho
            intro e he
            cases List.mem_append.mp he with
            | inl he => exact ih e he
            | inr he => exact ⟨late, List.mem_singleton.mp he⟩

/-- Stopping takes nothing but pumps off. -/
theorem request_mem_stopEach (p : Plant) (steps : List Undo) (r : Request) :
    .request r ∈ (stopEach p steps).2.1 ↔ .request r ∈ steps := by
  induction steps with
  | nil => rfl
  | cons step older ih =>
      cases step with
      | request r' => simp [stopEach, ih]
      | pump id =>
          simp only [stopEach]
          split
          · simp [ih]
          · simp [ih]

theorem stopEach_laid {steps : List Undo} (hl : Laid ground steps c) (p : Plant) :
    Laid ground (stopEach p steps).2.1 c := by
  induction hl with
  | bare => exact .bare
  | create h base _ new live ih => exact .create h base ih new live
  | enable h base quota _ node ih => exact .enable h base quota ih node
  | bind l _ free source target ih => exact .bind l ih free source target
  | receive h base on quota _ node ih => exact .receive h base on quota ih node
  | pump id _ ih =>
      simp only [stopEach]
      split
      · exact ih
      · exact .pump id ih

/-- A pump of the stack that still runs stays among the steps. -/
theorem stopEach_running (hh : p.Honest) {steps : List Undo} (hm : .pump id ∈ steps) {h : Handle}
    (hr : (stopEach p steps).2.2.Reads id h) : .pump id ∈ (stopEach p steps).2.1 := by
  induction steps with
  | nil => cases hm
  | cons step older ih =>
      cases step with
      | request r => exact .tail _ (ih (Undo.mem_of_pump_mem hm) hr)
      | pump k =>
          have hs := stopPump_steps (stopEach p older).2.2 k (stopEach p older).2.2.drainMillis
          simp only [stopEach] at hr ⊢
          split at hr <;> rename_i ho <;> rw [ho] at hs
          · cases List.mem_cons.mp hm with
            | inl heq =>
                cases heq
                have hh' := (stopEach_steps p older).honest (fun _ => False.elim) hh
                refine absurd ?_ (stopPump_ok hh' (by rw [ho]) h)
                rwa [ho]
            | inr hm => exact ih hm (hs.reads hr)
          · cases List.mem_cons.mp hm with
            | inl hk => exact hk ▸ .head _
            | inr hm => exact .tail _ (ih hm (hs.reads hr))

/-- When every pump drains, all of them leave the stack. -/
theorem stopEach_drained {steps : List Undo} (hd : p.DrainsTo (stopEach p steps).2.2) :
    (stopEach p steps).1 = [] ∧ ∀ id, .pump id ∉ (stopEach p steps).2.1 := by
  induction steps with
  | nil => exact ⟨rfl, fun id hm => by cases hm⟩
  | cons step older ih =>
      cases step with
      | request r =>
          obtain ⟨he, hn⟩ := ih hd
          exact ⟨he, fun id hm => hn id (Undo.mem_of_pump_mem hm)⟩
      | pump k =>
          have hs := stopPump_steps (stopEach p older).2.2 k (stopEach p older).2.2.drainMillis
          have hbefore := (stopEach_steps p older).journal
          simp only [stopEach] at hd ⊢
          split at hd <;> rename_i ho
          · rw [ho] at hs
            exact ih (hd.split hbefore hs.journal).1
          · rename_i late plant
            have hlate : ((stopEach p older).2.2.stopPump k
                (stopEach p older).2.2.drainMillis).1 = .error late := by rw [ho]
            have hlast := (hd.split hbefore (by rw [ho] at hs; exact hs.journal)).2
            exact absurd (by rw [ho]; exact hlast) (stopPump_error hlate)

/-- Undoing every step without an error leads back to the ground. -/
theorem undoEach_restores {steps : List Undo} (hg : ground.WellFormed)
    (hl : Laid ground steps p.server.circuit) (he : (undoEach p steps).1 = []) :
    (undoEach p steps).2.server.circuit = ground := by
  induction steps generalizing p with
  | nil => exact hl.eq_of_bare
  | cons step older ih =>
      cases step with
      | pump id =>
          refine ih ?_ he
          rw [(dropPump_steps p id).circuit]
          exact hl.of_pump
      | request r =>
          obtain ⟨_, c', hl', hafter, _⟩ := hl.newest hg
          simp only [undoEach] at he ⊢
          split at he
          · rename_i k q ho
            obtain ⟨hp, hc⟩ := ask_ok ho
            exact ih (by rwa [hc, hafter _ _ hp]) he
          · cases he

/-- Nobody reads a channel above the ground. -/
theorem undoEach_clean {steps : List Undo} (hg : ground.WellFormed)
    (hl : Laid ground steps p.server.circuit) (hb : p.Balanced)
    (hr : ∀ id h, p.Reads id h → ground.Live h) : (undoEach p steps).1 = [] := by
  induction steps generalizing p with
  | nil => rfl
  | cons step older ih =>
      cases step with
      | pump id =>
          have hs := dropPump_steps p id
          refine ih ?_ (hs.balanced hb) fun k h hk => hr k h (hs.reads hk)
          rw [hs.circuit]
          exact hl.of_pump
      | request r =>
          obtain ⟨hop, c', hl', hafter, hpermit⟩ := hl.newest hg
          have ht := (takeTurn_steps p).quiet
          have hbt := ht.balanced hb
          have hret : p.takeTurn.server.Returned ground := fun h ch hdead hch =>
            hbt.outstanding_eq_nil hch fun id hid => hdead (hr id h (ht.reads hid))
          obtain ⟨k, hk⟩ := hpermit p.takeTurn.server ht.circuit hret
          have hok : (p.ask r).1 = .ok k := by
            rw [ask_eq, answer_serve]
            exact Server.perform_of_permit (Server.strike_of_spares hbt.spares hop _) hk
          have hs := ask_steps p r
          cases ho : p.ask r with
          | mk answer q =>
              rw [ho] at hok hs
              subst hok
              simp only [undoEach, ho]
              obtain ⟨hp, hc⟩ := ask_ok ho
              exact ih (by rwa [hc, hafter _ _ hp]) (hs.balanced hb) fun id h hid =>
                hr id h (hs.reads hid)

/-- Only what is among the steps is asked for. -/
theorem undoEach_asks (p : Plant) (steps : List Undo) :
    Plant.Steps (Change.Within (fun r => .request r ∈ steps) fun _ => False) p
      (undoEach p steps).2 := by
  induction steps generalizing p with
  | nil => exact .refl p
  | cons step older ih =>
      have hrest (q : Plant) : Plant.Steps
          (Change.Within (fun r => .request r ∈ step :: older) fun _ => False) q
          (undoEach q older).2 :=
        (ih q).mono fun _ => Change.Within.mono (fun _ hr => .tail _ hr) fun _ => id
      cases step with
      | pump id => exact (dropPump_steps p id).within.trans (hrest _)
      | request r =>
          have hs : Plant.Steps
              (Change.Within (fun r' => .request r' ∈ Undo.request r :: older) fun _ => False) p
              (p.ask r).2 :=
            (ask_steps p r).mono fun _ =>
              Change.Within.mono (fun _ heq => heq ▸ .head _) fun _ => id
          simp only [undoEach]
          split <;> rename_i ho <;> rw [ho] at hs <;> exact hs.trans (hrest _)

theorem undoEach_steps (p : Plant) (steps : List Undo) :
    Plant.Steps (Change.Within (fun _ => True) fun _ => False) p (undoEach p steps).2 :=
  (undoEach_asks p steps).mono fun _ => Change.Within.mono (fun _ _ => trivial) fun _ => id

theorem undoEach_errors (p : Plant) (steps : List Undo) :
    ∀ e ∈ (undoEach p steps).1, ∃ r fault, e = .capability r fault := by
  induction steps generalizing p with
  | nil => simp [undoEach]
  | cons step older ih =>
      cases step with
      | pump id => exact ih _
      | request r =>
          simp only [undoEach]
          split
          · exact ih _
          · rename_i fault q _
            intro e he
            cases List.mem_cons.mp he with
            | inl heq =>
                subst heq
                exact ⟨r, fault, rfl⟩
            | inr he => exact ih q e he

theorem unwind_steps (s : Stack) (p : Plant) :
    Plant.Steps (Change.Within (fun _ => True) fun _ => False) p (s.unwind p).2 :=
  (stopEach_steps p s.steps).within.trans (undoEach_steps _ _)

theorem unwind_asks (s : Stack) (p : Plant) :
    Plant.Steps (Change.Within (fun r => .request r ∈ s.steps) fun _ => False) p
      (s.unwind p).2 := by
  refine (stopEach_steps p s.steps).within.trans ((undoEach_asks _ _).mono fun _ => ?_)
  exact Change.Within.mono (fun r hr => (request_mem_stopEach p s.steps r).mp hr) fun _ => id

theorem unwind_errors (s : Stack) (p : Plant) : ∀ e ∈ (s.unwind p).1, e.IsFailure := by
  intro e he
  cases List.mem_append.mp he with
  | inl he =>
      obtain ⟨late, rfl⟩ := stopEach_errors p s.steps e he
      trivial
  | inr he =>
      obtain ⟨r, fault, rfl⟩ := undoEach_errors _ _ e he
      trivial

end Stack

/-- What holds of a plant at any time, as long as no failure is injected on what gives back. -/
structure Plant.Sound (p : Plant) : Prop where
  numbered : p.server.Numbered
  honest : p.Honest
  balanced : p.Balanced

namespace Plant

theorem Steps.sound {P : Change → Prop} {p q : Plant}
    (hP : ∀ pump, P (.start pump) → pump.Honest) (h : Steps P p q) (hp : p.Sound) : q.Sound :=
  ⟨h.numbered hp.numbered, h.honest hP hp.honest, h.balanced hp.balanced⟩

theorem Sound.of_same {p q : Plant} (hp : p.Sound) (hserver : q.server = p.server)
    (hpumps : q.pumps = p.pumps) : q.Sound := by
  refine ⟨hserver ▸ hp.numbered, ?_, ?_⟩
  · exact fun id pump hpump => hp.honest id pump (by rwa [pump?, hpumps] at hpump)
  · exact hp.balanced.of_server hserver fun _ _ hh => hh.of_pumps hpumps

theorem Sound.inject {p : Plant} (hp : p.Sound) {rule : FailureRule}
    (hr : rule.operation.givesBack = false) :
    Sound { p with server := p.server.inject rule } := by
  have hb := hp.balanced
  refine ⟨hp.numbered, hp.honest, fun r hm => ?_, hb.nodup, hb.held⟩
  cases List.mem_append.mp hm with
  | inl hm => exact hb.spares r hm
  | inr hm => exact List.mem_singleton.mp hm ▸ hr

end Plant

/-- The stack of the site leads from `ground` to the circuit `c`, and every running pump is on
the stack or among `below`, where it reads a channel of the ground. -/
structure Site.At (below : PumpId → Prop) (ground c : Circuit) (site : Site) : Prop where
  solid : ground.WellFormed
  laid : Laid ground site.stack.steps c
  circuit : site.plant.server.circuit = c
  sound : site.plant.Sound
  reads : ∀ id h, site.plant.Reads id h →
    .pump id ∈ site.stack.steps ∧ c.Live h ∨ below id ∧ ground.Live h

namespace Site.At

open Plant

variable {below : PumpId → Prop} {ground c : Circuit} {s : Stack} {p q : Plant}

theorem quiet (hs : At below ground c ⟨s, p⟩) (h : Plant.Steps Change.IsQuiet p q) :
    At below ground c ⟨s, q⟩ where
  solid := hs.solid
  laid := hs.laid
  circuit := h.circuit.trans hs.circuit
  sound := h.sound (fun _ => False.elim) hs.sound
  reads id k hk := hs.reads id k (h.reads hk)

theorem stopPumps (hs : At below ground c ⟨s, p⟩) :
    At below ground c ⟨(s.stopPumps p).2.1, (s.stopPumps p).2.2⟩ := by
  have hq := hs.quiet (Stack.stopEach_steps p s.steps)
  refine ⟨hs.solid, Stack.stopEach_laid hs.laid p, hq.circuit, hq.sound, fun id k hk => ?_⟩
  exact (hq.reads id k hk).imp_left fun ⟨hm, hl⟩ =>
    ⟨Stack.stopEach_running hs.sound.honest hm hk, hl⟩

/-- A stack whose pumps all drain unwinds without an error, back to the ground. -/
theorem unwind (hs : At below ground c ⟨s, p⟩) (hd : (s.unwind p).2.Drained) :
    (s.unwind p).1 = [] ∧ At below ground ground ⟨{}, (s.unwind p).2⟩ := by
  have ht := hs.stopPumps
  have hsteps := Stack.undoEach_steps (s.stopPumps p).2.2 (s.stopPumps p).2.1.steps
  obtain ⟨hlate, hgone⟩ : (s.stopPumps p).1 = [] ∧ ∀ id, Undo.pump id ∉ (s.stopPumps p).2.1.steps :=
    Stack.stopEach_drained ((Stack.stopEach_steps p s.steps).drainsTo (hsteps.drained hd))
  have hreads : ∀ id h, (s.stopPumps p).2.2.Reads id h → below id ∧ ground.Live h :=
    fun id h hid => (ht.reads id h hid).resolve_left fun hm => hgone id hm.1
  have hl : Laid ground (s.stopPumps p).2.1.steps (s.stopPumps p).2.2.server.circuit :=
    ht.circuit ▸ ht.laid
  have hclean := Stack.undoEach_clean hs.solid hl ht.sound.balanced fun id h hid =>
    (hreads id h hid).2
  refine ⟨List.append_eq_nil_iff.mpr ⟨hlate, hclean⟩, hs.solid, .bare, ?_, ?_, ?_⟩
  · exact Stack.undoEach_restores hs.solid hl hclean
  · exact hsteps.sound (fun _ => False.elim) ht.sound
  · exact fun id h hid => .inr (hreads id h (hsteps.reads hid))

theorem of_same (hs : At below ground c ⟨s, p⟩) (hserver : q.server = p.server)
    (hpumps : q.pumps = p.pumps) : At below ground c ⟨s, q⟩ :=
  ⟨hs.solid, hs.laid, hserver ▸ hs.circuit, hs.sound.of_same hserver hpumps,
    fun id h hr => hs.reads id h (hr.of_pumps hpumps)⟩

theorem inject (hs : At below ground c ⟨s, p⟩) {rule : FailureRule}
    (hr : rule.operation.givesBack = false) :
    At below ground c ⟨s, { p with server := p.server.inject rule }⟩ :=
  ⟨hs.solid, hs.laid, hs.circuit, hs.sound.inject hr, hs.reads⟩

theorem ask (hs : At below ground c ⟨s, p⟩) {r : Request} (hr : ∀ h, r.subject? = some h →
    c.after h r = c) (hsub : r.subject?.isSome) : At below ground c ⟨s, (p.ask r).2⟩ := by
  have hsteps := ask_steps p r
  refine ⟨hs.solid, hs.laid, ?_, hsteps.sound (fun _ => False.elim) hs.sound,
    fun id h hq => hs.reads id h (hsteps.reads hq)⟩
  cases ho : p.ask r with
  | mk answer q =>
      cases answer with
      | error fault => exact (ask_error ho).trans hs.circuit
      | ok k =>
          obtain ⟨h, hh⟩ := Option.isSome_iff_exists.mp hsub
          obtain ⟨hp, hc⟩ := ask_ok ho
          obtain rfl := Server.eq_of_permit hp hh
          exact hc.trans (hs.circuit ▸ hr k hh)

end Site.At
end CameraPipeline
