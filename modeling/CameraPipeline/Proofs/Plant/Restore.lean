import Mathlib.Data.List.Forall2
import CameraPipeline.Proofs.Plant.Inverse
import CameraPipeline.Proofs.Server.Attributes

/-!
Unwinding leads back. On a server that nobody else calls, every step of a construction is undone by
one call, newest first, and the server has the same channels and links as before; unless a channel
was created on which an overlay lay already, which cannot be destroyed.
-/

namespace CameraPipeline

open Server

/-- The second call takes back what the first one did. -/
inductive Call.Inverse : Call → Call → Prop
  | destroy (h : Handle) : Inverse (.create h) (.destroy h)
  | disable (h : Handle) : Inverse (.enable h) (.disable h)
  | unbind (l : Link) : Inverse (.bind l) (.unbind l)
  | stopReceiving (h : Handle) (quota : Quota) :
      Inverse (.startReceiving h quota) (.stopReceiving h)

theorem Request.HasInverse.call {r : Request} {inverse : Handle → Request} {s t : Server}
    {h k : Handle} (pair : r.HasInverse inverse) (hp : s.permit r = .ok h)
    (hk : t.permit (inverse h) = .ok k) : (r.call h).Inverse ((inverse h).call k) := by
  cases pair with
  | create kind attr =>
      obtain rfl := eq_of_permit hk rfl
      exact .destroy k
  | enable h' =>
      obtain rfl := eq_of_permit hk rfl
      exact .disable k
  | bind l => exact .unbind l
  | receive h' quota =>
      obtain rfl := eq_of_permit hk rfl
      exact .stopReceiving k quota

namespace Request.HasInverse

variable {r : Request} {inverse : Handle → Request} {s : Server} {h k : Handle}

theorem ne_destroy (pair : r.HasInverse inverse) (h : Handle) : r ≠ .destroy h := by
  cases pair <;> nofun

theorem keeps (pair : r.HasInverse inverse) (h : Handle) : r.Keeps h := by
  cases pair <;> trivial

theorem eq_of_destroy (pair : r.HasInverse inverse) (hinverse : inverse h = .destroy k) :
    h = k ∧ ∃ kind attr, r = .create kind attr := by
  cases pair with
  | create kind attr => exact ⟨Request.destroy.inj hinverse, kind, attr, rfl⟩
  | enable | bind | receive => cases hinverse

/-- A new overlay lies on a channel that is there. -/
theorem overlaid_after (pair : r.HasInverse inverse) (hp : s.permit r = .ok h)
    (hover : (s.circuit.after h r).Overlaid k) : s.circuit.Overlaid k ∨ s.circuit.Live k := by
  obtain ⟨j, n, hj, hn⟩ := hover
  cases pair with
  | create kind attr =>
      rw [Circuit.after, Circuit.node?_set] at hj
      split at hj
      · cases hj
        exact .inr ((permit_create hp).2 k hn)
      · exact .inl ⟨j, n, hj, hn⟩
  | enable | receive =>
      rw [Circuit.after, Circuit.modify, Circuit.node?_set] at hj
      split at hj
      · obtain ⟨m, hm, rfl⟩ := Option.map_eq_some_iff.mp hj
        exact .inl ⟨_, m, hm, hn⟩
      · exact .inl ⟨j, n, hj, hn⟩
  | bind l => exact .inl ⟨j, n, hj, hn⟩

end Request.HasInverse

/-- From a server that agrees with `s` the steps, newest first, undo the calls and lead back to the
ground. -/
inductive Undoes (ground : Server) : List Undo → List Call → Server → Prop
  | bare {s : Server} (hs : s.Agrees ground) : Undoes ground [] [] s
  | newest {r : Request} {call : Call} {steps : List Undo} {calls : List Call} {s : Server}
      (permitted : ∀ t : Server, t.Agrees s →
        ∃ k, t.permit r = .ok k ∧ call.Inverse (r.call k))
      (older : ∀ (t : Server) k, t.Agrees s → t.permit r = .ok k →
        Undoes ground steps calls (t.carryOut k r)) :
      Undoes ground (.request r :: steps) (call :: calls) s

theorem Undoes.of_agrees {ground s t : Server} {steps : List Undo} {calls : List Call}
    (h : Undoes ground steps calls s) (ht : t.Agrees s) : Undoes ground steps calls t := by
  cases h with
  | bare hs => exact .bare (ht.trans hs)
  | newest permitted older =>
      exact .newest (fun u hu => permitted u (hu.trans ht))
        fun u k hu hk => older u k (hu.trans ht) hk

namespace Plant

theorem ask_of_still {p : Plant} (hturns : p.turns = []) (r : Request) :
    (p.ask r).1 = (p.server.perform r).1 ∧ (p.ask r).2.server = (p.server.perform r).2 ∧
      (p.ask r).2.turns = [] := by
  have hstill : p.takeTurn = p := by rw [takeTurn, hturns]
  simp only [ask, hstill]
  split <;> simp [*, note]

end Plant

namespace Stack

theorem stopEach_of_requests {steps : List Undo} (h : ∀ u ∈ steps, ∃ r, u = .request r)
    (p : Plant) : stopEach p steps = ([], steps, p) := by
  induction steps generalizing p with
  | nil => rfl
  | cons u steps ih =>
      obtain ⟨r, rfl⟩ := h u (.head _)
      simp only [stopEach, ih fun u hu => h u (.tail _ hu)]

theorem unwind_of_requests {s : Stack} (h : ∀ u ∈ s.steps, ∃ r, u = .request r) (p : Plant) :
    s.unwind p = undoEach p s.steps := by
  simp only [unwind, stopPumps, stopEach_of_requests h]
  rfl

theorem eq_nil_of_firstError {errors : List PipelineError} (h : firstError errors = .ok ()) :
    errors = [] := by
  cases errors with
  | nil => rfl
  | cons e errors => cases h

/-- Steps that lead back are undone one by one, unless a failure is injected. -/
theorem undoEach_undoes {ground s : Server} {steps : List Undo} {calls : List Call}
    (h : Undoes ground steps calls s) {p : Plant} (hturns : p.turns = [])
    (hp : p.server.Agrees s)
    (hinject : ∀ r, .capability r .injected ∉ (undoEach p steps).1) :
    (undoEach p steps).1 = [] ∧ (undoEach p steps).2.server.Agrees ground ∧
      ∃ undone, (undoEach p steps).2.server.log = p.server.log ++ undone ∧
        List.Forall₂ Call.Inverse calls undone := by
  induction h generalizing p with
  | bare hs => exact ⟨rfl, hp.trans hs, [], by simp [undoEach], .nil⟩
  | @newest r call steps calls s permitted older ih =>
      obtain ⟨k, hk, hcall⟩ := permitted p.server hp
      obtain ⟨hanswer, hserver, hturns'⟩ := Plant.ask_of_still hturns r
      cases ho : p.ask r with
      | mk answer q =>
          rw [ho] at hanswer hserver hturns'
          obtain hhit | ⟨hok, hagrees, hlog⟩ := perform_permitted hk
          · rw [hhit] at hanswer
            cases hanswer
            refine absurd ?_ (hinject r)
            simp only [undoEach, ho]
            exact .head _
          · rw [hok] at hanswer
            cases hanswer
            rw [← hserver] at hagrees hlog
            simp only [undoEach, ho] at hinject ⊢
            obtain ⟨herrors, hserver', undone, hlog', hundone⟩ :=
              ih p.server k hp hk hturns' hagrees hinject
            refine ⟨herrors, hserver', r.call k :: undone, ?_, .cons hcall hundone⟩
            rw [hlog', hlog, List.append_assoc]
            rfl

/-- A channel on which a live one lies is not destroyed. -/
theorem undoEach_overlaid {h k : Handle} {v : ChannelAttr} (hover : v.overlaid? = some h)
    {steps : List Undo}
    (hsteps : ∀ u ∈ steps, ∃ r : Request, u = .request r ∧ r.operation.givesBack)
    (hk : .request (.destroy k) ∉ steps) (hh : .request (.destroy h) ∈ steps) {p : Plant}
    (hturns : p.turns = []) (hn : p.server.Numbered) (hv : p.server.attrOf k = some v) :
    (undoEach p steps).1 ≠ [] := by
  induction steps generalizing p with
  | nil => cases hh
  | cons u steps ih =>
      obtain ⟨r, rfl, hr⟩ := hsteps u (.head _)
      obtain ⟨hanswer, hserver, hturns'⟩ := Plant.ask_of_still hturns r
      simp only [undoEach]
      split
      · rename_i h' q ho
        rw [ho] at hanswer hserver hturns'
        have hp : p.server.permit r = .ok h' :=
          (circuit_of_perform_ok (t := q.server) (Prod.ext hanswer.symm hserver.symm)).1
        rw [List.mem_cons, not_or] at hk
        refine ih (fun u hu => hsteps u (.tail _ hu)) hk.2 ?_ hturns' ?_ ?_
        · refine (List.mem_cons.mp hh).resolve_left fun heq => ?_
          cases heq
          exact not_overlaid_of_destroy hp (overlaid_of_attrOf hv hover)
        · rw [hserver]
          exact hn.perform r
        · rw [hserver]
          refine hn.attrOf_perform (Request.keeps_of_givesBack hr fun heq => ?_) hv
          exact hk.1 (heq ▸ rfl)
      · exact List.cons_ne_nil _ _

end Stack

/-- What stands when the calls, newest first, were made on the plant to build the site. -/
structure Standing (p : Plant) (calls : List Call) (site : Site) : Prop where
  turns : site.plant.turns = []
  consistent : site.plant.server.Consistent
  log : site.plant.server.log = p.server.log ++ calls.reverse
  steps : ∀ u ∈ site.stack.steps, ∃ r : Request, u = .request r ∧ r.operation.givesBack
  /-- Channels that were there keep their attributes and are not to be destroyed. -/
  kept : ∀ h v, p.server.attrOf h = some v →
    site.plant.server.attrOf h = some v ∧ .request (.destroy h) ∉ site.stack.steps
  overlaid : ∀ h, site.plant.server.circuit.Overlaid h →
    p.server.circuit.Overlaid h ∨ site.plant.server.circuit.Live h
  undoes : (∀ h, .request (.destroy h) ∈ site.stack.steps → ¬p.server.circuit.Overlaid h) →
    Undoes p.server site.stack.steps calls site.plant.server

namespace Standing

variable {p : Plant} {calls : List Call} {site : Site} {r : Request}
  {inverse : Handle → Request}

theorem start (hs : p.server.Consistent) (hturns : p.turns = []) :
    Standing p [] { plant := p } where
  turns := hturns
  consistent := hs
  log := (List.append_nil _).symm
  steps _ hu := nomatch hu
  kept _ _ hv := ⟨hv, List.not_mem_nil⟩
  overlaid _ := .inl
  undoes _ := .bare (.refl _)

theorem refused {q : Plant} {fault : Fault} (hs : Standing p calls site)
    (ho : site.plant.ask r = (.error fault, q)) : Standing p calls ⟨site.stack, q⟩ := by
  obtain ⟨hanswer, hserver, hturns⟩ := Plant.ask_of_still hs.turns r
  rw [ho] at hanswer hserver hturns
  obtain ⟨hagrees, hlog⟩ := perform_refused (Prod.ext hanswer.symm hserver.symm)
  have hcircuit : q.server.circuit = site.plant.server.circuit := hagrees.circuit
  exact {
    turns := hturns
    consistent := by rw [hserver]; exact hs.consistent.perform r
    log := hlog.trans hs.log
    steps := hs.steps
    kept h v hv := by
      obtain ⟨hattr, hsteps⟩ := hs.kept h v hv
      have hsame := attrOf_of_perform_error (Prod.ext hanswer.symm hserver.symm) h
      exact ⟨hsame.trans hattr, hsteps⟩
    overlaid h := by rw [hcircuit]; exact hs.overlaid h
    undoes hover := (hs.undoes hover).of_agrees hagrees }

theorem asked {q : Plant} {h : Handle} (hs : Standing p calls site) (pair : r.HasInverse inverse)
    (hproper : site.plant.server.Proper r) (ho : site.plant.ask r = (.ok h, q)) :
    Standing p (r.call h :: calls) ⟨site.stack.push (.request (inverse h)), q⟩ := by
  obtain ⟨hanswer, hserver, hturns⟩ := Plant.ask_of_still hs.turns r
  rw [ho] at hanswer hserver hturns
  have hn := hs.consistent.numbered
  obtain ⟨hp, hagrees, hlog⟩ := of_perform_ok (Prod.ext hanswer.symm hserver.symm)
  have hcircuit := hagrees.circuit_after
  have hnew {k : Handle} (hinverse : inverse h = .destroy k) :
      ¬site.plant.server.circuit.Live k := by
    obtain ⟨rfl, kind, attr, rfl⟩ := pair.eq_of_destroy hinverse
    obtain ⟨rfl, -⟩ := permit_create hp
    exact Circuit.not_live_iff.mpr (hn.fresh kind)
  have hfree {k : Handle} (hinverse : inverse h = .destroy k)
      (hover : ¬p.server.circuit.Overlaid k) : ¬site.plant.server.circuit.Overlaid k := fun hk =>
    (hs.overlaid k hk).elim hover (hnew hinverse)
  exact {
    turns := hturns
    consistent := by
      rw [hserver]
      exact hs.consistent.perform r
    log := by rw [hlog, hs.log, List.reverse_cons, List.append_assoc]
    steps := List.forall_mem_cons.mpr ⟨⟨_, rfl, pair.givesBack h⟩, hs.steps⟩
    kept k v hv := by
      obtain ⟨hattr, hsteps⟩ := hs.kept k v hv
      refine ⟨?_, fun hm => ?_⟩
      · rw [hserver]
        exact hn.attrOf_perform (pair.keeps k) hattr
      · obtain heq | hm := List.mem_cons.mp hm
        · exact hnew (Undo.request.inj heq).symm (live_of_attrOf hattr)
        · exact hsteps hm
    overlaid k hover := by
      rw [hcircuit] at hover ⊢
      obtain hover | hlive := pair.overlaid_after hp hover
      · exact (hs.overlaid k hover).imp_right fun hlive => hlive.after pair.ne_destroy
      · exact .inr (hlive.after pair.ne_destroy)
    undoes hover := by
      have hbase := hs.undoes fun k hk => hover k (.tail _ hk)
      have hback {t : Server} (ht : t.Agrees q.server) :=
        undo hs.consistent pair hproper hp (ht.trans hagrees) fun k hinverse =>
          hfree hinverse (hover k (hinverse ▸ .head _))
      refine .newest (fun t ht => ?_) fun t k ht hk => ?_
      · obtain ⟨k, hk, -⟩ := hback ht
        exact ⟨k, hk, pair.call hp hk⟩
      · obtain ⟨k', hk', hagrees'⟩ := hback ht
        cases hk.symm.trans hk'
        exact hbase.of_agrees hagrees' }

theorem ask (hs : Standing p calls site) (pair : r.HasInverse inverse)
    (hproper : site.plant.server.Proper r) :
    ∃ calls', Standing p calls' (Construction.reached (Construction.ask r inverse site)) := by
  simp only [Construction.ask]
  split
  · exact ⟨_, hs.asked pair hproper ‹_›⟩
  · exact ⟨_, hs.refused ‹_›⟩

end Standing

/-- The steps of a construction, pumps apart. -/
inductive BuildStep where
  | create (kind : ChannelKind) (attr : ChannelAttr)
  | enable (h : Handle)
  | createEnabled (kind : ChannelKind) (attr : ChannelAttr)
  | bind (source target : Handle)
  | startReceiving (h : Handle) (quota : Quota)

namespace BuildStep

def run : BuildStep → Construction Unit
  | create kind attr => do let _ ← Construction.create kind attr
  | enable h => Construction.enable h
  | createEnabled kind attr => do let _ ← Construction.createEnabled kind attr
  | bind source target => Construction.bind source target
  | startReceiving h quota => Construction.startReceiving h quota

/-- Takes the steps in turn, up to the first that fails. -/
def runAll : List BuildStep → Construction Unit
  | [] => return ()
  | step :: steps => do
    step.run
    runAll steps

def Proper (s : Server) : BuildStep → Prop
  | enable h => s.Proper (.enable h)
  | startReceiving h quota => s.Proper (.startReceiving h quota)
  | _ => True

/-- Every step is proper when its turn comes. -/
def ProperFrom (site : Site) : List BuildStep → Prop
  | [] => True
  | step :: steps => step.Proper site.plant.server ∧
      ∀ site', step.run site = .ok () site' → ProperFrom site' steps

variable {p : Plant} {calls : List Call} {site : Site}

theorem reached_bind {α β : Type} (m : Construction α) (f : α → Construction β) (site : Site) :
    Construction.reached ((m >>= f) site) = match m site with
      | .ok a site' => Construction.reached (f a site')
      | .error _ site' => site' := by
  simp only [Bind.bind, EStateM.bind]
  cases m site <;> rfl

/-- What is made of an answer does not matter. -/
theorem reached_return {α β : Type} (m : Construction α) (b : β) (site : Site) :
    Construction.reached ((do let _ ← m; return b : Construction β) site) =
      Construction.reached (m site) := by
  rw [reached_bind]
  cases m site <;> rfl

/-- A channel that was just created is not enabled. -/
theorem standing_createEnabled (hs : Standing p calls site) (kind : ChannelKind)
    (attr : ChannelAttr) : ∃ calls', Standing p calls'
      (Construction.reached (Construction.createEnabled kind attr site)) := by
  rw [Construction.createEnabled, reached_bind]
  cases ho : site.plant.ask (.create kind attr) with
  | mk answer q =>
      cases answer with
      | error fault =>
          simp only [Construction.create, Construction.ask, ho]
          exact ⟨_, hs.refused ho⟩
      | ok h =>
          have hproper : q.server.Proper (.enable h) := fun c hc => by
            obtain ⟨hanswer, hserver, -⟩ := Plant.ask_of_still hs.turns (.create kind attr)
            rw [ho] at hanswer hserver
            obtain ⟨-, hagrees, -⟩ := of_perform_ok (Prod.ext hanswer.symm hserver.symm)
            obtain ⟨d, hd, heq⟩ := hagrees.symm.channel hc
            rw [carryOut, Table.get?_insert_self] at hd
            cases hd
            exact (congrArg Channel.enabled heq).symm
          have h' := (hs.asked (.create kind attr) trivial ho).ask (.enable h) hproper
          simp only [Construction.create, Construction.ask, ho]
          rwa [reached_return, Construction.enable, reached_return]

theorem standing_run (hs : Standing p calls site) {step : BuildStep}
    (hproper : step.Proper site.plant.server) :
    ∃ calls', Standing p calls' (Construction.reached (step.run site)) := by
  cases step with
  | create kind attr =>
      rw [run, reached_return]
      exact hs.ask (.create kind attr) trivial
  | enable h =>
      rw [run, Construction.enable, reached_return]
      exact hs.ask (.enable h) hproper
  | createEnabled kind attr =>
      rw [run, reached_return]
      exact standing_createEnabled hs kind attr
  | bind source target =>
      rw [run, Construction.bind, reached_return]
      exact hs.ask (.bind ⟨source, target⟩) trivial
  | startReceiving h quota =>
      rw [run, Construction.startReceiving, reached_return]
      exact hs.ask (.receive h quota) hproper

theorem standing_runAll (hs : Standing p calls site) {steps : List BuildStep}
    (hproper : ProperFrom site steps) :
    ∃ calls', Standing p calls' (Construction.reached (runAll steps site)) := by
  induction steps generalizing calls site with
  | nil => exact ⟨calls, hs⟩
  | cons step steps ih =>
      obtain ⟨hstep, hrest⟩ := hproper
      obtain ⟨calls', hs'⟩ := standing_run hs hstep
      rw [runAll, reached_bind]
      split
      · rename_i ho
        rw [ho] at hs'
        exact ih hs' (hrest _ ho)
      · rename_i ho
        rw [ho] at hs'
        exact ⟨calls', hs'⟩

end BuildStep

/-- Unwinding succeeds just if no channel was created on which an overlay lay before. Then the
server has the channels and links that it had before the construction, and every call that the
construction made is undone by one, in the reverse order. The handles have 32-bit numbers as long
as no more channels of a kind are created. -/
theorem unwind_restores {p : Plant} {steps : List BuildStep} {site : Site}
    (hs : p.server.Reachable) (hturns : p.turns = [])
    (hproper : BuildStep.ProperFrom { plant := p } steps)
    (hsite : Construction.reached (BuildStep.runAll steps { plant := p }) = site)
    (hinject : ∀ r, .capability r .injected ∉ (site.stack.unwind site.plant).1) :
    (firstError (site.stack.unwind site.plant).1 = .ok () ↔
      ∀ h, .request (.destroy h) ∈ site.stack.steps → ¬p.server.hasOverlay h) ∧
    (firstError (site.stack.unwind site.plant).1 = .ok () →
      (site.stack.unwind site.plant).2.server.Agrees p.server ∧
      ∃ done undone, site.plant.server.log = p.server.log ++ done ∧
        (site.stack.unwind site.plant).2.server.log = site.plant.server.log ++ undone ∧
        List.Forall₂ Call.Inverse done.reverse undone) ∧
    (site.plant.server.FewCreated → ∀ h ∈ site.plant.server.live, h.id < UInt32.size) := by
  obtain ⟨calls, hstanding⟩ := BuildStep.standing_runAll (.start hs.consistent hturns) hproper
  rw [hsite] at hstanding
  have hunwind := Stack.unwind_of_requests
    (fun u hu => (hstanding.steps u hu).imp fun _ => And.left) site.plant
  rw [hunwind] at hinject ⊢
  have hback (hover : ∀ h, .request (.destroy h) ∈ site.stack.steps → ¬p.server.hasOverlay h) :=
    Stack.undoEach_undoes (hstanding.undoes fun h hm hv => hover h hm (hasOverlay_iff.mpr hv))
      hstanding.turns (.refl _) hinject
  have hblocked (hok : firstError (Stack.undoEach site.plant site.stack.steps).1 = .ok ())
      (h : Handle) (hm : .request (.destroy h) ∈ site.stack.steps) : ¬p.server.hasOverlay h := by
    intro hv
    obtain ⟨k, n, hk, hover⟩ := hasOverlay_iff.mp hv
    obtain ⟨c, hc, rfl⟩ := Option.map_eq_some_iff.mp hk
    obtain ⟨hattr, hkept⟩ := hstanding.kept k c.attr (by simp only [attrOf, hc]; rfl)
    refine Stack.undoEach_overlaid hover hstanding.steps hkept hm hstanding.turns
      hstanding.consistent.numbered hattr ?_
    exact Stack.eq_nil_of_firstError hok
  refine ⟨⟨hblocked, fun hover => by rw [(hback hover).1]; rfl⟩, fun hok => ?_, fun hfew h hm => ?_⟩
  · obtain ⟨-, hagrees, undone, hlog, hundone⟩ := hback (hblocked hok)
    exact ⟨hagrees, calls.reverse, undone, hstanding.log, hlog, by rwa [List.reverse_reverse]⟩
  · exact hstanding.consistent.numbered.id_lt hfew (mem_live_iff.mp hm)

/-- A plant on which a camera is enabled. -/
def Plant.withCamera : Plant where
  server :=
    let camera := .vi ⟨⟨1280, 720⟩, 30, .nv12, 4, false⟩
    ((({ payloadSize := 256 } : Server).perform (.create .vi camera)).2.perform
      (.enable ⟨.vi, 0⟩)).2
  drainMillis := 1000

/-- An encoder with an overlay is put behind the camera. The last step fails. -/
def BuildStep.encoding : List BuildStep :=
  [.createEnabled .venc (.venc ⟨⟨1280, 720⟩, .h264, 4000, 60, 30, 30, 4, false⟩),
    .bind ⟨.vi, 0⟩ ⟨.venc, 0⟩, .startReceiving ⟨.venc, 0⟩ .unlimited,
    .create .rgn (.rgn ⟨⟨.venc, 0⟩, ⟨64, 64⟩⟩), .bind ⟨.vi, 0⟩ ⟨.venc, 0⟩]

theorem unwind_restores_encoding :
    let site :=
      Construction.reached (BuildStep.runAll BuildStep.encoding { plant := .withCamera })
    firstError (site.stack.unwind site.plant).1 = .ok () ∧
      (site.stack.unwind site.plant).2.server.Agrees Plant.withCamera.server := by
  intro site
  have herrors : (site.stack.unwind site.plant).1 = [] := by decide +kernel
  have hproper : BuildStep.ProperFrom { plant := .withCamera } BuildStep.encoding := by
    refine ⟨trivial, fun _ h => ?_⟩
    cases h
    refine ⟨trivial, fun _ h => ?_⟩
    cases h
    refine ⟨fun c hc => ?_, fun _ h => ?_⟩
    · cases hc
      rfl
    · cases h
      refine ⟨trivial, fun _ h => ?_⟩
      cases h
      exact ⟨trivial, fun _ _ => trivial⟩
  have hsite : Construction.reached (BuildStep.runAll _ _) = site := rfl
  obtain ⟨-, hback, -⟩ := unwind_restores (.perform (.perform (.fresh 256) _) _) rfl hproper hsite
    fun r h => by
      rw [herrors] at h
      cases h
  rw [herrors] at hback ⊢
  exact ⟨rfl, (hback rfl).1⟩

/-- An overlay can be moved to a channel that is not there. Once that is created it cannot be
destroyed. -/
theorem not_restored_of_overlaid :
    let overlay (h : Handle) : ChannelAttr := .rgn ⟨h, ⟨64, 64⟩⟩
    let s := ((Plant.withCamera.server.perform (.create .rgn (overlay ⟨.vi, 0⟩))).2.perform
      (.setAttr ⟨.rgn, 0⟩ (overlay ⟨.venc, 0⟩))).2
    let site := Construction.reached (BuildStep.runAll BuildStep.encoding
      { plant := { server := s, drainMillis := 1000 } })
    s.Reachable ∧ s.live = [⟨.vi, 0⟩, ⟨.rgn, 0⟩] ∧
      (site.stack.unwind site.plant).1 = [.capability (.destroy ⟨.venc, 0⟩) (.busy ⟨.venc, 0⟩)] ∧
      (site.stack.unwind site.plant).2.server.live = [⟨.vi, 0⟩, ⟨.venc, 0⟩, ⟨.rgn, 0⟩] :=
  ⟨.perform (.perform (.perform (.perform (.fresh 256) _) _) _) _, by decide +kernel⟩

end CameraPipeline
