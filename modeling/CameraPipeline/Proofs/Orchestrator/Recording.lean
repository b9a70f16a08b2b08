import CameraPipeline.Proofs.Orchestrator.Exclusion
import CameraPipeline.Proofs.Orchestrator.TeardownOrder
import CameraPipeline.Proofs.Plant.LateStop

/-!
Recordings that stand. The stack of a recording holds one pump, until that pump has been joined, and
apart from it only requests that take something away; none of them destroys a channel that pumps
read. This is so at any time of any run.
-/

namespace CameraPipeline

open Plant

theorem Request.closes_of_withdrawn {r : Request} (hr : r.withdrawn?.isSome)
    (hd : ∀ h, r = .destroy h → h.kind.isPumped = false) : r.Closes := by
  cases r with
  | disable | unbind | stopReceiving => trivial
  | destroy h => exact hd h rfl
  | create | setAttr | enable | bind | startReceiving | release | submit => cases hr

namespace Construction

variable {α β : Type} {m : Construction α}

/-- Where the steps succeed, the pumps on the stack are those that were there before. -/
def Pumpless (m : Construction α) : Prop :=
  ∀ ⦃site site' : Site⦄ ⦃a : α⦄, m site = .ok a site' → site'.stack.pumps = site.stack.pumps

namespace Pumpless

theorem pure (a : α) : Pumpless (Pure.pure a) := by
  intro _ _ _ ho
  cases ho
  rfl

theorem bind {f : α → Construction β} (hm : Pumpless m) (hf : ∀ a, Pumpless (f a)) :
    Pumpless (m >>= f) := by
  intro _ _ _ ho
  obtain ⟨a, _, hfirst, hrest⟩ := bind_eq_ok ho
  exact (hf a hrest).trans (hm hfirst)

theorem optional {part : Option β} {steps : β → Construction α} (h : ∀ b, Pumpless (steps b)) :
    Pumpless (Build.optional part steps) := by
  cases part with
  | none => exact pure none
  | some b => exact (h b).bind fun a => pure (some a)

end Pumpless

theorem pumpless_ask (r : Request) (inverse : Handle → Request) : Pumpless (ask r inverse) := by
  intro _ _ _ ho
  rw [(ask_eq_ok ho).2]
  exact Stack.pumps_cons_request _ _

theorem pumpless_done (r : Request) (inverse : Handle → Request) :
    Pumpless (do let _ ← ask r inverse : Construction Unit) :=
  (pumpless_ask r inverse).bind fun _ => .pure ()

theorem pumpless_createEnabled (kind : ChannelKind) (attr : ChannelAttr) :
    Pumpless (createEnabled kind attr) :=
  (pumpless_ask _ _).bind fun h => (pumpless_done _ _).bind fun _ => .pure h

theorem pumpless_linkRecord (vi venc : Handle) (gdc : Option Handle) :
    Pumpless (Build.linkRecord vi venc gdc) := by
  cases gdc with
  | none => exact pumpless_done _ _
  | some gdc => exact (pumpless_done _ _).bind fun _ => pumpless_done _ _

/-- A recording starts one pump. -/
theorem pumps_record {make : PumpMaker} {attr : PipelineAttr} {vi venc : Handle}
    {site site' : Site} {pump : PumpId}
    (ho : Build.record make attr vi venc site = .ok pump site') :
    site'.stack.pumps = site.stack.pumps ++ [pump] := by
  obtain ⟨_, site₁, hreceive, ho⟩ := bind_eq_ok ho
  obtain ⟨id, site₂, hstart, ho⟩ := bind_eq_ok ho
  have hrest : Pumpless (do
      let gdc ← Build.optional attr.gdc fun a => createEnabled .gdc (.gdc a)
      let _ ← Build.optional attr.osd fun geometry => create .rgn (.rgn ⟨venc, geometry⟩)
      Build.linkRecord vi venc gdc
      return id) :=
    (Pumpless.optional fun _ => pumpless_createEnabled _ _).bind fun gdc =>
      (Pumpless.optional fun _ => pumpless_ask _ _).bind fun _ =>
        (pumpless_linkRecord vi venc gdc).bind fun _ => .pure id
  have hreceived : site₁.stack.pumps = site.stack.pumps := pumpless_done _ _ hreceive
  have hstarted : site₂.stack.pumps = site₁.stack.pumps ++ [id] := by
    cases hstart
    exact Stack.pumps_cons_pump _ _
  have hid : pump = id := by
    obtain ⟨_, _, _, ho⟩ := bind_eq_ok ho
    obtain ⟨_, _, _, ho⟩ := bind_eq_ok ho
    obtain ⟨_, _, _, ho⟩ := bind_eq_ok ho
    cases ho
    rfl
  rw [hrest ho, hstarted, hreceived, hid]

end Construction

namespace Stack.Holds

variable {s : Stack} {id : PumpId} {p q : Plant}

theorem of_isOut (hs : s.Holds id p) (h : q.isOut id = p.isOut id) : s.Holds id q :=
  hs.trans (List.filter_congr fun _ hk => List.mem_singleton.mp hk ▸ h.symm)

/-- A pump that is joined leaves the stack. -/
theorem stopped (hs : s.Holds id p) : (s.stopPumps p).2.1.Holds id (s.stopPumps p).2.2 := by
  have hpumps : s.pumps = [id].filter p.isOut := hs
  rw [hs.stopPumps, Holds, pumps_filter, hpumps]
  cases ho : p.isOut id with
  | true => simp [ho]
  | false => simp [ho, stopPump_of_not_isOut ho]

end Stack.Holds

namespace Plant

variable {p q : Plant} {make : PumpMaker} {attr : PipelineAttr}

/-- A recording that has just been opened holds its pump. -/
theorem openRecord_holds (hmake : ∀ stream h limit, (make stream h limit).IsNew)
    (hh : p.Honest) (hl : p.Logged) {vi venc : Handle} {s : RecordSession}
    (ho : p.openRecord make attr vi venc = (.ok s, q)) : s.stack.Holds s.pump q := by
  have hok := Construction.construct_ok (construct_of_openRecord ho)
  have hpumps : s.stack.pumps = [s.pump] := Construction.pumps_record hok
  have hmanned := (Build.climbs_record make attr vi venc).manned p
  rw [hok] at hmanned
  obtain ⟨hid, hstopped⟩ :=
    hmanned.unstopped_stack hl s.pump (Stack.mem_pumps.mp (hpumps ▸ .head _))
  have hmeets := p.openRecord_meets make Pump.IsNew attr vi venc (hmake _ _ _)
  rw [ho] at hmeets
  have hlogged := (hmeets.logged (fun _ hp => hp) hh hl).2
  have hpump : q.pump? s.pump = some q.pumps[s.pump] := List.getElem?_eq_getElem hid
  have hjoined : ¬q.pumps[s.pump].worker.joined := fun hj =>
    hstopped (hlogged.joined _ _ hpump hj)
  have hout : q.isOut s.pump = true := by simpa [isOut, worker?, hpump] using hjoined
  rw [Stack.Holds, hpumps, List.filter_cons, hout]
  rfl

theorem build_holds (hmake : ∀ stream h limit, (make stream h limit).IsNew) (hh : p.Honest)
    (hl : p.Logged) {b : Built} (ho : p.build make attr = (.ok b, q)) :
    ∀ s, b.record = some s → s.stack.Holds s.pump q := by
  have hmeets : Construction.Meets Pump.IsNew (Build.base make attr) Build.Kinds :=
    Build.meets_base (fun h _ => hmake .sub h none) (fun h _ => hmake .rawTap h none) attr
  have hbase := hmeets.construct p
  simp only [build] at ho
  split at ho
  · cases ho
  · rename_i hcons
    rw [hcons] at hbase
    obtain ⟨hh', hl'⟩ := hbase.1.logged (fun _ hp => hp) hh hl
    split at ho
    · split at ho <;> cases ho
      intro _ heq
      cases heq
      exact openRecord_holds hmake hh' hl' ‹_›
    · cases ho
      exact fun _ heq => by cases heq

end Plant

namespace Orchestrator

variable {shooting : Prop} {o o' : Orchestrator} {b : Built} {s : RecordSession}

/-- The recording, if one stands, holds its pump. -/
def Held (o : Orchestrator) : Prop :=
  ∀ b s, o.built = some b → b.record = some s → s.stack.Holds s.pump o.plant

theorem Held.of_idle (hb : ∀ b, o.built = some b → b.record = none) : o.Held := by
  intro b s up session
  rw [hb b up] at session
  cases session

theorem Held.quiet (hh : o.Held) (hb : o'.built = o.built)
    (hq : Spares (fun _ => False) o.plant o'.plant) : o'.Held :=
  fun b s up session => (hh b s (hb ▸ up) session).of_isOut (hq.isOut not_false)

theorem Transition.held (h : Transition shooting o o') (hm : o.Manned) (hh : o.Held) :
    o'.Held := by
  cases h with
  | settings => exact hh
  | build down h =>
      intro _ _ up session
      cases up
      exact build_holds o.isNew_makePump hm.honest hm.logged h _ session
  | buildFails down => exact .of_idle fun _ up => by cases down.symm.trans up
  | tearDown => exact .of_idle fun _ up => by cases up
  | setInput => exact hh.quiet rfl (ask_spares _ _)
  | noteInput up =>
      intro _ s heq session
      cases heq
      exact hh _ s up session
  | openRecord up idle free encoder h =>
      intro _ _ heq session
      cases heq
      cases session
      exact openRecord_holds o.isNew_makePump hm.honest hm.logged h
  | openRecordFails up idle | openPhotoFails allowed up idle =>
      exact .of_idle fun _ heq => by cases up.symm.trans heq; exact idle
  | stopRecord up session =>
      intro _ _ heq session'
      cases heq
      cases session'
      exact (hh _ _ up session).stopped
  | closeRecord => exact .of_idle fun _ heq => by cases heq; rfl
  | waitPhoto up session =>
      have hidle := ((hm.built _ up).photo _ session).1
      exact .of_idle fun _ heq => by cases up.symm.trans heq; exact hidle
  | closePhoto up session =>
      have hidle := ((hm.built _ up).photo _ session).1
      exact .of_idle fun _ heq => by cases heq; exact hidle
  | openPhoto allowed up idle => exact .of_idle fun _ heq => by cases heq; exact idle

theorem Transitions.held (h : Transitions shooting o o') (hk : o.Kinded) (hm : o.Manned)
    (hh : o.Held) : o'.Held := by
  induction h with
  | refl => exact hh
  | tail h ht ih => exact ht.held (Transitions.manned h hk hm) ih

theorem sourced_of_made {pump : Pump} (h : Made o.makePump shooting pump) :
    pump.source.kind.isPumped = true := by
  have hsource := (fairMaker_makePump o).source
  cases h with
  | encoder stream h kind | tap h kind | photo h max allowed kind => rw [hsource, kind]; rfl

/-- What is known of an orchestrator at any time of a run. -/
structure Steady (o : Orchestrator) : Prop where
  kinded : o.Kinded
  manned : o.Manned
  numbered : o.plant.server.Numbered
  exclusive : o.Exclusive
  sourced : o.plant.Sourced
  held : o.Held

theorem Fresh.steady (hf : o.Fresh) : o.Steady where
  kinded := hf.kinded
  manned := hf.manned
  numbered := hf.numbered
  exclusive := .of_down hf.built
  sourced id pump hp := by simp [Plant.pump?, hf.pumps] at hp
  held := .of_idle fun _ up => by cases hf.built.symm.trans up

theorem meet_sourced (e : Event) (hk : o.Kinded) (hs : o.plant.Sourced) :
    (o.meet e).plant.Sourced := by
  cases e with
  | command c =>
      exact ((handle_transitions o c).staffed hk).2.sourced (fun _ => sourced_of_made) hs
  | write | inject | turns | register | sinks => exact hs
  | move m =>
      have hm : Steps Change.IsQuiet o.plant (o.plant.move m) := .one (.move m) trivial
      exact hm.sourced (fun _ => False.elim) hs
  | waitPhoto => exact (waitPhoto_steps o).1.sourced (fun _ => False.elim) hs

theorem meet_held (e : Event) (hk : o.Kinded) (hm : o.Manned) (hh : o.Held) :
    (o.meet e).Held := by
  cases e with
  | command c => exact (handle_transitions o c).held hk hm hh
  | write | inject | turns | register | sinks => exact hh.quiet rfl (.of_pumps rfl rfl)
  | move m =>
      have hdrift : Steps Change.IsDrift o.plant (o.plant.move m) := .one (.move m) trivial
      exact hh.quiet rfl hdrift.spares
  | waitPhoto =>
      cases hs : o.photoSession? with
      | none =>
          have hsame : o.meet .waitPhoto = o := by simp only [meet, waitPhoto, hs]
          rwa [hsame]
      | some session =>
          obtain ⟨b, up, hphoto⟩ := Option.bind_eq_some_iff.mp hs
          refine .of_idle fun b' up' => ?_
          cases up.symm.trans ((waitPhoto_steps o).2 ▸ up')
          exact ((hm.built b up).photo session hphoto).1

theorem meet_steady (e : Event) (h : o.Steady) : (o.meet e).Steady where
  kinded := meet_kinded e h.kinded
  manned := meet_manned e h.kinded h.manned
  numbered := meet_numbered h.kinded h.numbered
  exclusive := meet_exclusive h.kinded h.numbered h.exclusive
  sourced := meet_sourced e h.kinded h.sourced
  held := meet_held e h.kinded h.manned h.held

theorem after_steady (hf : o.Fresh) (events : List Event) : (o.after events).Steady :=
  after_keeps (P := fun _ => True) (fun _ e _ h => meet_steady e h) (fun _ _ => trivial)
    hf.steady

/-- The recording `s` of the pipeline `b` stands. -/
structure Recording (o : Orchestrator) (b : Built) (s : RecordSession) : Prop where
  up : o.built = some b
  session : b.record = some s
  honest : o.plant.Honest
  sourced : o.plant.Sourced
  holds : s.stack.Holds s.pump o.plant
  closes : ∀ r, .request r ∈ s.stack.steps → r.Closes

theorem Steady.recording (h : o.Steady) (up : o.built = some b) (session : b.record = some s) :
    o.Recording b s where
  up := up
  session := session
  honest := h.manned.honest
  sourced := h.sourced
  holds := h.held b s up session
  closes r hr := by
    obtain ⟨-, -, vi, l, hl⟩ := h.exclusive b up
    refine Request.closes_of_withdrawn (((h.manned.built b up).record s session).2.takes r hr) ?_
    intro k heq
    have hgdc := hl.fits.gdc.2 k
    have hrgn := hl.fits.rgn.2 k
    cases List.mem_append.mp (((hl.record s session).destroys k).mp (heq ▸ hr)) with
    | inl hk => rw [hgdc (Option.mem_toList.mp hk)]; rfl
    | inr hk => rw [hrgn (Option.mem_toList.mp hk)]; rfl

end Orchestrator
end CameraPipeline
