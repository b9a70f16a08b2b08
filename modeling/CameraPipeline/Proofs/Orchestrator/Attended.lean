import CameraPipeline.Proofs.Orchestrator.Run
import CameraPipeline.Proofs.Plant.Tend

/-!
The commands mind the pumps. The pumps of the base read its network encoder and its input, which
the stack of a session leaves alone; so a session can be undone while they run, and everything
else is undone after its pumps have been stopped. At every moment of a run a pump that fetches or
gives back finds its channel enabled, and what is taken away is not being read.
-/

namespace CameraPipeline

open Plant

theorem Circuit.feeds_receiving (c : Circuit) (h : Handle) (base : Option Handle) (quota : Quota) :
    (c.set h (some ⟨base, true, some quota⟩)).Feeds h :=
  ⟨⟨base, true, some quota⟩, by simp, rfl, .inr rfl⟩

theorem Circuit.not_feeds {c : Circuit} {h : Handle} {base : Option Handle} {on : Bool}
    (hn : c.node? h = some ⟨base, on, none⟩) (hk : h.kind ≠ .vi) : ¬c.Feeds h := by
  intro hex
  obtain ⟨n, hn', _, hsrc⟩ := hex
  rw [hn] at hn'
  cases hn'
  exact hsrc.elim hk (by simp)

theorem Circuit.Enabled.set {c : Circuit} {h k : Handle} {n : Node} (he : c.Enabled k)
    (hn : n.enabled) : (c.set h (some n)).Enabled k := by
  by_cases hk : k = h
  · exact ⟨n, by simp [hk], hn⟩
  · obtain ⟨m, hm, hon⟩ := he
    exact ⟨m, by simp [hk, hm], hon⟩

theorem Circuit.Enabled.addSome {c : Circuit} {k : Handle} (he : c.Enabled k) (h : Option Handle) :
    (c.addSome h).Enabled k := by
  cases h with
  | none => exact he
  | some h => exact he.set rfl

namespace Layout

/-- Nothing that the base adds disables its input. -/
theorem feeds_vi (l : Layout) (hvi : l.vi.kind = .vi) : l.base.Feeds l.vi := by
  obtain ⟨vi, display, main, sub, jpeg, gdc, rgn⟩ := l
  have hempty : (Circuit.empty.add vi).Enabled vi :=
    ⟨⟨none, true, none⟩, by simp [Circuit.add], rfl⟩
  have hdisplay : ((Circuit.empty.add vi).addDisplay vi display).Enabled vi := by
    cases display with
    | none => exact hempty
    | some d => exact Circuit.Enabled.set (hempty.set rfl) rfl
  have hsub {c : Circuit} {source : Handle} (hc : c.Enabled vi) :
      (c.addSub source sub).Enabled vi := by
    cases sub with
    | none => exact hc
    | some s => exact Circuit.Enabled.set (hc.set rfl) rfl
  obtain ⟨n, hn, hon⟩ := (hsub (hdisplay.addSome main)).addSome jpeg
  exact ⟨n, hn, hon, .inl hvi⟩

end Layout

namespace Build

open Construction

variable {kept : Handle → Prop} {below : PumpId → Prop} {ground c : Circuit} {make : PumpMaker}

/-- A channel begins to receive and a pump to read it. -/
theorem minds_reading {h : Handle} {base : Option Handle} {stream : Stream} {limit : Option UInt32}
    {α : Type} {f : PumpId → Construction α} {post : α → Prop} (hmake : FairMaker make)
    (quota : Quota) (hn : c.node? h = some ⟨base, true, none⟩) (hh : ¬kept h)
    (hf : ∀ id c', Minds kept below ground c' (f id) post) :
    Minds kept below ground c (do
      startReceiving h quota
      let id ← start (make stream h limit)
      f id) post := by
  refine .bind (builds_startReceiving base true quota hn) (minds_startReceiving hh quota) ?_
  intro _ _ heq _
  subst heq
  have hfeeds : (c.set h (some ⟨base, true, some quota⟩)).Feeds (make stream h limit).source := by
    rw [hmake.source]
    exact Circuit.feeds_receiving c h base quota
  exact .bind (builds_start (hmake.honest _ _ _) hfeeds.enabled.live)
    (minds_start (hmake.honest _ _ _) hfeeds) fun id c' _ _ => hf id c'

section Stages

variable (hk : ∀ h, kept h → ground.Live h)

include hk

theorem minds_display (vi : Handle) (attr : DisplayAttr) :
    Minds kept below ground c (display vi attr) fun _ => True := by
  refine .bind (builds_createEnabled .vpss _) (minds_createEnabled hk _ _) fun vpss _ _ hvpss => ?_
  refine .bind (builds_bind vi vpss) (minds_bind hvpss) fun _ _ _ _ => ?_
  refine .bind (builds_createEnabled .vo _) (minds_createEnabled hk _ _) fun vo _ _ hvo => ?_
  exact (minds_bind hvo).map fun _ _ => trivial

theorem minds_subStream (hmake : FairMaker make) (source : Handle) (attr : VencAttr) :
    Minds kept below ground c (subStream make source attr) fun _ => True := by
  refine .bind (builds_createEnabled .venc _) (minds_createEnabled hk _ _) ?_
  intro sub _ hpost hsub
  obtain ⟨-, -, rfl⟩ := hpost
  have hn : (c.set sub (some ⟨none, true, none⟩)).node? sub = some ⟨none, true, none⟩ := by simp
  exact minds_reading hmake .unlimited hn hsub fun _ _ => minds_bind hsub

theorem minds_channel {α : Type} (kind : ChannelKind) (part : Option α) (attr : α → ChannelAttr) :
    Minds kept below ground c (optional part fun a => createEnabled kind (attr a)) fun h =>
      ∀ k, h = some k → ¬kept k := by
  refine .optional (fun a => minds_createEnabled hk kind (attr a)) (fun h hh k heq => ?_) (by simp)
  cases heq
  exact hh

end Stages

theorem minds_base (hmake : FairMaker make) (attr : PipelineAttr) :
    Minds (fun _ => False) below .empty .empty (base make attr) fun _ => True := by
  have hk : ∀ h, False → Circuit.empty.Live h := fun _ => False.elim
  refine .bind (builds_createEnabled .vi _) (minds_createEnabled hk _ _) ?_
  intro vi _ hpost _
  obtain ⟨hvi, -, rfl⟩ := hpost
  refine .bind (builds_input attr) (.maybe fun a => minds_display hk vi a) ?_
  intro _ _ hpost _
  obtain ⟨display, -, -, rfl, rfl⟩ := hpost
  refine .bind (builds_channel .venc attr.main .venc fun _ => rfl) (minds_channel hk _ _ _) ?_
  intro main _ hpost _
  obtain ⟨-, -, rfl⟩ := hpost
  refine .bind (builds_network hmake _ attr) (.maybe fun a => minds_subStream hk hmake _ a) ?_
  intro _ _ hpost _
  obtain ⟨sub, -, -, rfl⟩ := hpost
  refine .bind (builds_channel .jpeg attr.photo .jpeg fun _ => rfl) (minds_channel hk _ _ _) ?_
  intro jpeg _ hpost _
  obtain ⟨-, -, rfl⟩ := hpost
  have hfeeds := Layout.feeds_vi ⟨vi, display, main, sub, jpeg, none, none⟩ hvi
  dsimp only
  split
  · refine (minds_start (hmake.honest _ _ _) ?_).map fun _ _ => trivial
    rw [hmake.source]
    exact hfeeds
  · exact .pure trivial

theorem minds_linkRecord {vi main : Handle} {gdc : Option Handle} (hm : ¬kept main)
    (hg : ∀ k, gdc = some k → ¬kept k) :
    Minds kept below ground c (linkRecord vi main gdc) fun _ => True := by
  cases gdc with
  | none => exact minds_bind hm
  | some gdc =>
      exact .bind (builds_bind vi gdc) (minds_bind (hg gdc rfl)) fun _ _ _ _ => minds_bind hm

/-- Of the channels that feed pumps on the ground, a recording takes nothing. -/
theorem minds_record (hmake : FairMaker make) {attr : PipelineAttr} {l : Layout}
    (hf : l.Fits attr false) {main : Handle} (hm : l.main = some main) :
    Minds l.base.Feeds below l.base l.base (record make attr l.vi main) fun _ => True := by
  have hk : ∀ h, l.base.Feeds h → l.base.Live h := fun _ hh => hh.enabled.live
  have hmain : ¬l.base.Feeds main :=
    Circuit.not_feeds (hf.node?_main hm) (by simp [hf.main.2 main hm])
  refine minds_reading hmake .unlimited (hf.node?_main hm) hmain fun pump _ => ?_
  refine .bind (builds_channel .gdc attr.gdc .gdc fun _ => rfl) (minds_channel hk _ _ _) ?_
  intro gdc _ _ hgdc
  refine .bind (builds_overlay main attr) (.maybe fun _ => minds_create hk _ _) ?_
  exact fun _ _ _ _ => (minds_linkRecord hmain hgdc).map fun _ _ => trivial

theorem minds_photo (hmake : FairMaker make) {attr : PipelineAttr} {l : Layout}
    (hf : l.Fits attr false) {jpeg : Handle} (hj : l.jpeg = some jpeg) (max : UInt32) :
    Minds l.base.Feeds below l.base l.base (photo make l.vi jpeg max) fun _ => True := by
  have hjpeg : ¬l.base.Feeds jpeg :=
    Circuit.not_feeds (hf.node?_jpeg hj) (by simp [hf.jpeg.2 jpeg hj])
  exact minds_reading hmake (.count max) (hf.node?_jpeg hj) hjpeg fun _ _ =>
    (minds_bind hjpeg).map fun _ _ => trivial

end Build

/-- The stacks of the sessions tend to the pumps. -/
structure Built.Tended (b : Built) (p : Plant) : Prop where
  record : ∀ s, b.record = some s → s.stack.Tends p
  photo : ∀ s, b.photo = some s → s.stack.Tends p

theorem Built.Tended.of_reads {b : Built} {p q : Plant} (hb : b.Tended p)
    (hr : ∀ id h, q.Reads id h → p.Reads id h) : b.Tended q :=
  ⟨fun s hs => (hb.record s hs).of_reads hr, fun s hs => (hb.photo s hs).of_reads hr⟩

namespace Stands

variable {p : Plant} {make : PumpMaker}

theorem sound {built : Option Built} (hs : Stands p built) : p.Sound := by
  cases hs <;> exact ‹Site.At _ _ _ _›.sound

/-- While no session stands, all pumps are those of the base. -/
theorem base_tends {base : Stack} {ground c : Circuit}
    (hs : Site.At (fun id => .pump id ∈ base.steps) ground c ⟨{}, p⟩) : base.Tends p :=
  fun id h hid => .inl ((hs.reads id h hid).resolve_left fun hm => absurd hm.1 List.not_mem_nil).1

theorem tearDown_mindful {b : Built} (hs : Stands p (some b)) (hb : b.Tended p)
    (hd : (b.tearDown p).2.Drained) : Runs Mindful p (b.tearDown p).2 := by
  cases hs with
  | idle carries site => exact (base_tends site).unwind site.sound.honest hd
  | @recording attr base l main s carries encoder site =>
      have hd' : (s.stack.unwind p).2.Drained := (Stack.unwind_steps base _).drained hd
      have hsite := (site.unwind hd').2
      exact ((hb.record s rfl).unwind site.sound.honest hd').trans
        ((base_tends hsite).unwind hsite.sound.honest hd)
  | @shooting attr base l jpeg s carries encoder site =>
      have hd' : (s.stack.unwind p).2.Drained := (Stack.unwind_steps base _).drained hd
      have hsite := (site.unwind hd').2
      exact ((hb.photo s rfl).unwind site.sound.honest hd').trans
        ((base_tends hsite).unwind hsite.sound.honest hd)

section Sessions

variable {attr : PipelineAttr} {base : Stack} {l : Layout} (hmake : FairMaker make)
  (hc : l.Carries attr base false) (hw : p.Wired)
  (hs : Site.At (fun id => .pump id ∈ base.steps) l.base l.base ⟨{}, p⟩)

include hmake hc hw hs

theorem openRecord_mindful {main : Handle} (hm : l.main = some main) :
    match p.openRecord make attr l.vi main with
    | (.ok s, q) => Runs Mindful p q ∧ s.stack.Tends q
    | (.error _, q) => q.Drained → Runs Mindful p q := by
  have h := (Build.minds_record hmake hc.fits hm).construct hs hw fun id k hk =>
    hs.circuit ▸ hw id k hk
  simp only [Plant.openRecord]
  cases hcons : p.construct (Build.record make attr l.vi main) with
  | mk answer q =>
      rw [hcons] at h
      cases answer <;> exact h

theorem openPhoto_mindful {jpeg : Handle} (hj : l.jpeg = some jpeg) (max : UInt32) :
    match p.openPhoto make l.vi jpeg max with
    | (.ok s, q) => Runs Mindful p q ∧ s.stack.Tends q
    | (.error _, q) => q.Drained → Runs Mindful p q := by
  have h := (Build.minds_photo hmake hc.fits hj max).construct hs hw fun id k hk =>
    hs.circuit ▸ hw id k hk
  simp only [Plant.openPhoto]
  cases hcons : p.construct (Build.photo make l.vi jpeg max) with
  | mk answer q =>
      rw [hcons] at h
      cases answer <;> exact h

end Sessions

theorem build_mindful (hmake : FairMaker make) (attr : PipelineAttr) (hs : Stands p none)
    (hw : p.Wired) :
    match p.build make attr with
    | (.ok b, q) => Runs Mindful p q ∧ b.Tended q
    | (.error _, q) => q.Drained → Runs Mindful p q := by
  obtain ⟨hs⟩ := hs
  have h := (Build.builds_base hmake attr).construct hs
  have h' := (Build.minds_base hmake attr).construct hs hw fun id h hid =>
    (hs.reads id h hid).elim (fun hm => absurd hm.1 List.not_mem_nil) fun hf => hf.1
  simp only [Plant.build]
  cases hcons : p.construct (Build.base make attr) with
  | mk answer q =>
      rw [hcons] at h h'
      cases answer with
      | error e => exact h'
      | ok a =>
          obtain ⟨handles, base⟩ := a
          obtain ⟨_, hsite, l, hf, rfl, rfl⟩ := h
          have hc : l.Carries attr base false := ⟨hf, hsite.laid⟩
          have hidle : Runs Mindful p q ∧
              Built.Tended { attr, base, handles := l.handles } q := ⟨h'.1, ⟨by simp, by simp⟩⟩
          cases hm : l.handles.main with
          | none => simpa only [hm] using hidle
          | some main =>
              cases attr.recordOnInit with
              | false => simpa only [hm] using hidle
              | true =>
                  have hwired := (h'.1.wired hs.sound hw).2
                  have hopen := openRecord hmake hc hm hsite.rise
                  have hmind := openRecord_mindful hmake hc hwired hsite.rise hm
                  simp only [hm]
                  cases ho : q.openRecord make attr l.handles.vi main with
                  | mk answer q' =>
                      rw [show l.vi = l.handles.vi from rfl, ho] at hopen hmind
                      cases answer with
                      | ok s =>
                          refine ⟨h'.1.trans hmind.1, ⟨fun _ heq => ?_, by simp⟩⟩
                          cases heq
                          exact hmind.2
                      | error e =>
                          intro hd
                          have hd' := (Stack.unwind_steps base q').drained hd
                          have hbase := hopen hd'
                          exact (h'.1.trans (hmind hd')).trans
                            ((base_tends hbase).unwind hbase.sound.honest hd)

end Stands

namespace Orchestrator

variable {shooting : Prop} {o o' : Orchestrator}

/-- The pipeline stands, its running pumps are fed, and the stacks of its sessions tend to them. -/
structure Minded (o : Orchestrator) : Prop where
  stands : Stands o.plant o.built
  wired : o.plant.Wired
  tended : ∀ b, o.built = some b → b.Tended o.plant

theorem Transition.mindful (h : Transition shooting o o') (hm : o.Minded)
    (hd : o'.plant.Drained) :
    Runs Mindful o.plant o'.plant ∧ ∀ b, o'.built = some b → b.Tended o'.plant := by
  have hs := hm.stands
  cases h with
  | settings => exact ⟨.refl _, hm.tended⟩
  | @build attr b plant down h =>
      have hb := Stands.build_mindful o.fairMaker_makePump attr (down ▸ hs) hm.wired
      rw [h] at hb
      refine ⟨hb.1, fun _ heq => ?_⟩
      cases heq
      exact hb.2
  | @buildFails attr e plant down h =>
      have hb := Stands.build_mindful o.fairMaker_makePump attr (down ▸ hs) hm.wired
      rw [h] at hb
      exact ⟨hb hd, by simp [down]⟩
  | @tearDown b up =>
      rw [up] at hs
      refine ⟨hs.tearDown_mindful (hm.tended b up) hd, fun _ hup => ?_⟩
      cases hup
  | @setInput b up vi =>
      have hsteps := ask_steps o.plant (.setAttr b.handles.vi (.vi vi))
      exact ⟨ask_mindful (by simp [Request.withdrawn?]), fun b' hb =>
        (hm.tended b' hb).of_reads fun _ _ => hsteps.reads⟩
  | @noteInput b up vi =>
      refine ⟨.refl _, fun _ heq => ?_⟩
      cases heq
      exact ⟨(hm.tended b up).record, (hm.tended b up).photo⟩
  | @openRecord b main s plant up idle free encoder h =>
      obtain ⟨attr, base, l, rfl, carries, site⟩ := (up ▸ hs).sessionless idle free
      have hr := Stands.openRecord_mindful o.fairMaker_makePump carries hm.wired site encoder
      rw [show l.vi = l.handles.vi from rfl, h] at hr
      refine ⟨hr.1, fun _ heq => ?_⟩
      cases heq
      refine ⟨fun _ heq => ?_, by simp⟩
      cases heq
      exact hr.2
  | @openRecordFails b main e plant up idle free encoder h =>
      obtain ⟨attr, base, l, rfl, carries, site⟩ := (up ▸ hs).sessionless idle free
      have hr := Stands.openRecord_mindful o.fairMaker_makePump carries hm.wired site encoder
      rw [show l.vi = l.handles.vi from rfl, h] at hr
      refine ⟨hr hd, fun _ hup => ?_⟩
      cases up.symm.trans hup
      exact ⟨by simp, by simp⟩
  | @stopRecord b s up session =>
      have hb := hm.tended b up
      have hquiet := Stack.stopEach_steps o.plant s.stack.steps
      refine ⟨hquiet.mindful, fun _ heq => ?_⟩
      cases heq
      refine ⟨fun _ heq => ?_, fun s' hs' => (hb.photo s' hs').of_reads fun _ _ => hquiet.reads⟩
      cases heq
      exact (hb.record s session).stopPumps hs.sound.honest
  | @closeRecord b s up session =>
      have hb := hm.tended b up
      have hsteps := s.stack.unwind_steps o.plant
      refine ⟨(hb.record s session).unwind hs.sound.honest hd, fun _ heq => ?_⟩
      cases heq
      exact ⟨by simp, fun s' hs' => (hb.photo s' hs').of_reads fun _ _ => hsteps.reads⟩
  | @waitPhoto b s up session =>
      have hsteps := s.isDrained_steps o.plant
      exact ⟨hsteps.mindful, fun b' hb => (hm.tended b' hb).of_reads fun _ _ => hsteps.reads⟩
  | @closePhoto b s up session =>
      have hb := hm.tended b up
      have hsteps := s.stack.unwind_steps o.plant
      refine ⟨(hb.photo s session).unwind hs.sound.honest hd, fun _ heq => ?_⟩
      cases heq
      exact ⟨fun s' hs' => (hb.record s' hs').of_reads fun _ _ => hsteps.reads, by simp⟩
  | @openPhoto b jpeg count s plant allowed up idle free encoder h =>
      obtain ⟨attr, base, l, rfl, carries, site⟩ := (up ▸ hs).sessionless idle free
      have hr :=
        Stands.openPhoto_mindful o.fairMaker_makePump carries hm.wired site encoder count
      rw [show l.vi = l.handles.vi from rfl, h] at hr
      refine ⟨hr.1, fun _ heq => ?_⟩
      cases heq
      refine ⟨by simp, fun _ heq => ?_⟩
      cases heq
      exact hr.2
  | @openPhotoFails b jpeg count e plant allowed up idle free encoder h =>
      obtain ⟨attr, base, l, rfl, carries, site⟩ := (up ▸ hs).sessionless idle free
      have hr :=
        Stands.openPhoto_mindful o.fairMaker_makePump carries hm.wired site encoder count
      rw [show l.vi = l.handles.vi from rfl, h] at hr
      refine ⟨hr hd, fun _ hup => ?_⟩
      cases up.symm.trans hup
      exact ⟨by simp, by simp⟩

theorem Transition.minded (h : Transition shooting o o') (hm : o.Minded)
    (hd : o'.plant.Drained) : Runs Mindful o.plant o'.plant ∧ o'.Minded := by
  obtain ⟨hrun, htended⟩ := h.mindful hm hd
  exact ⟨hrun, h.stands hm.stands hd, (hrun.wired hm.stands.sound hm.wired).2, htended⟩

theorem Transitions.minded (h : Transitions shooting o o') (hk : o.Kinded) (hm : o.Minded)
    (hd : o'.plant.Drained) : Runs Mindful o.plant o'.plant ∧ o'.Minded := by
  induction h with
  | refl => exact ⟨.refl _, hm⟩
  | tail h ht ih =>
      have hsteps := ht.staffed (Transitions.staffed h hk).1
      obtain ⟨hrun, hm'⟩ := ih (hsteps.drained hd)
      obtain ⟨hrun', hm''⟩ := ht.minded hm' hd
      exact ⟨hrun.trans hrun', hm''⟩

/-- What happens between the commands starts no pump and leaves the pipeline. -/
theorem meet_mindful {e : Event} (he : e.Spares) (hc : ∀ c, e ≠ .command c) :
    Runs Mindful o.plant (o.meet e).plant ∧ (o.meet e).built = o.built ∧
      ∀ id h, (o.meet e).plant.Reads id h → o.plant.Reads id h := by
  cases e with
  | command c => exact absurd rfl (hc c)
  | write => exact ⟨.refl _, rfl, fun _ _ hid => hid⟩
  | inject rule => exact ⟨.inject rule he (.refl _), rfl, fun _ _ hid => hid⟩
  | move m =>
      have hone : Plant.Steps Change.IsQuiet o.plant (o.plant.move m) := .one (.move m) trivial
      exact ⟨hone.mindful, rfl, fun _ _ => hone.reads⟩
  | turns ts => exact ⟨.one (.turns ts) trivial, rfl, fun _ _ hid => hid⟩
  | register stream sink => exact ⟨.sinks _ (.refl _), rfl, fun _ _ hid => hid⟩
  | sinks sinks => exact ⟨.sinks sinks (.refl _), rfl, fun _ _ hid => hid⟩
  | waitPhoto =>
      obtain ⟨hsteps, hb⟩ := waitPhoto_steps o
      exact ⟨hsteps.mindful, hb, fun _ _ => hsteps.reads⟩

theorem meet_minded {e : Event} (hk : o.Kinded) (he : e.Spares) (hm : o.Minded)
    (hd : (o.meet e).plant.Drained) :
    Runs Mindful o.plant (o.meet e).plant ∧ (o.meet e).Minded := by
  by_cases hc : ∃ c, e = .command c
  · obtain ⟨c, rfl⟩ := hc
    exact (handle_transitions o c).minded hk hm hd
  · obtain ⟨hrun, hbuilt, hreads⟩ := meet_mindful (o := o) he fun c heq => hc ⟨c, heq⟩
    refine ⟨hrun, meet_stands hk he (fun _ => hm.stands) hd,
      (hrun.wired hm.stands.sound hm.wired).2, fun b hb => ?_⟩
    exact (hm.tended b (hbuilt ▸ hb)).of_reads hreads

/-- What was late once stays noted, so whoever drained in the end drained before. -/
theorem drained_of_meet {e : Event} (hk : o.Kinded) (he : e.Spares)
    (hd : (o.meet e).plant.Drained) : o.plant.Drained := by
  by_cases hc : ∃ c, e = .command c
  · obtain ⟨c, rfl⟩ := hc
    exact ((handle_transitions o c).staffed hk).2.drained hd
  · have hrun := (meet_mindful (o := o) he fun c heq => hc ⟨c, heq⟩).1
    exact fun entry hm => hd entry (hrun.journal.subset hm)

theorem Fresh.minded (hf : o.Fresh) : o.Minded := by
  refine ⟨hf.stands, fun id h hex => ?_, fun b hb => ?_⟩
  · obtain ⟨pump, hp, _⟩ := hex
    simp [Plant.pump?, hf.pumps] at hp
  · simp [hf.built] at hb

/-- After every run in which all stopped pumps drained, the owner has minded its pumps. -/
theorem after_minded (hf : o.Fresh) {events : List Event} (he : ∀ e ∈ events, e.Spares)
    (hd : (o.after events).plant.Drained) : Runs Mindful o.plant (o.after events).plant := by
  refine ((after_keeps (I := fun o' => o'.Kinded ∧
    (o'.plant.Drained → Runs Mindful o.plant o'.plant ∧ o'.Minded)) (fun o' e hspares hi => ?_) he
    ⟨hf.kinded, fun _ => ⟨.refl _, hf.minded⟩⟩).2 hd).1
  refine ⟨meet_kinded e hi.1, fun hd => ?_⟩
  obtain ⟨hrun, hm⟩ := hi.2 (drained_of_meet hi.1 hspares hd)
  obtain ⟨hrun', hm'⟩ := meet_minded hi.1 hspares hm hd
  exact ⟨hrun.trans hrun', hm'⟩

/-- Whatever a run notes was heeded at the moment before: pumps fetch from live, enabled channels
and give back to such; nothing is taken away from a channel while a pump reads it; no unit is out
of a channel that is to be destroyed. -/
theorem after_heeds (hf : o.Fresh) {events : List Event} (he : ∀ e ∈ events, e.Spares)
    (hd : (o.after events).plant.Drained) {before rest : List JournalEntry} {e : JournalEntry}
    (hj : (o.after events).plant.journal = before ++ e :: rest) :
    ∃ p c, o.plant.Reaches p ∧ p.journal = before ∧ (p.apply c).journal = before ++ [e] ∧
      (p.apply c).Reaches (o.after events).plant ∧ p.Heeds e := by
  have hm := hf.minded
  exact (after_minded hf he hd).heeds hm.stands.sound hm.wired hj
    (hf.journal ▸ List.nil_prefix)

/-- A recording is stopped while the pump of the network encoder runs on. -/
def stopBesideSub : List Event :=
  [.write ((.empty : Params).insert PipelineAttr.enableRtspKey "1"), .command .init,
    .move (.advance 0), .move (.advance 0), .turns [[.advance 0], [.advance 0, .advance 0]],
    .command .stopRecord, .command .deinit]

/-- The record encoder is unlinked: its own pump has ended, the other one has a unit in hand. -/
theorem after_heeds_stopBesideSub :
    ∃ p c, bare.plant.Reaches p ∧
      p.journal = (bare.after stopBesideSub).plant.journal.take 19 ∧
      (p.apply c).journal = p.journal ++ [.asked (.unbind ⟨⟨.vi, 0⟩, ⟨.venc, 0⟩⟩) none] ∧
      ∀ id, ¬p.Reads id ⟨.venc, 0⟩ := by
  have he : ∀ e ∈ stopBesideSub, e.Spares := by simp [stopBesideSub, Event.Spares]
  have hd : (bare.after stopBesideSub).plant.Drained := by decide +kernel
  have hj : (bare.after stopBesideSub).plant.journal =
      (bare.after stopBesideSub).plant.journal.take 19 ++
        .asked (.unbind ⟨⟨.vi, 0⟩, ⟨.venc, 0⟩⟩) none ::
          (bare.after stopBesideSub).plant.journal.drop 20 := by decide +kernel
  obtain ⟨p, c, hp, hbefore, hnote, -, hheeds⟩ := after_heeds fresh_bare he hd hj
  exact ⟨p, c, hp, hbefore, hbefore ▸ hnote, hheeds.1 _ rfl⟩

end Orchestrator

end CameraPipeline
