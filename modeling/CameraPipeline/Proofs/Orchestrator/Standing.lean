import CameraPipeline.Proofs.Orchestrator.Staffing

/-!
How a pipeline stands on its plant. Without a pipeline the circuit is empty; the base stack leads
from there to the base circuit of a layout, and the stack of a session from the base circuit to
that of the session. Every piece of a command keeps this, as long as all stopped pumps drain.
-/

namespace CameraPipeline

open Plant

namespace Site.At

variable {below : PumpId → Prop} {ground c : Circuit} {s : Stack} {p q : Plant}

/-- A finished stack is the ground of the next one. -/
theorem rise (hs : At (fun _ => False) ground c ⟨s, p⟩) :
    At (fun id => .pump id ∈ s.steps) c c ⟨{}, p⟩ :=
  ⟨hs.laid.wellFormed hs.solid, .bare, hs.circuit, hs.sound,
    fun id h hr => .inr ((hs.reads id h hr).resolve_right fun hf => hf.1)⟩

/-- Back on its ground, the stack below is at hand again. -/
theorem sink (hs : At (fun id => .pump id ∈ s.steps) c c ⟨{}, p⟩) (hg : ground.WellFormed)
    (hl : Laid ground s.steps c) : At (fun _ => False) ground c ⟨s, p⟩ :=
  ⟨hg, hl, hs.circuit, hs.sound,
    fun id h hr => .inl ((hs.reads id h hr).resolve_left fun hm => by cases hm.1)⟩

end Site.At

/-- The base stack leads from nothing to the base circuit of the layout. -/
structure Layout.Carries (l : Layout) (attr : PipelineAttr) (base : Stack) (recording : Bool) :
    Prop where
  fits : l.Fits attr recording
  laid : Laid .empty base.steps l.base

/-- The pipeline `built` stands on the plant. -/
inductive Stands (p : Plant) : Option Built → Prop
  | down (site : Site.At (fun _ => False) .empty .empty ⟨{}, p⟩) : Stands p none
  | idle {attr : PipelineAttr} {base : Stack} {l : Layout} (carries : l.Carries attr base false)
      (site : Site.At (fun id => .pump id ∈ base.steps) l.base l.base ⟨{}, p⟩) :
      Stands p (some { attr, base, handles := l.handles })
  | recording {attr : PipelineAttr} {base : Stack} {l : Layout} {main : Handle}
      {s : RecordSession} (carries : l.Carries attr base true) (encoder : l.main = some main)
      (site : Site.At (fun id => .pump id ∈ base.steps) l.base (l.recorded main) ⟨s.stack, p⟩) :
      Stands p (some { attr, base, handles := l.handles, record := some s })
  | shooting {attr : PipelineAttr} {base : Stack} {l : Layout} {jpeg : Handle}
      {s : PhotoSession} (carries : l.Carries attr base false) (encoder : l.jpeg = some jpeg)
      (site : Site.At (fun id => .pump id ∈ base.steps) l.base (l.shot jpeg s.max) ⟨s.stack, p⟩) :
      Stands p (some { attr, base, handles := l.handles, photo := some s })

theorem Layout.Carries.noteInput {l : Layout} {attr : PipelineAttr} {base : Stack}
    {recording : Bool} (hc : l.Carries attr base recording) (vi : ViAttr) :
    l.Carries { attr with vi } base recording :=
  have hf := hc.fits
  ⟨⟨hf.vi, hf.vpss, hf.vo, hf.main, hf.sub, hf.encoders, hf.jpeg, hf.gdc, hf.rgn⟩, hc.laid⟩

namespace Stands

variable {p q : Plant}

theorem unrecorded {attr : PipelineAttr} {base : Stack} {l : Layout}
    (hc : l.Carries attr base true)
    (hs : Site.At (fun id => .pump id ∈ base.steps) l.base l.base ⟨{}, q⟩) :
    Stands q (some { attr, base, handles := l.handles }) := by
  have hf := hc.fits
  have hcarries : { l with gdc := none, rgn := none }.Carries attr base false :=
    ⟨⟨hf.vi, hf.vpss, hf.vo, hf.main, hf.sub, hf.encoders, hf.jpeg, .none _, .none _⟩, hc.laid⟩
  exact .idle (l := { l with gdc := none, rgn := none }) hcarries hs

/-- Undoing the base of a pipeline without sessions clears the plant. -/
theorem unwind_base {attr : PipelineAttr} {base : Stack} {l : Layout} {recording : Bool}
    (hc : l.Carries attr base recording)
    (hs : Site.At (fun id => .pump id ∈ base.steps) l.base l.base ⟨{}, p⟩)
    (hd : (base.unwind p).2.Drained) :
    (base.unwind p).1 = [] ∧ Stands (base.unwind p).2 none := by
  obtain ⟨he, hdown⟩ := (hs.sink Circuit.wellFormed_empty hc.laid).unwind hd
  exact ⟨he, .down hdown⟩

/-- A pipeline without sessions stands on its base. -/
theorem sessionless {b : Built} (hs : Stands p (some b)) (idle : b.record = none)
    (free : b.photo = none) :
    ∃ attr base l, b = { attr, base, handles := Layout.handles l } ∧
      l.Carries attr base false ∧
      Site.At (fun id => .pump id ∈ base.steps) l.base l.base ⟨{}, p⟩ := by
  cases hs with
  | idle carries site => exact ⟨_, _, _, rfl, carries, site⟩
  | recording => cases idle
  | shooting => cases free

theorem transport {built : Option Built} (hs : Stands p built)
    (h : ∀ {below ground c s}, Site.At below ground c ⟨s, p⟩ → Site.At below ground c ⟨s, q⟩) :
    Stands q built := by
  cases hs with
  | down site => exact .down (h site)
  | idle carries site => exact .idle carries (h site)
  | recording carries encoder site => exact .recording carries encoder (h site)
  | shooting carries encoder site => exact .shooting carries encoder (h site)

/-- The input carries no overlay, and setting its attributes puts none on it. -/
theorem setInput {b : Built} (hs : Stands p (some b)) (vi : ViAttr) :
    Stands (p.ask (.setAttr b.handles.vi (.vi vi))).2 (some b) := by
  have keeps {c : Circuit} {h : Handle} (hc : ∀ n, c.node? h = some n → n.overlaid = none) :
      ∀ k, (Request.setAttr h (.vi vi)).subject? = some k →
        c.after k (.setAttr h (.vi vi)) = c := by
    intro _ heq
    cases heq
    refine Circuit.set_self ?_
    cases hn : c.node? h with
    | none => rfl
    | some n =>
        have ho := hc n hn
        cases n
        cases ho
        rfl
  cases hs with
  | idle carries site =>
      exact .idle carries (site.ask (keeps fun n hn => carries.fits.overlaid_base hn) rfl)
  | @recording attr base l main s carries encoder site =>
      refine .recording carries encoder (site.ask (keeps fun n hn => ?_) rfl)
      have hrgn : l.rgn ≠ some l.handles.vi := fun hr =>
        absurd ((carries.fits.rgn.2 _ hr).symm.trans carries.fits.vi) nofun
      rw [Layout.node?_recorded, if_neg hrgn] at hn
      split at hn
      · cases hn
        rfl
      · split at hn
        · cases hn
          rfl
        · exact carries.fits.overlaid_base hn
  | shooting carries encoder site =>
      refine .shooting carries encoder (site.ask (keeps fun n hn => ?_) rfl)
      rw [Layout.node?_shot] at hn
      split at hn
      · cases hn
        rfl
      · exact carries.fits.overlaid_base hn

/-- A teardown leaves nothing, and nothing goes wrong. -/
theorem tearDown {b : Built} (hs : Stands p (some b)) (hd : (b.tearDown p).2.Drained) :
    (b.tearDown p).1 = [] ∧ Stands (b.tearDown p).2 none := by
  cases hs with
  | @idle attr base l carries site => exact unwind_base carries site hd
  | @recording attr base l main s carries encoder site =>
      have hd' : (s.stack.unwind p).2.Drained := (Stack.unwind_steps base _).drained hd
      obtain ⟨hr, hsite⟩ := site.unwind hd'
      obtain ⟨hb, hdown⟩ := unwind_base carries hsite hd
      exact ⟨by simp [Built.tearDown, unwindSession, hr, hb], hdown⟩
  | @shooting attr base l jpeg s carries encoder site =>
      have hd' : (s.stack.unwind p).2.Drained := (Stack.unwind_steps base _).drained hd
      obtain ⟨hr, hsite⟩ := site.unwind hd'
      obtain ⟨hb, hdown⟩ := unwind_base carries hsite hd
      exact ⟨by simp [Built.tearDown, unwindSession, hr, hb], hdown⟩

/-- A recording is opened on an idle pipeline, or the pipeline is as idle as before. -/
theorem openRecord {make : PumpMaker} (hmake : FairMaker make) {attr : PipelineAttr}
    {base : Stack} {l : Layout} {main : Handle} (hc : l.Carries attr base false)
    (hm : l.main = some main)
    (hs : Site.At (fun id => .pump id ∈ base.steps) l.base l.base ⟨{}, p⟩) :
    match p.openRecord make attr l.vi main with
    | (.ok s, q) => Stands q (some { attr, base, handles := l.handles, record := some s })
    | (.error _, q) => q.Drained →
      Site.At (fun id => .pump id ∈ base.steps) l.base l.base ⟨{}, q⟩ := by
  have h := (Build.builds_record hmake hc.fits hm).construct hs
  simp only [Plant.openRecord]
  cases hcons : p.construct (Build.record make attr l.vi main) with
  | mk answer q =>
      rw [hcons] at h
      cases answer with
      | error e => exact h
      | ok a =>
          obtain ⟨c, hsite, gdc, rgn, hf, rfl⟩ := h
          exact .recording (l := { l with gdc, rgn }) ⟨hf, hc.laid⟩ hm hsite

theorem openPhoto {make : PumpMaker} (hmake : FairMaker make) {attr : PipelineAttr}
    {base : Stack} {l : Layout} {jpeg : Handle} (hc : l.Carries attr base false)
    (hj : l.jpeg = some jpeg) (max : UInt32)
    (hs : Site.At (fun id => .pump id ∈ base.steps) l.base l.base ⟨{}, p⟩) :
    match p.openPhoto make l.vi jpeg max with
    | (.ok s, q) => Stands q (some { attr, base, handles := l.handles, photo := some s })
    | (.error _, q) => q.Drained →
      Site.At (fun id => .pump id ∈ base.steps) l.base l.base ⟨{}, q⟩ := by
  have h := (Build.builds_photo hmake hc.fits hj max).construct hs
  simp only [Plant.openPhoto]
  cases hcons : p.construct (Build.photo make l.vi jpeg max) with
  | mk answer q =>
      rw [hcons] at h
      cases answer with
      | error e => exact h
      | ok a =>
          obtain ⟨c, hsite, rfl⟩ := h
          exact .shooting (s := ⟨a.2, a.1, max⟩) hc hj hsite

/-- A build on a clear plant ends with a pipeline that stands, or with a clear plant. -/
theorem build {make : PumpMaker} (hmake : FairMaker make) (attr : PipelineAttr)
    (hs : Stands p none) :
    match p.build make attr with
    | (.ok b, q) => q.Drained → Stands q (some b)
    | (.error _, q) => q.Drained → Stands q none := by
  obtain ⟨hs⟩ := hs
  have h := (Build.builds_base hmake attr).construct hs
  simp only [Plant.build]
  cases hcons : p.construct (Build.base make attr) with
  | mk answer q =>
      rw [hcons] at h
      cases answer with
      | error e => exact fun hd => .down (h hd)
      | ok a =>
          obtain ⟨handles, base⟩ := a
          obtain ⟨_, hsite, l, hf, rfl, rfl⟩ := h
          have hc : l.Carries attr base false := ⟨hf, hsite.laid⟩
          have hidle : q.Drained → Stands q (some { attr, base, handles := l.handles }) :=
            fun _ => .idle hc hsite.rise
          cases hm : l.handles.main with
          | none => simpa only [hm] using hidle
          | some main =>
              cases attr.recordOnInit with
              | false => simpa only [hm] using hidle
              | true =>
                  have hopen := openRecord hmake hc hm hsite.rise
                  simp only [hm]
                  cases ho : q.openRecord make attr l.handles.vi main with
                  | mk answer q' =>
                      rw [show l.vi = l.handles.vi from rfl, ho] at hopen
                      cases answer with
                      | ok s => exact fun _ => hopen
                      | error e =>
                          intro hd
                          have hd' := (Stack.unwind_steps base q').drained hd
                          exact (unwind_base hc (hopen hd') hd).2

end Stands

namespace Orchestrator

open Stands

theorem fairMaker_makePump (o : Orchestrator) : FairMaker o.makePump :=
  ⟨fun _ _ _ => ⟨nofun, nofun, nofun⟩, fun _ _ _ => rfl⟩

theorem Transition.stands {shooting : Prop} {o o' : Orchestrator}
    (h : Transition shooting o o') (hs : Stands o.plant o.built) (hd : o'.plant.Drained) :
    Stands o'.plant o'.built := by
  cases h with
  | settings => exact hs
  | @build attr b plant down h =>
      rw [down] at hs
      have hb := hs.build o.fairMaker_makePump attr
      rw [h] at hb
      exact hb hd
  | @buildFails attr e plant down h =>
      rw [down] at hs
      have hb := hs.build o.fairMaker_makePump attr
      rw [h] at hb
      exact down ▸ hb hd
  | tearDown up =>
      rw [up] at hs
      exact (hs.tearDown hd).2
  | setInput up vi =>
      rw [up] at hs
      exact up ▸ hs.setInput vi
  | noteInput up vi =>
      rw [up] at hs
      cases hs with
      | @idle attr base l carries site =>
          exact .idle (carries.noteInput vi) site
      | @recording attr base l main s carries encoder site =>
          exact .recording (carries.noteInput vi) encoder site
      | @shooting attr base l jpeg s carries encoder site =>
          exact .shooting (carries.noteInput vi) encoder site
  | @openRecord b main s plant up idle free encoder h =>
      obtain ⟨attr, base, l, rfl, carries, site⟩ := (up ▸ hs).sessionless idle free
      have hr := Stands.openRecord o.fairMaker_makePump carries encoder site
      rw [show l.vi = l.handles.vi from rfl, h] at hr
      exact hr
  | openRecordFails up idle free encoder h =>
      obtain ⟨attr, base, l, rfl, carries, site⟩ := (up ▸ hs).sessionless idle free
      have hr := Stands.openRecord o.fairMaker_makePump carries encoder site
      rw [show l.vi = l.handles.vi from rfl, h] at hr
      exact up ▸ .idle carries (hr hd)
  | stopRecord up session =>
      rw [up] at hs
      cases hs with
      | @recording attr base l main s carries encoder site =>
          cases session
          exact .recording carries encoder site.stopPumps
      | idle => cases session
      | shooting => cases session
  | closeRecord up session =>
      rw [up] at hs
      cases hs with
      | @recording attr base l main s carries encoder site =>
          cases session
          exact unrecorded carries (site.unwind hd).2
      | idle => cases session
      | shooting => cases session
  | @waitPhoto b s up session =>
      exact hs.transport fun site => site.quiet (s.isDrained_steps o.plant)
  | closePhoto up session =>
      rw [up] at hs
      cases hs with
      | @shooting attr base l jpeg s carries encoder site =>
          cases session
          exact .idle carries (site.unwind hd).2
      | idle => cases session
      | recording => cases session
  | @openPhoto b jpeg count s plant allowed up idle free encoder h =>
      obtain ⟨attr, base, l, rfl, carries, site⟩ := (up ▸ hs).sessionless idle free
      have hr := Stands.openPhoto o.fairMaker_makePump carries encoder count site
      rw [show l.vi = l.handles.vi from rfl, h] at hr
      exact hr
  | @openPhotoFails b jpeg count e plant allowed up idle free encoder h =>
      obtain ⟨attr, base, l, rfl, carries, site⟩ := (up ▸ hs).sessionless idle free
      have hr := Stands.openPhoto o.fairMaker_makePump carries encoder count site
      rw [show l.vi = l.handles.vi from rfl, h] at hr
      exact up ▸ .idle carries (hr hd)

theorem Transitions.stands {shooting : Prop} {o o' : Orchestrator}
    (h : Transitions shooting o o') (hk : o.Kinded)
    (hs : o.plant.Drained → Stands o.plant o.built) (hd : o'.plant.Drained) :
    Stands o'.plant o'.built := by
  induction h with
  | refl => exact hs hd
  | tail h ht ih =>
      have hsteps := ht.staffed (Transitions.staffed h hk).1
      exact ht.stands (ih (hsteps.drained hd)) hd

end Orchestrator
end CameraPipeline
