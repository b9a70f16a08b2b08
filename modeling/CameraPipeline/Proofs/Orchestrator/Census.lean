import Mathlib.Data.List.Perm.Basic
import CameraPipeline.Proofs.Orchestrator.Run

/-!
The census of a pipeline. After any run in which all stopped pumps drained and no failure was
injected on what gives back, the server holds what the pipeline's attributes and sessions call
for, and nothing else.
-/

namespace CameraPipeline

namespace Layout

variable {l : Layout} {attr : PipelineAttr} {recording : Bool}

theorem Fits.live_base_iff (hf : l.Fits attr recording) (h : Handle) :
    l.base.Live h ↔ h ∈ l.baseChannels := by
  refine ⟨fun hl => ?_, hf.live_base⟩
  rw [Circuit.Live, hf.node?_base] at hl
  split at hl
  · rename_i hs
    simp [baseChannels, hs]
  · split at hl
    · assumption
    · cases hl

theorem nodup_fill {hs : List Handle} {h : Option Handle} (hn : hs.Nodup)
    (hh : ∀ k, h = some k → k ∉ hs) : (hs ++ h.toList).Nodup := by
  cases h with
  | none => simpa using hn
  | some k =>
      refine List.nodup_append.mpr ⟨hn, List.nodup_singleton k, ?_⟩
      intro a ha b hb heq
      subst heq
      exact hh k rfl (List.mem_singleton.mp hb ▸ ha)

/-- No channel has two roles: the roles ask for different kinds, and the encoders differ. -/
theorem Fits.nodup (hf : l.Fits attr recording) : l.channels.Nodup := by
  have hvi := hf.vi
  have hvpss := hf.vpss.2
  have hvo := hf.vo.2
  have hmain := hf.main.2
  have hsub := hf.sub.2
  have hjpeg := hf.jpeg.2
  have hgdc := hf.gdc.2
  have hrgn := hf.rgn.2
  have henc := hf.encoders
  refine nodup_fill (nodup_fill (nodup_fill (nodup_fill (nodup_fill (nodup_fill (nodup_fill
    (List.nodup_singleton l.vi) ?_) ?_) ?_) ?_) ?_) ?_) ?_ <;>
    intro k hk <;>
    simp only [baseChannels, List.mem_append, Option.mem_toList, List.mem_singleton] <;>
    grind

section Base

theorem linked_base (l : Layout) (k : Link) : l.base.linked k ↔ k ∈ l.links false false := by
  obtain ⟨vi, display, main, sub, jpeg, gdc, rgn⟩ := l
  obtain _ | ⟨vpss, vo⟩ := display <;> cases main <;> cases sub <;> cases jpeg <;>
    simp [base, links, source, Circuit.addDisplay, Circuit.addSome, Circuit.addSub, Circuit.add,
      Circuit.receive, Circuit.connect, Circuit.empty] <;> grind

theorem Fits.receives_base (hf : l.Fits attr recording) (h : Handle) (quota : Quota) :
    (l.base.node? h).bind (·.receiving) = some quota ↔ (h, quota) ∈ l.receiving false none := by
  rw [hf.node?_base]
  simp only [receiving]
  split
  · simp_all [eq_comm]
  · split <;> simp_all

end Base

section Recorded

variable {main : Handle} (hm : l.main = some main)

include hm

theorem Fits.live_recorded_iff (hf : l.Fits attr recording) (h : Handle) :
    (l.recorded main).Live h ↔ h ∈ l.channels := by
  have hb := hf.live_base_iff h
  have hmain : main ∈ l.baseChannels := by simp [baseChannels, hm]
  simp only [Circuit.Live, node?_recorded, channels, List.mem_append, Option.mem_toList] at *
  grind

theorem linked_recorded (k : Link) :
    (l.recorded main).linked k ↔ k ∈ l.links true false := by
  have hr : (l.recorded main).linked k ↔ l.base.linked k ∨ k ∈ l.recordLinks main := by
    cases hg : l.gdc <;> cases hr : l.rgn <;>
      simp [recorded, linkRecord, recordLinks, hg, hr, Circuit.addSome, Circuit.overlay,
        Circuit.add, Circuit.receive, Circuit.connect] <;> grind
  rw [hr, l.linked_base k]
  simp [links, hm, or_assoc]

theorem Fits.receives_recorded (hf : l.Fits attr recording) (h : Handle) (quota : Quota) :
    ((l.recorded main).node? h).bind (·.receiving) = some quota ↔
      (h, quota) ∈ l.receiving true none := by
  have hb := hf.receives_base h quota
  have hmain := hf.main.2
  have hsub := hf.sub.2
  have hgdc := hf.gdc.2
  have hrgn := hf.rgn.2
  rw [node?_recorded]
  simp only [receiving, hm] at *
  grind

end Recorded

section Shot

variable {jpeg : Handle} (hj : l.jpeg = some jpeg) (max : UInt32)

include hj

theorem Fits.live_shot_iff (hf : l.Fits attr recording) (h : Handle) :
    (l.shot jpeg max).Live h ↔ h ∈ l.baseChannels := by
  have hb := hf.live_base_iff h
  have hjpeg : jpeg ∈ l.baseChannels := by simp [baseChannels, hj]
  simp only [Circuit.Live, node?_shot] at *
  grind

theorem linked_shot (k : Link) : (l.shot jpeg max).linked k ↔ k ∈ l.links false true := by
  have hr : (l.shot jpeg max).linked k ↔ l.base.linked k ∨ k = ⟨l.vi, jpeg⟩ := by
    simp [shot, Circuit.receive, Circuit.connect]
    grind
  rw [hr, l.linked_base k]
  simp [links, hj, or_assoc]

theorem Fits.receives_shot (hf : l.Fits attr recording) (h : Handle) (quota : Quota) :
    ((l.shot jpeg max).node? h).bind (·.receiving) = some quota ↔
      (h, quota) ∈ l.receiving false (some max) := by
  have hb := hf.receives_base h quota
  have hjpeg := hf.jpeg.2
  have hsub := hf.sub.2
  rw [node?_shot]
  simp only [receiving, hj] at *
  grind

end Shot

/-- What a server holds: the channels of a layout, its links, and what its encoders may give. -/
structure Census (l : Layout) (recording : Bool) (photo : Option UInt32) (s : Server) : Prop where
  live : s.live.Perm l.channels
  binds : ∀ k, k ∈ s.binds ↔ k ∈ l.links recording photo.isSome
  receiving : ∀ h quota, (s.channels.get? h).bind (·.receiving) = some quota ↔
    (h, quota) ∈ l.receiving recording photo
  overlay : ∀ h, l.rgn = some h → (s.attrOf h).bind (·.overlaid?) = l.main

theorem Census.of_circuit {photo : Option UInt32} {s : Server} (hf : l.Fits attr recording)
    {c : Circuit} (hc : s.circuit = c) (hlive : ∀ h, c.Live h ↔ h ∈ l.channels)
    (hlinked : ∀ k, c.linked k ↔ k ∈ l.links recording photo.isSome)
    (hreceives : ∀ h quota, (c.node? h).bind (·.receiving) = some quota ↔
      (h, quota) ∈ l.receiving recording photo)
    (hover : ∀ h, l.rgn = some h → (c.node? h).bind (·.overlaid) = l.main) :
    l.Census recording photo s := by
  subst hc
  refine ⟨?_, fun k => ?_, fun h quota => ?_, fun h hr => ?_⟩
  · refine (List.perm_ext_iff_of_nodup s.channels.keys_nodup hf.nodup).mpr fun h => ?_
    exact Server.mem_live_iff.trans (hlive h)
  · exact Server.mem_binds_iff.trans (hlinked k)
  · rw [← hreceives, Server.node?_circuit]
    cases s.channels.get? h <;> rfl
  · rw [← hover h hr, Server.node?_circuit, Server.attrOf]
    cases s.channels.get? h <;> rfl

theorem Fits.channels_eq (hf : l.Fits attr false) : l.channels = l.baseChannels := by
  have hg : l.gdc = none := by simpa using hf.gdc.1
  have hr : l.rgn = none := by simpa using hf.rgn.1
  simp [channels, hg, hr]

theorem Fits.rgn_ne (hf : l.Fits attr false) (h : Handle) : l.rgn ≠ some h := by
  have hr : l.rgn = none := by simpa using hf.rgn.1
  simp [hr]

end Layout

/-- A pipeline that stands has what it calls for. -/
theorem Stands.census {p : Plant} {b : Built} (hs : Stands p (some b)) :
    ∃ l : Layout, l.Fits b.attr b.record.isSome ∧
      l.Census b.record.isSome (b.photo.map (·.max)) p.server := by
  cases hs with
  | @idle attr base l carries site =>
      have hf := carries.fits
      refine ⟨l, hf, .of_circuit hf site.circuit (fun h => ?_) l.linked_base hf.receives_base
        fun h hr => absurd hr (hf.rgn_ne h)⟩
      rw [hf.channels_eq]
      exact hf.live_base_iff h
  | @recording attr base l main s carries encoder site =>
      have hf := carries.fits
      refine ⟨l, hf, .of_circuit hf site.circuit (hf.live_recorded_iff encoder)
        (Layout.linked_recorded encoder) (hf.receives_recorded encoder) fun h hr => ?_⟩
      rw [Layout.node?_recorded, if_pos hr, encoder]
      rfl
  | @shooting attr base l jpeg s carries encoder site =>
      have hf := carries.fits
      refine ⟨l, hf, .of_circuit hf site.circuit (fun h => ?_) (Layout.linked_shot encoder s.max)
        (hf.receives_shot encoder s.max) fun h hr => absurd hr (hf.rgn_ne h)⟩
      rw [hf.channels_eq]
      exact hf.live_shot_iff encoder s.max h

theorem Stands.clear {p : Plant} (hs : Stands p none) :
    p.server.live = [] ∧ p.server.binds = [] ∧ p.server.outstanding = 0 := by
  obtain ⟨site⟩ := hs
  refine Server.clear_of_circuit (fun h hl => ?_) fun k hl => ?_
  · rw [site.circuit] at hl
    cases hl
  · rw [site.circuit] at hl
    cases hl

namespace Orchestrator

/-- After every run the server holds what the pipeline calls for, and nothing without one. -/
theorem after_census {o : Orchestrator} (hf : o.Fresh) {events : List Event}
    (he : ∀ e ∈ events, e.Spares) (hd : (o.after events).plant.Drained) :
    match (o.after events).built with
    | none =>
      (o.after events).plant.server.live = [] ∧ (o.after events).plant.server.binds = [] ∧
        (o.after events).plant.server.outstanding = 0
    | some b =>
      ∃ l : Layout, l.Fits b.attr b.record.isSome ∧
        l.Census b.record.isSome (b.photo.map (·.max)) (o.after events).plant.server := by
  have hs := after_stands hf he hd
  cases hb : (o.after events).built with
  | none => exact (hb ▸ hs).clear
  | some b => exact (hb ▸ hs).census

/-- A build that fails at its link, and one that succeeds. -/
def twoBuilds : List Event :=
  [.inject ⟨.bind, none, 1, Nat.one_pos⟩, .command .init, .command .init]

theorem after_census_twoBuilds :
    ∃ b, (bare.after twoBuilds).built = some b ∧ b.record.isSome ∧
      ∃ l : Layout, l.Fits b.attr b.record.isSome ∧
        l.Census b.record.isSome (b.photo.map (·.max)) (bare.after twoBuilds).plant.server := by
  have he : ∀ e ∈ twoBuilds, e.Spares := by simp [twoBuilds, Event.Spares, Operation.givesBack]
  have hd : (bare.after twoBuilds).plant.Drained := by decide +kernel
  have hr : (bare.after twoBuilds).isRecording = true := by decide +kernel
  have hc := after_census fresh_bare he hd
  cases hb : (bare.after twoBuilds).built with
  | none => simp [isRecording, recordSession?, hb] at hr
  | some b =>
      rw [hb] at hc
      exact ⟨b, rfl, by simpa [isRecording, recordSession?, hb] using hr, hc⟩

end Orchestrator
end CameraPipeline
