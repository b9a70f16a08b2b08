import CameraPipeline.Orchestrator.Build
import CameraPipeline.Proofs.Server.Circuit

/-!
The circuits of a pipeline. A layout names the channels in their roles; the circuit of a layout is
given twice, as what the stages add one after the other and as a list of channels, links and
receiving channels.
-/

namespace CameraPipeline

namespace Circuit

def add (c : Circuit) (h : Handle) : Circuit := c.set h (some ⟨none, true, none⟩)

def addSome (c : Circuit) : Option Handle → Circuit
  | none => c
  | some h => c.add h

def receive (c : Circuit) (h : Handle) (quota : Quota) : Circuit :=
  c.set h (some ⟨none, true, some quota⟩)

def connect (c : Circuit) (source target : Handle) : Circuit := c.setLink ⟨source, target⟩ true

def overlay (c : Circuit) (base : Handle) : Option Handle → Circuit
  | none => c
  | some h => c.set h (some ⟨some base, false, none⟩)

/-- Scaler and output behind the input. -/
def addDisplay (c : Circuit) (vi : Handle) : Option (Handle × Handle) → Circuit
  | none => c
  | some (vpss, vo) => (((c.add vpss).connect vi vpss).add vo).connect vpss vo

/-- The network encoder, receiving, behind `source`. -/
def addSub (c : Circuit) (source : Handle) : Option Handle → Circuit
  | none => c
  | some sub => ((c.add sub).receive sub .unlimited).connect source sub

end Circuit

/-- The channels of a pipeline, those of a recording included. The display is a scaler and an
output. -/
structure Layout where
  vi : Handle
  display : Option (Handle × Handle)
  main : Option Handle
  sub : Option Handle
  jpeg : Option Handle
  gdc : Option Handle := none
  rgn : Option Handle := none

namespace Layout

def handles (l : Layout) : BaseHandles := ⟨l.vi, l.main, l.jpeg⟩

def source (l : Layout) : Handle := (l.display.map (·.1)).getD l.vi

/-- Everything but the sessions. -/
def base (l : Layout) : Circuit :=
  ((((Circuit.empty.add l.vi).addDisplay l.vi l.display).addSome l.main).addSub l.source
    l.sub).addSome l.jpeg

def linkRecord (l : Layout) (c : Circuit) (main : Handle) : Circuit :=
  match l.gdc with
  | some gdc => (c.connect l.vi gdc).connect gdc main
  | none => c.connect l.vi main

def recorded (l : Layout) (main : Handle) : Circuit :=
  l.linkRecord (((l.base.receive main .unlimited).addSome l.gdc).overlay main l.rgn) main

def shot (l : Layout) (jpeg : Handle) (max : UInt32) : Circuit :=
  (l.base.receive jpeg (.count max)).connect l.vi jpeg

/-- The role is filled if it is asked for, by a channel of the kind. -/
def Filled (kind : ChannelKind) (h : Option Handle) (asked : Bool) : Prop :=
  h.isSome = asked ∧ ∀ k, h = some k → k.kind = kind

theorem Filled.none (kind : ChannelKind) : Filled kind .none false := ⟨rfl, nofun⟩

theorem Filled.some {kind : ChannelKind} {h : Handle} (hk : h.kind = kind) :
    Filled kind (.some h) true := by
  refine ⟨rfl, ?_⟩
  intro _ heq
  cases heq
  exact hk

/-- The layout has the channels that the attributes ask for. -/
structure Fits (l : Layout) (attr : PipelineAttr) (recording : Bool) : Prop where
  vi : l.vi.kind = .vi
  vpss : Filled .vpss (l.display.map (·.1)) attr.display.isSome
  vo : Filled .vo (l.display.map (·.2)) attr.display.isSome
  main : Filled .venc l.main attr.main.isSome
  sub : Filled .venc l.sub attr.sub.isSome
  encoders : ∀ h, l.main = some h → l.sub ≠ some h
  jpeg : Filled .jpeg l.jpeg attr.photo.isSome
  gdc : Filled .gdc l.gdc (recording && attr.gdc.isSome)
  rgn : Filled .rgn l.rgn (recording && attr.osd.isSome)

def baseChannels (l : Layout) : List Handle :=
  [l.vi] ++ (l.display.map (·.1)).toList ++ (l.display.map (·.2)).toList ++ l.main.toList ++
    l.sub.toList ++ l.jpeg.toList

def channels (l : Layout) : List Handle := l.baseChannels ++ l.gdc.toList ++ l.rgn.toList

def recordLinks (l : Layout) (main : Handle) : List Link :=
  match l.gdc with
  | some gdc => [⟨l.vi, gdc⟩, ⟨gdc, main⟩]
  | none => [⟨l.vi, main⟩]

def links (l : Layout) (recording photo : Bool) : List Link :=
  (l.display.toList.flatMap fun (vpss, vo) => [⟨l.vi, vpss⟩, ⟨vpss, vo⟩]) ++
    (l.sub.toList.map fun sub => ⟨l.source, sub⟩) ++
    (if recording then l.main.toList.flatMap l.recordLinks else []) ++
    (if photo then l.jpeg.toList.map fun jpeg => ⟨l.vi, jpeg⟩ else [])

def receiving (l : Layout) (recording : Bool) (photo : Option UInt32) : List (Handle × Quota) :=
  (if recording then l.main.toList.map fun main => (main, .unlimited) else []) ++
    (l.sub.toList.map fun sub => (sub, .unlimited)) ++
    (photo.toList.flatMap fun max => l.jpeg.toList.map fun jpeg => (jpeg, .count max))

section Lookup

variable {l : Layout} {attr : PipelineAttr} {recording : Bool}

theorem Fits.node?_base (hf : l.Fits attr recording) (h : Handle) :
    l.base.node? h =
      if l.sub = some h then some ⟨none, true, some .unlimited⟩
      else if h ∈ l.baseChannels then some ⟨none, true, none⟩ else none := by
  obtain ⟨vi, display, main, sub, jpeg, gdc, rgn⟩ := l
  have hj : ∀ j, jpeg = some j → sub ≠ some j := by
    intro j heq hsame
    subst heq
    subst hsame
    have := hf.jpeg.2 j rfl
    have := hf.sub.2 j rfl
    simp_all
  obtain _ | ⟨vpss, vo⟩ := display <;> cases main <;> cases sub <;> cases jpeg <;>
    simp [base, Circuit.addDisplay, Circuit.addSome, Circuit.addSub, Circuit.add, Circuit.receive,
      Circuit.connect, Circuit.empty, baseChannels] <;> grind

theorem Fits.live_base (hf : l.Fits attr recording) {h : Handle} (hh : h ∈ l.baseChannels) :
    l.base.Live h := by
  rw [Circuit.Live, hf.node?_base]
  split <;> simp_all

theorem Fits.node?_main (hf : l.Fits attr recording) {main : Handle} (hm : l.main = some main) :
    l.base.node? main = some ⟨none, true, none⟩ := by
  rw [hf.node?_base, if_neg (hf.encoders main hm), if_pos (by simp [baseChannels, hm])]

theorem Fits.node?_jpeg (hf : l.Fits attr recording) {jpeg : Handle} (hj : l.jpeg = some jpeg) :
    l.base.node? jpeg = some ⟨none, true, none⟩ := by
  have hs : l.sub ≠ some jpeg := fun hs =>
    absurd ((hf.jpeg.2 jpeg hj).symm.trans (hf.sub.2 jpeg hs)) nofun
  rw [hf.node?_base, if_neg hs, if_pos (by simp [baseChannels, hj])]

theorem Fits.overlaid_base (hf : l.Fits attr recording) {h : Handle} {n : Node}
    (hn : l.base.node? h = some n) : n.overlaid = none := by
  rw [hf.node?_base] at hn
  split at hn
  · cases hn
    rfl
  · split at hn <;> cases hn
    rfl

theorem node?_recorded (l : Layout) (main h : Handle) :
    (l.recorded main).node? h =
      if l.rgn = some h then some ⟨some main, false, none⟩
      else if l.gdc = some h then some ⟨none, true, none⟩
      else if h = main then some ⟨none, true, some .unlimited⟩ else l.base.node? h := by
  obtain ⟨vi, display, main', sub, jpeg, gdc, rgn⟩ := l
  cases gdc <;> cases rgn <;>
    simp [recorded, linkRecord, Circuit.addSome, Circuit.overlay, Circuit.add, Circuit.receive,
      Circuit.connect, base, eq_comm]

theorem node?_shot (l : Layout) (jpeg : Handle) (max : UInt32) (h : Handle) :
    (l.shot jpeg max).node? h =
      if h = jpeg then some ⟨none, true, some (.count max)⟩ else l.base.node? h := rfl

end Lookup
end Layout
end CameraPipeline
