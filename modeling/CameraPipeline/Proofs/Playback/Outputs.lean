import CameraPipeline.Playback.Control
import CameraPipeline.Proofs.Orchestrator.Layout
import CameraPipeline.Proofs.Plant.Construct

/-!
The decode paths of a clip: a decoder bound to an output for each track that there is. Building
them leads from any circuit to the one with these channels and links added.
-/

namespace CameraPipeline

namespace Circuit

/-- A decoder and its output. -/
def addPath (c : Circuit) : Option (Handle × Handle) → Circuit
  | none => c
  | some (decoder, output) => ((c.add decoder).add output).connect decoder output

theorem node?_addPath (c : Circuit) (path : Option (Handle × Handle)) (h : Handle) :
    (c.addPath path).node? h =
      if h ∈ path.elim [] fun (decoder, output) => [decoder, output] then some ⟨none, true, none⟩
      else c.node? h := by
  obtain _ | ⟨d, v⟩ := path
  · simp [addPath]
  · by_cases hv : h = v <;> by_cases hd : h = d <;> simp [addPath, add, connect, hv, hd]

theorem linked_addPath (c : Circuit) (path : Option (Handle × Handle)) (l : Link) :
    (c.addPath path).linked l ↔ c.linked l ∨ path = some (l.source, l.target) := by
  obtain _ | ⟨d, v⟩ := path
  · simp [addPath]
  · obtain ⟨source, target⟩ := l
    simp [addPath, add, connect]
    grind

end Circuit

/-- The channels that a clip is played through, for each track a decoder and its output. -/
structure Outputs where
  picture : Option (Handle × Handle) := none
  sound : Option (Handle × Handle) := none

namespace Outputs

def circuit (o : Outputs) (ground : Circuit) : Circuit :=
  (ground.addPath o.picture).addPath o.sound

def paths (o : Outputs) : List (Handle × Handle) := o.picture.toList ++ o.sound.toList

def channels (o : Outputs) : List Handle :=
  o.paths.flatMap fun (decoder, output) => [decoder, output]

def links (o : Outputs) : List Link := o.paths.map fun (decoder, output) => ⟨decoder, output⟩

/-- There is a path for each track of the clip, with channels of the right kinds. -/
structure Fits (o : Outputs) (info : MediaInfo) : Prop where
  picture : o.picture.isSome = info.video.isSome
  sound : o.sound.isSome = info.audio.isSome
  pictureKinds : ∀ decoder output, o.picture = some (decoder, output) →
    decoder.kind = .vdec ∧ output.kind = .vo
  soundKinds : ∀ decoder output, o.sound = some (decoder, output) →
    decoder.kind = .adec ∧ output.kind = .ao

variable {o : Outputs} {info : MediaInfo} {ground : Circuit} {h : Handle} {l : Link}

theorem node?_circuit (o : Outputs) (ground : Circuit) (h : Handle) :
    (o.circuit ground).node? h =
      if h ∈ o.channels then some ⟨none, true, none⟩ else ground.node? h := by
  obtain ⟨_ | ⟨d, v⟩, _ | ⟨d', v'⟩⟩ := o <;>
    simp [circuit, Circuit.node?_addPath, channels, paths]
  grind

theorem linked_circuit (o : Outputs) (ground : Circuit) (l : Link) :
    (o.circuit ground).linked l ↔ ground.linked l ∨ l ∈ o.links := by
  obtain ⟨source, target⟩ := l
  obtain ⟨_ | ⟨d, v⟩, _ | ⟨d', v'⟩⟩ := o <;>
    simp [circuit, Circuit.linked_addPath, links, paths] <;> grind

/-- No channel has two roles, as the roles ask for different kinds. -/
theorem Fits.nodup (hf : o.Fits info) : o.channels.Nodup := by
  refine List.Nodup.of_map Handle.kind ?_
  have hp := hf.pictureKinds
  have hs := hf.soundKinds
  obtain ⟨_ | ⟨d, v⟩, _ | ⟨d', v'⟩⟩ := o <;> simp_all [channels, paths]

/-- Beside what was there before, the server holds the channels of the paths, enabled, and their
binds, and nothing else. -/
structure Held (o : Outputs) (before s : Server) : Prop where
  live : ∀ h, h ∈ s.live ↔ h ∈ before.live ∨ h ∈ o.channels
  binds : ∀ l, l ∈ s.binds ↔ l ∈ before.binds ∨ l ∈ o.links
  new : ∀ h ∈ o.channels, h ∉ before.live
  nodup : o.channels.Nodup
  enabled : ∀ h ∈ o.channels, ∃ c, s.channels.get? h = some c ∧ c.enabled ∧ c.receiving = none
  others : ∀ h ∈ before.live, s.circuit.node? h = before.circuit.node? h

theorem Held.of_circuit {before s : Server} (hc : s.circuit = o.circuit before.circuit)
    (hnew : ∀ h ∈ o.channels, ¬before.circuit.Live h) (hnodup : o.channels.Nodup) :
    o.Held before s where
  live h := by
    rw [Server.mem_live_iff, Server.mem_live_iff, hc, Circuit.Live, node?_circuit]
    split <;> simp [Circuit.Live, *]
  binds l := by rw [Server.mem_binds_iff, Server.mem_binds_iff, hc, linked_circuit]
  new h hm := fun hl => hnew h hm (Server.mem_live_iff.mp hl)
  nodup := hnodup
  enabled h hm := by
    have hnode : s.circuit.node? h = some ⟨none, true, none⟩ := by
      rw [hc, node?_circuit, if_pos hm]
    obtain ⟨c, hget, hchannel⟩ := Option.map_eq_some_iff.mp hnode
    exact ⟨c, hget, congrArg Node.enabled hchannel, congrArg Node.receiving hchannel⟩
  others h hl := by
    rw [hc, node?_circuit, if_neg fun hm => hnew h hm (Server.mem_live_iff.mp hl)]

end Outputs

namespace Player

open Construction

variable {below : PumpId → Prop} {ground c : Circuit}

theorem builds_path {kind kind' : ChannelKind} {attr attr' : ChannelAttr}
    (hattr : attr.overlaid? = none) (hattr' : attr'.overlaid? = none) :
    Builds below ground c (do
      let decoder ← createEnabled kind attr
      let output ← createEnabled kind' attr'
      Construction.bind decoder output
      return decoder) fun decoder c' =>
        ∃ output, decoder.kind = kind ∧ output.kind = kind' ∧ c.node? decoder = none ∧
          c.node? output = none ∧ c' = c.addPath (some (decoder, output)) := by
  refine .bind (builds_createEnabled kind attr) ?_
  intro decoder _ hpost
  obtain ⟨hkind, hnew, rfl⟩ := hpost
  refine .bind (builds_createEnabled kind' attr') ?_
  intro output _ hpost
  obtain ⟨hkind', hnew', rfl⟩ := hpost
  refine .bind (builds_bind decoder output) ?_
  intro _ _ heq
  subst heq
  refine .pure ⟨output, hkind, hkind', hnew, ?_, by rw [hattr, hattr']; rfl⟩
  rw [Circuit.node?_set] at hnew'
  split at hnew'
  · cases hnew'
  · exact hnew'

/-- A path for the track, if the clip has it. -/
theorem builds_track {α : Type} {kind kind' : ChannelKind} {part : Option α}
    {steps : α → Construction Handle}
    (hsteps : ∀ a, Builds below ground c (steps a) fun decoder c' =>
      ∃ output, decoder.kind = kind ∧ output.kind = kind' ∧ c.node? decoder = none ∧
        c.node? output = none ∧ c' = c.addPath (some (decoder, output))) :
    Builds below ground c (part.mapM steps) fun decoder c' =>
      ∃ path : Option (Handle × Handle), path.isSome = part.isSome ∧
        (∀ d v, path = some (d, v) → d.kind = kind ∧ v.kind = kind' ∧ c.node? d = none ∧
          c.node? v = none) ∧
        decoder = path.map (·.1) ∧ c' = c.addPath path := by
  cases part with
  | none => exact .pure ⟨none, rfl, by simp, rfl, rfl⟩
  | some a =>
      refine .bind (hsteps a) ?_
      intro decoder _ hpost
      obtain ⟨output, hkind, hkind', hnew, hnew', rfl⟩ := hpost
      refine .pure ⟨some (decoder, output), rfl, ?_, rfl, rfl⟩
      rintro _ _ ⟨⟩
      exact ⟨hkind, hkind', hnew, hnew'⟩

theorem builds_outputs (info : MediaInfo) :
    Builds below ground ground (buildOutputs info) fun decoders c' =>
      ∃ o : Outputs, o.Fits info ∧ (∀ h ∈ o.channels, ¬ground.Live h) ∧
        decoders = (o.picture.map (·.1), o.sound.map (·.1)) ∧ c' = o.circuit ground := by
  refine .bind (builds_track fun _ => builds_path rfl rfl) ?_
  intro _ _ hpost
  obtain ⟨picture, hpicture, hpaths, rfl, rfl⟩ := hpost
  refine .bind (builds_track fun _ => builds_path rfl rfl) ?_
  intro _ _ hpost
  obtain ⟨sound, hsound, hpaths', rfl, rfl⟩ := hpost
  refine .pure ⟨⟨picture, sound⟩, ⟨hpicture, hsound, ?_, ?_⟩, ?_, rfl, rfl⟩
  · exact fun d v h => ⟨(hpaths d v h).1, (hpaths d v h).2.1⟩
  · exact fun d v h => ⟨(hpaths' d v h).1, (hpaths' d v h).2.1⟩
  · intro h hm
    rw [Circuit.not_live_iff]
    obtain ⟨⟨d, v⟩, hpath, hh⟩ := List.mem_flatMap.mp hm
    have hcases : h = d ∨ h = v := by simpa using hh
    obtain hpath | hpath := List.mem_append.mp hpath
    · obtain ⟨-, -, hd, hv⟩ := hpaths d v (Option.mem_toList.mp hpath)
      exact hcases.elim (· ▸ hd) (· ▸ hv)
    · obtain ⟨-, -, hd, hv⟩ := hpaths' d v (Option.mem_toList.mp hpath)
      have hnode : (ground.addPath picture).node? h = none := hcases.elim (· ▸ hd) (· ▸ hv)
      rw [Circuit.node?_addPath] at hnode
      split at hnode
      · cases hnode
      · exact hnode

theorem meets_path (kind kind' : ChannelKind) (attr attr' : ChannelAttr) :
    Meets (fun _ => False) (do
      let decoder ← createEnabled kind attr
      let output ← createEnabled kind' attr'
      Construction.bind decoder output
      return decoder) fun _ => True :=
  .bind (meets_createEnabled kind attr) fun _ _ =>
    .bind (meets_createEnabled kind' attr') fun _ _ =>
      .bind (meets_bind _ _) fun _ _ => .pure trivial

theorem meets_track {α : Type} {part : Option α} {steps : α → Construction Handle}
    (hsteps : ∀ a, Meets (fun _ => False) (steps a) fun _ => True) :
    Meets (fun _ => False) (part.mapM steps) fun decoder => decoder.isSome = part.isSome := by
  cases part with
  | none => exact .pure rfl
  | some a => exact .bind (hsteps a) fun _ _ => .pure rfl

/-- No pump is started, and there is a decoder for each track of the clip. -/
theorem meets_outputs (info : MediaInfo) :
    Meets (fun _ => False) (buildOutputs info) fun decoders =>
      decoders.1.isSome = info.video.isSome ∧ decoders.2.isSome = info.audio.isSome :=
  .bind (meets_track fun _ => meets_path _ _ _ _) fun _ hvideo =>
    .bind (meets_track fun _ => meets_path _ _ _ _) fun _ haudio => .pure ⟨hvideo, haudio⟩

end Player
end CameraPipeline
