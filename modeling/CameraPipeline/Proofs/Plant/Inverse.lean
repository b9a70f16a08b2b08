import CameraPipeline.Proofs.Plant.Climb
import CameraPipeline.Proofs.Server.Reachable

/-!
What undoes a request. Where a request was carried out its inverse is permitted and leads back, the
counters of the server apart, with one exception: a new channel on which an overlay lay before it
was there cannot be destroyed.
-/

namespace CameraPipeline

def Channel.uncounted (c : Channel) : Channel := { c with produced := 0 }

namespace Server

/-- The same channels and links. Counters, the log and failures to be injected may differ. -/
def Agrees (s t : Server) : Prop :=
  s.channels.map Channel.uncounted = t.channels.map Channel.uncounted ∧ s.links = t.links

/-- The request changes what it sets: a channel to be enabled is not enabled yet, and one that is to
receive does not receive. -/
def Proper (s : Server) : Request → Prop
  | .enable h => ∀ c, s.channels.get? h = some c → c.enabled = false
  | .startReceiving h _ => ∀ c, s.channels.get? h = some c → c.receiving = none
  | _ => True

variable {s t u : Server} {h k : Handle} {c : Channel} {r : Request} {l : Link}

theorem agrees_iff : s.Agrees t ↔ (∀ h, (s.channels.get? h).map Channel.uncounted =
    (t.channels.get? h).map Channel.uncounted) ∧ s.links = t.links := by
  refine and_congr_left fun _ => ⟨fun heq h => ?_, fun hget => Table.ext_get? fun h => ?_⟩
  · rw [← Table.get?_map, heq, Table.get?_map]
  · rw [Table.get?_map, Table.get?_map, hget h]

theorem links_update (s : Server) (h : Handle) (f : Channel → Channel) :
    (s.update h f).links = s.links := by
  simp only [update]
  split <;> rfl

namespace Agrees

theorem refl (s : Server) : s.Agrees s := ⟨rfl, rfl⟩

theorem symm (h : s.Agrees t) : t.Agrees s := ⟨h.1.symm, h.2.symm⟩

theorem trans (h : s.Agrees t) (h' : t.Agrees u) : s.Agrees u :=
  ⟨h.1.trans h'.1, h.2.trans h'.2⟩

theorem circuit (ht : s.Agrees t) : s.circuit = t.circuit := by
  obtain ⟨hchannels, hlinks⟩ := agrees_iff.mp ht
  ext1
  · funext h
    have hnode := congrArg (Option.map Channel.node) (hchannels h)
    rw [Option.map_map, Option.map_map] at hnode
    exact hnode
  · funext l
    rw [linked_circuit, linked_circuit, hlinks]

theorem channel (ht : s.Agrees t) (hc : t.channels.get? h = some c) :
    ∃ d, s.channels.get? h = some d ∧ d.uncounted = c.uncounted := by
  have hget := (agrees_iff.mp ht).1 h
  rw [hc] at hget
  exact Option.map_eq_some_iff.mp hget

/-- An update of a channel is undone by one that takes its effect back. -/
theorem update {f g : Channel → Channel} (hc : s.channels.get? h = some c)
    (ht : t.Agrees (s.update h f))
    (hg : ∀ d, d.uncounted = (f c).uncounted → (g d).uncounted = c.uncounted) :
    (t.update h g).Agrees s := by
  obtain ⟨hchannels, hlinks⟩ := agrees_iff.mp ht
  refine agrees_iff.mpr ⟨fun k => ?_, ?_⟩
  · have hget := hchannels k
    rw [get?_update] at hget ⊢
    by_cases hk : k = h
    · subst hk
      rw [if_pos rfl, hc, Option.map_some, Option.map_some, Option.map_eq_some_iff] at hget
      obtain ⟨d, hd, heq⟩ := hget
      rw [if_pos rfl, hd, hc, Option.map_some, Option.map_some, Option.map_some, hg d heq]
    · rwa [if_neg hk] at hget ⊢
  · rw [links_update] at hlinks ⊢
    exact hlinks

end Agrees

/-- A permitted request is carried out and recorded, unless a failure is injected. -/
theorem perform_permitted (hp : s.permit r = .ok h) :
    (s.perform r).1 = .error .injected ∨ (s.perform r).1 = .ok h ∧
      (s.perform r).2.Agrees (s.carryOut h r) ∧ (s.perform r).2.log = s.log ++ [r.call h] := by
  simp only [perform]
  split
  · exact .inl rfl
  · rw [permit_strike, hp]
    dsimp only
    rw [carryOut_strike]
    exact .inr ⟨rfl, .refl _, congrArg (· ++ _) (log_carryOut s h r)⟩

theorem of_perform_ok (ho : s.perform r = (.ok h, t)) :
    s.permit r = .ok h ∧ t.Agrees (s.carryOut h r) ∧ t.log = s.log ++ [r.call h] := by
  have hp := (circuit_of_perform_ok ho).1
  obtain hhit | ⟨-, hagrees, hlog⟩ := perform_permitted hp
  · rw [ho] at hhit
    cases hhit
  · rw [ho] at hagrees hlog
    exact ⟨hp, hagrees, hlog⟩

/-- A refused request changes neither channels nor links, and is not recorded. -/
theorem perform_refused {fault : Fault} (ho : s.perform r = (.error fault, t)) :
    t.Agrees s ∧ t.log = s.log := by
  obtain ⟨fault', hf⟩ | ⟨k, hp, hf⟩ := perform_cases s r
  · rw [hf] at ho
    cases ho
    exact ⟨.refl _, rfl⟩
  · rw [hf] at ho
    cases ho

theorem exists_of_channel {f : Channel → Handle}
    (hp : (do let c ← s.channel h; return f c) = Except.ok k) :
    ∃ c, s.channels.get? h = some c := by
  cases hc : s.channel h with
  | error fault => rw [hc] at hp; cases hp
  | ok c => exact ⟨c, channel_ok.mp hc⟩

theorem live_of_get? (hc : s.channels.get? h = some c) : s.circuit.Live h := by
  rw [live_circuit, hc]
  rfl

theorem Agrees.circuit_after (ht : t.Agrees (s.carryOut h r)) :
    t.circuit = s.circuit.after h r := by
  rw [ht.circuit, circuit_carryOut]

section Undo

variable {kind : ChannelKind} {attr : ChannelAttr} {quota : Quota}

theorem undo_create (hs : s.Consistent) (hp : s.permit (.create kind attr) = .ok h)
    (ht : t.Agrees (s.carryOut h (.create kind attr))) (hover : ¬s.circuit.Overlaid h) :
    t.permit (.destroy h) = .ok h ∧ (t.carryOut h (.destroy h)).Agrees s := by
  obtain ⟨rfl, hbase⟩ := permit_create hp
  have hfresh := Circuit.not_live_iff.mpr (hs.numbered.fresh kind)
  have hnone : s.channels.get? ⟨kind, s.nextId kind⟩ = none := by
    simpa [live_circuit] using hfresh
  obtain ⟨d, hd, heq⟩ := ht.channel (Table.get?_insert_self _ _ _)
  have hcircuit := ht.circuit_after
  refine ⟨permit_destroy hd ?_ ?_ ?_ ?_ ?_, ?_⟩
  · exact congrArg Channel.enabled heq
  · exact congrArg Channel.receiving heq
  · exact congrArg Channel.outstanding heq
  · rw [hcircuit]
    exact fun hb => hfresh (hs.enabled_of_bound _ hb).live
  · rw [hcircuit]
    rintro ⟨k, n, hk, hn⟩
    rw [Circuit.after, Circuit.node?_set] at hk
    split at hk
    · cases hk
      exact hfresh (hbase _ hn)
    · exact hover ⟨k, n, hk, hn⟩
  · obtain ⟨hchannels, hlinks⟩ := agrees_iff.mp ht
    refine agrees_iff.mpr ⟨fun k => ?_, hlinks⟩
    have hk := hchannels k
    rw [carryOut, Table.get?_insert] at hk
    rw [carryOut, Table.get?_erase]
    split at hk
    · rename_i heq
      rw [if_pos heq, heq, hnone]
    · rename_i hne
      rwa [if_neg hne]

theorem undo_enable (hs : s.Consistent) (hp : s.permit (.enable k) = .ok h)
    (hproper : s.Proper (.enable k)) (ht : t.Agrees (s.carryOut h (.enable k))) :
    t.permit (.disable h) = .ok h ∧ (t.carryOut h (.disable h)).Agrees s := by
  obtain rfl := eq_of_permit hp rfl
  obtain ⟨c, hc⟩ := exists_of_channel hp
  have hstill := hproper c hc
  have hcircuit := ht.circuit_after
  refine ⟨permit_disable ?_ ?_, Agrees.update hc ht fun d hd => ?_⟩
  · rw [hcircuit]
    exact Circuit.live_modify.mpr (live_of_get? hc)
  · rw [hcircuit]
    intro hb
    obtain ⟨n, hn, he⟩ := hs.enabled_of_bound h hb
    rw [node?_circuit, hc] at hn
    cases hn
    exact absurd (hstill.symm.trans he) nofun
  · have hback := congrArg (fun e : Channel => { e with enabled := false }) hd
    exact hback.trans (by simp [Channel.uncounted, hstill])

theorem undo_startReceiving (hp : s.permit (.startReceiving k quota) = .ok h)
    (hproper : s.Proper (.startReceiving k quota))
    (ht : t.Agrees (s.carryOut h (.startReceiving k quota))) :
    t.permit (.stopReceiving h) = .ok h ∧ (t.carryOut h (.stopReceiving h)).Agrees s := by
  obtain rfl := eq_of_permit hp rfl
  obtain ⟨c, hc⟩ := exists_of_channel hp
  have hstill := hproper c hc
  have hcircuit := ht.circuit_after
  refine ⟨permit_stopReceiving ?_, Agrees.update hc ht fun d hd => ?_⟩
  · rw [hcircuit]
    exact Circuit.live_modify.mpr (live_of_get? hc)
  · have hback := congrArg (fun e : Channel => { e with receiving := none }) hd
    exact hback.trans (by simp [Channel.uncounted, hstill])

theorem undo_bind (hp : s.permit (.bind l) = .ok h) (ht : t.Agrees (s.carryOut h (.bind l))) :
    t.permit (.unbind l) = .ok l.target ∧ (t.carryOut l.target (.unbind l)).Agrees s := by
  obtain ⟨-, -, hlinked⟩ := permit_bind hp
  have hnone : s.links.get? l = none := by
    simpa [linked_circuit, Table.contains] using hlinked
  obtain ⟨hchannels, hlinks⟩ := agrees_iff.mp ht
  refine ⟨permit_unbind ?_, agrees_iff.mpr ⟨hchannels, Table.ext_get? fun k => ?_⟩⟩
  · rw [ht.circuit_after]
    simp [Circuit.after]
  · rw [carryOut, hlinks, carryOut, Table.get?_erase, Table.get?_insert]
    split
    · rename_i heq
      rw [heq, hnone]
    · rfl

end Undo

/-- The inverse of a request that was carried out leads back. -/
theorem undo {inverse : Handle → Request} (hs : s.Consistent) (pair : r.HasInverse inverse)
    (hproper : s.Proper r) (hp : s.permit r = .ok h) (ht : t.Agrees (s.carryOut h r))
    (hover : ∀ k, inverse h = .destroy k → ¬s.circuit.Overlaid k) :
    ∃ k, t.permit (inverse h) = .ok k ∧ (t.carryOut k (inverse h)).Agrees s := by
  cases pair with
  | create kind attr => exact ⟨h, undo_create hs hp ht (hover h rfl)⟩
  | enable k => exact ⟨h, undo_enable hs hp hproper ht⟩
  | bind l => exact ⟨l.target, undo_bind hp ht⟩
  | receive k quota => exact ⟨h, undo_startReceiving hp hproper ht⟩

end Server
end CameraPipeline
