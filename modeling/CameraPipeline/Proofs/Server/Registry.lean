import CameraPipeline.Proofs.Server.Run
import Mathlib.Data.List.Nodup
import Mathlib.Data.List.Perm.Subperm

/-!
What a server numbers: channels by handles and units by slots. No handle is given to two channels,
also when the first one is gone, and a slot that is out belongs to a live channel. With this the
links join enabled channels and no kind has more channels than allowed, in every run.
-/

namespace CameraPipeline

/-- The slots of a channel: the one to be used next, and those of units that are out. -/
structure Slots where
  next : UInt32 := 0
  out : List UInt32 := []

def Channel.slots (c : Channel) : Slots := ⟨c.nextSlot, c.outstanding⟩

/-- The slots of the channel that a request is carried out on. -/
def Request.slotsAfter : Request → Option Slots → Option Slots
  | .create _ _, _ => some {}
  | .destroy _, _ => none
  | .release _ slot, before => before.map fun x => { x with out := x.out.erase slot }
  | _, before => before

namespace ServerDeed

/-- The handles of the channels that were created, in order. -/
def created (done : List ServerDeed) : List Handle :=
  done.filterMap fun
    | .did (.create _ _) h => some h
    | _ => none

def lend (h : Handle) (out : List UInt32) : ServerDeed → List UInt32
  | .gave u => if u.source = h then out.insert u.slot else out
  | .took k u => if k = h then out.erase u.slot else out
  | .did _ _ => out

/-- The slots of `h` that were handed out and not taken back since. -/
def slotsOut (h : Handle) (done : List ServerDeed) : List UInt32 := done.foldl (lend h) []

theorem created_append (done done' : List ServerDeed) :
    created (done ++ done') = created done ++ created done' :=
  List.filterMap_append

theorem created_did {r : Request} (hr : r.operation ≠ .create) (h : Handle) :
    created [.did r h] = [] := by
  cases r with
  | create => exact absurd rfl hr
  | setAttr | enable | disable | bind | unbind | startReceiving | stopReceiving | release | submit
  | destroy => rfl

theorem slotsOut_append (h : Handle) (done done' : List ServerDeed) :
    slotsOut h (done ++ done') = done'.foldl (lend h) (slotsOut h done) :=
  List.foldl_append

end ServerDeed

namespace Server

open ServerDeed

def slots? (s : Server) (h : Handle) : Option Slots := (s.channels.get? h).map Channel.slots

/-- The slots of `h` that are out by the books of the server. -/
def out (s : Server) (h : Handle) : List UInt32 := (s.slots? h).elim [] Slots.out

variable {s t : Server} {h k : Handle} {c : Channel} {r : Request} {kind : ChannelKind}
  {done : List ServerDeed} {deed? : Option ServerDeed}

theorem Alike.slots? (ht : s.Alike t) (h : Handle) : t.slots? h = s.slots? h := by
  rw [Server.slots?, ht.channels, Server.slots?]

theorem slots?_carryOut (s : Server) (h k : Handle) (r : Request) :
    (s.carryOut h r).slots? k = if k = h then r.slotsAfter (s.slots? h) else s.slots? k := by
  rw [slots?, get?_carryOut]
  split
  · rw [slots?]
    cases r with
    | create | destroy => rfl
    | setAttr | enable | disable | startReceiving | stopReceiving | release =>
        cases s.channels.get? h <;> rfl
    | bind | unbind | submit => rfl
  · rfl

theorem slots?_handOut (s : Server) (h k : Handle) (c : Channel) :
    (s.handOut h c).slots? k = if k = h then
      some ⟨c.nextSlot + 1, c.outstanding.insert c.nextSlot⟩ else s.slots? k := by
  rw [slots?, handOut, Table.get?_insert]
  split <;> rfl

theorem Numbered.slots?_fresh (hn : s.Numbered) (kind : ChannelKind) :
    s.slots? ⟨kind, s.nextId kind⟩ = none := by
  have hnone := hn.fresh kind
  rw [node?_circuit, Option.map_eq_none_iff] at hnone
  rw [slots?, hnone]
  rfl

theorem out_of_slots {x : Slots} (hx : s.slots? h = some x) : s.out h = x.out := by
  rw [out, hx]
  rfl

theorem out_of_none (hx : s.slots? h = none) : s.out h = [] := by
  rw [out, hx]
  rfl

theorem mem_out_iff {slot : UInt32} :
    slot ∈ s.out h ↔ ∃ c, s.channels.get? h = some c ∧ slot ∈ c.outstanding := by
  cases hc : s.channels.get? h with
  | none => simp [out, slots?, hc]
  | some c => simp [out, slots?, hc, Channel.slots]

/-- A channel that can be destroyed has no unit out. -/
theorem out_of_destroy (hp : s.permit (.destroy k) = .ok h) : s.out h = [] := by
  obtain rfl := eq_of_permit hp rfl
  simp only [permit, bind, Except.bind] at hp
  split at hp
  · cases hp
  · rename_i c hc
    split at hp
    · cases hp
    · rename_i hpinned
      rw [out, slots?, channel_ok.mp hc]
      simp only [Bool.or_eq_true, not_or] at hpinned
      simpa [Channel.slots] using hpinned.1.1.2

theorem out_carryOut (hn : s.Numbered) (hp : s.permit r = .ok h) (hr : r.operation ≠ .release)
    (k : Handle) : (s.carryOut h r).out k = s.out k := by
  have hslots := slots?_carryOut s h k r
  by_cases hk : k = h
  · subst hk
    rw [if_pos rfl] at hslots
    cases r with
    | create =>
        obtain ⟨rfl, -⟩ := permit_create hp
        rw [out_of_slots hslots, out_of_none (hn.slots?_fresh _)]
    | destroy => rw [out_of_none hslots, out_of_destroy hp]
    | release => exact absurd rfl hr
    | setAttr | enable | disable | bind | unbind | startReceiving | stopReceiving | submit =>
        exact congrArg (Option.elim · [] Slots.out) hslots
  · rw [if_neg hk] at hslots
    exact congrArg (Option.elim · [] Slots.out) hslots

theorem out_release (s : Server) (h k : Handle) (slot : UInt32) :
    (s.carryOut h (.release h slot)).out k =
      if h = k then (s.out k).erase slot else s.out k := by
  have hslots := slots?_carryOut s h k (.release h slot)
  by_cases hk : h = k
  · subst hk
    rw [if_pos rfl] at hslots ⊢
    rw [out, hslots, out, Request.slotsAfter]
    cases s.slots? h <;> rfl
  · rw [if_neg (Ne.symm hk)] at hslots
    rw [if_neg hk, out, hslots, out]

theorem out_handOut (hc : s.channels.get? h = some c) (k : Handle) :
    (s.handOut h c).out k = if h = k then (s.out k).insert c.nextSlot else s.out k := by
  have hslots := slots?_handOut s h k c
  by_cases hk : h = k
  · subst hk
    rw [if_pos rfl] at hslots ⊢
    have hbefore : s.slots? h = some c.slots := by
      rw [slots?, hc]
      rfl
    rw [out_of_slots hslots, out_of_slots hbefore]
    rfl
  · rw [if_neg (Ne.symm hk)] at hslots
    rw [if_neg hk, out, hslots, out]

section Count

theorem length_liveOfKind_le {hs : List Handle}
    (hlive : ∀ h, t.circuit.Live h → h.kind = kind → h ∈ hs) :
    (t.liveOfKind kind).length ≤ hs.length := by
  refine (List.Nodup.subperm ?_ fun h hm => ?_).length_le
  · exact t.channels.keys_nodup.filter _
  · obtain ⟨hm, hk⟩ := List.mem_filter.mp hm
    exact hlive h (mem_live_iff.mp hm) (beq_iff_eq.mp hk)

theorem mem_liveOfKind (hl : s.circuit.Live h) (hk : h.kind = kind) : h ∈ s.liveOfKind kind :=
  List.mem_filter.mpr ⟨mem_live_iff.mpr hl, beq_iff_eq.mpr hk⟩

theorem length_of_create {attr : ChannelAttr} (hp : s.permit (.create kind attr) = .ok h) :
    (s.liveOfKind kind).length < maxPerKind := by
  simp only [permit, bind, Except.bind] at hp
  split at hp
  · cases hp
  · rename_i hmax
    exact Nat.lt_of_not_le hmax

/-- A creation adds one channel to those of its kind, and no other request adds any. -/
theorem length_liveOfKind_carryOut (hp : s.permit r = .ok h)
    (hs : (s.liveOfKind kind).length ≤ maxPerKind) :
    ((s.carryOut h r).liveOfKind kind).length ≤ maxPerKind := by
  have hold (hr : h.kind = kind → r.operation ≠ .create) :
      ((s.carryOut h r).liveOfKind kind).length ≤ maxPerKind := by
    refine Nat.le_trans (length_liveOfKind_le fun k hl hk => ?_) hs
    rw [circuit_carryOut] at hl
    obtain hl | ⟨rfl, kind, attr, rfl⟩ := live_after hl
    · exact mem_liveOfKind hl hk
    · exact absurd rfl (hr hk)
  cases r with
  | create kind' attr =>
      obtain ⟨rfl, -⟩ := permit_create hp
      by_cases hk : kind' = kind
      · subst hk
        have hnew : ∀ k, ((s.carryOut ⟨kind', s.nextId kind'⟩ (.create kind' attr)).circuit).Live k →
            k.kind = kind' → k ∈ ⟨kind', s.nextId kind'⟩ :: s.liveOfKind kind' := by
          intro k hl hk
          rw [circuit_carryOut] at hl
          obtain hl | ⟨rfl, -⟩ := live_after hl
          · exact .tail _ (mem_liveOfKind hl hk)
          · exact .head _
        exact Nat.le_trans (length_liveOfKind_le hnew) (length_of_create hp)
      · exact hold fun heq => absurd heq hk
  | setAttr | enable | disable | bind | unbind | startReceiving | stopReceiving | release | submit
  | destroy => exact hold fun _ => by simp [Request.operation]

end Count

/-- How the numbers of a server stand to all that was done. -/
structure Tallied (s : Server) (done : List ServerDeed) : Prop where
  nextId : ∀ kind, s.nextId kind = (created done).countP (·.kind == kind)
  below : ∀ h ∈ created done, h.id < s.nextId h.kind
  nodup : (created done).Nodup
  within : ∀ kind, (s.liveOfKind kind).length ≤ maxPerKind
  out : ∀ h, s.out h = slotsOut h done

namespace Tallied

theorem alike (hs : s.Tallied done) (ht : s.Alike t) : t.Tallied done where
  nextId kind := by rw [ht.nextId, hs.nextId]
  below h hm := by
    rw [ht.nextId]
    exact hs.below h hm
  nodup := hs.nodup
  within kind := by
    rw [liveOfKind, live, ht.channels]
    exact hs.within kind
  out h := by
    rw [Server.out, ht.slots?]
    exact hs.out h

/-- What creates nothing leaves the handles as they are. -/
theorem concat (hs : s.Tallied done) {d : ServerDeed} (hd : created [d] = [])
    (hnext : t.nextId = s.nextId) (hwithin : ∀ kind, (t.liveOfKind kind).length ≤ maxPerKind)
    (hout : ∀ k, t.out k = lend k (s.out k) d) : t.Tallied (done ++ [d]) := by
  have hcreated : created (done ++ [d]) = created done := by
    rw [created_append, hd, List.append_nil]
  refine ⟨fun kind => ?_, fun k hm => ?_, ?_, hwithin, fun k => ?_⟩
  · rw [hcreated, hnext]
    exact hs.nextId kind
  · rw [hcreated] at hm
    rw [hnext]
    exact hs.below k hm
  · rw [hcreated]
    exact hs.nodup
  · rw [hout, hs.out, slotsOut_append]
    rfl

theorem carryOut (hs : s.Tallied done) (hp : s.permit r = .ok h) (hr : r.operation ≠ .create)
    {d : ServerDeed} (hd : created [d] = [])
    (hout : ∀ k, (s.carryOut h r).out k = lend k (s.out k) d) :
    (s.carryOut h r).Tallied (done ++ [d]) :=
  hs.concat hd (nextId_carryOut s h hr) (fun _ => length_liveOfKind_carryOut hp (hs.within _)) hout

/-- A new channel takes the next number of its kind. -/
theorem create (hs : s.Tallied done) (hn : s.Numbered) {attr : ChannelAttr}
    (hp : s.permit (.create kind attr) = .ok h) :
    (s.carryOut h (.create kind attr)).Tallied (done ++ [.did (.create kind attr) h]) := by
  obtain ⟨hh, -⟩ := permit_create hp
  have hcreated : created (done ++ [.did (.create kind attr) h]) = created done ++ [h] :=
    created_append _ _
  have hnext (kind' : ChannelKind) : (s.carryOut h (.create kind attr)).nextId kind' =
      if kind' = kind then s.nextId kind + 1 else s.nextId kind' := rfl
  refine ⟨fun kind' => ?_, fun k hm => ?_, ?_, fun _ => length_liveOfKind_carryOut hp (hs.within _),
    fun k => ?_⟩
  · rw [hnext, hcreated, List.countP_append, ← hs.nextId, hh]
    by_cases hk : kind' = kind
    · simp [hk]
    · simp [hk, Ne.symm hk]
  · rw [hcreated, List.mem_append, List.mem_singleton] at hm
    rw [hnext]
    obtain hm | rfl := hm
    · have hlt := hs.below k hm
      split
      · rename_i hk
        rw [← hk]
        exact Nat.lt_succ_of_lt hlt
      · exact hlt
    · rw [hh, if_pos rfl]
      exact Nat.lt_succ_self _
  · rw [hcreated, List.nodup_append]
    refine ⟨hs.nodup, List.nodup_singleton h, fun k hk k' hk' heq => ?_⟩
    obtain rfl := List.mem_singleton.mp hk'
    have hlt := hs.below k hk
    rw [heq, hh] at hlt
    exact Nat.lt_irrefl _ hlt
  · rw [out_carryOut hn hp (by simp [Request.operation]), hs.out, slotsOut_append]
    rfl

theorem handOut (hs : s.Tallied done) (hc : s.channels.get? h = some c) {u : MediaUnit}
    (hsource : u.source = h) (hslot : u.slot = c.nextSlot) :
    (s.handOut h c).Tallied (done ++ [.gave u]) := by
  refine hs.concat rfl rfl (fun kind => ?_) fun k => ?_
  · refine Nat.le_trans (length_liveOfKind_le fun k hl hk => mem_liveOfKind ?_ hk) (hs.within kind)
    rw [live_circuit, Server.handOut, Table.get?_insert] at hl
    rw [live_circuit]
    split at hl
    · rename_i heq
      rw [heq, hc]
      rfl
    · exact hl
  · rw [out_handOut hc, ← hslot, ← hsource]
    rfl

theorem effect (hs : s.Tallied done) (hn : s.Numbered) (he : s.Effect deed? t) :
    t.Tallied (done ++ deed?.toList) := by
  cases he with
  | none ht =>
      rw [Option.toList_none, List.append_nil]
      exact hs.alike ht
  | did hp hr ht =>
      rename_i r h
      refine Tallied.alike ?_ ht
      by_cases hcreate : r.operation = .create
      · cases r with
        | create kind attr => exact hs.create hn hp
        | setAttr | enable | disable | bind | unbind | startReceiving | stopReceiving | release
        | submit | destroy => cases hcreate
      · exact hs.carryOut hp hcreate (created_did hcreate h) fun k => out_carryOut hn hp hr k
  | gave hc _ ht => exact (hs.handOut hc rfl rfl).alike ht
  | took hp ht =>
      refine (hs.carryOut hp (by simp [Request.operation]) rfl fun k => ?_).alike ht
      exact out_release s _ k _

end Tallied

theorem tallied_fresh (payloadSize : Nat) : (fresh payloadSize).Tallied [] where
  nextId _ := rfl
  below _ hm := absurd hm List.not_mem_nil
  nodup := .nil
  within _ := Nat.zero_le _
  out _ := rfl

theorem tallied_after (payloadSize : Nat) (events : List ServerEvent) :
    ((fresh payloadSize).after events).Tallied ((fresh payloadSize).deeds events) :=
  (Reachable.fresh payloadSize).after_keeps (I := Tallied)
    (fun hs hi he => hi.effect hs.consistent.numbered he) (tallied_fresh payloadSize) events

/-- In every run the links join live and enabled channels, no kind has more channels than allowed,
the slots that are out are those of live channels, and no handle is given twice. The handles have
32-bit numbers as long as no more channels of a kind are created. -/
theorem after_registered (payloadSize : Nat) (events : List ServerEvent)
    (hfew : ∀ kind, (created ((fresh payloadSize).deeds events)).countP (·.kind == kind) <
      UInt32.size) :
    let s := (fresh payloadSize).after events
    let done := (fresh payloadSize).deeds events
    (∀ l ∈ s.binds, ∀ h, l.touches h → ∃ c, s.channels.get? h = some c ∧ c.enabled) ∧
      (∀ kind, (s.liveOfKind kind).length ≤ maxPerKind) ∧
      (∀ h slot, slot ∈ slotsOut h done ↔
        ∃ c, s.channels.get? h = some c ∧ slot ∈ c.outstanding) ∧
      (created done).Nodup ∧ ∀ h ∈ created done, h.id < UInt32.size := by
  intro s done
  have hreachable : s.Reachable := (Reachable.fresh payloadSize).after events
  have htallied : s.Tallied done := tallied_after payloadSize events
  refine ⟨fun l hl h ht => ?_, htallied.within, fun h slot => ?_, htallied.nodup, fun h hm => ?_⟩
  · obtain ⟨n, hn, he⟩ := hreachable.consistent.enabled_of_bound h ⟨l, mem_binds_iff.mp hl, ht⟩
    obtain ⟨c, hc, rfl⟩ := Option.map_eq_some_iff.mp hn
    exact ⟨c, hc, he⟩
  · rw [← htallied.out]
    exact mem_out_iff
  · have hlt := htallied.below h hm
    rw [htallied.nextId] at hlt
    exact Nat.lt_trans hlt (hfew h.kind)

/-- A camera is given up and another one created. It feeds an encoder and has a unit out. -/
def reopening : List ServerEvent :=
  let camera : ChannelAttr := .vi ⟨⟨1280, 720⟩, 30, .nv12, 4, false⟩
  [.create .vi camera, .destroy ⟨.vi, 0⟩, .create .vi camera, .enable ⟨.vi, 1⟩,
    .create .venc (.venc ⟨⟨1280, 720⟩, .h264, 4000, 60, 30, 30, 4, false⟩),
    .enable ⟨.venc, 0⟩, .bind ⟨⟨.vi, 1⟩, ⟨.venc, 0⟩⟩, .probe ⟨.vi, 1⟩, .produce ⟨.vi, 1⟩,
    .destroy ⟨.vi, 1⟩]

theorem after_registered_reopening :
    let s := (fresh 4).after reopening
    let done := (fresh 4).deeds reopening
    (∀ kind, (created done).countP (·.kind == kind) < UInt32.size) ∧
      created done = [⟨.vi, 0⟩, ⟨.vi, 1⟩, ⟨.venc, 0⟩] ∧
      (∃ c, s.channels.get? ⟨.venc, 0⟩ = some c ∧ c.enabled) ∧
      (s.liveOfKind .vi).length ≤ maxPerKind ∧
      (∃ c, s.channels.get? ⟨.vi, 1⟩ = some c ∧ 0 ∈ c.outstanding) ∧ (created done).Nodup := by
  intro s done
  have hcreated : created done = [⟨.vi, 0⟩, ⟨.vi, 1⟩, ⟨.venc, 0⟩] := by decide
  have hfew : ∀ kind, (created done).countP (·.kind == kind) < UInt32.size := by
    intro kind
    rw [hcreated]
    cases kind <;> decide
  obtain ⟨hbinds, hwithin, hslots, hnodup, -⟩ := after_registered 4 reopening hfew
  exact ⟨hfew, hcreated, hbinds ⟨⟨.vi, 1⟩, ⟨.venc, 0⟩⟩ (by decide) ⟨.venc, 0⟩ (by decide),
    hwithin .vi, (hslots ⟨.vi, 1⟩ 0).mp (by decide), hnodup⟩

end Server
end CameraPipeline
