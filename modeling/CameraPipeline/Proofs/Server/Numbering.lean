import CameraPipeline.Proofs.Server.Attributes
import CameraPipeline.Proofs.Server.Lending

/-!
The numbers of the units that a channel hands out. From the start of its receiving they count from
zero, whatever other calls come between the two looks of a fetch, and an encoder goes no further
than its quota. As long as the attributes stay, a unit is what they and its number make it: key
frames are a group apart, and time stamps do not go back while the number of a unit in microseconds
fits 64 bits.
-/

namespace CameraPipeline

namespace MediaUnit

/-- Time stamps are in the order of the numbers as long as the product of the later one fits. -/
theorem stampMicros_le_of_le {m n : Nat} (hle : m ≤ n) (hfits : n * 1000000 < UInt64.size)
    (fps : UInt32) : stampMicros m fps ≤ stampMicros n fps := by
  have hmul : m * 1000000 ≤ n * 1000000 := Nat.mul_le_mul_right _ hle
  rw [stampMicros, stampMicros, Nat.mod_eq_of_lt (Nat.lt_of_le_of_lt hmul hfits),
    Nat.mod_eq_of_lt hfits]
  exact Nat.div_le_div_right hmul

-- the first product that does not fit
example : stampMicros 18446744073710 30 < stampMicros 18446744073709 30 := by decide

end MediaUnit

/-- The channels that give units only while they receive. -/
def Handle.IsEncoder (h : Handle) : Prop := h.kind = .venc ∨ h.kind = .jpeg

/-- The channel after it has handed out a unit. -/
def Channel.handedOut (c : Channel) : Channel :=
  { c with
    produced := c.produced + 1
    nextSlot := c.nextSlot + 1
    outstanding := c.outstanding.insert c.nextSlot }

namespace Request

/-- Starts or stops the receiving of `h`. -/
def Switches (h : Handle) : Request → Prop
  | .startReceiving k _ | .stopReceiving k => k = h
  | _ => False

/-- Replaces the attributes of `h`. -/
def Replaces (h : Handle) : Request → Prop
  | .setAttr k _ => k = h
  | _ => False

/-- Makes the units of `h` count from zero, or replaces its attributes. -/
def Renews (h : Handle) : Request → Prop
  | .startReceiving k _ | .setAttr k _ => k = h
  | _ => False

theorem Renews.of_replaces {h : Handle} {r : Request} (hr : r.Replaces h) : r.Renews h := by
  cases r with
  | setAttr => exact hr
  | create | enable | disable | bind | unbind | startReceiving | stopReceiving | release | submit
  | destroy => exact hr.elim

end Request

namespace Server

open ServerDeed

variable {s t : Server} {h k : Handle} {c : Channel} {r : Request} {v : ChannelAttr}
  {quota : Quota} {c? : Option Channel} {units : List MediaUnit}

theorem get?_handOut (s : Server) (h k : Handle) (c : Channel) :
    (s.handOut h c).channels.get? k = if k = h then some c.handedOut else s.channels.get? k :=
  Table.get?_insert _ _ _ _

/-- A channel that receives cannot be destroyed. -/
theorem receiving_of_destroy (hp : s.permit (.destroy h) = .ok k)
    (hc : s.channels.get? h = some c) : c.receiving = none := by
  simp only [permit, channel_ok.mpr hc, bind, Except.bind] at hp
  split at hp
  · cases hp
  · rename_i hpinned
    simp only [Bool.or_eq_true, not_or, Option.not_isSome_iff_eq_none] at hpinned
    exact hpinned.1.1.1.2

theorem canProduce_of_encoder (hc : s.channels.get? h = some c) (he : h.IsEncoder) :
    s.canProduce h ↔ c.enabled ∧ quotaLeft c ∧ s.hasUpstream h := by
  obtain he | he := he <;> simp [canProduce, hc, he]

theorem given_concat_gave (h : Handle) (done : List ServerDeed) (u : MediaUnit) :
    given h (done ++ [.gave u]) = if u.source = h then given h done ++ [u] else given h done := by
  rw [given_append, given_gave]
  split
  · rfl
  · exact List.append_nil _

section Channel

variable {B : Request → Prop} {P : Option Channel → List MediaUnit → Prop}
  (hrelease : ∀ slot, ¬B (.release h slot))
  (hrequest : ∀ {s : Server} {r : Request} {units : List MediaUnit}, r.operation ≠ .create →
    s.permit r = .ok h → ¬B r → P (s.channels.get? h) units →
    P (r.channelAfter (s.channels.get? h)) units)
  (hgive : ∀ {s : Server} {c : Channel} {units : List MediaUnit},
    s.channels.get? h = some c → s.canProduce h → P (some c) units →
    P (some c.handedOut) (units ++ [.produce h c.attr c.produced c.nextSlot s.payloadSize]))

include hrelease hrequest hgive

/-- What a channel keeps together with the units it has given: an event carries a request out on
the channel or makes it hand out its next unit, or leaves it alone. -/
theorem Effect.channel_keeps {deed? : Option ServerDeed} {done : List ServerDeed}
    (he : s.Effect deed? t) (hknown : h.id < s.nextId h.kind)
    (hd : ∀ r k, deed? = some (.did r k) → ¬B r) (hp : P (s.channels.get? h) (given h done)) :
    h.id < t.nextId h.kind ∧ P (t.channels.get? h) (given h (done ++ deed?.toList)) := by
  have carried {r : Request} {k : Handle} (hpermit : s.permit r = .ok k) (hr : k = h → ¬B r) :
      P ((s.carryOut k r).channels.get? h) (given h done) := by
    rw [get?_carryOut]
    split
    · rename_i hk
      subst hk
      refine hrequest (fun hcreate => ?_) hpermit (hr rfl) hp
      cases r with
      | create =>
          -- the number of a channel that was created is not given again
          obtain ⟨rfl, -⟩ := permit_create hpermit
          exact Nat.lt_irrefl _ hknown
      | setAttr | enable | disable | bind | unbind | startReceiving | stopReceiving | release
      | submit | destroy => cases hcreate
    · exact hp
  cases he with
  | none ht =>
      rw [ht.nextId, ht.channels, Option.toList_none, List.append_nil]
      exact ⟨hknown, hp⟩
  | did hpermit _ ht =>
      rw [ht.nextId, ht.channels, given_append]
      refine ⟨Nat.lt_of_lt_of_le hknown (nextId_carryOut_le _ _ _ _), ?_⟩
      exact (List.append_nil (given h done)).symm ▸ carried hpermit fun _ => hd _ _ rfl
  | took hpermit ht =>
      rw [ht.nextId, ht.channels, given_append]
      refine ⟨Nat.lt_of_lt_of_le hknown (nextId_carryOut_le _ _ _ _), ?_⟩
      exact (List.append_nil (given h done)).symm ▸ carried hpermit fun hk => hk ▸ hrelease _
  | gave hc hcan ht =>
      rename_i k c
      have hsource : (MediaUnit.produce k c.attr c.produced c.nextSlot s.payloadSize).source = k :=
        rfl
      rw [ht.nextId, ht.channels, Option.toList_some, given_concat_gave, hsource, get?_handOut]
      refine ⟨hknown, ?_⟩
      by_cases hk : h = k
      · subst hk
        rw [if_pos rfl, if_pos rfl]
        exact hgive hc hcan (hc ▸ hp)
      · rw [if_neg hk, if_neg (Ne.symm hk)]
        exact hp

theorem Reachable.channel_keeps (hs : s.Reachable) (hlive : s.circuit.Live h)
    (hp : P (s.channels.get? h) []) (events : List ServerEvent)
    (hd : ∀ r k, .did r k ∈ s.deeds events → ¬B r) :
    P ((s.after events).channels.get? h) (given h (s.deeds events)) := by
  have hstart : (∀ r k, .did r k ∈ ([] : List ServerDeed) → ¬B r) →
      h.id < s.nextId h.kind ∧ P (s.channels.get? h) (given h []) :=
    fun _ => ⟨hs.consistent.numbered h hlive, hp⟩
  refine (hs.after_keeps
    (I := fun s done => (∀ r k, .did r k ∈ done → ¬B r) →
      h.id < s.nextId h.kind ∧ P (s.channels.get? h) (given h done))
    (fun {s t done deed?} _ hi he hd => ?_) hstart events hd).2
  obtain ⟨hknown, hp⟩ := hi fun r k hm => hd r k (List.mem_append_left _ hm)
  refine he.channel_keeps hrelease hrequest hgive hknown (fun r k heq => ?_) hp
  exact hd r k (List.mem_append_right _ (Option.mem_toList.mpr heq))

end Channel

/-- The channel receives with `quota`, and `units` are what it has given since it does. -/
structure Counted (h : Handle) (quota : Quota) (c? : Option Channel) (units : List MediaUnit) :
    Prop where
  channel : ∃ c, c? = some c ∧ c.receiving = some quota ∧ c.produced = units.length
  numbers : units.map (·.sequence) = List.range units.length
  within : h.IsEncoder → ∀ n, quota = .count n → units.length ≤ n.toNat

theorem Counted.request (hs : Counted h quota (s.channels.get? h) units)
    (hcreate : r.operation ≠ .create) (hp : s.permit r = .ok h) (hr : ¬r.Switches h) :
    Counted h quota (r.channelAfter (s.channels.get? h)) units := by
  obtain ⟨c, hc, hquota, hproduced⟩ := hs.channel
  refine ⟨?_, hs.numbers, hs.within⟩
  rw [hc]
  cases r with
  | create => exact absurd rfl hcreate
  | destroy =>
      obtain rfl := eq_of_permit hp rfl
      cases (receiving_of_destroy hp hc).symm.trans hquota
  | startReceiving | stopReceiving => exact absurd (eq_of_permit hp rfl).symm hr
  | setAttr | enable | disable | release => exact ⟨_, rfl, hquota, hproduced⟩
  | bind | unbind | submit => exact ⟨c, rfl, hquota, hproduced⟩

theorem Counted.give (hc : s.channels.get? h = some c) (hcan : s.canProduce h)
    (hs : Counted h quota (some c) units) : Counted h quota (some c.handedOut)
      (units ++ [.produce h c.attr c.produced c.nextSlot s.payloadSize]) := by
  obtain ⟨d, hd, hquota, hproduced⟩ := hs.channel
  obtain rfl := Option.some.inj hd
  refine ⟨⟨_, rfl, hquota, ?_⟩, ?_, fun he n hn => ?_⟩
  · rw [List.length_append, ← hproduced]
    rfl
  · rw [List.map_append, hs.numbers, List.length_append, List.length_singleton, List.range_succ,
      List.map_singleton, ← hproduced]
    rfl
  · have hleft := ((canProduce_of_encoder hc he).mp hcan).2.1
    rw [quotaLeft, hquota, hn] at hleft
    rw [List.length_append, ← hproduced]
    exact of_decide_eq_true hleft

theorem counted_startReceiving (ho : (s.perform (.startReceiving h quota)).1 = .ok h) :
    Counted h quota ((s.perform (.startReceiving h quota)).2.channels.get? h) [] := by
  obtain ⟨fault, hf, -⟩ | ⟨k, hp, -, ht⟩ := perform_effect s (.startReceiving h quota)
  · cases hf.symm.trans ho
  · obtain rfl := eq_of_permit hp rfl
    obtain ⟨c, hc⟩ := exists_of_permit_startReceiving hp
    rw [ht.channels, get?_carryOut, if_pos rfl, hc]
    exact ⟨⟨_, rfl, rfl, rfl⟩, rfl, fun _ _ _ => Nat.zero_le _⟩

/-- `units` came from `h` while its attributes were `v`, and they still are if the channel lives. -/
structure Made (h : Handle) (v : ChannelAttr) (c? : Option Channel) (units : List MediaUnit) :
    Prop where
  attr : ∀ c, c? = some c → c.attr = v
  made : ∀ u ∈ units, ∃ slot size, u = .produce h v u.sequence slot size

/-- The numbers of `units` rise, and if the channel still lives it counts on from there. -/
structure Rising (h : Handle) (v : ChannelAttr) (c? : Option Channel) (units : List MediaUnit) :
    Prop extends Made h v c? units where
  rising : units.Pairwise (·.sequence < ·.sequence)
  ahead : ∀ c, c? = some c → ∀ u ∈ units, u.sequence < c.produced

theorem made_nil (hv : s.attrOf h = some v) : Made h v (s.channels.get? h) [] where
  attr c hc := by
    rw [attrOf, hc] at hv
    exact Option.some.inj hv
  made _ hm := absurd hm List.not_mem_nil

theorem rising_nil (hv : s.attrOf h = some v) : Rising h v (s.channels.get? h) [] where
  toMade := made_nil hv
  rising := .nil
  ahead _ _ _ hm := absurd hm List.not_mem_nil

namespace Made

theorem request (hs : Made h v c? units) (hcreate : r.operation ≠ .create)
    (hp : s.permit r = .ok h) (hr : ¬r.Replaces h) : Made h v (r.channelAfter c?) units := by
  refine ⟨fun c hc => ?_, hs.made⟩
  cases r with
  | create => exact absurd rfl hcreate
  | destroy => cases hc
  | setAttr => exact absurd (eq_of_permit hp rfl).symm hr
  | enable | disable | startReceiving | stopReceiving | release =>
      obtain ⟨d, hd, rfl⟩ := Option.map_eq_some_iff.mp hc
      exact hs.attr d hd
  | bind | unbind | submit => exact hs.attr c hc

theorem give (hs : Made h v (some c) units) (size : Nat) : Made h v (some c.handedOut)
    (units ++ [.produce h c.attr c.produced c.nextSlot size]) := by
  obtain rfl := hs.attr c rfl
  refine ⟨fun d hd => ?_, ?_⟩
  · obtain rfl := Option.some.inj hd
    rfl
  · exact List.forall_mem_append.mpr ⟨hs.made, List.forall_mem_singleton.mpr ⟨_, _, rfl⟩⟩

theorem keyFrame_iff {attr : VencAttr} (hs : Made h (.venc attr) c? units) {u : MediaUnit}
    (hu : u ∈ units) : u.kind = .keyFrame ↔ u.sequence % max attr.gop.toNat 1 = 0 := by
  have hkind : u.kind =
      if u.sequence % max attr.gop.toNat 1 = 0 then .keyFrame else .deltaFrame := by
    obtain ⟨_, _, hu⟩ := hs.made u hu
    exact congrArg MediaUnit.kind hu
  by_cases hzero : u.sequence % max attr.gop.toNat 1 = 0 <;> simp [hkind, hzero]

end Made

namespace Rising

theorem request (hs : Rising h v c? units) (hcreate : r.operation ≠ .create)
    (hp : s.permit r = .ok h) (hr : ¬r.Renews h) : Rising h v (r.channelAfter c?) units := by
  refine ⟨hs.toMade.request hcreate hp fun h => hr (.of_replaces h), hs.rising, fun c hc => ?_⟩
  cases r with
  | create => exact absurd rfl hcreate
  | destroy => cases hc
  | startReceiving => exact absurd (eq_of_permit hp rfl).symm hr
  | setAttr | enable | disable | stopReceiving | release =>
      obtain ⟨d, hd, rfl⟩ := Option.map_eq_some_iff.mp hc
      exact hs.ahead d hd
  | bind | unbind | submit => exact hs.ahead c hc

theorem give (hs : Rising h v (some c) units) (size : Nat) : Rising h v (some c.handedOut)
    (units ++ [.produce h c.attr c.produced c.nextSlot size]) := by
  have hlt := hs.ahead c rfl
  refine ⟨hs.toMade.give size, ?_, fun d hd => ?_⟩
  · exact List.pairwise_append.mpr ⟨hs.rising, List.pairwise_singleton _ _,
      fun u hu w hw => List.mem_singleton.mp hw ▸ hlt u hu⟩
  · obtain rfl := Option.some.inj hd
    refine List.forall_mem_append.mpr ⟨fun u hu => Nat.lt_succ_of_lt (hlt u hu), ?_⟩
    exact List.forall_mem_singleton.mpr (Nat.lt_succ_self _)

/-- The time stamps of units of one rate are in the order of their numbers, up to the first that
does not fit. -/
theorem pairwise_pts (hs : Rising h v c? units) :
    units.Pairwise fun u w => w.sequence * 1000000 < UInt64.size → u.ptsMicros ≤ w.ptsMicros := by
  refine hs.rising.imp_of_mem fun {u w} hu hw hlt hfits => ?_
  have hpts {u : MediaUnit} (hu : u ∈ units) : u.ptsMicros =
      MediaUnit.stampMicros u.sequence (MediaUnit.kindAndRate v u.sequence).2 := by
    obtain ⟨_, _, hu⟩ := hs.made u hu
    exact congrArg MediaUnit.ptsMicros hu
  have hrate (m n : Nat) : (MediaUnit.kindAndRate v m).2 = (MediaUnit.kindAndRate v n).2 := by
    cases v <;> rfl
  rw [hpts hu, hpts hw, hrate u.sequence w.sequence]
  exact MediaUnit.stampMicros_le_of_le (Nat.le_of_lt hlt) hfits _

end Rising

/-- An encoder that gives a unit receives, and something is bound to it. -/
theorem Effect.gave_source {u : MediaUnit} (he : s.Effect (some (.gave u)) t) :
    ∃ c, s.channels.get? u.source = some c ∧ c.enabled ∧
      (u.source.IsEncoder → c.receiving.isSome ∧ ∃ l ∈ s.binds, l.target = u.source) := by
  cases he with
  | gave hc hcan ht =>
      rename_i k c
      refine ⟨c, hc, ?_, fun hencoder => ?_⟩
      · simp only [canProduce, hc, Bool.and_eq_true] at hcan
        exact hcan.1
      · have hencoder : k.IsEncoder := hencoder
        obtain ⟨-, hleft, hupstream⟩ := (canProduce_of_encoder hc hencoder).mp hcan
        obtain ⟨l, hl, htarget⟩ := List.any_eq_true.mp hupstream
        refine ⟨?_, l, hl, beq_iff_eq.mp htarget⟩
        cases hr : c.receiving with
        | none => simp [quotaLeft, hr] at hleft
        | some quota => rfl

/-- Keeps a key frame in every two. -/
def paired : ChannelAttr := .venc ⟨⟨1280, 720⟩, .h264, 4000, 2, 30, 30, 4, false⟩

/-- An encoder has given a unit, and a fetch of the next one is under way. -/
def encoding : List ServerEvent :=
  [.create .vi (.vi ⟨⟨1280, 720⟩, 30, .nv12, 4, false⟩), .enable ⟨.vi, 0⟩, .create .venc paired,
    .enable ⟨.venc, 0⟩, .bind ⟨⟨.vi, 0⟩, ⟨.venc, 0⟩⟩, .startReceiving ⟨.venc, 0⟩ .unlimited,
    .probe ⟨.venc, 0⟩, .produce ⟨.venc, 0⟩, .probe ⟨.venc, 0⟩]

/-- That fetch and two others come to their second look. -/
def threeFetches : List ServerEvent :=
  [.probe ⟨.venc, 0⟩, .produce ⟨.venc, 0⟩, .probe ⟨.venc, 0⟩, .produce ⟨.venc, 0⟩,
    .produce ⟨.venc, 0⟩]

end Server
end CameraPipeline
