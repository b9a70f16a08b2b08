import CameraPipeline.Proofs.Server.Registry

/-!
The units that a channel has lent. A release looks only at the slot of the unit that is given back,
and every channel counts its slots from zero, so a unit of another channel may pass for one of its
own. As long as none did, a unit can be given back on `h` just if `h` handed it out and it was not
given back yet, or another unit of `h` that is out has its slot.
-/

namespace CameraPipeline
namespace ServerDeed

/-- The units that `h` handed out, in order. -/
def given (h : Handle) (done : List ServerDeed) : List MediaUnit :=
  done.filterMap fun
    | .gave u => if u.source = h then some u else none
    | _ => none

/-- The units that were given back on `h`, in order. -/
def taken (h : Handle) (done : List ServerDeed) : List MediaUnit :=
  done.filterMap fun
    | .took k u => if k = h then some u else none
    | _ => none

def account (h : Handle) (units : List MediaUnit) : ServerDeed → List MediaUnit
  | .gave u => if u.source = h then u :: units else units
  | .took k u => if k = h then units.erase u else units
  | .did _ _ => units

/-- The units that `h` handed out and did not take back. -/
def lent (h : Handle) (done : List ServerDeed) : List MediaUnit := done.foldl (account h) []

def isTook : ServerDeed → Bool
  | .took _ _ => true
  | .did _ _ | .gave _ => false

/-- Every unit was taken back by the channel that had handed it out. -/
def TakesOwn (done : List ServerDeed) : Prop :=
  ∀ before h u, before ++ [.took h u] <+: done → u ∈ given h before

variable {h k : Handle} {u : MediaUnit} {done done' : List ServerDeed}

theorem given_append (h : Handle) (done done' : List ServerDeed) :
    given h (done ++ done') = given h done ++ given h done' :=
  List.filterMap_append

theorem taken_append (h : Handle) (done done' : List ServerDeed) :
    taken h (done ++ done') = taken h done ++ taken h done' :=
  List.filterMap_append

theorem lent_append (h : Handle) (done done' : List ServerDeed) :
    lent h (done ++ done') = done'.foldl (account h) (lent h done) :=
  List.foldl_append

theorem given_gave (h : Handle) (u : MediaUnit) :
    given h [.gave u] = if u.source = h then [u] else [] := by
  by_cases hu : u.source = h <;> simp [given, hu]

theorem taken_took (h k : Handle) (u : MediaUnit) :
    taken h [.took k u] = if k = h then [u] else [] := by
  by_cases hk : k = h <;> simp [taken, hk]

theorem takesOwn_concat {d : ServerDeed} : TakesOwn (done ++ [d]) ↔
    TakesOwn done ∧ ∀ h u, d = .took h u → u ∈ given h done := by
  constructor
  · intro ht
    refine ⟨fun before h u hp => ht before h u (hp.trans (List.prefix_append _ _)), ?_⟩
    rintro h u rfl
    exact ht done h u List.prefix_rfl
  · intro ht before h u hp
    obtain heq | hp := List.prefix_concat_iff.mp hp
    · obtain ⟨rfl, hd⟩ := List.append_inj' heq rfl
      exact ht.2 h u (List.cons.inj hd).1.symm
    · exact ht.1 before h u hp

theorem takesOwn_of_forall (hd : ∀ d ∈ done, d.isTook = false) : TakesOwn done :=
  fun _ _ _ hp => nomatch hd _ (hp.subset (List.mem_append_right _ (.head _)))

/-- The units that are out, as units and by their slots. -/
structure Lent (done : List ServerDeed) : Prop where
  out : ∀ h, slotsOut h done = (lent h done).map (·.slot)
  split : ∀ h, (given h done).Perm (lent h done ++ taken h done)

theorem map_erase_of_nodup {l : List MediaUnit} (hl : (l.map (·.slot)).Nodup) (hu : u ∈ l) :
    (l.erase u).map (·.slot) = (l.map (·.slot)).erase u.slot := by
  induction l with
  | nil => cases hu
  | cons v l ih =>
      obtain ⟨hv, hl⟩ := List.nodup_cons.mp hl
      by_cases heq : v = u
      · subst heq
        simp
      · have hm : u ∈ l := (List.mem_cons.mp hu).resolve_left (Ne.symm heq)
        have hslot : v.slot ≠ u.slot := fun hslot =>
          hv (List.mem_map.mpr ⟨u, hm, hslot.symm⟩)
        rw [List.erase_cons_tail (by simpa using heq), List.map_cons, List.map_cons,
          List.erase_cons_tail (by simpa using hslot), ih hl hm]

namespace Lent

theorem mem_given (hl : Lent done) (hu : u ∈ lent h done) : u ∈ given h done :=
  (hl.split h).mem_iff.mpr (List.mem_append_left _ hu)

theorem nodup (hl : Lent done) (hn : ((given h done).map (·.slot)).Nodup) :
    ((lent h done).map (·.slot)).Nodup := by
  have hall := ((hl.split h).map (·.slot)).nodup_iff.mp hn
  rw [List.map_append] at hall
  exact (List.nodup_append.mp hall).1

/-- Where the units handed out have different slots, those out are those not taken back. -/
theorem mem_lent_iff (hl : Lent done) (hn : ((given h done).map (·.slot)).Nodup) :
    u ∈ lent h done ↔ u ∈ given h done ∧ u ∉ taken h done := by
  have hdisjoint := List.nodup_append.mp ((hl.split h).nodup_iff.mp hn.of_map)
  constructor
  · intro hu
    exact ⟨hl.mem_given hu, fun hm => hdisjoint.2.2 u hu u hm rfl⟩
  · intro hu
    exact (List.mem_append.mp ((hl.split h).mem_iff.mp hu.1)).resolve_right hu.2

theorem length (hl : Lent done) (h : Handle) :
    (slotsOut h done).length + (taken h done).length = (given h done).length := by
  rw [hl.out, List.length_map, (hl.split h).length_eq, List.length_append]

theorem gave (hl : Lent done) (hnew : u.slot ∉ (given u.source done).map (·.slot)) :
    Lent (done ++ [.gave u]) := by
  have hout (h : Handle) : slotsOut h (done ++ [.gave u]) =
      if u.source = h then (slotsOut h done).insert u.slot else slotsOut h done :=
    slotsOut_append _ _ _
  have hlent (h : Handle) : lent h (done ++ [.gave u]) =
      if u.source = h then u :: lent h done else lent h done :=
    lent_append _ _ _
  have htaken (h : Handle) : taken h (done ++ [.gave u]) = taken h done := by
    rw [taken_append]
    exact List.append_nil _
  refine ⟨fun h => ?_, fun h => ?_⟩
  · rw [hout, hlent, hl.out]
    split
    · rename_i hu
      subst hu
      refine List.insert_of_not_mem fun hm => hnew ?_
      obtain ⟨v, hv, heq⟩ := List.mem_map.mp hm
      exact List.mem_map.mpr ⟨v, hl.mem_given hv, heq⟩
    · rfl
  · rw [given_append, given_gave, hlent, htaken]
    split
    · exact List.perm_append_comm.trans ((hl.split h).cons u)
    · rw [List.append_nil]
      exact hl.split h

theorem took (hl : Lent done) (hn : ((given h done).map (·.slot)).Nodup)
    (hu : u ∈ given h done) (hslot : u.slot ∈ slotsOut h done) : Lent (done ++ [.took h u]) := by
  have hout (k : Handle) : slotsOut k (done ++ [.took h u]) =
      if h = k then (slotsOut k done).erase u.slot else slotsOut k done :=
    slotsOut_append _ _ _
  have hlent (k : Handle) : lent k (done ++ [.took h u]) =
      if h = k then (lent k done).erase u else lent k done :=
    lent_append _ _ _
  have hgiven (k : Handle) : given k (done ++ [.took h u]) = given k done := by
    rw [given_append]
    exact List.append_nil _
  have hmem : u ∈ lent h done := by
    rw [hl.out] at hslot
    obtain ⟨v, hv, heq⟩ := List.mem_map.mp hslot
    rwa [← List.inj_on_of_nodup_map hn (hl.mem_given hv) hu heq]
  refine ⟨fun k => ?_, fun k => ?_⟩
  · rw [hout, hlent, hl.out]
    split
    · rename_i hk
      subst hk
      exact (map_erase_of_nodup (hl.nodup hn) hmem).symm
    · rfl
  · rw [hgiven, taken_append, taken_took, hlent]
    split
    · rename_i hk
      subst hk
      refine (hl.split h).trans ?_
      rw [← List.append_assoc]
      refine ((List.perm_cons_erase hmem).append_right _).trans ?_
      exact (List.perm_append_singleton u _).symm
    · rw [List.append_nil]
      exact hl.split k

theorem did (hl : Lent done) (r : Request) (h : Handle) : Lent (done ++ [.did r h]) := by
  refine ⟨fun k => ?_, fun k => ?_⟩
  · rw [slotsOut_append, lent_append]
    exact hl.out k
  · have hgiven : given k (done ++ [.did r h]) = given k done ++ [] := given_append _ _ _
    have htaken : taken k (done ++ [.did r h]) = taken k done ++ [] := taken_append _ _ _
    rw [hgiven, htaken, lent_append, List.append_nil, List.append_nil]
    exact hl.split k

end Lent

end ServerDeed

namespace Server

open ServerDeed

variable {s t : Server} {h k : Handle} {c : Channel} {r : Request} {u : MediaUnit} {x : Slots}
  {done : List ServerDeed} {deed? : Option ServerDeed}

/-- The units of a channel take its slots in turn, from zero. -/
structure Shelved (s : Server) (done : List ServerDeed) : Prop where
  slots : ∀ h, (given h done).map (·.slot) =
    (List.range (given h done).length).map UInt32.ofNat
  next : ∀ h x, s.slots? h = some x → x.next = UInt32.ofNat (given h done).length
  unborn : ∀ h, s.nextId h.kind ≤ h.id → given h done = []

namespace Shelved

theorem alike (hs : s.Shelved done) (ht : s.Alike t) : t.Shelved done where
  slots := hs.slots
  next h x hx := hs.next h x (ht.slots? h ▸ hx)
  unborn h hle := hs.unborn h (by rwa [← ht.nextId])

/-- A request lends nothing, and a new channel has lent nothing before. -/
theorem carryOut (hs : s.Shelved done) (hp : s.permit r = .ok h) {d : ServerDeed}
    (hd : ∀ k, given k [d] = []) : (s.carryOut h r).Shelved (done ++ [d]) := by
  have hgiven (k : Handle) : given k (done ++ [d]) = given k done := by
    rw [given_append, hd, List.append_nil]
  refine ⟨fun k => ?_, fun k x hx => ?_, fun k hle => ?_⟩
  · rw [hgiven]
    exact hs.slots k
  · rw [slots?_carryOut] at hx
    rw [hgiven]
    split at hx
    · rename_i hk
      subst hk
      cases r with
      | create kind attr =>
          obtain ⟨rfl, -⟩ := permit_create hp
          obtain rfl : {} = x := Option.some.inj hx
          rw [hs.unborn _ (Nat.le_refl _)]
          rfl
      | destroy => cases hx
      | release _ slot =>
          obtain ⟨y, hy, rfl⟩ := Option.map_eq_some_iff.mp hx
          exact hs.next k y hy
      | setAttr | enable | disable | bind | unbind | startReceiving | stopReceiving | submit =>
          exact hs.next k x hx
    · exact hs.next k x hx
  · rw [hgiven]
    exact hs.unborn k (Nat.le_trans (nextId_carryOut_le s h r k.kind) hle)

theorem handOut (hs : s.Shelved done) (hn : s.Numbered) (hc : s.channels.get? h = some c)
    (hsource : u.source = h) (hslot : u.slot = c.nextSlot) :
    (s.handOut h c).Shelved (done ++ [.gave u]) := by
  have hx : s.slots? h = some c.slots := by
    rw [slots?, hc]
    rfl
  have hnext : c.nextSlot = UInt32.ofNat (given h done).length := hs.next h _ hx
  have hgiven (k : Handle) : given k (done ++ [.gave u]) =
      if h = k then given k done ++ [u] else given k done := by
    rw [given_append, given_gave, hsource]
    split
    · rfl
    · exact List.append_nil _
  refine ⟨fun k => ?_, fun k y hy => ?_, fun k hle => ?_⟩
  · rw [hgiven]
    split
    · rename_i hk
      subst hk
      rw [List.map_append, hs.slots, List.length_append, List.length_singleton, List.range_succ,
        List.map_append, List.map_singleton, List.map_singleton, hslot, hnext]
    · exact hs.slots k
  · rw [slots?_handOut] at hy
    rw [hgiven]
    by_cases hk : h = k
    · subst hk
      rw [if_pos rfl] at hy ⊢
      obtain rfl := Option.some.inj hy
      rw [List.length_append, List.length_singleton, UInt32.ofNat_add, hnext]
      rfl
    · rw [if_neg (Ne.symm hk)] at hy
      rw [if_neg hk]
      exact hs.next k y hy
  · have hne : h ≠ k := by
      intro hk
      have hl : s.circuit.Live h := by
        rw [live_circuit, hc]
        rfl
      exact Nat.not_lt.mpr hle (hk ▸ hn h hl)
    rw [hgiven, if_neg hne]
    exact hs.unborn k hle

theorem effect (hs : s.Shelved done) (hn : s.Numbered) (he : s.Effect deed? t) :
    t.Shelved (done ++ deed?.toList) := by
  cases he with
  | none ht =>
      rw [Option.toList_none, List.append_nil]
      exact hs.alike ht
  | did hp _ ht => exact (hs.carryOut hp fun _ => rfl).alike ht
  | gave hc _ ht => exact (hs.handOut hn hc rfl rfl).alike ht
  | took hp ht => exact (hs.carryOut hp fun _ => rfl).alike ht

/-- As long as the slots have not come round, no two units of a channel have the same. -/
theorem nodup (hs : s.Shelved done) (hfew : (given h done).length ≤ UInt32.size) :
    ((given h done).map (·.slot)).Nodup := by
  rw [hs.slots]
  refine List.Nodup.map_on (fun i hi j hj heq => ?_) List.nodup_range
  have hi := Nat.lt_of_lt_of_le (List.mem_range.mp hi) hfew
  have hj := Nat.lt_of_lt_of_le (List.mem_range.mp hj) hfew
  have heq := congrArg UInt32.toNat heq
  rwa [UInt32.toNat_ofNat_of_lt' hi, UInt32.toNat_ofNat_of_lt' hj] at heq

end Shelved

theorem shelved_fresh (payloadSize : Nat) : (fresh payloadSize).Shelved [] where
  slots _ := rfl
  next _ _ hx := by cases hx
  unborn _ _ := rfl

theorem permit_release {slot : UInt32} : s.permit (.release h slot) = .ok k ↔
    k = h ∧ slot ∈ s.out h := by
  rw [mem_out_iff]
  simp only [permit, bind, Except.bind]
  split
  · rename_i fault hf
    have hnone : s.channels.get? h = none := by
      cases hc : s.channels.get? h with
      | none => rfl
      | some c => rw [channel_ok.mpr hc] at hf; cases hf
    simp [hnone]
  · rename_i c hc
    rw [channel_ok] at hc
    by_cases hm : slot ∈ c.outstanding <;>
      simp [hc, hm, pure, Except.pure, throw, throwThe, MonadExceptOf.throw, eq_comm]

/-- The units that are out are known, so far as the slots tell units apart. -/
def Lends (s : Server) (done : List ServerDeed) : Prop :=
  s.Tallied done ∧ s.Shelved done ∧
    (TakesOwn done → (∀ h, (given h done).length ≤ UInt32.size) → Lent done)

theorem Lends.effect (hs : s.Lends done) (hn : s.Numbered) (he : s.Effect deed? t) :
    t.Lends (done ++ deed?.toList) := by
  obtain ⟨htallied, hshelved, hlent⟩ := hs
  refine ⟨htallied.effect hn he, hshelved.effect hn he, fun hown hfew => ?_⟩
  have hbefore (h : Handle) : (given h done).length ≤ UInt32.size := by
    refine Nat.le_trans ?_ (hfew h)
    rw [given_append, List.length_append]
    exact Nat.le_add_right _ _
  cases he with
  | none ht =>
      rw [Option.toList_none, List.append_nil] at hown ⊢
      exact hlent hown hbefore
  | did hp _ ht => exact (hlent (takesOwn_concat.mp hown).1 hbefore).did _ _
  | gave hc _ ht =>
      rename_i h c _
      refine (hlent (takesOwn_concat.mp hown).1 hbefore).gave fun hm => ?_
      have hnodup := (hshelved.handOut hn hc rfl rfl).nodup (hfew h)
      have hsource : (MediaUnit.produce h c.attr c.produced c.nextSlot s.payloadSize).source = h :=
        rfl
      rw [given_append, given_gave, if_pos hsource, List.map_append, List.nodup_append] at hnodup
      exact hnodup.2.2 _ hm _ (List.mem_map_of_mem (List.mem_singleton_self _)) rfl
  | took hp ht =>
      rename_i h u
      obtain ⟨hown, hgiven⟩ := takesOwn_concat.mp hown
      refine (hlent hown hbefore).took (hshelved.nodup (hbefore h)) (hgiven h u rfl) ?_
      rw [← htallied.out]
      exact (permit_release.mp hp).2

theorem lends_after (payloadSize : Nat) (events : List ServerEvent) :
    ((fresh payloadSize).after events).Lends ((fresh payloadSize).deeds events) :=
  (Reachable.fresh payloadSize).after_keeps (I := Lends)
    (fun hs hi he => hi.effect hs.consistent.numbered he)
    ⟨tallied_fresh payloadSize, shelved_fresh payloadSize, fun _ _ => ⟨fun _ => rfl, fun _ => .nil⟩⟩
    events

theorem perform_release (hs : (s.strike .release h.kind).1 = false) {slot : UInt32} :
    (s.perform (.release h slot)).1 = .ok h ↔ slot ∈ s.out h := by
  constructor
  · intro ho
    obtain ⟨fault, hf, -⟩ | ⟨k, hp, -, -⟩ := perform_effect s (.release h slot)
    · rw [hf] at ho
      cases ho
    · exact (permit_release.mp hp).2
  · intro hm
    exact perform_of_permit hs (permit_release.mpr ⟨rfl, hm⟩)

/-- As long as every unit was taken back by the channel that had handed it out, the units that can
be given back on `h` are those that `h` handed out and did not take back yet, and exactly a unit
whose slot another unit of `h` holds is an exception. What is out of `h` is what it handed out
less what it took back, and `h` cannot be destroyed before all of it is back. The handles have
32-bit numbers as long as no more channels of a kind are created. -/
theorem after_lends (payloadSize : Nat) (events : List ServerEvent)
    (hown : TakesOwn ((fresh payloadSize).deeds events))
    (hfew : ∀ h, (given h ((fresh payloadSize).deeds events)).length < UInt32.size) :
    let s := (fresh payloadSize).after events
    let done := (fresh payloadSize).deeds events
    (∀ h u, (s.strike .release h.kind).1 = false →
      (((s.perform (.release h u.slot)).1 = .ok h ↔ u ∈ given h done ∧ u ∉ taken h done) ↔
        ∀ v ∈ given h done, v ∉ taken h done → v.slot = u.slot → v = u)) ∧
    (∀ h, (s.out h).length + (taken h done).length = (given h done).length) ∧
    (∀ h u, u ∈ given h done → u ∉ taken h done →
      ∃ fault, (s.perform (.destroy h)).1 = .error fault) ∧
    (s.FewCreated → ∀ h u, u ∈ given h done → h.id < UInt32.size) := by
  intro s done
  obtain ⟨htallied, hshelved, hlent⟩ := lends_after payloadSize events
  have hlent : Lent done := hlent hown fun h => Nat.le_of_lt (hfew h)
  have hnodup (h : Handle) := hshelved.nodup (Nat.le_of_lt (hfew h))
  have hout (h : Handle) (slot : UInt32) : slot ∈ s.out h ↔
      ∃ v, (v ∈ given h done ∧ v ∉ taken h done) ∧ v.slot = slot := by
    rw [htallied.out, hlent.out, List.mem_map]
    exact exists_congr fun v => and_congr_left' (hlent.mem_lent_iff (hnodup h))
  refine ⟨fun h u hs => ?_, fun h => ?_, fun h u hu hnot => ?_, fun hsmall h u hu => ?_⟩
  · rw [perform_release hs, hout]
    constructor
    · intro hlaw v hv hnot hslot
      exact List.inj_on_of_nodup_map (hnodup h) hv (hlaw.mp ⟨v, ⟨hv, hnot⟩, hslot⟩).1 hslot
    · intro hother
      refine ⟨fun hex => ?_, fun hu => ⟨u, hu, rfl⟩⟩
      obtain ⟨v, hv, hslot⟩ := hex
      exact hother v hv.1 hv.2 hslot ▸ hv
  · rw [htallied.out]
    exact hlent.length h
  · obtain ⟨fault, hf, -⟩ | ⟨k, hp, -, -⟩ := perform_effect s (.destroy h)
    · exact ⟨fault, hf⟩
    · obtain rfl := eq_of_permit hp rfl
      have hm : u.slot ∈ s.out k := (hout k u.slot).mpr ⟨u, ⟨hu, hnot⟩, rfl⟩
      rw [out_of_destroy hp] at hm
      cases hm
  · refine Nat.lt_trans (Nat.not_le.mp fun hle => ?_) (hsmall h.kind)
    rw [hshelved.unborn h hle] at hu
    cases hu

/-- Two cameras give a unit each. -/
def twoCameras : List ServerEvent :=
  let camera : ChannelAttr := .vi ⟨⟨1280, 720⟩, 30, .nv12, 4, false⟩
  [.create .vi camera, .create .vi camera, .enable ⟨.vi, 0⟩, .enable ⟨.vi, 1⟩, .probe ⟨.vi, 0⟩,
    .probe ⟨.vi, 1⟩, .produce ⟨.vi, 0⟩, .produce ⟨.vi, 1⟩]

/-- The first unit of a camera of `twoCameras`. -/
def firstUnit (id : Nat) : MediaUnit :=
  .produce ⟨.vi, id⟩ (.vi ⟨⟨1280, 720⟩, 30, .nv12, 4, false⟩) 0 0 4

theorem after_lends_twoCameras :
    let s := (fresh 4).after (twoCameras ++ [.giveBack ⟨.vi, 0⟩ (firstUnit 0)])
    let done := (fresh 4).deeds (twoCameras ++ [.giveBack ⟨.vi, 0⟩ (firstUnit 0)])
    TakesOwn done ∧ (∀ h, (given h done).length < UInt32.size) ∧
      (s.perform (.release ⟨.vi, 1⟩ (firstUnit 1).slot)).1 = .ok ⟨.vi, 1⟩ ∧
      (s.perform (.release ⟨.vi, 0⟩ (firstUnit 0).slot)).1 ≠ .ok ⟨.vi, 0⟩ ∧
      (s.out ⟨.vi, 1⟩).length + (taken ⟨.vi, 1⟩ done).length = (given ⟨.vi, 1⟩ done).length ∧
      ∃ fault, (s.perform (.destroy ⟨.vi, 1⟩)).1 = .error fault := by
  intro s done
  have hdone : done = (fresh 4).deeds twoCameras ++ [.took ⟨.vi, 0⟩ (firstUnit 0)] := by decide
  have hnone : ∀ d ∈ (fresh 4).deeds twoCameras, d.isTook = false := by decide
  have hown : TakesOwn done := by
    rw [hdone]
    refine takesOwn_concat.mpr ⟨takesOwn_of_forall hnone, fun h u heq => ?_⟩
    obtain ⟨rfl, rfl⟩ := ServerDeed.took.inj heq
    decide
  have hfew (h : Handle) : (given h done).length < UInt32.size :=
    Nat.lt_of_le_of_lt (List.length_filterMap_le _ _) (by decide)
  obtain ⟨hlaw, hcount, hpinned, -⟩ := after_lends 4 _ hown hfew
  have hout : firstUnit 1 ∈ given ⟨.vi, 1⟩ done ∧ firstUnit 1 ∉ taken ⟨.vi, 1⟩ done := by decide
  have hback : firstUnit 0 ∈ taken ⟨.vi, 0⟩ done := by decide
  have hone : ∀ v ∈ given ⟨.vi, 1⟩ done, v = firstUnit 1 := by decide
  have hzero : ∀ v ∈ given ⟨.vi, 0⟩ done, v = firstUnit 0 := by decide
  refine ⟨hown, hfew, ?_, fun hok => ?_, hcount _, hpinned _ _ hout.1 hout.2⟩
  · exact ((hlaw ⟨.vi, 1⟩ (firstUnit 1) rfl).mpr fun v hv _ _ => hone v hv).mpr hout
  · exact (((hlaw ⟨.vi, 0⟩ (firstUnit 0) rfl).mpr fun v hv _ _ => hzero v hv).mp hok).2 hback

/-- A unit of the second camera passes for one of the first, which then cannot be given back. -/
theorem took_of_other :
    let s := (fresh 4).after twoCameras
    let done := (fresh 4).deeds twoCameras
    given ⟨.vi, 0⟩ done = [firstUnit 0] ∧ given ⟨.vi, 1⟩ done = [firstUnit 1] ∧
      (s.perform (.release ⟨.vi, 0⟩ (firstUnit 1).slot)).1 = .ok ⟨.vi, 0⟩ ∧
      ((s.meet (.giveBack ⟨.vi, 0⟩ (firstUnit 1))).perform
        (.release ⟨.vi, 0⟩ (firstUnit 0).slot)).1 = .error (.unknownUnit ⟨.vi, 0⟩ 0) :=
  ⟨by decide, by decide, rfl, rfl⟩

end Server
end CameraPipeline
