import CameraPipeline.Proofs.Server.Run
import Mathlib.Logic.Relation

/-!
Overlays in a run. A new overlay lies on a live channel, which cannot be destroyed while it does;
but attributes that are set later are taken without a look at what they name. So every overlay lies
on another live channel, and no chain of them runs back, as long as that was so whenever attributes
were set, and not longer.
-/

namespace CameraPipeline

open Relation (ReflTransGen TransGen)

namespace Circuit

def LiesOn (c : Circuit) (k b : Handle) : Prop := ∃ n, c.node? k = some n ∧ n.overlaid = some b

/-- No chain of overlays runs back to where it began. -/
def Acyclic (c : Circuit) : Prop := ∀ h, ¬TransGen c.LiesOn h h

structure WellLaid (c : Circuit) : Prop where
  live : ∀ k b, c.LiesOn k b → c.Live b
  acyclic : c.Acyclic

/-- `b` lives and does not lie on `h`, directly or through others. -/
def MayLie (c : Circuit) (h b : Handle) : Prop := c.Live b ∧ ¬ReflTransGen c.LiesOn b h

variable {c c' : Circuit} {h k b : Handle} {attr : ChannelAttr}

theorem not_liesOn_empty (k b : Handle) : ¬empty.LiesOn k b := by
  intro hl
  obtain ⟨n, hn, -⟩ := hl
  cases hn

theorem wellLaid_empty : empty.WellLaid where
  live k b hl := absurd hl (not_liesOn_empty k b)
  acyclic h hcycle := by
    obtain ⟨b, hl, -⟩ := TransGen.head'_iff.mp hcycle
    exact not_liesOn_empty h b hl

theorem liesOn_set_of_ne (hk : k ≠ h) {n : Option Node} :
    (c.set h n).LiesOn k b ↔ c.LiesOn k b := by
  simp [LiesOn, hk]

theorem liesOn_modify {f : Node → Node} (hf : ∀ n, (f n).overlaid = n.overlaid) :
    (c.modify h f).LiesOn k b ↔ c.LiesOn k b := by
  by_cases hk : k = h
  · subst hk
    cases hn : c.node? k <;> simp [LiesOn, modify, hn, hf]
  · exact liesOn_set_of_ne hk

theorem overlaid_modify {f : Node → Node} (hf : ∀ n, (f n).overlaid = n.overlaid) :
    (c.modify h f).Overlaid b ↔ c.Overlaid b :=
  exists_congr fun _ => liesOn_modify hf

theorem liesOn_of_set_none (hl : (c.set h none).LiesOn k b) : c.LiesOn k b := by
  by_cases hk : k = h
  · subst hk
    obtain ⟨n, hn, -⟩ := hl
    simp at hn
  · exact (liesOn_set_of_ne hk).mp hl

theorem live_set_none : (c.set h none).Live k ↔ k ≠ h ∧ c.Live k := by
  by_cases hk : k = h <;> simp [Live, hk]

theorem liesOn_setAttr_self :
    (c.after h (.setAttr k attr)).LiesOn h b ↔ c.Live h ∧ attr.overlaid? = some b := by
  cases hn : c.node? h <;> simp [LiesOn, after, modify, Live, hn]

/-- Where only `h` is laid elsewhere, what led to `h` before still does. -/
theorem reaches_of_redirect (hother : ∀ k b, k ≠ h → c'.LiesOn k b → c.LiesOn k b)
    (hp : ReflTransGen c'.LiesOn k h) : ReflTransGen c.LiesOn k h := by
  induction hp using ReflTransGen.head_induction_on with
  | refl => exact .refl
  | @head k b hl _ ih =>
      by_cases hk : k = h
      · rw [hk]
      · exact ih.head (hother k b hk hl)

theorem chain_of_redirect (hother : ∀ k b, k ≠ h → c'.LiesOn k b → c.LiesOn k b)
    (hp : TransGen c'.LiesOn k b) :
    TransGen c.LiesOn k b ∨ ReflTransGen c'.LiesOn k h ∧ TransGen c'.LiesOn h b := by
  induction hp using TransGen.head_induction_on with
  | @single k hl =>
      by_cases hk : k = h
      · exact .inr ⟨hk ▸ .refl, hk ▸ .single hl⟩
      · exact .inl (.single (hother k b hk hl))
  | @head k m hl hp ih =>
      by_cases hk : k = h
      · exact .inr ⟨hk ▸ .refl, hk ▸ .head hl hp⟩
      · obtain hold | ⟨hto, hfrom⟩ := ih
        · exact .inl (.head (hother k m hk hl) hold)
        · exact .inr ⟨hto.head hl, hfrom⟩

/-- One channel may be laid elsewhere if what it then lies on does not lie on it. -/
theorem WellLaid.redirect (hc : c.WellLaid)
    (hother : ∀ k b, k ≠ h → c'.LiesOn k b → c.LiesOn k b)
    (hself : ∀ b, c'.LiesOn h b → c.MayLie h b) (hlive : ∀ b, c.Live b → c'.Live b) :
    c'.WellLaid where
  live k b hl := by
    by_cases hk : k = h
    · exact hlive b (hself b (hk ▸ hl)).1
    · exact hlive b (hc.live k b (hother k b hk hl))
  acyclic k hcycle := by
    obtain hold | ⟨hto, hfrom⟩ := chain_of_redirect hother hcycle
    · exact hc.acyclic k hold
    · obtain ⟨b, hl, hback⟩ := TransGen.head'_iff.mp (hfrom.trans_left hto)
      exact (hself b hl).2 (reaches_of_redirect hother hback)

theorem WellLaid.of_liesOn (hc : c.WellLaid) (hold : ∀ k b, c'.LiesOn k b → c.LiesOn k b)
    (hlive : ∀ k b, c'.LiesOn k b → c'.Live b) : c'.WellLaid :=
  ⟨hlive, fun h hcycle => hc.acyclic h (TransGen.mono hold h h hcycle)⟩

theorem WellLaid.modify (hc : c.WellLaid) {f : Node → Node}
    (hf : ∀ n, (f n).overlaid = n.overlaid) : (c.modify h f).WellLaid :=
  hc.of_liesOn (fun _ _ => (liesOn_modify hf).mp) fun k b hl =>
    live_modify.mpr (hc.live k b ((liesOn_modify hf).mp hl))

/-- Attributes keep the overlays as they should be just if the channel may lie where they say. -/
theorem wellLaid_setAttr_iff (hc : c.WellLaid) (hh : c.Live h) :
    (c.after h (.setAttr k attr)).WellLaid ↔ ∀ b, attr.overlaid? = some b → c.MayLie h b := by
  have hother (j b : Handle) (hj : j ≠ h) :
      (c.after h (.setAttr k attr)).LiesOn j b ↔ c.LiesOn j b :=
    liesOn_set_of_ne hj
  constructor
  · intro hc' b hb
    have hl : (c.after h (.setAttr k attr)).LiesOn h b := liesOn_setAttr_self.mpr ⟨hh, hb⟩
    refine ⟨live_modify.mp (hc'.live h b hl), fun hback => hc'.acyclic h ?_⟩
    exact .head' hl (reaches_of_redirect (fun j b hj => (hother j b hj).mpr) hback)
  · intro hmay
    exact hc.redirect (fun j b hj => (hother j b hj).mp)
      (fun b hl => hmay b (liesOn_setAttr_self.mp hl).2) fun _ => live_modify.mpr

end Circuit

namespace Server

variable {s : Server} {h k b : Handle} {r : Request} {attr : ChannelAttr}

theorem live_of_setAttr (hp : s.permit (.setAttr h attr) = .ok k) : s.circuit.Live k := by
  obtain rfl := eq_of_permit hp rfl
  simp only [permit, bind, Except.bind] at hp
  split at hp
  · cases hp
  · rename_i c hc
    rw [live_circuit, channel_ok.mp hc]
    rfl

/-- Only attributes that are set can lay a channel where it may not lie. -/
theorem wellLaid_carryOut (hs : s.circuit.WellLaid) (hn : s.Numbered) (hp : s.permit r = .ok h)
    (hset : ∀ k attr b, r = .setAttr k attr → attr.overlaid? = some b → s.circuit.MayLie k b) :
    (s.circuit.after h r).WellLaid := by
  cases r with
  | create kind attr =>
      obtain ⟨rfl, hbase⟩ := permit_create hp
      have hfresh : ¬s.circuit.Live ⟨kind, s.nextId kind⟩ :=
        Circuit.not_live_iff.mpr (hn.fresh kind)
      refine hs.redirect (fun k b hk => (Circuit.liesOn_set_of_ne hk).mp) (fun b hl => ?_)
        fun b hb => Circuit.live_set.mpr (.inr hb)
      obtain ⟨n, hn, ho⟩ := hl
      obtain rfl : _ = n := by simpa [Circuit.after] using hn
      refine ⟨hbase b ho, fun hback => ?_⟩
      -- nothing lies on a channel that is not there yet
      obtain heq | ⟨j, -, hl⟩ := ReflTransGen.cases_tail_iff _ _ _ |>.mp hback
      · exact hfresh (heq ▸ hbase b ho)
      · exact hfresh (hs.live j _ hl)
  | setAttr k attr =>
      have hl := live_of_setAttr hp
      obtain rfl := eq_of_permit hp rfl
      exact (Circuit.wellLaid_setAttr_iff hs hl).mpr fun b => hset _ attr b rfl
  | enable | disable | startReceiving | stopReceiving => exact hs.modify fun _ => rfl
  | bind | unbind | release | submit => exact ⟨hs.live, hs.acyclic⟩
  | destroy k =>
      have hfree := not_overlaid_of_destroy hp
      obtain rfl := eq_of_permit hp rfl
      refine hs.of_liesOn (fun _ _ => Circuit.liesOn_of_set_none) fun j b hl => ?_
      have hl : s.circuit.LiesOn j b := Circuit.liesOn_of_set_none hl
      have hb : b ≠ h := fun hb => hfree ⟨j, hb ▸ hl⟩
      exact Circuit.live_set_none.mpr ⟨hb, hs.live j b hl⟩

/-- If the event sets attributes that lay a channel on `b`, it may lie there. -/
def Lays (s : Server) (e : ServerEvent) : Prop :=
  ∀ h k attr b, s.deed? e = some (.did (.setAttr h attr) k) → attr.overlaid? = some b →
    s.circuit.MayLie h b

/-- Every event of the run lays channels only where they may lie. -/
def LaysWell (s : Server) : List ServerEvent → Prop
  | [] => True
  | e :: events => s.Lays e ∧ (s.meet e).LaysWell events

/-- An event carries a request out on the circuit or leaves it as it is. -/
theorem circuit_effect {deed? : Option ServerDeed} {t : Server} (he : s.Effect deed? t) :
    (∃ r h, deed? = some (.did r h) ∧ s.permit r = .ok h ∧ t.circuit = s.circuit.after h r) ∨
      (∀ r h, deed? ≠ some (.did r h)) ∧ t.circuit = s.circuit := by
  cases he with
  | none ht => exact .inr ⟨by simp, ht.circuit⟩
  | did hp _ ht => exact .inl ⟨_, _, rfl, hp, ht.circuit.trans (circuit_carryOut s _ _)⟩
  | gave hc _ ht =>
      refine .inr ⟨by simp, ht.circuit.trans ((circuit_insert s _ _).trans (Circuit.set_self ?_))⟩
      rw [node?_circuit, hc]
      rfl
  | took _ ht => exact .inr ⟨by simp, ht.circuit.trans (circuit_carryOut s _ _)⟩

theorem wellLaid_meet_iff (hs : s.circuit.WellLaid) (hn : s.Numbered) (e : ServerEvent) :
    (s.meet e).circuit.WellLaid ↔ s.Lays e := by
  obtain ⟨r, j, hd, hp, hc⟩ | ⟨hnone, hsame⟩ := circuit_effect (meet_effect s e)
  · rw [hc]
    constructor
    · intro hthen h k attr b hset hb
      obtain ⟨rfl, rfl⟩ := ServerDeed.did.inj (Option.some.inj (hd.symm.trans hset))
      have hl := live_of_setAttr hp
      obtain rfl := eq_of_permit hp rfl
      exact (Circuit.wellLaid_setAttr_iff hs hl).mp hthen b hb
    · intro hlays
      refine wellLaid_carryOut hs hn hp fun k attr b hr => ?_
      subst hr
      exact hlays k j attr b hd
  · rw [hsame]
    exact ⟨fun _ h k attr b hset => absurd hset (hnone _ _), fun _ => hs⟩

/-- In all states of a run the overlays are as they should be just if this is so of all attributes
that were set. -/
theorem Reachable.laysWell_iff (hs : s.Reachable) (hlaid : s.circuit.WellLaid)
    {events : List ServerEvent} : s.LaysWell events ↔
      ∀ before, before <+: events → (s.after before).circuit.WellLaid := by
  induction events generalizing s with
  | nil =>
      refine ⟨fun _ before hp => ?_, fun _ => trivial⟩
      rw [List.prefix_nil.mp hp]
      exact hlaid
  | cons e events ih =>
      have hstep := wellLaid_meet_iff hlaid hs.consistent.numbered e
      constructor
      · intro hlays before hp
        obtain rfl | ⟨rest, rfl, hrest⟩ := List.prefix_cons_iff.mp hp
        · exact hlaid
        · exact (ih (hs.meet e) (hstep.mpr hlays.1)).mp hlays.2 rest hrest
      · intro hall
        have hthen : (s.meet e).circuit.WellLaid := hall [e] (List.prefix_append [e] events)
        exact ⟨hstep.mp hthen, (ih (hs.meet e) hthen).mpr fun rest hrest =>
          hall (e :: rest) ((List.prefix_cons_inj e).mpr hrest)⟩

end Server
end CameraPipeline
