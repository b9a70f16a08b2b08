import CameraPipeline.Proofs.Server.Overlay
import CameraPipeline.Proofs.Server.Strike
import Mathlib.Data.Set.Finite.List
import Mathlib.Order.WellFoundedSet

/-!
Taking a whole server down. First every link goes, then one channel after the other of those that
nothing lies on; while no unit is out, this ends with nothing left just if no chain of overlays runs
back to where it began. An injected failure costs one more attempt.
-/

namespace CameraPipeline

open Relation (ReflTransGen TransGen)

/-- Takes something down and gives no unit back. -/
def Request.takesDown : Request → Bool
  | .unbind _ | .stopReceiving _ | .disable _ | .destroy _ => true
  | .create _ _ | .setAttr _ _ | .enable _ | .bind _ | .startReceiving _ _ | .release _ _
  | .submit _ => false

def Node.rested (n : Node) : Node := { n with enabled := false, receiving := none }

namespace Circuit

variable {c : Circuit} {h k b : Handle} {r : Request}

/-- Of finitely many channels without a chain of overlays that runs back, nothing lies on one. -/
theorem exists_top {hs : List Handle} (hacyclic : c.Acyclic)
    (hlive : ∀ h, c.Live h → h ∈ hs) (hl : c.Live h) : ∃ k, c.Live k ∧ ¬c.Overlaid k := by
  have horder : IsStrictOrder Handle (TransGen c.LiesOn) :=
    { irrefl := hacyclic, trans := fun _ _ _ => TransGen.trans }
  have hfinite : {k | c.Live k}.Finite := hs.finite_toSet.subset hlive
  obtain ⟨⟨k, hk⟩, -, hmin⟩ :=
    (hfinite.wellFoundedOn (r := TransGen c.LiesOn)).has_min Set.univ ⟨⟨h, hl⟩, trivial⟩
  refine ⟨k, hk, fun hv => ?_⟩
  obtain ⟨j, hj⟩ := hv
  have hjl : c.Live j := live_iff.mpr (hj.imp fun _ => And.left)
  exact hmin ⟨j, hjl⟩ trivial (.single hj)

/-- Taking something down moves no overlay but that of a destroyed channel. -/
theorem LiesOn.takenDown (hl : c.LiesOn k b) (hr : r.takesDown)
    (hk : ∀ j, r = .destroy j → k ≠ h) : (c.after h r).LiesOn k b := by
  cases r with
  | stopReceiving | disable =>
      refine (liesOn_modify fun n => ?_).mpr hl
      rfl
  | unbind => exact hl
  | destroy j => exact (liesOn_set_of_ne (hk j rfl)).mpr hl
  | create | setAttr | enable | bind | startReceiving | release | submit => cases hr

end Circuit

namespace Server

/-- `t` comes of `s` by requests that take down, carried out or not. -/
def ComesDown (s t : Server) : Prop :=
  ReflTransGen (fun s t => ∃ r : Request, r.takesDown ∧ t = (s.perform r).2) s t

/-- Some requests that take down leave neither channels nor links. -/
def CanBeEmptied (s : Server) : Prop := ∃ t, s.ComesDown t ∧ t.live = [] ∧ t.binds = []

/-- No unit is out of any channel. -/
def Idle (s : Server) : Prop := ∀ h c, s.channels.get? h = some c → c.outstanding = []

variable {s t : Server} {h : Handle} {r : Request}

theorem Idle.comesDown (hs : s.Idle) (ht : s.ComesDown t) : t.Idle := by
  induction ht with
  | refl => exact hs
  | tail _ hstep ih =>
      obtain ⟨r, -, rfl⟩ := hstep
      intro h c hc
      obtain hnone | ⟨d, hd, hsub⟩ := outstanding_perform hc
      · exact hnone
      · exact List.eq_nil_of_sublist_nil (ih h d hd ▸ hsub)

theorem circuit_perform (s : Server) (r : Request) : (s.perform r).2.circuit = s.circuit ∨
    ∃ h, s.permit r = .ok h ∧ (s.perform r).2.circuit = s.circuit.after h r := by
  obtain ⟨_, -, ht⟩ | ⟨h, hp, -, ht⟩ := perform_effect s r
  · exact .inl ht.circuit
  · exact .inr ⟨h, hp, ht.circuit.trans (circuit_carryOut s h r)⟩

/-- What is permitted is carried out in the end: each failure spends the rule that caused it. -/
theorem exists_carriedOut (hr : r.takesDown) (hp : s.permit r = .ok h) :
    ∃ t, s.ComesDown t ∧ t.circuit = s.circuit.after h r := by
  induction hn : s.failures.length using Nat.strongRecOn generalizing s with
  | ind n ih =>
      cases hit : (s.strike r.operation r.kind).1 with
      | false =>
          have ho := perform_of_permit hit hp
          exact ⟨_, .single ⟨r, hr, rfl⟩, (circuit_of_perform_ok (Prod.ext ho rfl)).2⟩
      | true =>
          have hfails : s.perform r = (.error .injected, (s.strike r.operation r.kind).2) := by
            simp only [perform]
            rw [if_pos hit]
          have hused := FailureRule.length_strike r.operation r.kind s.failures
          have hfewer : (s.strike r.operation r.kind).2.failures.length < n := by
            rw [show (FailureRule.strike r.operation r.kind s.failures).1 = true from hit] at hused
            exact hn ▸ Nat.lt_of_succ_le (Nat.le_of_eq hused)
          obtain ⟨t, ht, hc⟩ := ih _ hfewer ((permit_strike s _ _ r).trans hp) rfl
          exact ⟨t, ht.head ⟨r, hr, by rw [hfails]⟩, hc⟩

theorem exists_unlinked (links : List Link) (hlinks : ∀ l, s.circuit.linked l → l ∈ links) :
    ∃ t, s.ComesDown t ∧ t.circuit = { s.circuit with linked := fun _ => false } := by
  induction links generalizing s with
  | nil =>
      refine ⟨s, .refl, Circuit.ext rfl (funext fun l => ?_)⟩
      exact Bool.eq_false_iff.mpr fun hl => List.not_mem_nil (hlinks l hl)
  | cons l links ih =>
      by_cases hl : s.circuit.linked l
      · obtain ⟨t, ht, hc⟩ := exists_carriedOut rfl (permit_unbind hl)
        have hrest : ∀ k, t.circuit.linked k → k ∈ links := by
          intro k hk
          rw [hc, Circuit.after, Circuit.linked_setLink] at hk
          split at hk
          · cases hk
          · exact (List.mem_cons.mp (hlinks k hk)).resolve_left ‹_›
        obtain ⟨t', ht', hc'⟩ := ih hrest
        exact ⟨t', ht.trans ht', hc'.trans (by rw [hc]; rfl)⟩
      · refine ih fun k hk => (List.mem_cons.mp (hlinks k hk)).resolve_left fun hkl => ?_
        exact hl (hkl ▸ hk)

/-- A channel without links can be brought to rest. -/
theorem exists_rested (hl : s.circuit.Live h) (hb : ¬s.circuit.Bound h) :
    ∃ t, s.ComesDown t ∧ t.circuit = s.circuit.modify h Node.rested := by
  obtain ⟨t, ht, hc⟩ := exists_carriedOut rfl (permit_stopReceiving hl)
  have hl' : t.circuit.Live h := hc ▸ Circuit.live_modify.mpr hl
  have hb' : ¬t.circuit.Bound h := hc ▸ hb
  obtain ⟨t', ht', hc'⟩ := exists_carriedOut rfl (permit_disable hl' hb')
  refine ⟨t', ht.trans ht', ?_⟩
  rw [hc', hc]
  simp only [Circuit.after, Circuit.modify, Circuit.set_set, Circuit.node?_set, if_true,
    Option.map_map]
  rfl

/-- A channel without links, without units out and with nothing on it can be taken away. -/
theorem exists_destroyed (hidle : s.Idle) (hl : s.circuit.Live h) (hb : ¬s.circuit.Bound h)
    (hv : ¬s.circuit.Overlaid h) : ∃ t, s.ComesDown t ∧ t.circuit = s.circuit.set h none := by
  obtain ⟨n, hn⟩ := Circuit.live_iff.mp hl
  obtain ⟨t, ht, hrested⟩ := exists_rested hl hb
  obtain ⟨c, hc, hnode⟩ : ∃ c, t.channels.get? h = some c ∧ c.node = n.rested := by
    refine Option.map_eq_some_iff.mp ?_
    rw [← node?_circuit, hrested, Circuit.modify, Circuit.node?_set, if_pos rfl, hn]
    rfl
  have hb' : ¬t.circuit.Bound h := hrested ▸ hb
  have hv' : ¬t.circuit.Overlaid h :=
    hrested ▸ mt (Circuit.overlaid_modify (f := Node.rested) fun _ => rfl).mp hv
  obtain ⟨t', ht', hc'⟩ := exists_carriedOut rfl (permit_destroy hc (congrArg Node.enabled hnode)
    (congrArg Node.receiving hnode) (hidle.comesDown ht h c hc) hb' hv')
  refine ⟨t', ht.trans ht', ?_⟩
  rw [hc', hrested]
  exact Circuit.set_set _ _ _ _

theorem exists_cleared (hs : List Handle) (hidle : s.Idle)
    (hlinked : ∀ l, ¬s.circuit.linked l) (hacyclic : s.circuit.Acyclic)
    (hlive : ∀ h, s.circuit.Live h → h ∈ hs) :
    ∃ t, s.ComesDown t ∧ (∀ h, ¬t.circuit.Live h) ∧ ∀ l, ¬t.circuit.linked l := by
  induction hn : hs.length generalizing s hs with
  | zero =>
      rw [List.length_eq_zero_iff.mp hn] at hlive
      exact ⟨s, .refl, fun h hl => List.not_mem_nil (hlive h hl), hlinked⟩
  | succ n ih =>
      by_cases hany : ∃ h, s.circuit.Live h
      · obtain ⟨h, hl⟩ := hany
        obtain ⟨k, hk, hv⟩ := Circuit.exists_top hacyclic hlive hl
        have hb : ¬s.circuit.Bound k := fun hb => hb.elim fun l hl => hlinked l hl.1
        obtain ⟨t, ht, hc⟩ := exists_destroyed hidle hk hb hv
        have hold (j b : Handle) : t.circuit.LiesOn j b → s.circuit.LiesOn j b :=
          hc ▸ Circuit.liesOn_of_set_none
        have hrest : ∀ j, t.circuit.Live j → j ∈ hs.erase k := by
          intro j hj
          rw [hc] at hj
          obtain ⟨hne, hj⟩ := Circuit.live_set_none.mp hj
          exact (List.mem_erase_of_ne hne).mpr (hlive j hj)
        have hlen : (hs.erase k).length = n := by
          rw [List.length_erase_of_mem (hlive k hk), hn]
          rfl
        obtain ⟨t', ht', hclear⟩ := ih _ (hidle.comesDown ht) (hc ▸ hlinked)
          (fun j hcycle => hacyclic j (TransGen.mono hold j j hcycle)) hrest hlen
        exact ⟨t', ht.trans ht', hclear⟩
      · exact ⟨s, .refl, fun h hl => hany ⟨h, hl⟩, hlinked⟩

theorem canBeEmptied_of_acyclic (hidle : s.Idle) (hacyclic : s.circuit.Acyclic) :
    s.CanBeEmptied := by
  obtain ⟨t, ht, hc⟩ := exists_unlinked s.binds fun l hl => mem_binds_iff.mpr hl
  obtain ⟨t', ht', hlive, hlinked⟩ := exists_cleared s.live (hidle.comesDown ht)
    (by simp [hc]) (by rw [hc]; exact hacyclic) (by rw [hc]; exact fun h hl => mem_live_iff.mpr hl)
  obtain ⟨hl, hb, -⟩ := clear_of_circuit hlive hlinked
  exact ⟨t', ht.trans ht', hl, hb⟩

/-- Channels of which each has another one of them on it are never taken away. -/
theorem ComesDown.stuck {S : Handle → Prop} (hS : ∀ h, S h → ∃ k, S k ∧ s.circuit.LiesOn k h)
    (ht : s.ComesDown t) : ∀ h, S h → ∃ k, S k ∧ t.circuit.LiesOn k h := by
  induction ht with
  | refl => exact hS
  | @tail t _ _ hstep ih =>
      obtain ⟨r, hr, rfl⟩ := hstep
      intro h hh
      obtain ⟨k, hk, hl⟩ := ih h hh
      refine ⟨k, hk, ?_⟩
      obtain hsame | ⟨j, hp, hc⟩ := circuit_perform t r
      · exact hsame ▸ hl
      · rw [hc]
        refine hl.takenDown hr fun j' hd hkj => ?_
        subst hd
        obtain rfl := eq_of_permit hp rfl
        obtain ⟨i, -, hi⟩ := ih k hk
        exact not_overlaid_of_destroy hp (hkj ▸ ⟨i, hi⟩)

/-- While no unit is out, a server can be emptied just if no chain of overlays runs back to where
it began. -/
theorem canBeEmptied_iff (ho : s.outstanding = 0) :
    s.CanBeEmptied ↔ s.circuit.Acyclic := by
  constructor
  · intro hempty h hcycle
    obtain ⟨t, ht, hlive, -⟩ := hempty
    have hS : ∀ k, TransGen s.circuit.LiesOn k k →
        ∃ j, TransGen s.circuit.LiesOn j j ∧ s.circuit.LiesOn j k := by
      intro k hk
      obtain ⟨j, hto, hl⟩ := TransGen.tail'_iff.mp hk
      exact ⟨j, .head' hl hto, hl⟩
    obtain ⟨k, -, n, hn, -⟩ := ht.stuck hS h hcycle
    have hm : k ∈ t.live := mem_live_iff.mpr (Circuit.live_iff.mpr ⟨n, hn⟩)
    rw [hlive] at hm
    cases hm
  · exact canBeEmptied_of_acyclic fun h c hc => outstanding_eq_nil ho hc

/-- As long as attributes that were set laid channels only on live ones that did not lie on them,
every overlay lies on another live channel, and whenever no unit is out the server can be emptied by
requests that take down. The handles have 32-bit numbers as long as no more channels of a kind are
created. -/
theorem after_canBeEmptied (payloadSize : Nat) (events : List ServerEvent)
    (hlays : (fresh payloadSize).LaysWell events) :
    let s := (fresh payloadSize).after events
    (∀ h c attr, s.channels.get? h = some c → c.attr = .rgn attr →
      attr.attachTo ≠ h ∧ attr.attachTo ∈ s.live) ∧ (s.outstanding = 0 → s.CanBeEmptied) ∧
      (s.FewCreated → ∀ h ∈ s.live, h.id < UInt32.size) := by
  intro s
  have hreachable : s.Reachable := (Reachable.fresh payloadSize).after events
  have hlaid : s.circuit.WellLaid := ((Reachable.fresh payloadSize).laysWell_iff
    Circuit.wellLaid_empty).mp hlays events List.prefix_rfl
  refine ⟨fun h c attr hc ha => ?_, fun ho => (canBeEmptied_iff ho).mpr hlaid.acyclic,
    fun hfew h hm => hreachable.consistent.numbered.id_lt hfew (mem_live_iff.mp hm)⟩
  have hl : s.circuit.LiesOn h attr.attachTo :=
    ⟨c.node, by rw [node?_circuit, hc]; rfl, by rw [Channel.node, ha]; rfl⟩
  refine ⟨fun heq => ?_, mem_live_iff.mpr (hlaid.live _ _ hl)⟩
  rw [heq] at hl
  exact hlaid.acyclic h (.single hl)

/-- An overlay is moved from a camera to the encoder that the camera feeds. One unit is fetched and
given back, and the next destruction of a camera is to fail. -/
def relabelling : List ServerEvent :=
  let encoder : ChannelAttr := .venc ⟨⟨1280, 720⟩, .h264, 4000, 60, 30, 30, 4, false⟩
  [.create .vi (.vi ⟨⟨1280, 720⟩, 30, .nv12, 4, false⟩), .create .venc encoder,
    .create .rgn (.rgn ⟨⟨.vi, 0⟩, ⟨64, 64⟩⟩),
    .setAttr ⟨.rgn, 0⟩ (.rgn ⟨⟨.venc, 0⟩, ⟨64, 64⟩⟩), .enable ⟨.vi, 0⟩, .enable ⟨.venc, 0⟩,
    .bind ⟨⟨.vi, 0⟩, ⟨.venc, 0⟩⟩, .startReceiving ⟨.venc, 0⟩ .unlimited, .produce ⟨.venc, 0⟩,
    .giveBack ⟨.venc, 0⟩ (.produce ⟨.venc, 0⟩ encoder 0 0 4),
    .inject ⟨.destroy, some .vi, 1, Nat.one_pos⟩]

theorem after_canBeEmptied_relabelling :
    let s := (fresh 4).after relabelling
    (fresh 4).LaysWell relabelling ∧
      s.attrOf ⟨.rgn, 0⟩ = some (.rgn ⟨⟨.venc, 0⟩, ⟨64, 64⟩⟩) ∧ ⟨.venc, 0⟩ ∈ s.live ∧
      s.outstanding = 0 ∧ s.CanBeEmptied := by
  intro s
  have hmove : ((fresh 4).after (relabelling.take 3)).Lays
      (.setAttr ⟨.rgn, 0⟩ (.rgn ⟨⟨.venc, 0⟩, ⟨64, 64⟩⟩)) := by
    intro h k attr b hset hb
    simp only [ServerEvent.setAttr, deed?, Option.map_eq_some_iff] at hset
    obtain ⟨_, -, heq⟩ := hset
    obtain ⟨rfl, rfl⟩ := Request.setAttr.inj (ServerDeed.did.inj heq).1
    obtain rfl := Option.some.inj hb
    refine ⟨rfl, fun hback => ?_⟩
    obtain heq | ⟨_, ⟨n, hn, ho⟩, -⟩ := ReflTransGen.cases_head hback
    · cases heq
    · obtain rfl := Option.some.inj hn
      cases ho
  have hlays : (fresh 4).LaysWell relabelling := by
    refine ⟨?_, ?_, ?_, hmove, ?_, ?_, ?_, ?_, ?_, ?_, ?_, trivial⟩ <;> simp [Lays, deed?]
  obtain ⟨hlaid, hempty, -⟩ := after_canBeEmptied 4 relabelling hlays
  have hattr : s.attrOf ⟨.rgn, 0⟩ = some (.rgn ⟨⟨.venc, 0⟩, ⟨64, 64⟩⟩) := rfl
  obtain ⟨c, hc, ha⟩ := Option.map_eq_some_iff.mp hattr
  exact ⟨hlays, hattr, (hlaid _ c _ hc ha).2, rfl, hempty rfl⟩

/-- An overlay is laid on itself. -/
def looping : List ServerEvent :=
  [.create .vi (.vi ⟨⟨1280, 720⟩, 30, .nv12, 4, false⟩),
    .create .rgn (.rgn ⟨⟨.vi, 0⟩, ⟨64, 64⟩⟩),
    .setAttr ⟨.rgn, 0⟩ (.rgn ⟨⟨.rgn, 0⟩, ⟨64, 64⟩⟩)]

theorem not_canBeEmptied_looping :
    let s := (fresh 4).after looping
    s.attrOf ⟨.rgn, 0⟩ = some (.rgn ⟨⟨.rgn, 0⟩, ⟨64, 64⟩⟩) ∧ s.outstanding = 0 ∧
      ¬s.CanBeEmptied := by
  intro s
  have hself : s.circuit.LiesOn ⟨.rgn, 0⟩ ⟨.rgn, 0⟩ := ⟨_, rfl, rfl⟩
  refine ⟨rfl, rfl, fun hempty => ?_⟩
  exact (canBeEmptied_iff rfl).mp hempty ⟨.rgn, 0⟩ (.single hself)

end Server
end CameraPipeline
