import CameraPipeline.Plant.Stack
import CameraPipeline.Proofs.Server.Permission

/-!
Which circuit a stack stands for. A stack laid on a ground circuit holds the inverses of the steps
that lead from the ground to the circuit at hand, so its newest step can be undone, and what is
left is laid on the same ground.
-/

namespace CameraPipeline

/-- The steps of a stack, newest first, lead from `ground` to the circuit. -/
inductive Laid (ground : Circuit) : List Undo → Circuit → Prop
  | bare : Laid ground [] ground
  | create {steps : List Undo} {c : Circuit} (h : Handle) (base : Option Handle)
      (laid : Laid ground steps c) (new : c.node? h = none) (live : ∀ b, base = some b → c.Live b) :
      Laid ground (.request (.destroy h) :: steps) (c.set h (some ⟨base, false, none⟩))
  | enable {steps : List Undo} {c : Circuit} (h : Handle) (base : Option Handle)
      (quota : Option Quota) (laid : Laid ground steps c)
      (node : c.node? h = some ⟨base, false, quota⟩) :
      Laid ground (.request (.disable h) :: steps) (c.set h (some ⟨base, true, quota⟩))
  | bind {steps : List Undo} {c : Circuit} (l : Link) (laid : Laid ground steps c)
      (free : c.linked l = false) (source : c.Enabled l.source) (target : c.Enabled l.target) :
      Laid ground (.request (.unbind l) :: steps) (c.setLink l true)
  | receive {steps : List Undo} {c : Circuit} (h : Handle) (base : Option Handle) (on : Bool)
      (quota : Quota) (laid : Laid ground steps c) (node : c.node? h = some ⟨base, on, none⟩) :
      Laid ground (.request (.stopReceiving h) :: steps) (c.set h (some ⟨base, on, some quota⟩))
  | pump {steps : List Undo} {c : Circuit} (id : PumpId) (laid : Laid ground steps c) :
      Laid ground (.pump id :: steps) c

namespace Circuit

variable {c : Circuit} {h k : Handle}

theorem WellFormed.free (hw : c.WellFormed) (hn : c.node? h = none) :
    ¬c.Bound h ∧ ¬c.Overlaid h := by
  have hl : ¬c.Live h := not_live_iff.mpr hn
  exact ⟨fun hb => hl (hw.enabled_of_bound h hb).live, fun hv => hl (hw.live_of_overlaid h hv)⟩

/-- A channel may be added on top of live ones. -/
theorem WellFormed.add (hw : c.WellFormed) (hn : c.node? h = none) {base : Option Handle}
    (hb : ∀ b, base = some b → c.Live b) (on : Bool) (quota : Option Quota) :
    (c.set h (some ⟨base, on, quota⟩)).WellFormed := by
  constructor
  · intro k hk
    obtain ⟨n, hn', he⟩ := hw.enabled_of_bound k hk
    have hne : k ≠ h := fun e => by simp [e, hn] at hn'
    exact ⟨n, by simp [hne, hn'], he⟩
  · intro k hex
    obtain ⟨j, n, hj, hv⟩ := hex
    refine live_set.mpr (.inr ?_)
    rw [node?_set] at hj
    split at hj
    · cases hj
      exact hb k hv
    · exact hw.live_of_overlaid k ⟨j, n, hj, hv⟩

theorem WellFormed.free_add (hw : c.WellFormed) (hn : c.node? h = none) {base : Option Handle}
    (hb : ∀ b, base = some b → c.Live b) (on : Bool) (quota : Option Quota) :
    ¬(c.set h (some ⟨base, on, quota⟩)).Bound h ∧
      ¬(c.set h (some ⟨base, on, quota⟩)).Overlaid h := by
  obtain ⟨hbound, hover⟩ := hw.free hn
  refine ⟨fun hk => hbound (bound_set.mp hk), ?_⟩
  intro hex
  obtain ⟨j, n, hj, hv⟩ := hex
  rw [node?_set] at hj
  split at hj
  · cases hj
    exact not_live_iff.mpr hn (hb h hv)
  · exact hover ⟨j, n, hj, hv⟩

/-- A channel that stays enabled, if it was, may change whether it is enabled or receives. -/
theorem WellFormed.change (hw : c.WellFormed) {base : Option Handle} {on on' : Bool}
    {quota quota' : Option Quota} (hn : c.node? h = some ⟨base, on, quota⟩) (ho : on → on') :
    (c.set h (some ⟨base, on', quota'⟩)).WellFormed := by
  constructor
  · intro k hk
    obtain ⟨n, hn', he⟩ := hw.enabled_of_bound k hk
    by_cases hkh : k = h
    · subst hkh
      rw [hn] at hn'
      cases hn'
      exact ⟨⟨base, on', quota'⟩, by simp, ho he⟩
    · exact ⟨n, by simp [hkh, hn'], he⟩
  · intro k hex
    obtain ⟨j, n, hj, hv⟩ := hex
    refine live_set.mpr (.inr ?_)
    rw [node?_set] at hj
    split at hj
    · cases hj
      exact hw.live_of_overlaid k ⟨h, _, hn, hv⟩
    · exact hw.live_of_overlaid k ⟨j, n, hj, hv⟩

theorem WellFormed.link (hw : c.WellFormed) {l : Link} (hs : c.Enabled l.source)
    (ht : c.Enabled l.target) : (c.setLink l true).WellFormed := by
  refine ⟨?_, hw.live_of_overlaid⟩
  intro k hex
  obtain ⟨j, hj, hk⟩ := hex
  rw [linked_setLink] at hj
  split at hj
  · subst j
    simp only [Link.touches, Bool.or_eq_true, beq_iff_eq] at hk
    cases hk with
    | inl heq =>
        subst heq
        exact hs
    | inr heq =>
        subst heq
        exact ht
  · exact hw.enabled_of_bound k ⟨j, hj, hk⟩

end Circuit

namespace Laid

variable {ground c : Circuit} {steps : List Undo}

theorem eq_of_bare (hl : Laid ground [] c) : c = ground := by
  cases hl
  rfl

theorem wellFormed (hl : Laid ground steps c) (hg : ground.WellFormed) : c.WellFormed := by
  induction hl with
  | bare => exact hg
  | create h base _ new live ih => exact ih.add new live false none
  | enable h base quota _ node ih => exact ih.change node fun _ => rfl
  | bind l _ _ source target ih => exact ih.link source target
  | receive h base on quota _ node ih => exact ih.change node id
  | pump id _ ih => exact ih

theorem live (hl : Laid ground steps c) {h : Handle} (hg : ground.Live h) : c.Live h := by
  induction hl with
  | bare => exact hg
  | create | enable | receive => exact Circuit.live_set.mpr (.inr ‹_›)
  | bind | pump => assumption

/-- Pumps are no part of the circuit. -/
theorem of_pump {id : PumpId} (hl : Laid ground (.pump id :: steps) c) : Laid ground steps c := by
  cases hl
  assumption

end Laid

/-- No unit is out of a channel that does not live on the ground. -/
def Server.Returned (s : Server) (ground : Circuit) : Prop :=
  ∀ h c, ¬ground.Live h → s.channels.get? h = some c → c.outstanding = []

/-- The newest step of a stack gives back, can be undone, and leaves the stack below it. -/
theorem Laid.newest {ground c : Circuit} {r : Request} {steps : List Undo}
    (hl : Laid ground (.request r :: steps) c) (hg : ground.WellFormed) :
    r.operation.givesBack ∧ ∃ c', Laid ground steps c' ∧
      (∀ (s : Server) k, s.permit r = .ok k → c.after k r = c') ∧
      ∀ s : Server, s.circuit = c → s.Returned ground → ∃ k, s.permit r = .ok k := by
  cases hl with
  | @create _ c h base laid new live =>
      refine ⟨rfl, c, laid, fun s k hk => ?_, fun s hs ho => ⟨h, ?_⟩⟩
      · obtain rfl := Server.eq_of_permit hk rfl
        exact (Circuit.set_set c k _ _).trans (Circuit.set_self new)
      · have hnode : s.circuit.node? h = some ⟨base, false, none⟩ := by simp [hs]
        obtain ⟨ch, hch, hch'⟩ := Option.map_eq_some_iff.mp hnode
        obtain ⟨_, henabled, hquota⟩ := Node.mk.inj hch'
        have hdead : ¬ground.Live h := fun hl => Circuit.not_live_iff.mpr new (laid.live hl)
        obtain ⟨hbound, hover⟩ := (laid.wellFormed hg).free_add new live false none
        exact Server.permit_destroy hch henabled hquota (ho h ch hdead hch) (hs ▸ hbound)
          (hs ▸ hover)
  | @enable _ c h base quota laid node =>
      refine ⟨rfl, c, laid, fun s k hk => ?_, fun s hs _ => ⟨h, ?_⟩⟩
      · obtain rfl := Server.eq_of_permit hk rfl
        rw [Circuit.after, Circuit.modify, Circuit.set_set]
        exact Circuit.set_self (by simp [node])
      · refine Server.permit_disable (by simp [hs, Circuit.Live]) fun hb => ?_
        -- a channel that was not enabled before this step was not bound before it either
        rw [hs, Circuit.bound_set] at hb
        obtain ⟨n, hn, he⟩ := (laid.wellFormed hg).enabled_of_bound h hb
        rw [node] at hn
        cases hn
        cases he
  | @bind _ c l laid free source target =>
      refine ⟨rfl, c, laid, fun s k _ => c.setLink_setLink l true free, fun s hs _ => ?_⟩
      exact ⟨l.target, Server.permit_unbind (by simp [hs])⟩
  | @receive _ c h base on quota laid node =>
      refine ⟨rfl, c, laid, fun s k hk => ?_, fun s hs _ => ⟨h, ?_⟩⟩
      · obtain rfl := Server.eq_of_permit hk rfl
        rw [Circuit.after, Circuit.modify, Circuit.set_set]
        exact Circuit.set_self (by simp [node])
      · exact Server.permit_stopReceiving (by simp [hs, Circuit.Live])

end CameraPipeline
