import CameraPipeline.Proofs.Server.Outstanding

/-!
The states that a server can come to, and what holds in all of them: its channels are numbered, and
links join enabled channels. That overlays lie on live channels does not hold in all of them: the
channel that an overlay lies on is checked when it is created, but not when its attributes are set.
-/

namespace CameraPipeline

namespace Circuit

variable {c : Circuit} {h k : Handle}

theorem Enabled.set_of_ne (he : c.Enabled k) (hk : k ≠ h) (n : Option Node) :
    (c.set h n).Enabled k := by
  obtain ⟨m, hm, he⟩ := he
  exact ⟨m, by rw [node?_set, if_neg hk, hm], he⟩

theorem Enabled.modify (he : c.Enabled k) {f : Node → Node}
    (hf : ∀ n, n.enabled → (f n).enabled) : (c.modify h f).Enabled k := by
  obtain ⟨n, hn, he⟩ := he
  by_cases hk : k = h
  · subst hk
    exact ⟨f n, by simp [Circuit.modify, hn], hf n he⟩
  · exact Enabled.set_of_ne ⟨n, hn, he⟩ hk _

end Circuit

namespace Server

/-- A state that a fresh server comes to by calls, whatever fails on the way. -/
inductive Reachable : Server → Prop
  | fresh (payloadSize : Nat) : Reachable { payloadSize }
  | perform {s : Server} (hs : Reachable s) (r : Request) : Reachable (s.perform r).2
  | probe {s : Server} (hs : Reachable s) (h : Handle) : Reachable (s.probe h).2
  | produce {s : Server} (hs : Reachable s) (h : Handle) : Reachable (s.produce h).2
  | inject {s : Server} (hs : Reachable s) (rule : FailureRule) : Reachable (s.inject rule)
  | clearLog {s : Server} (hs : Reachable s) : Reachable s.clearLog

structure Consistent (s : Server) : Prop where
  numbered : s.Numbered
  enabled_of_bound : ∀ h, s.circuit.Bound h → s.circuit.Enabled h

variable {s t : Server} {h k : Handle} {r : Request}

theorem not_bound_of_disable (hp : s.permit (.disable k) = .ok h) : ¬s.circuit.Bound k := by
  intro hb
  have hb : s.isBound k := isBound_iff.mpr hb
  simp [permit, hb, bind, Except.bind, throw, throwThe, MonadExceptOf.throw] at hp

theorem not_bound_of_destroy (hp : s.permit (.destroy k) = .ok h) : ¬s.circuit.Bound k := by
  intro hb
  have hb : s.isBound k := isBound_iff.mpr hb
  simp only [permit, hb, Bool.or_true, Bool.true_or, if_true, bind, Except.bind] at hp
  split at hp <;> cases hp

theorem not_overlaid_of_destroy (hp : s.permit (.destroy k) = .ok h) :
    ¬s.circuit.Overlaid k := by
  intro hv
  have hv : s.hasOverlay k := hasOverlay_iff.mpr hv
  simp only [permit, hv, Bool.or_true, if_true, bind, Except.bind] at hp
  split at hp <;> cases hp

theorem Consistent.of_circuit (hs : s.Consistent) (hc : t.circuit = s.circuit)
    (hn : t.nextId = s.nextId) : t.Consistent where
  numbered h hl := by
    rw [hn]
    rw [hc] at hl
    exact hs.numbered h hl
  enabled_of_bound h hb := by
    rw [hc] at hb ⊢
    exact hs.enabled_of_bound h hb

theorem Consistent.after (hs : s.Consistent) (hp : s.permit r = .ok h)
    (hb : (s.circuit.after h r).Bound k) : (s.circuit.after h r).Enabled k := by
  cases r with
  | create kind attr =>
      have he := hs.enabled_of_bound k (Circuit.bound_set.mp hb)
      obtain ⟨rfl, -⟩ := permit_create hp
      refine he.set_of_ne (fun hk => ?_) _
      exact Circuit.not_live_iff.mpr (hs.numbered.fresh kind) (hk ▸ he.live)
  | setAttr | startReceiving | stopReceiving =>
      exact (hs.enabled_of_bound k hb).modify fun _ => id
  | enable => exact (hs.enabled_of_bound k hb).modify fun _ _ => rfl
  | disable k' =>
      obtain rfl := eq_of_permit hp rfl
      refine (hs.enabled_of_bound k hb).set_of_ne (fun hk => ?_) _
      exact not_bound_of_disable hp (hk ▸ hb)
  | bind l =>
      obtain ⟨hsource, htarget, -⟩ := permit_bind hp
      obtain ⟨j, hj, hk⟩ := hb
      rw [Circuit.after, Circuit.linked_setLink] at hj
      split at hj
      · rename_i hjl
        subst hjl
        simp only [Link.touches, Bool.or_eq_true, beq_iff_eq] at hk
        obtain rfl | rfl := hk
        · exact hsource
        · exact htarget
      · exact hs.enabled_of_bound k ⟨j, hj, hk⟩
  | unbind l =>
      obtain ⟨j, hj, hk⟩ := hb
      rw [Circuit.after, Circuit.linked_setLink] at hj
      split at hj
      · cases hj
      · exact hs.enabled_of_bound k ⟨j, hj, hk⟩
  | release | submit => exact hs.enabled_of_bound k hb
  | destroy k' =>
      obtain rfl := eq_of_permit hp rfl
      refine (hs.enabled_of_bound k hb).set_of_ne (fun hk => ?_) _
      exact not_bound_of_destroy hp (hk ▸ hb)

theorem Consistent.perform (hs : s.Consistent) (r : Request) : (s.perform r).2.Consistent where
  numbered := hs.numbered.perform r
  enabled_of_bound k hb := by
    cases ho : s.perform r with
    | mk answer t =>
        rw [ho] at hb
        cases answer with
        | ok h =>
            obtain ⟨hp, hc⟩ := circuit_of_perform_ok ho
            rw [hc] at hb ⊢
            exact hs.after hp hb
        | error fault =>
            have hc := circuit_of_perform_error ho
            rw [hc] at hb ⊢
            exact hs.enabled_of_bound k hb

theorem Consistent.fetch (hs : s.Consistent) (h : Handle) : (s.fetch h).2.Consistent :=
  hs.of_circuit (circuit_fetch s h) (nextId_fetch s h)

theorem Reachable.consistent (h : s.Reachable) : s.Consistent := by
  induction h with
  | fresh n =>
      refine ⟨fun h hl => ?_, fun h hb => ?_⟩
      · cases hl
      · obtain ⟨l, hl, -⟩ := hb
        cases hl
  | perform _ r ih => exact ih.perform r
  | probe _ h ih => exact ih.of_circuit (circuit_probe _ h) (nextId_probe _ h)
  | produce _ h ih => exact ih.of_circuit (circuit_produce _ h) (nextId_produce _ h)
  | inject _ rule ih => exact ih.of_circuit rfl rfl
  | clearLog _ ih => exact ih.of_circuit rfl rfl

end Server
end CameraPipeline
