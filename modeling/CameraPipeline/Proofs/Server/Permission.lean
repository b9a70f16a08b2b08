import CameraPipeline.Proofs.Server.Circuit

/-!
When the server carries a request out. The inverse of a step is permitted as soon as the circuit
allows it and, for a channel to be destroyed, no unit is out; it succeeds unless a failure is
injected on it. The number of a new channel is fresh in every server that counts its channels.
-/

namespace CameraPipeline

/-- Operations that give back what was taken: the inverses of construction steps and the return
of a unit. -/
def Operation.givesBack : Operation → Bool
  | .disable | .unbind | .stopReceiving | .destroy | .release => true
  | .create | .setAttr | .enable | .bind | .startReceiving | .fetch | .submit => false

/-- The one live channel that a request names. -/
def Request.subject? : Request → Option Handle
  | .create _ _ | .bind _ | .unbind _ => none
  | .setAttr h _ | .enable h | .disable h | .startReceiving h _ | .stopReceiving h
  | .release h _ | .submit h | .destroy h => some h

namespace FailureRule

theorem mem_strike {op : Operation} {kind : ChannelKind} {rules : List FailureRule}
    {r : FailureRule} (h : r ∈ (strike op kind rules).2) :
    ∃ r' ∈ rules, r'.operation = r.operation := by
  induction rules with
  | nil => cases h
  | cons q rules ih =>
      simp only [strike] at h
      split at h
      · split at h
        · cases List.mem_cons.mp h with
          | inl heq =>
              subst heq
              exact ⟨q, .head _, rfl⟩
          | inr h =>
              obtain ⟨r', hr', he⟩ := ih h
              exact ⟨r', .tail _ hr', he⟩
        · exact ⟨r, .tail _ h, rfl⟩
      · cases List.mem_cons.mp h with
        | inl heq =>
            subst heq
            exact ⟨r, .head _, rfl⟩
        | inr h =>
            obtain ⟨r', hr', he⟩ := ih h
            exact ⟨r', .tail _ hr', he⟩

theorem strike_eq_false {op : Operation} {kind : ChannelKind} {rules : List FailureRule}
    (h : ∀ r ∈ rules, r.operation ≠ op) : (strike op kind rules).1 = false := by
  induction rules with
  | nil => rfl
  | cons q rules ih =>
      have hq : q.covers op kind = false := by simp [covers, h q (.head _)]
      simp only [strike, hq, Bool.false_eq_true, if_false]
      exact ih fun r hr => h r (.tail _ hr)

end FailureRule

namespace Server

/-- Failures are injected only on the operations `P`. -/
def FailsOnly (P : Operation → Prop) (s : Server) : Prop := ∀ r ∈ s.failures, P r.operation

/-- No failure is injected on operations that give back. -/
def SparesReturns (s : Server) : Prop := ∀ r ∈ s.failures, r.operation.givesBack = false

/-- Every live channel has a number below the next one of its kind. -/
def Numbered (s : Server) : Prop := ∀ h, s.circuit.Live h → h.id < s.nextId h.kind

/-- The numbers of handles have not outgrown 32 bits. -/
def FewCreated (s : Server) : Prop := ∀ kind, s.nextId kind < UInt32.size

theorem Numbered.id_lt {s : Server} (hs : s.Numbered) (hfew : s.FewCreated) {h : Handle}
    (hl : s.circuit.Live h) : h.id < UInt32.size :=
  Nat.lt_trans (hs h hl) (hfew h.kind)

theorem FailsOnly.strike {P : Operation → Prop} {s : Server} (hs : s.FailsOnly P) (op : Operation)
    (kind : ChannelKind) : (s.strike op kind).2.FailsOnly P := by
  intro r hr
  obtain ⟨r', hr', he⟩ := FailureRule.mem_strike hr
  exact he ▸ hs r' hr'

theorem FailsOnly.strike_eq_false {P : Operation → Prop} {s : Server} (hs : s.FailsOnly P)
    {op : Operation} (hop : ¬P op) (kind : ChannelKind) : (s.strike op kind).1 = false :=
  FailureRule.strike_eq_false fun r hr he => hop (he ▸ hs r hr)

theorem strike_of_spares {s : Server} (hs : s.SparesReturns) {op : Operation}
    (hop : op.givesBack) (kind : ChannelKind) : (s.strike op kind).1 = false := by
  have hs : s.FailsOnly (·.givesBack = false) := hs
  exact hs.strike_eq_false (by simp [hop]) kind

theorem permit_strike (s : Server) (op : Operation) (kind : ChannelKind) (r : Request) :
    (s.strike op kind).2.permit r = s.permit r := by
  cases r <;> rfl

theorem carryOut_strike (s : Server) (op : Operation) (kind : ChannelKind) (h : Handle)
    (r : Request) : (s.strike op kind).2.carryOut h r =
      { s.carryOut h r with failures := (s.strike op kind).2.failures } := by
  cases r with
  | create | bind | unbind | submit | destroy => rfl
  | setAttr | enable | disable | startReceiving | stopReceiving | release =>
      simp only [carryOut, update, strike]
      split <;> rfl

theorem log_carryOut (s : Server) (h : Handle) (r : Request) : (s.carryOut h r).log = s.log := by
  cases r with
  | create | bind | unbind | submit | destroy => rfl
  | setAttr | enable | disable | startReceiving | stopReceiving | release =>
      simp only [carryOut, update]
      split <;> rfl

/-- What a request can come to: a refusal, or its being carried out. -/
theorem perform_cases (s : Server) (r : Request) :
    (∃ fault, s.perform r = (.error fault, (s.strike r.operation r.kind).2)) ∨
    ∃ h, s.permit r = .ok h ∧
      s.perform r = (.ok h, ((s.strike r.operation r.kind).2.carryOut h r).record (r.call h)) := by
  simp only [perform]
  split
  · exact .inl ⟨_, rfl⟩
  · rw [permit_strike]
    cases hp : s.permit r with
    | error fault => exact .inl ⟨fault, rfl⟩
    | ok h => exact .inr ⟨h, rfl, rfl⟩

theorem perform_of_permit {s : Server} {r : Request} {h : Handle}
    (hs : (s.strike r.operation r.kind).1 = false) (hp : s.permit r = .ok h) :
    (s.perform r).1 = .ok h := by
  simp only [perform]
  rw [if_neg (by simp [hs]), permit_strike, hp]

theorem circuit_of_perform_ok {s t : Server} {r : Request} {h : Handle}
    (ho : s.perform r = (.ok h, t)) : s.permit r = .ok h ∧ t.circuit = s.circuit.after h r := by
  cases perform_cases s r with
  | inl hcase =>
      obtain ⟨fault, hf⟩ := hcase
      rw [hf] at ho
      cases ho
  | inr hcase =>
      obtain ⟨k, hk, hf⟩ := hcase
      rw [hf] at ho
      cases ho
      exact ⟨hk, by rw [circuit_record, circuit_carryOut, circuit_strike]⟩

theorem circuit_of_perform_error {s t : Server} {r : Request} {fault : Fault}
    (he : s.perform r = (.error fault, t)) : t.circuit = s.circuit := by
  cases perform_cases s r with
  | inl hcase =>
      obtain ⟨fault', hf⟩ := hcase
      rw [hf] at he
      cases he
      rfl
  | inr hcase =>
      obtain ⟨k, hk, hf⟩ := hcase
      rw [hf] at he
      cases he

section Permit

variable {s : Server} {h k : Handle}

theorem channel_ok {c : Channel} : s.channel h = .ok c ↔ s.channels.get? h = some c := by
  simp only [channel]
  split <;> simp_all

theorem enabledChannel_ok {c : Channel} :
    s.enabledChannel h = .ok c ↔ s.channels.get? h = some c ∧ c.enabled := by
  simp only [enabledChannel, channel, bind, Except.bind]
  cases hc : s.channels.get? h with
  | none => simp
  | some d =>
      cases he : d.enabled <;> simp [he, pure, Except.pure, throw, throwThe, MonadExceptOf.throw]
      · intro heq
        subst heq
        simp [he]
      · intro heq
        subst heq
        exact he

theorem enabled_of_get? {c : Channel} (hc : s.channels.get? h = some c) (he : c.enabled) :
    s.circuit.Enabled h :=
  ⟨c.node, by simp [node?_circuit, hc], he⟩

theorem permit_create {kind : ChannelKind} {attr : ChannelAttr}
    (hp : s.permit (.create kind attr) = .ok k) :
    k = ⟨kind, s.nextId kind⟩ ∧ ∀ b, attr.overlaid? = some b → s.circuit.Live b := by
  simp only [permit, bind, Except.bind] at hp
  split at hp
  · cases hp
  · split at hp
    · rename_i base hb
      cases hc : s.channel base with
      | error fault => simp [hc] at hp
      | ok c =>
          simp only [hc] at hp
          cases hp
          refine ⟨rfl, fun b hb' => ?_⟩
          rw [hb] at hb'
          cases hb'
          simp [live_circuit, channel_ok.mp hc]
    · rename_i hb
      cases hp
      exact ⟨rfl, fun b hb' => by simp [hb'] at hb⟩

theorem permit_bind {l : Link} (hp : s.permit (.bind l) = .ok k) :
    s.circuit.Enabled l.source ∧ s.circuit.Enabled l.target ∧ s.circuit.linked l = false := by
  simp only [permit, bind, Except.bind] at hp
  cases hsrc : s.enabledChannel l.source with
  | error fault => simp [hsrc] at hp
  | ok c =>
      cases htgt : s.enabledChannel l.target with
      | error fault => simp [hsrc, htgt] at hp
      | ok d =>
          simp only [hsrc, htgt] at hp
          obtain ⟨hc, hce⟩ := enabledChannel_ok.mp hsrc
          obtain ⟨hd, hde⟩ := enabledChannel_ok.mp htgt
          refine ⟨enabled_of_get? hc hce, enabled_of_get? hd hde, ?_⟩
          cases hl : s.links.contains l with
          | false => exact hl
          | true => simp [hl, throw, throwThe, MonadExceptOf.throw] at hp

/-- A request about one channel is carried out on it. -/
theorem eq_of_permit {r : Request} (hp : s.permit r = .ok k) (hr : r.subject? = some h) :
    k = h := by
  cases r <;> cases hr <;> simp only [permit, bind, Except.bind] at hp <;>
    (repeat' split at hp) <;> cases hp <;> rfl

theorem channel_of_live (hl : s.circuit.Live h) : ∃ c, s.channel h = .ok c := by
  obtain ⟨c, hc⟩ := Option.isSome_iff_exists.mp (live_circuit.mp hl)
  exact ⟨c, channel_ok.mpr hc⟩

theorem permit_stopReceiving (hl : s.circuit.Live h) : s.permit (.stopReceiving h) = .ok h := by
  obtain ⟨c, hc⟩ := channel_of_live hl
  simp [permit, hc, bind, Except.bind, pure, Except.pure]

theorem permit_startReceiving (hl : s.circuit.Live h) (quota : Quota) :
    s.permit (.startReceiving h quota) = .ok h := by
  obtain ⟨c, hc⟩ := channel_of_live hl
  simp [permit, hc, bind, Except.bind, pure, Except.pure]

theorem exists_of_permit_startReceiving {quota : Quota}
    (hp : s.permit (.startReceiving h quota) = .ok k) : ∃ c, s.channels.get? h = some c := by
  simp only [permit, bind, Except.bind] at hp
  split at hp
  · cases hp
  · exact ⟨_, channel_ok.mp ‹_›⟩

theorem enabledChannel_of_enabled (he : s.circuit.Enabled h) :
    ∃ c, s.enabledChannel h = .ok c := by
  obtain ⟨n, hn, he⟩ := he
  obtain ⟨c, hc, rfl⟩ := Option.map_eq_some_iff.mp hn
  exact ⟨c, enabledChannel_ok.mpr ⟨hc, he⟩⟩

theorem permit_bind_of_enabled {l : Link} (hs : s.circuit.Enabled l.source)
    (ht : s.circuit.Enabled l.target) (hl : s.circuit.linked l = false) :
    s.permit (.bind l) = .ok l.target := by
  obtain ⟨c, hc⟩ := enabledChannel_of_enabled hs
  obtain ⟨d, hd⟩ := enabledChannel_of_enabled ht
  have hl : s.links.contains l = false := hl
  simp [permit, hc, hd, hl, bind, Except.bind, pure, Except.pure]

theorem permit_disable (hl : s.circuit.Live h) (hb : ¬s.circuit.Bound h) :
    s.permit (.disable h) = .ok h := by
  obtain ⟨c, hc⟩ := channel_of_live hl
  have hb : ¬s.isBound h = true := fun hi => hb (isBound_iff.mp hi)
  simp [permit, hb, hc, bind, Except.bind, pure, Except.pure]

theorem permit_unbind {l : Link} (hl : s.circuit.linked l) :
    s.permit (.unbind l) = .ok l.target := by
  have hl : s.links.contains l = true := hl
  simp [permit, hl, pure, Except.pure]

/-- A channel can be destroyed once it is at rest and nothing hangs on it. -/
theorem permit_destroy {c : Channel} (hc : s.channels.get? h = some c) (he : c.enabled = false)
    (hr : c.receiving = none) (ho : c.outstanding = []) (hb : ¬s.circuit.Bound h)
    (hv : ¬s.circuit.Overlaid h) : s.permit (.destroy h) = .ok h := by
  have hb : s.isBound h = false := by
    rw [← Bool.not_eq_true, isBound_iff]
    exact hb
  have hv : s.hasOverlay h = false := by
    rw [← Bool.not_eq_true, hasOverlay_iff]
    exact hv
  simp [permit, channel_ok.mpr hc, he, hr, ho, hb, hv, bind, Except.bind, pure, Except.pure]

end Permit

section Numbers

variable {s : Server}

theorem nextId_update (s : Server) (h : Handle) (f : Channel → Channel) :
    (s.update h f).nextId = s.nextId := by
  simp only [update]
  split <;> rfl

/-- Only a creation moves a number on. -/
theorem nextId_carryOut (s : Server) (h : Handle) {r : Request} (hr : r.operation ≠ .create) :
    (s.carryOut h r).nextId = s.nextId := by
  cases r with
  | create => exact absurd rfl hr
  | setAttr | enable | disable | startReceiving | stopReceiving | release =>
      exact nextId_update s h _
  | bind | unbind | submit | destroy => rfl

theorem nextId_carryOut_le (s : Server) (h : Handle) (r : Request) (kind : ChannelKind) :
    s.nextId kind ≤ (s.carryOut h r).nextId kind := by
  cases r with
  | create kind' attr =>
      by_cases hk : kind = kind' <;> simp [carryOut, hk]
  | setAttr | enable | disable | bind | unbind | startReceiving | stopReceiving | release | submit
  | destroy =>
      exact Nat.le_of_eq (congrFun (nextId_carryOut s h (by simp [Request.operation])) kind).symm

theorem live_after {c : Circuit} {h k : Handle} {r : Request} (hl : (c.after h r).Live k) :
    c.Live k ∨ k = h ∧ ∃ kind attr, r = .create kind attr := by
  cases r with
  | create kind attr =>
      cases Circuit.live_set.mp hl with
      | inl hk => exact .inr ⟨hk, kind, attr, rfl⟩
      | inr hk => exact .inl hk
  | setAttr _ _ | enable _ | disable _ | startReceiving _ _ | stopReceiving _ =>
      exact .inl (Circuit.live_modify.mp hl)
  | bind _ | unbind _ | release _ _ | submit _ => exact .inl hl
  | destroy _ =>
      by_cases hk : k = h
      · simp [Circuit.Live, Circuit.after, hk] at hl
      · exact .inl (by simpa [Circuit.Live, Circuit.after, hk] using hl)

theorem Numbered.perform (hs : s.Numbered) (r : Request) : (s.perform r).2.Numbered := by
  cases perform_cases s r with
  | inl hcase =>
      obtain ⟨fault, hf⟩ := hcase
      rw [hf]
      exact hs
  | inr hcase =>
      obtain ⟨h, hp, hf⟩ := hcase
      rw [hf]
      intro k hk
      rw [circuit_record, circuit_carryOut, circuit_strike] at hk
      have hle := nextId_carryOut_le (s.strike r.operation r.kind).2 h r k.kind
      cases live_after hk with
      | inl hk => exact Nat.lt_of_lt_of_le (hs k hk) hle
      | inr hcase =>
          obtain ⟨rfl, kind, attr, rfl⟩ := hcase
          obtain ⟨rfl, _⟩ := permit_create hp
          simp [carryOut, record, Server.strike]

theorem nextId_probe (s : Server) (h : Handle) : (s.probe h).2.nextId = s.nextId := by
  simp only [probe]
  split
  · rfl
  · split <;> rfl

theorem nextId_produce (s : Server) (h : Handle) : (s.produce h).2.nextId = s.nextId := by
  simp only [produce]
  split
  · rfl
  · split <;> rfl

theorem nextId_fetch (s : Server) (h : Handle) : (s.fetch h).2.nextId = s.nextId := by
  have hp := nextId_probe s h
  simp only [fetch]
  split
  · simpa [*] using hp
  · simpa [*] using hp
  · rename_i t ht
    rw [ht] at hp
    exact (nextId_produce t h).trans hp

theorem Numbered.fetch (hs : s.Numbered) (h : Handle) : (s.fetch h).2.Numbered := by
  intro k hk
  rw [circuit_fetch] at hk
  rw [nextId_fetch]
  exact hs k hk

/-- The channel that a numbered server creates is a new one. -/
theorem Numbered.fresh (hs : s.Numbered) (kind : ChannelKind) :
    s.circuit.node? ⟨kind, s.nextId kind⟩ = none := by
  rw [← Circuit.not_live_iff]
  intro hl
  exact Nat.lt_irrefl _ (hs _ hl)

end Numbers

end Server
end CameraPipeline
