import CameraPipeline.Proofs.Server.Outstanding

/-!
The attributes of live channels. Only a request that sets them or destroys the channel changes
them, so they outlast every other call, also one that is refused.
-/

namespace CameraPipeline

/-- The request neither sets the attributes of `h` nor destroys it. -/
def Request.Keeps (h : Handle) : Request → Prop
  | .setAttr k _ | .destroy k => k ≠ h
  | _ => True

theorem Request.keeps_of_givesBack {h : Handle} {r : Request} (hr : r.operation.givesBack)
    (hd : r ≠ .destroy h) : r.Keeps h := by
  cases r with
  | setAttr => cases hr
  | destroy k =>
      intro heq
      exact hd (heq ▸ rfl)
  | create | enable | disable | bind | unbind | startReceiving | stopReceiving | release | submit =>
      trivial

namespace Server

variable {s : Server} {h k : Handle} {v : ChannelAttr} {r : Request}

theorem live_of_attrOf (hv : s.attrOf h = some v) : s.circuit.Live h := by
  rw [live_circuit]
  simp only [attrOf] at hv
  cases hc : s.channels.get? h with
  | none => simp [hc] at hv
  | some c => rfl

theorem overlaid_of_attrOf (hv : s.attrOf k = some v) (hover : v.overlaid? = some h) :
    s.circuit.Overlaid h := by
  obtain ⟨c, hc, rfl⟩ := Option.map_eq_some_iff.mp hv
  exact ⟨k, c.node, by rw [node?_circuit, hc, Option.map_some], hover⟩

theorem attrOf_carryOut (hp : s.permit r = .ok k) (hn : s.Numbered) (hr : r.Keeps h)
    (hv : s.attrOf h = some v) : (s.carryOut k r).attrOf h = some v := by
  rw [attrOf, get?_carryOut]
  split
  · rename_i hk
    subst hk
    cases r with
    | create =>
        obtain ⟨rfl, _⟩ := permit_create hp
        exact absurd (live_of_attrOf hv) (Circuit.not_live_iff.mpr (hn.fresh _))
    | setAttr | destroy => exact absurd (eq_of_permit hp rfl).symm hr
    | enable | disable | startReceiving | stopReceiving | release =>
        obtain ⟨c, hc, rfl⟩ := Option.map_eq_some_iff.mp hv
        rw [hc]
        rfl
    | bind | unbind | submit => exact hv
  · exact hv

theorem Numbered.attrOf_perform (hn : s.Numbered) (hr : r.Keeps h) (hv : s.attrOf h = some v) :
    (s.perform r).2.attrOf h = some v := by
  cases perform_cases s r with
  | inl hcase =>
      obtain ⟨fault, hf⟩ := hcase
      rw [hf]
      exact hv
  | inr hcase =>
      obtain ⟨k, hp, hf⟩ := hcase
      rw [hf]
      have hp : (s.strike r.operation r.kind).2.permit r = .ok k := by rwa [permit_strike]
      exact attrOf_carryOut hp hn hr hv

theorem attrOf_of_perform_error {t : Server} {fault : Fault}
    (he : s.perform r = (.error fault, t)) (h : Handle) : t.attrOf h = s.attrOf h := by
  cases perform_cases s r with
  | inl hcase =>
      obtain ⟨fault', hf⟩ := hcase
      rw [hf] at he
      cases he
      rfl
  | inr hcase =>
      obtain ⟨k, _, hf⟩ := hcase
      rw [hf] at he
      cases he

theorem attrOf_create {t : Server} {kind : ChannelKind}
    (ho : s.perform (.create kind v) = (.ok k, t)) : t.attrOf k = some v := by
  cases perform_cases s (.create kind v) with
  | inl hcase =>
      obtain ⟨fault, hf⟩ := hcase
      rw [hf] at ho
      cases ho
  | inr hcase =>
      obtain ⟨k, _, hf⟩ := hcase
      rw [hf] at ho
      cases ho
      simp [carryOut, record, attrOf]

theorem attrOf_setAttr {t : Server} (ho : s.perform (.setAttr h v) = (.ok k, t)) :
    t.attrOf h = some v := by
  cases perform_cases s (.setAttr h v) with
  | inl hcase =>
      obtain ⟨fault, hf⟩ := hcase
      rw [hf] at ho
      cases ho
  | inr hcase =>
      obtain ⟨k, hp, hf⟩ := hcase
      rw [hf] at ho
      cases ho
      obtain rfl := eq_of_permit hp rfl
      simp only [permit, Bind.bind, Except.bind] at hp
      split at hp
      · cases hp
      · rename_i c hc
        have hc : (s.strike .setAttr k.kind).2.channels.get? k = some c := channel_ok.mp hc
        simp only [carryOut, record, attrOf, Request.operation, Request.kind, get?_update, hc,
          if_true, Option.map_some]

theorem attrOf_produce (s : Server) (h k : Handle) :
    (s.produce h).2.attrOf k = s.attrOf k := by
  cases hc : s.channels.get? h with
  | none => simp [produce, hc]
  | some c =>
      simp only [produce, hc]
      split
      · by_cases hk : k = h <;> simp [attrOf, Table.get?_insert, hk, hc]
      · rfl

theorem attrOf_fetch (s : Server) (h k : Handle) : (s.fetch h).2.attrOf k = s.attrOf k := by
  have hp : (s.probe h).2.attrOf k = s.attrOf k := by simp only [attrOf, channels_probe]
  simp only [fetch]
  split
  · simpa [*] using hp
  · simpa [*] using hp
  · rename_i t ht
    rw [ht] at hp
    exact (attrOf_produce t h k).trans hp

end Server
end CameraPipeline
