import CameraPipeline.Proofs.Server.Permission

/-!
The units that are out of a server. A fetch adds the slot of the unit that it hands out, a release
takes its slot off, a new channel starts with none, and no other call adds any.
-/

namespace CameraPipeline

/-- The channel that a request is carried out on, before and after it. -/
def Request.channelAfter : Request → Option Channel → Option Channel
  | .create _ attr, _ => some { attr }
  | .setAttr _ attr, before => before.map fun c => { c with attr }
  | .enable _, before => before.map fun c => { c with enabled := true }
  | .disable _, before => before.map fun c => { c with enabled := false }
  | .startReceiving _ quota, before =>
    before.map fun c => { c with receiving := some quota, produced := 0 }
  | .stopReceiving _, before => before.map fun c => { c with receiving := none }
  | .release _ slot, before =>
    before.map fun c => { c with outstanding := c.outstanding.erase slot }
  | .bind _, before | .unbind _, before | .submit _, before => before
  | .destroy _, _ => none

namespace Server

variable {s : Server} {h k : Handle} {c : Channel}

theorem get?_update (s : Server) (h k : Handle) (f : Channel → Channel) :
    (s.update h f).channels.get? k =
      if k = h then (s.channels.get? h).map f else s.channels.get? k := by
  cases hc : s.channels.get? h with
  | none =>
      by_cases hk : k = h
      · simp [update, hc, hk]
      · simp [update, hc, hk]
  | some c => simp [update, hc, Table.get?_insert]

theorem get?_carryOut (s : Server) (h k : Handle) (r : Request) :
    (s.carryOut h r).channels.get? k =
      if k = h then r.channelAfter (s.channels.get? h) else s.channels.get? k := by
  cases r with
  | create => exact Table.get?_insert _ _ _ _
  | destroy => exact Table.get?_erase _ _ _
  | setAttr | enable | disable | startReceiving | stopReceiving | release =>
      exact get?_update s h k _
  | bind | unbind | submit =>
      split
      · rename_i hk
        rw [hk]
        rfl
      · rfl

/-- Where no unit is out, none is out of any channel. -/
theorem outstanding_eq_nil (hs : s.outstanding = 0) (hc : s.channels.get? k = some c) :
    c.outstanding = [] := by
  have hzero (entries : List (Handle × Channel))
      (h : entries.foldr (fun e n => e.2.outstanding.length + n) 0 = 0) :
      ∀ e ∈ entries, e.2.outstanding = [] := by
    induction entries with
    | nil => simp
    | cons e entries ih =>
        obtain ⟨he, hrest⟩ := Nat.add_eq_zero_iff.mp h
        exact List.forall_mem_cons.mpr ⟨List.length_eq_zero_iff.mp he, ih hrest⟩
  exact hzero _ hs _ (s.channels.mem_entries_iff.mpr hc)

/-- After a request a channel has no unit out that was not out before. -/
theorem outstanding_carryOut {r : Request} (hc : (s.carryOut h r).channels.get? k = some c) :
    c.outstanding = [] ∨
      ∃ d, s.channels.get? k = some d ∧ c.outstanding.Sublist d.outstanding := by
  rw [get?_carryOut] at hc
  split at hc
  · subst k
    cases r with
    | create kind attr =>
        obtain rfl := Option.some.inj hc
        exact .inl rfl
    | destroy => cases hc
    | setAttr | enable | disable | startReceiving | stopReceiving =>
        obtain ⟨d, hd, rfl⟩ := Option.map_eq_some_iff.mp hc
        exact .inr ⟨d, hd, .refl _⟩
    | release =>
        obtain ⟨d, hd, rfl⟩ := Option.map_eq_some_iff.mp hc
        exact .inr ⟨d, hd, List.erase_sublist⟩
    | bind | unbind | submit => exact .inr ⟨c, hc, .refl _⟩
  · exact .inr ⟨c, hc, .refl _⟩

theorem outstanding_perform {r : Request} (hc : (s.perform r).2.channels.get? k = some c) :
    c.outstanding = [] ∨
      ∃ d, s.channels.get? k = some d ∧ c.outstanding.Sublist d.outstanding := by
  cases perform_cases s r with
  | inl hcase =>
      obtain ⟨fault, hf⟩ := hcase
      rw [hf] at hc
      exact .inr ⟨c, hc, .refl _⟩
  | inr hcase =>
      obtain ⟨h, _, hf⟩ := hcase
      rw [hf] at hc
      exact outstanding_carryOut (s := (s.strike r.operation r.kind).2) hc

/-- A unit that was handed back is no longer out, however the server answered. -/
theorem not_mem_of_release (hs : s.SparesReturns) {slot : UInt32}
    (hn : ∀ d, s.channels.get? h = some d → d.outstanding.Nodup)
    (hc : (s.perform (.release h slot)).2.channels.get? h = some c) : slot ∉ c.outstanding := by
  have hit : (s.strike .release h.kind).1 = false := strike_of_spares hs rfl _
  cases perform_cases s (.release h slot) with
  | inl hcase =>
      obtain ⟨fault, hf⟩ := hcase
      rw [hf] at hc
      have hc : s.channels.get? h = some c := hc
      intro hm
      have hp : s.permit (.release h slot) = .ok h := by
        simp [permit, channel_ok.mpr hc, hm, bind, Except.bind, pure, Except.pure]
      have := perform_of_permit hit hp
      rw [hf] at this
      cases this
  | inr hcase =>
      obtain ⟨k, hk, hf⟩ := hcase
      rw [hf] at hc
      obtain ⟨d, hd, rfl⟩ : ∃ d, s.channels.get? h = some d ∧
          { d with outstanding := d.outstanding.erase slot } = c := by
        have hkh : k = h := eq_of_permit hk rfl
        subst hkh
        have hcarry := get?_carryOut (s.strike .release k.kind).2 k k (.release k slot)
        rw [if_pos rfl] at hcarry
        have hc : Request.channelAfter (.release k slot) (s.channels.get? k) = some c :=
          hcarry.symm.trans hc
        exact Option.map_eq_some_iff.mp hc
      exact (hn d hd).not_mem_erase

theorem FailsOnly.perform {P : Operation → Prop} (hs : s.FailsOnly P) (r : Request) :
    (s.perform r).2.FailsOnly P := by
  have hk := hs.strike r.operation r.kind
  cases perform_cases s r with
  | inl hcase =>
      obtain ⟨fault, hf⟩ := hcase
      rw [hf]
      exact hk
  | inr hcase =>
      obtain ⟨h, _, hf⟩ := hcase
      rw [hf]
      intro rule hr
      refine hk rule ?_
      have hu : ∀ (t : Server) f, (t.update h f).failures = t.failures := fun t f => by
        simp only [update]
        split <;> rfl
      cases r <;> simpa [carryOut, record, hu] using hr

theorem failures_produce (s : Server) (h : Handle) : (s.produce h).2.failures = s.failures := by
  simp only [produce]
  split
  · rfl
  · split <;> rfl

theorem FailsOnly.fetch {P : Operation → Prop} (hs : s.FailsOnly P) (h : Handle) :
    (s.fetch h).2.FailsOnly P := by
  have hp : (s.probe h).2.FailsOnly P := by
    simp only [probe]
    split
    · exact FailsOnly.strike (s := s.record (.fetch h)) hs _ _
    · split <;> exact FailsOnly.strike (s := s.record (.fetch h)) hs _ _
  simp only [Server.fetch]
  split
  · simpa [*] using hp
  · simpa [*] using hp
  · rename_i t ht
    rw [ht] at hp
    exact fun rule hr => hp rule (failures_produce t h ▸ hr)

theorem SparesReturns.perform (hs : s.SparesReturns) (r : Request) :
    (s.perform r).2.SparesReturns :=
  FailsOnly.perform (P := (·.givesBack = false)) hs r

theorem SparesReturns.fetch (hs : s.SparesReturns) (h : Handle) : (s.fetch h).2.SparesReturns :=
  FailsOnly.fetch (P := (·.givesBack = false)) hs h

theorem channels_probe (s : Server) (h : Handle) : (s.probe h).2.channels = s.channels := by
  simp only [probe]
  split
  · rfl
  · split <;> rfl

/-- After a fetch the units out are those of before and the one that was handed out. -/
theorem outstanding_fetch (hc : (s.fetch h).2.channels.get? k = some c) :
    ∃ d, s.channels.get? k = some d ∧ (c.outstanding = d.outstanding ∨
      k = h ∧ ∃ u, (s.fetch h).1 = .ok (some u) ∧
        c.outstanding = d.outstanding.insert u.slot) := by
  have hp := channels_probe s h
  simp only [fetch] at hc ⊢
  split at hc
  · rename_i fault t ht
    rw [ht] at hp
    exact ⟨c, by rwa [← hp], .inl rfl⟩
  · rename_i t ht
    rw [ht] at hp
    exact ⟨c, by rwa [← hp], .inl rfl⟩
  · rename_i t ht
    rw [ht] at hp
    have hp : t.channels = s.channels := hp
    simp only [produce] at hc ⊢
    split at hc
    · exact ⟨c, by rwa [← hp], .inl rfl⟩
    · rename_i d hd
      split at hc
      · rw [Table.get?_insert] at hc
        split at hc
        · rename_i hk
          cases hc
          subst hk
          exact ⟨d, by rwa [← hp], .inr ⟨rfl,
            .produce k d.attr d.produced d.nextSlot t.payloadSize, by simp [*], rfl⟩⟩
        · exact ⟨c, by rwa [← hp], .inl rfl⟩
      · exact ⟨c, by rwa [← hp], .inl rfl⟩

end Server
end CameraPipeline
