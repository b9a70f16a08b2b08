import Mathlib.Data.List.Nodup
import CameraPipeline.Proofs.Plant.Continuity
import CameraPipeline.Proofs.Server.Outstanding

/-!
The ledger of units. As long as no failure is injected on what gives back, every unit that is out
of a channel is in the hands of a pump that reads this channel, so a channel that no pump reads
has none out.
-/

namespace CameraPipeline

/-- The unit that a pump has in hand. -/
def Pump.held? (p : Pump) : Option MediaUnit :=
  match p.phase with
  | .offering u _ _ | .releasing u => some u
  | .checking | .fetching | .ended => none

namespace Pump

theorem held?_dispatch {p : Pump} {u : MediaUnit} {sinks : List SinkId}
    (h : p.phase = .dispatch u sinks) : p.held? = some u := by
  cases sinks <;> simp [held?, h, PumpPhase.dispatch]

end Pump

namespace Plant

variable {P : Change → Prop} {p q : Plant} {id : PumpId} {h : Handle} {slot : UInt32}

/-- Some pump that reads `h` has the unit in `slot` in hand. -/
def Holds (p : Plant) (h : Handle) (slot : UInt32) : Prop :=
  ∃ id pump u, p.pump? id = some pump ∧ pump.source = h ∧ pump.held? = some u ∧ u.slot = slot

structure Balanced (p : Plant) : Prop where
  spares : p.server.SparesReturns
  nodup : ∀ h c, p.server.channels.get? h = some c → c.outstanding.Nodup
  held : ∀ h c, p.server.channels.get? h = some c → ∀ slot ∈ c.outstanding, p.Holds h slot

theorem Holds.setPump {pump pump' : Pump} (hh : p.Holds h slot) (hp : p.pump? id = some pump)
    (hq : q.pumps = p.pumps.set id pump') (hs : pump'.source = pump.source)
    (hu : ∀ u, pump.held? = some u → pump.source = h → u.slot = slot → pump'.held? = some u) :
    q.Holds h slot := by
  have hq : ∀ k, q.pump? k = (p.setPump id pump').pump? k := fun k => by rw [pump?, hq]; rfl
  obtain ⟨k, pump₁, u, hk, hsrc, hheld, hslot⟩ := hh
  by_cases hid : k = id
  · subst hid
    rw [hp] at hk
    cases hk
    exact ⟨k, pump', u, by rw [hq, pump?_setPump_self hp], hs.trans hsrc,
      hu u hheld hsrc hslot, hslot⟩
  · exact ⟨k, pump₁, u, by rw [hq, pump?_setPump_ne p hid, hk], hsrc, hheld, hslot⟩

theorem Holds.of_pumps (hh : p.Holds h slot) (hq : q.pumps = p.pumps) : q.Holds h slot := by
  obtain ⟨k, pump, u, hk, rest⟩ := hh
  exact ⟨k, pump, u, by rwa [pump?, hq], rest⟩

theorem Balanced.of_server (hp : p.Balanced) (hs : q.server = p.server)
    (hh : ∀ h slot, p.Holds h slot → q.Holds h slot) : q.Balanced where
  spares := hs ▸ hp.spares
  nodup h c hc := hp.nodup h c (hs ▸ hc)
  held h c hc slot hm := hh h slot (hp.held h c (hs ▸ hc) slot hm)

theorem Balanced.serve (hp : p.Balanced) (r : Request) : (p.serve r).2.Balanced where
  spares := by
    rw [server_serve]
    exact hp.spares.perform r
  nodup h c hc := by
    rw [server_serve] at hc
    cases Server.outstanding_perform hc with
    | inl he => exact he ▸ List.nodup_nil
    | inr hcase =>
        obtain ⟨d, hd, hsub⟩ := hcase
        exact hsub.nodup (hp.nodup h d hd)
  held h c hc slot hm := by
    rw [server_serve] at hc
    cases Server.outstanding_perform hc with
    | inl he =>
        rw [he] at hm
        cases hm
    | inr hcase =>
        obtain ⟨d, hd, hsub⟩ := hcase
        exact (hp.held h d hd slot (hsub.subset hm)).of_pumps (pumps_serve p r)

theorem Balanced.fetches (hp : p.Balanced) {pump : Pump} (hpump : p.pump? id = some pump)
    (phase : pump.phase = .fetching) {answer : FetchAnswer}
    (ha : answer = .ofServer (p.server.fetch pump.source).1)
    (hqs : q.server = (p.server.fetch pump.source).2)
    (hqp : q.pumps = p.pumps.set id (pump.fetched answer)) : q.Balanced := by
  have hsrc : (pump.fetched answer).source = pump.source :=
    (Pump.fetched_becomes phase answer).source
  have keep : ∀ h slot, p.Holds h slot → q.Holds h slot := fun h slot hh =>
    hh.setPump hpump hqp hsrc fun u hu => by simp [Pump.held?, phase] at hu
  constructor
  · exact hqs ▸ hp.spares.fetch pump.source
  · intro h c hc
    rw [hqs] at hc
    obtain ⟨d, hd, ho | ⟨_, u, _, ho⟩⟩ := Server.outstanding_fetch hc
    · exact ho ▸ hp.nodup h d hd
    · exact ho ▸ List.Nodup.insert (hp.nodup h d hd)
  · intro h c hc slot hm
    rw [hqs] at hc
    obtain ⟨d, hd, ho | ⟨rfl, u, hu, ho⟩⟩ := Server.outstanding_fetch hc
    · exact keep h slot (hp.held h d hd slot (ho ▸ hm))
    · rw [ho, List.mem_insert_iff] at hm
      cases hm with
      | inl heq =>
          subst heq
          -- the unit just handed out is in the hands of the pump that fetched it
          have hans : answer = .unit u := by rw [ha, hu]; rfl
          refine ⟨id, pump.fetched answer, u, ?_, hsrc, ?_, rfl⟩
          · rw [pump?, hqp]
            exact pump?_setPump_self hpump _
          · rw [hans]
            exact Pump.held?_dispatch rfl
      | inr hm => exact keep _ slot (hp.held _ d hd slot hm)

theorem Balanced.releases (hp : p.Balanced) {pump : Pump} (hpump : p.pump? id = some pump)
    {u : MediaUnit} (phase : pump.phase = .releasing u) (taken : Bool)
    (hqs : q.server = (p.server.perform (.release pump.source u.slot)).2)
    (hqp : q.pumps = p.pumps.set id (pump.released taken)) : q.Balanced := by
  have hserved := hp.serve (.release pump.source u.slot)
  constructor
  · exact hqs ▸ hp.spares.perform _
  · intro h c hc
    exact hserved.nodup h c (by rwa [server_serve, ← hqs])
  · intro h c hc slot hm
    have hh : p.Holds h slot :=
      (hserved.held h c (by rwa [server_serve, ← hqs]) slot hm).of_pumps
        (pumps_serve p _).symm
    refine hh.setPump hpump hqp (Pump.released_becomes phase taken).source ?_
    -- the unit that goes back is no longer out, so nobody has to hold it
    intro v hv hsrc hslot
    have hvu : v = u := by simpa [Pump.held?, phase] using hv.symm
    subst hvu hslot
    rw [hqs, ← hsrc] at hc
    exact absurd hm (Server.not_mem_of_release hp.spares (hp.nodup _) hc)

theorem Balanced.advanced (hp : p.Balanced) (ha : Advanced p id q) : q.Balanced := by
  cases ha with
  | stays => exact hp
  | checks pump hpump phase =>
      refine hp.of_server rfl fun h slot hh => ?_
      refine hh.setPump hpump rfl (Pump.check_becomes phase).source fun u hu => ?_
      simp [Pump.held?, phase] at hu
  | fetches pump hpump phase answer ha => exact hp.fetches hpump phase ha rfl rfl
  | offers pump hpump u sink rest phase taken p' hq =>
      refine hp.of_server (offer_frame hq).1 fun h slot hh => ?_
      refine hh.setPump hpump (pumps_of_offer hq id _ _)
        (Pump.offered_becomes phase taken).source fun v hv _ _ => ?_
      have hvu : v = u := by simpa [Pump.held?, phase] using hv.symm
      exact hvu ▸ Pump.held?_dispatch rfl
  | releases pump hpump u phase taken fault _ => exact hp.releases hpump phase taken rfl rfl

/-- The ledger stays balanced, whatever the owner and the pumps do. -/
theorem Steps.balanced (h : Steps P p q) (hp : p.Balanced) : q.Balanced := by
  refine h.keeps (fun q c _ hq => ?_) hp
  cases applied q c with
  | advance id ha => exact hq.advanced ha
  | request r => exact hq.serve r
  | start pump =>
      refine hq.of_server rfl fun h slot => ?_
      intro hex
      obtain ⟨k, pump₁, u, hk, rest⟩ := hex
      have hne : k ≠ q.pumps.length := Nat.ne_of_lt (List.getElem?_eq_some_iff.mp hk).1
      exact ⟨k, pump₁, u, by rw [apply, pump?_addPump, if_neg hne, hk], rest⟩
  | handled _ id pump pump' hpump hh _ server pumps =>
      refine hq.of_server server fun h slot hholds => ?_
      refine hholds.setPump hpump pumps hh.becomes.source fun u hu _ _ => ?_
      rw [hh.eq]
      exact hu
  | idle _ server pumps => exact hq.of_server server fun _ _ hh => hh.of_pumps pumps

/-- No unit is out of a channel that no running pump reads. -/
theorem Balanced.outstanding_eq_nil (hp : p.Balanced) {c : Channel}
    (hc : p.server.channels.get? h = some c) (hn : ∀ id, ¬p.Reads id h) :
    c.outstanding = [] := by
  refine List.eq_nil_iff_forall_not_mem.mpr fun slot hm => ?_
  obtain ⟨id, pump, u, hpump, hsrc, hheld, _⟩ := hp.held h c hc slot hm
  refine hn id ⟨pump, hpump, ?_, hsrc⟩
  cases hphase : pump.phase <;> simp_all [Pump.held?, Pump.hasEnded]

end Plant
end CameraPipeline
