import CameraPipeline.Plant.Iteration
import CameraPipeline.Proofs.Plant.Rounds

/-!
A pump with a limit and a channel with a quota, counting the same units. A unit counts for both at
once, when it is fetched; the pump may stop asking earlier than the channel would stop giving, but
the two numbers are the same one, so neither is left over when the pump ends.
-/

namespace CameraPipeline

/-- Changes in which nobody asks a pump to stop or starts one, and channels at work go on. -/
def Change.LetsWork (c : Change) : Prop :=
  c.Within Request.LetsWork (fun _ => False) ∧ ¬c.IsStop

theorem Change.IsDrift.letsWork {c : Change} (h : c.IsDrift) : c.LetsWork := by
  cases c <;> first | exact ⟨trivial, id⟩ | exact h.elim

namespace Plant

variable {P : Change → Prop} {p q : Plant} {id k : PumpId}

section Deeds

/-- All that the pump has done. -/
def deeds (p : Plant) (id : PumpId) : List PumpDeed := p.deedsSince id 0

/-- The units that the pump has fetched. -/
def unitsOf (p : Plant) (id : PumpId) : List MediaUnit :=
  (p.deeds id).filterMap PumpDeed.fetched?

theorem deeds_of_journal (h : q.journal = p.journal) : q.deeds id = p.deeds id := by
  simp only [deeds, deedsSince, h]

theorem deeds_of_pumped {deed : PumpDeed} (h : q.journal = p.journal ++ [.pumped k deed]) :
    q.deeds id = if k = id then p.deeds id ++ [deed] else p.deeds id := by
  simp only [deeds, deedsSince, h, List.drop_zero, List.filterMap_append]
  by_cases hk : k = id <;> simp [hk]

theorem deeds_of_noted {e : JournalEntry} (h : q.journal = p.journal ++ [e])
    (he : ∀ k deed, e ≠ .pumped k deed) : q.deeds id = p.deeds id := by
  simp only [deeds, deedsSince, h, List.drop_zero, List.filterMap_append]
  cases e with
  | pumped k deed => exact absurd rfl (he k deed)
  | started | asked | stopped => simp

theorem Advanced.deeds_ne (h : Advanced p k q) (hne : id ≠ k) : q.deeds id = p.deeds id := by
  cases h with
  | stays => rfl
  | checks | fetches | releases => exact (deeds_of_pumped rfl).trans (if_neg hne.symm)
  | offers pump hp u sink rest phase taken p' hq =>
      have hj : p'.journal = p.journal := (offer_frame hq).2.2.1
      exact (deeds_of_pumped rfl).trans ((if_neg hne.symm).trans (deeds_of_journal hj))

/-- Only its own steps are deeds of a pump. -/
theorem deeds_apply (p : Plant) {c : Change} (hc : c ≠ .move (.advance id)) :
    (p.apply c).deeds id = p.deeds id := by
  cases applied p c with
  | advance k h => exact h.deeds_ne fun hk => hc (hk ▸ rfl)
  | request r =>
      obtain ⟨fault, hj⟩ := journal_serve p r
      exact deeds_of_noted hj fun _ _ => nofun
  | start pump => exact deeds_of_noted rfl fun _ _ => nofun
  | handled _ k pump pump' _ _ _ _ _ _ _ journal =>
      cases journal with
      | inl hj => exact deeds_of_journal hj
      | inr hcase =>
          obtain ⟨k, b, hj⟩ := hcase
          exact deeds_of_noted hj fun _ _ => nofun
  | idle _ _ _ _ _ journal => exact deeds_of_journal journal

/-- Only pumps that are there have done anything. -/
def Recorded (p : Plant) : Prop := ∀ id, p.pump? id = none → p.deeds id = []

theorem Steps.recorded (h : Steps P p q) (hp : p.Recorded) : q.Recorded := by
  refine h.keeps (fun q c _ hq id hid => ?_) hp
  have hnone : q.pump? id = none := by
    cases hpump : q.pump? id with
    | none => rfl
    | some pump =>
        obtain ⟨pump', hp', _⟩ := apply_continues q c id pump hpump
        cases hid.symm.trans hp'
  by_cases hc : c = .move (.advance id)
  · subst hc
    have hstays : q.apply (.move (.advance id)) = q := by
      simp only [apply, move, advance, hnone]
    rw [hstays]
    exact hq id hnone
  · rw [deeds_apply q hc]
    exact hq id hnone

end Deeds

section Count

variable {jpeg : Handle} {n : UInt32} {pump : Pump} {us : List MediaUnit}

/-- The pump has taken the units `us` from the channel, and the channel counts no fewer. -/
structure Counting (p : Plant) (jpeg : Handle) (n : UInt32) (id : PumpId) (pump : Pump)
    (us : List MediaUnit) : Prop where
  found : p.pump? id = some pump
  stream : pump.stream = .photo
  source : pump.source = jpeg
  takes : pump.Takes n us (p.deeds id)
  quota : p.server.Counts jpeg n us.length

theorem takes_of_pumped {deed : PumpDeed} (ht : pump.Takes n us (p.deeds id ++ [deed]))
    (hj : q.journal = p.journal ++ [.pumped id deed]) : pump.Takes n us (q.deeds id) := by
  rwa [deeds_of_pumped hj, if_pos rfl]

/-- The unit that the pump fetches is one more of its limit and of the quota. -/
theorem Counting.fetches (hc : p.Counting jpeg n id pump us) (hk : jpeg.kind = .jpeg)
    (phase : pump.phase = .fetching) :
    let answer := FetchAnswer.ofServer (p.server.fetch pump.source).1
    ∃ us, Counting
      (({ p with server := (p.server.fetch pump.source).2 }.setPump id
        (pump.fetched answer)).note (.pumped id (.fetched answer)))
      jpeg n id (pump.fetched answer) us := by
  intro answer
  have hb := Pump.fetched_becomes phase answer
  have hsource := hb.source.trans hc.source
  have hstream := hb.stream.trans hc.stream
  obtain ⟨hquota, hunit⟩ := hc.quota.fetch hk pump.source
  by_cases hu : ∃ u, (p.server.fetch pump.source).1 = .ok (some u)
  · obtain ⟨u, hu⟩ := hu
    have hanswer : answer = .unit u := by
      simp only [answer, hu, FetchAnswer.ofServer]
    have ht := hc.takes.fetched_unit phase u
    rw [← hanswer] at ht
    refine ⟨us ++ [u], pump?_setPump_self hc.found _, hstream, hsource, takes_of_pumped ht rfl, ?_⟩
    rw [List.length_append]
    exact hunit hc.source u hu
  · have ht := hc.takes.fetched_idle phase fun u hr => hu ⟨u, hr⟩
    exact ⟨us, pump?_setPump_self hc.found _, hstream, hsource, takes_of_pumped ht rfl, hquota⟩

/-- A step of the pump. -/
theorem Counting.advanced (hc : p.Counting jpeg n id pump us) (hk : jpeg.kind = .jpeg)
    (h : Advanced p id q) : ∃ pump us, q.Counting jpeg n id pump us := by
  have hp := hc.found
  cases h with
  | stays => exact ⟨pump, us, hc⟩
  | checks pump' hp' phase =>
      obtain rfl : pump' = pump := Option.some.inj (hp'.symm.trans hp)
      exact ⟨pump'.check, us, pump?_setPump_self hp _, hc.stream, hc.source,
        takes_of_pumped (hc.takes.check phase) rfl, hc.quota⟩
  | fetches pump' hp' phase answer ha =>
      obtain rfl : pump' = pump := Option.some.inj (hp'.symm.trans hp)
      subst ha
      exact ⟨_, hc.fetches hk phase⟩
  | offers pump' hp' u sink rest phase taken p' ho =>
      obtain rfl : pump' = pump := Option.some.inj (hp'.symm.trans hp)
      have hf := offer_frame ho
      have hfound : p'.pump? id = some pump' := by rw [pump?, hf.2.1, ← pump?, hp]
      refine ⟨pump'.offered u rest taken, us, pump?_setPump_self hfound _, hc.stream, hc.source,
        takes_of_pumped (hc.takes.offered phase taken) ?_, ?_⟩
      · simp only [note, setPump, hf.2.2.1]
      · exact hc.quota.of_channels (congrArg Server.channels hf.1)
  | releases pump' hp' u phase taken fault _ =>
      obtain rfl : pump' = pump := Option.some.inj (hp'.symm.trans hp)
      have hb := Pump.released_becomes phase taken
      exact ⟨pump'.released taken, us, pump?_setPump_self hp _, hb.stream.trans hc.stream,
        hb.source.trans hc.source, takes_of_pumped (hc.takes.released phase taken fault) rfl,
        hc.quota.perform (r := .release pump'.source u.slot) trivial⟩

/-- Other pumps do not matter, even if they were to read the same channel. -/
theorem Counting.other (hc : p.Counting jpeg n id pump us) (hk : jpeg.kind = .jpeg)
    (h : Advanced p k q) (hne : id ≠ k) : q.Counting jpeg n id pump us where
  found := (h.pump?_ne hne).trans hc.found
  stream := hc.stream
  source := hc.source
  takes := by
    rw [h.deeds_ne hne]
    exact hc.takes
  quota := by
    cases h with
    | stays | checks => exact hc.quota
    | fetches pump' => exact (hc.quota.fetch hk pump'.source).1
    | offers pump' _ u sink rest _ taken p' ho =>
        exact hc.quota.of_channels (congrArg Server.channels (offer_frame ho).1)
    | releases pump' _ u =>
        exact hc.quota.perform (r := .release pump'.source u.slot) trivial

theorem Counting.apply (hc : p.Counting jpeg n id pump us) (hk : jpeg.kind = .jpeg) {c : Change}
    (hw : c.LetsWork) : ∃ pump us, (p.apply c).Counting jpeg n id pump us := by
  by_cases hown : c = .move (.advance id)
  · subst hown
    exact hc.advanced hk (Plant.advanced p id)
  have htakes : pump.Takes n us ((p.apply c).deeds id) := deeds_apply p hown ▸ hc.takes
  cases applied p c with
  | advance k h => exact ⟨pump, us, hc.other hk h fun heq => hown (heq ▸ rfl)⟩
  | request r =>
      refine ⟨pump, us, ?_, hc.stream, hc.source, htakes, ?_⟩
      · rw [Plant.apply, pump?, pumps_serve]
        exact hc.found
      · rw [Plant.apply, server_serve]
        exact hc.quota.perform hw.1
  | start => exact hw.1.elim
  | handled _ k pump₁ pump' hp₁ h stop server pumps =>
      have hpump (k' : PumpId) : (p.apply c).pump? k' = (p.setPump k pump').pump? k' := by
        rw [pump?, pumps]
        rfl
      have hquota := hc.quota.of_channels (congrArg Server.channels server)
      by_cases hid : id = k
      · subst hid
        obtain rfl : pump₁ = pump := Option.some.inj (hp₁.symm.trans hc.found)
        have hb := h.becomes
        exact ⟨pump', us, by rw [hpump, pump?_setPump_self hp₁], hb.stream.trans hc.stream,
          hb.source.trans hc.source, htakes.handled h (stop hw.2), hquota⟩
      · exact ⟨pump, us, by rw [hpump, pump?_setPump_ne p hid, hc.found], hc.stream, hc.source,
          htakes, hquota⟩
  | idle _ server pumps =>
      refine ⟨pump, us, ?_, hc.stream, hc.source, htakes,
        hc.quota.of_channels (congrArg Server.channels server)⟩
      rw [pump?, pumps]
      exact hc.found

theorem Steps.counting (h : Steps Change.LetsWork p q) (hk : jpeg.kind = .jpeg)
    (hc : ∃ pump us, p.Counting jpeg n id pump us) : ∃ pump us, q.Counting jpeg n id pump us := by
  refine h.keeps (I := fun p => ∃ pump us, p.Counting jpeg n id pump us) ?_ hc
  intro p c hw hex
  obtain ⟨pump, us, hc⟩ := hex
  exact hc.apply hk hw

/-- Where the pumps, the journal and the channels are the same, the count is. -/
theorem Counting.of_same (hc : p.Counting jpeg n id pump us) (hp : q.pumps = p.pumps)
    (hj : q.journal = p.journal) (hs : q.server.channels = p.server.channels) :
    q.Counting jpeg n id pump us where
  found := by
    rw [pump?, hp]
    exact hc.found
  stream := hc.stream
  source := hc.source
  takes := by
    rw [deeds_of_journal hj]
    exact hc.takes
  quota := hc.quota.of_channels hs

/-- The count begins with a new pump, on a channel that begins to receive. -/
theorem counting_addPump (hr : p.Recorded) (hst : pump.stream = .photo)
    (hs : p.server.Counts pump.source n 0) (hl : pump.limit = some n)
    (hw : pump.worker.stopRequested = false) (hh : pump.Honest) (phase : pump.phase = .checking)
    (taken : pump.taken = 0) (units : pump.stats.units = 0) :
    (p.addPump pump).2.Counting pump.source n p.pumps.length pump [] where
  found := by rw [pump?_addPump, if_pos rfl]
  stream := hst
  source := rfl
  takes := by
    have hnone : p.pump? p.pumps.length = none := List.getElem?_eq_none (Nat.le_refl _)
    have hdeeds : (p.addPump pump).2.deeds p.pumps.length = [] :=
      (deeds_apply p (c := .start pump) nofun).trans (hr _ hnone)
    rw [hdeeds]
    refine ⟨hl, hw, hh, taken, units, ?_⟩
    simp only [Pump.InRound, phase]
    exact .none
  quota := hs

end Count

/-- A link stays as long as it is not taken away. -/
theorem Steps.linked (h : Steps Change.LetsWork p q) {l : Link}
    (hl : p.server.circuit.linked l) : q.server.circuit.linked l := by
  refine h.keeps (I := fun p => p.server.circuit.linked l) (fun p c hw hl => ?_) hl
  cases applied p c with
  | advance k h => rwa [circuit_advanced h]
  | request r =>
      rw [apply, server_serve]
      cases ho : p.server.perform r with
      | mk answer s =>
          cases answer with
          | error fault => rwa [Server.circuit_of_perform_error ho]
          | ok k =>
              rw [(Server.circuit_of_perform_ok ho).2]
              cases r with
              | create | startReceiving | stopReceiving | disable | unbind | destroy =>
                  exact hw.1.elim
              | setAttr | enable | release | submit => exact hl
              | bind l' =>
                  simp only [Circuit.after, Circuit.linked_setLink]
                  split
                  · rfl
                  · exact hl
  | start pump => exact hl
  | handled _ _ _ _ _ _ _ server => rwa [server]
  | idle _ server => rwa [server]

end Plant
end CameraPipeline
