import CameraPipeline.Proofs.Plant.Change

/-!
What one elementary change of a plant can come to. A pump checks, fetches, offers or releases; the
server answers a request; a pump is added; every other change handles at most one pump from
outside and leaves the server, the sinks and the loops where they are.
-/

namespace CameraPipeline

/-- `q` is `p` at some later time. -/
structure Pump.Becomes (p q : Pump) : Prop where
  stream : q.stream = p.stream
  source : q.source = p.source
  sinks : q.sinks = p.sinks
  limit : q.limit = p.limit
  ended : p.hasEnded → q.hasEnded
  units : p.stats.units ≤ q.stats.units
  asked : p.worker.stopRequested → q.worker.stopRequested

namespace Pump

theorem Becomes.refl (p : Pump) : p.Becomes p := ⟨rfl, rfl, rfl, rfl, id, Nat.le_refl _, id⟩

theorem Becomes.trans {p q r : Pump} (h : p.Becomes q) (h' : q.Becomes r) : p.Becomes r :=
  ⟨h'.stream.trans h.stream, h'.source.trans h.source, h'.sinks.trans h.sinks,
    h'.limit.trans h.limit, fun he => h'.ended (h.ended he), Nat.le_trans h.units h'.units,
    fun ha => h'.asked (h.asked ha)⟩

/-- A pump whose loop is still running may do anything that keeps what it was made with. -/
theorem Becomes.of_running {p q : Pump} (he : p.phase ≠ .ended) (hst : q.stream = p.stream)
    (hso : q.source = p.source) (hsi : q.sinks = p.sinks) (hl : q.limit = p.limit)
    (hu : p.stats.units ≤ q.stats.units) (hw : q.worker = p.worker) : p.Becomes q :=
  ⟨hst, hso, hsi, hl, fun h => absurd (by simpa [hasEnded] using h) he, hu, fun ha => hw ▸ ha⟩

theorem units_fetched (p : Pump) (answer : FetchAnswer) :
    p.stats.units ≤ (p.fetched answer).stats.units := by
  cases answer with
  | unit u => exact Nat.le_succ _
  | timeout | eof | failed => exact Nat.le_refl _

theorem units_offered (p : Pump) (u : MediaUnit) (rest : List SinkId) (taken : Bool) :
    (p.offered u rest taken).stats.units = p.stats.units := by
  cases taken <;> rfl

theorem units_released (p : Pump) (taken : Bool) :
    (p.released taken).stats.units = p.stats.units := by
  simp only [released, tick]
  split <;> cases taken <;> rfl

theorem taken_released (p : Pump) (taken : Bool) : (p.released taken).taken = p.taken := by
  simp only [released, tick]
  split <;> rfl

theorem worker_fetched (p : Pump) (answer : FetchAnswer) :
    (p.fetched answer).worker = p.worker := by
  cases answer <;> rfl

theorem worker_released (p : Pump) (taken : Bool) : (p.released taken).worker = p.worker := by
  simp only [released, tick]
  split <;> rfl

theorem check_becomes {p : Pump} (h : p.phase = .checking) : p.Becomes p.check :=
  .of_running (by simp [h]) rfl rfl rfl rfl (Nat.le_refl _) rfl

theorem fetched_becomes {p : Pump} (h : p.phase = .fetching) (answer : FetchAnswer) :
    p.Becomes (p.fetched answer) := by
  have hu := p.units_fetched answer
  cases answer <;> exact .of_running (by simp [h]) rfl rfl rfl rfl hu rfl

theorem offered_becomes {p : Pump} {u : MediaUnit} {sink : SinkId} {rest : List SinkId}
    (h : p.phase = .offering u sink rest) (taken : Bool) : p.Becomes (p.offered u rest taken) :=
  .of_running (by simp [h]) rfl rfl rfl rfl (Nat.le_of_eq (p.units_offered u rest taken).symm) rfl

theorem released_becomes {p : Pump} {u : MediaUnit} (h : p.phase = .releasing u)
    (taken : Bool) : p.Becomes (p.released taken) := by
  have hu := Nat.le_of_eq (p.units_released taken).symm
  have he : p.phase ≠ .ended := by simp [h]
  simp only [released, tick] at hu ⊢
  split <;> rename_i hw
  · rw [if_pos hw] at hu
    exact .of_running he rfl rfl rfl rfl hu rfl
  · rw [if_neg hw] at hu
    exact .of_running he rfl rfl rfl rfl hu rfl

/-- The owner's view of a worker is right: who was seen to end has ended, and only who was asked to
stop was joined. -/
structure Honest (p : Pump) : Prop where
  seenEnd : p.worker.seenEnd → p.hasEnded
  joined : p.worker.joined → p.hasEnded
  asked : p.worker.joined → p.worker.stopRequested

/-- What a running loop does by itself leaves the view right, as the loop was not seen to end. -/
theorem Honest.loop {p : Pump} (h : p.Honest) (he : p.phase ≠ .ended) {q : Pump}
    (hw : q.worker = p.worker) : q.Honest := by
  have he : ¬p.hasEnded := by simpa [hasEnded] using he
  exact ⟨fun hs => absurd (h.seenEnd (hw ▸ hs)) he, fun hj => absurd (h.joined (hw ▸ hj)) he,
    fun hj => absurd (h.joined (hw ▸ hj)) he⟩

end Pump

/-- `q` differs from `p` in how it is treated from outside, not in where its loop stands. -/
structure Pump.Handled (p q : Pump) : Prop where
  eq : q = { p with worker := q.worker, stalled := q.stalled }
  asked : p.worker.stopRequested → q.worker.stopRequested
  honest : p.Honest → q.Honest

theorem Pump.Handled.becomes {p q : Pump} (h : p.Handled q) : p.Becomes q := by
  rw [h.eq]
  exact ⟨rfl, rfl, rfl, rfl, fun he => he, Nat.le_refl _, h.asked⟩

theorem Worker.asked_stop (w : Worker) (millis : Nat) (ended : Bool) (ha : w.stopRequested) :
    (w.stop millis ended).2.stopRequested := by
  simp only [stop]
  split
  · exact ha
  · split <;> rename_i hw <;> exact (congrArg (·.2.stopRequested) hw).symm

/-- Joining keeps the owner's view right. -/
theorem Pump.Honest.stop {p : Pump} (h : p.Honest) (millis : Nat) :
    Pump.Honest { p with worker := (p.worker.stop millis p.hasEnded).2 } := by
  simp only [Worker.stop]
  split
  · exact h
  · split <;> rename_i w hw <;>
      simp only [Worker.wait, Worker.requestStop, Prod.mk.injEq, Bool.or_eq_true,
        Bool.or_eq_false_iff] at hw
    · obtain ⟨he, rfl⟩ := hw
      have he : p.hasEnded := he.elim h.seenEnd id
      exact ⟨fun _ => he, fun _ => he, fun _ => rfl⟩
    · obtain ⟨he, rfl⟩ := hw
      refine ⟨fun hs => ?_, h.joined, fun _ => rfl⟩
      simp [he] at hs

namespace Plant

section Offer

variable {p q : Plant} {sink : SinkId} {stream : Stream} {u : MediaUnit} {taken : Bool}

theorem offer_cases (h : p.offer sink stream u = some (taken, q)) :
    q = p ∨ ∃ s s', p.sinks[sink]? = some s ∧ s.accept stream u = .ok s' ∧ taken = true ∧
      q = p.setSink sink s' := by
  simp only [offer] at h
  split at h
  · cases h
    exact .inl rfl
  · split at h
    · cases h
    · cases h
      exact .inl rfl
  · rename_i s _ hs
    split at h
    · rename_i s' hs'
      cases h
      exact .inr ⟨s, s', hs, hs', rfl, rfl⟩
    · cases h
      exact .inl rfl

theorem offer_frame (h : p.offer sink stream u = some (taken, q)) :
    q.server = p.server ∧ q.pumps = p.pumps ∧ q.journal = p.journal ∧
      q.drainMillis = p.drainMillis := by
  obtain rfl | ⟨s, s', _, _, _, rfl⟩ := offer_cases h <;> exact ⟨rfl, rfl, rfl, rfl⟩

theorem pumps_of_offer (h : p.offer sink stream u = some (taken, q)) (id : PumpId) (pump : Pump)
    (e : JournalEntry) : ((q.setPump id pump).note e).pumps = p.pumps.set id pump := by
  simp only [note, setPump, (offer_frame h).2.1]

end Offer

inductive Advanced (p : Plant) (id : PumpId) : Plant → Prop
  | stays : Advanced p id p
  | checks (pump : Pump) (hp : p.pump? id = some pump) (phase : pump.phase = .checking) :
      Advanced p id ((p.setPump id pump.check).note (.pumped id (.checked !pump.check.hasEnded)))
  | fetches (pump : Pump) (hp : p.pump? id = some pump) (phase : pump.phase = .fetching)
      (answer : FetchAnswer) (ha : answer = .ofServer (p.server.fetch pump.source).1) :
      Advanced p id
        (({ p with server := (p.server.fetch pump.source).2 }.setPump id
          (pump.fetched answer)).note (.pumped id (.fetched answer)))
  | offers (pump : Pump) (hp : p.pump? id = some pump) (u : MediaUnit) (sink : SinkId)
      (rest : List SinkId) (phase : pump.phase = .offering u sink rest) (taken : Bool) (q : Plant)
      (hq : p.offer sink pump.stream u = some (taken, q)) :
      Advanced p id
        ((q.setPump id (pump.offered u rest taken)).note (.pumped id (.offered sink u taken)))
  | releases (pump : Pump) (hp : p.pump? id = some pump) (u : MediaUnit)
      (phase : pump.phase = .releasing u) (taken : Bool) (fault : Option Fault)
      (ht : taken = (p.server.perform (.release pump.source u.slot)).1.isOk) :
      Advanced p id
        (({ p with server := (p.server.perform (.release pump.source u.slot)).2 }.setPump id
          (pump.released taken)).note (.pumped id (.released u fault)))

theorem advanced (p : Plant) (id : PumpId) : Advanced p id (p.advance id) := by
  cases hp : p.pump? id with
  | none =>
      simp only [advance, hp]
      exact .stays
  | some pump =>
      simp only [advance, hp]
      cases hph : pump.phase with
      | checking =>
          dsimp only
          split
          · exact .stays
          · exact .checks pump hp hph
      | fetching =>
          dsimp only
          split
          · exact .stays
          · exact .fetches pump hp hph _ rfl
      | offering u sink rest =>
          dsimp only
          split
          · exact .stays
          · exact .offers pump hp u sink rest hph _ _ ‹_›
      | releasing u =>
          dsimp only
          split
          · rename_i h server hs
            have h1 := Advanced.releases pump hp u hph true none (by rw [hs]; rfl)
            rwa [hs] at h1
          · rename_i fault server hs
            have h1 := Advanced.releases pump hp u hph false (some fault) (by rw [hs]; rfl)
            rwa [hs] at h1
      | ended => exact .stays

@[simp] theorem pump?_note (p : Plant) (e : JournalEntry) (id : PumpId) :
    (p.note e).pump? id = p.pump? id := rfl

theorem pump?_setPump (p : Plant) (id k : PumpId) (pump : Pump) :
    (p.setPump id pump).pump? k =
      if id = k then (p.pump? k).map fun _ => pump else p.pump? k := by
  simp only [pump?, setPump, List.getElem?_set]
  split
  · rename_i h
    subst h
    split
    · rename_i h
      simp [List.getElem?_eq_getElem h]
    · rename_i h
      simp [List.getElem?_eq_none (Nat.le_of_not_lt h)]
  · rfl

theorem pump?_setPump_self {p : Plant} {id : PumpId} {pump : Pump} (hp : p.pump? id = some pump)
    (pump' : Pump) : (p.setPump id pump').pump? id = some pump' := by
  simp [pump?_setPump, hp]

theorem pump?_setPump_ne (p : Plant) {id k : PumpId} (h : k ≠ id) (pump : Pump) :
    (p.setPump id pump).pump? k = p.pump? k := by
  simp [pump?_setPump, Ne.symm h]

theorem Advanced.pump?_ne {p q : Plant} {id k : PumpId} (h : Advanced p k q) (hne : id ≠ k) :
    q.pump? id = p.pump? id := by
  cases h with
  | stays => rfl
  | checks | fetches | releases => exact pump?_setPump_ne _ hne _
  | offers pump hp u sink rest phase taken p' ho =>
      rw [pump?_note, pump?_setPump_ne _ hne, pump?, (offer_frame ho).2.1, pump?]

/-- What one change can come to. Apart from the steps of pumps, requests and new pumps, a change
handles at most one pump and leaves the server and the sinks alone. -/
inductive Applied (p : Plant) : Change → Plant → Prop
  | advance (id : PumpId) {q : Plant} (h : Advanced p id q) : Applied p (.move (.advance id)) q
  | request (r : Request) : Applied p (.request r) (p.serve r).2
  | start (pump : Pump) : Applied p (.start pump) (p.addPump pump).2
  | handled (c : Change) {q : Plant} (id : PumpId) (pump pump' : Pump)
      (hp : p.pump? id = some pump) (h : pump.Handled pump')
      (stop : ¬c.IsStop → pump'.worker.stopRequested = pump.worker.stopRequested)
      (server : q.server = p.server) (pumps : q.pumps = p.pumps.set id pump')
      (sinks : q.sinks = p.sinks) (drainMillis : q.drainMillis = p.drainMillis)
      (journal : q.journal = p.journal ∨ ∃ id b, q.journal = p.journal ++ [.stopped id b]) :
      Applied p c q
  | idle (c : Change) {q : Plant} (server : q.server = p.server) (pumps : q.pumps = p.pumps)
      (sinks : q.sinks = p.sinks) (drainMillis : q.drainMillis = p.drainMillis)
      (journal : q.journal = p.journal) : Applied p c q

theorem applied_setStalled (p : Plant) (c : Change) (id : PumpId) (stalled : Bool) :
    Applied p c (p.setStalled id stalled) := by
  simp only [setStalled]
  split
  · exact .idle c rfl rfl rfl rfl rfl
  · rename_i pump hp
    exact .handled c id pump { pump with stalled } hp
      ⟨rfl, fun ha => ha, fun h => ⟨h.seenEnd, h.joined, h.asked⟩⟩ (fun _ => rfl) rfl rfl rfl rfl (.inl rfl)

theorem applied (p : Plant) (c : Change) : Applied p c (p.apply c) := by
  cases c with
  | move m =>
      cases m with
      | advance id => exact .advance id (advanced p id)
      | stall id | unstall id => exact applied_setStalled p _ id _
      | hold | letGo => exact .idle _ rfl rfl rfl rfl rfl
  | turns ts => exact .idle _ rfl rfl rfl rfl rfl
  | request r => exact .request r
  | start pump => exact .start pump
  | raise id =>
      simp only [apply, raise]
      split
      · exact .idle _ rfl rfl rfl rfl rfl
      · rename_i pump hp
        exact .handled _ id pump { pump with worker := pump.worker.requestStop } hp
          ⟨rfl, fun _ => rfl, fun h => ⟨h.seenEnd, h.joined, fun _ => rfl⟩⟩ (fun h => absurd trivial h) rfl rfl rfl rfl
          (.inl rfl)
  | await id =>
      simp only [apply, waitPump]
      split
      · exact .idle _ rfl rfl rfl rfl rfl
      · rename_i pump hp
        refine .handled _ id pump { pump with worker := (pump.worker.wait pump.hasEnded).2 } hp
          ⟨rfl, fun ha => ha, fun h => ⟨?_, h.joined, h.asked⟩⟩ (fun _ => rfl) rfl rfl rfl rfl (.inl rfl)
        exact fun hs => (Bool.or_eq_true_iff.mp hs).elim h.seenEnd fun he => he
  | join id millis =>
      simp only [apply, join]
      split
      · exact .idle _ rfl rfl rfl rfl rfl
      · rename_i pump hp
        exact .handled _ id pump _ hp
          ⟨rfl, pump.worker.asked_stop millis _, fun h => h.stop millis⟩ (fun h => absurd trivial h)
          rfl rfl rfl rfl (.inr ⟨id, pump.hasEnded, rfl⟩)

end Plant
end CameraPipeline
