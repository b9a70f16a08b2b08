import CameraPipeline.Proofs.Plant.Frame

/-!
What any run of changes keeps. Pumps keep what they were made with and stay ended once they have
ended, the journal only grows, live channels stay numbered, and the circuit changes by requests of
the owner alone.
-/

namespace CameraPipeline

/-- A pump had not ended when the wait for it was over. -/
def JournalEntry.isLate : JournalEntry → Bool
  | .stopped _ drained => !drained
  | .started _ | .asked _ _ | .pumped _ _ => false

namespace Plant

variable {P : Change → Prop} {p q r : Plant} {id : PumpId}

/-- Every pump of `p` is still there in `q`. -/
def Continues (p q : Plant) : Prop :=
  ∀ id pump, p.pump? id = some pump → ∃ pump', q.pump? id = some pump' ∧ pump.Becomes pump'

theorem Continues.refl (p : Plant) : p.Continues p := fun _ pump hp => ⟨pump, hp, .refl pump⟩

theorem Continues.trans (h : p.Continues q) (h' : q.Continues r) : p.Continues r := by
  intro id pump hp
  obtain ⟨pump', hp', hb⟩ := h id pump hp
  obtain ⟨pump'', hp'', hb'⟩ := h' id pump' hp'
  exact ⟨pump'', hp'', hb.trans hb'⟩

theorem Continues.of_pumps (h : q.pumps = p.pumps) : p.Continues q := by
  intro id pump hp
  exact ⟨pump, by rwa [pump?, h], .refl pump⟩

theorem Continues.setPump {pump pump' : Pump} (hp : p.pump? id = some pump)
    (hb : pump.Becomes pump') (hq : q.pumps = p.pumps.set id pump') : p.Continues q := by
  have hq : ∀ k, q.pump? k = (p.setPump id pump').pump? k := fun k => by rw [pump?, hq]; rfl
  intro k pump₁ hk
  rw [hq]
  by_cases h : k = id
  · subst h
    rw [hp] at hk
    cases hk
    exact ⟨pump', pump?_setPump_self hp pump', hb⟩
  · exact ⟨pump₁, by rw [pump?_setPump_ne p h, hk], .refl pump₁⟩

theorem Advanced.continues (h : Advanced p id q) : p.Continues q := by
  cases h with
  | stays => exact .refl p
  | checks pump hp phase => exact .setPump hp (Pump.check_becomes phase) rfl
  | fetches pump hp phase answer _ => exact .setPump hp (Pump.fetched_becomes phase answer) rfl
  | offers pump hp u sink rest phase taken p' hq =>
      exact .setPump hp (Pump.offered_becomes phase taken) (pumps_of_offer hq id _ _)
  | releases pump hp u phase taken fault _ =>
      exact .setPump hp (Pump.released_becomes phase taken) rfl

theorem pumps_serve (p : Plant) (r : Request) : (p.serve r).2.pumps = p.pumps := by
  simp only [serve]
  split <;> rfl

theorem server_serve (p : Plant) (r : Request) :
    (p.serve r).2.server = (p.server.perform r).2 := by
  simp only [serve]
  split <;> rename_i hs <;> simp [note, hs]

theorem pump?_addPump (p : Plant) (pump : Pump) (id : PumpId) :
    (p.addPump pump).2.pump? id = if id = p.pumps.length then some pump else p.pump? id := by
  simp only [pump?, addPump, List.getElem?_append]
  split
  · rename_i h
    rw [if_neg (Nat.ne_of_lt h)]
  · rename_i h
    by_cases hid : id = p.pumps.length
    · simp [hid]
    · have hle : p.pumps.length ≤ id := Nat.le_of_not_lt h
      have hne : id - p.pumps.length ≠ 0 :=
        Nat.sub_ne_zero_of_lt (Nat.lt_of_le_of_ne hle (Ne.symm hid))
      rw [if_neg hid, List.getElem?_eq_none hle, List.getElem?_singleton, if_neg hne]

theorem apply_continues (p : Plant) (c : Change) : p.Continues (p.apply c) := by
  cases applied p c with
  | advance id h => exact h.continues
  | request r => exact .of_pumps (pumps_serve p r)
  | start pump =>
      intro id pump' hp
      have hne : id ≠ p.pumps.length :=
        Nat.ne_of_lt (List.getElem?_eq_some_iff.mp hp).1
      exact ⟨pump', (pump?_addPump p pump id).trans (by rw [if_neg hne, hp]), .refl pump'⟩
  | handled _ id pump pump' hp h _ _ pumps => exact .setPump hp h.becomes pumps
  | idle _ _ pumps => exact .of_pumps pumps

theorem Steps.continues (h : Steps P p q) : p.Continues q := by
  induction h with
  | refl p => exact .refl p
  | cons c _ _ ih => exact (apply_continues _ c).trans ih

section Numbers

variable {requests : Request → Prop}

theorem pumps_length_advanced (h : Advanced p id q) : q.pumps.length = p.pumps.length := by
  cases h with
  | stays => rfl
  | checks | fetches | releases => simp [note, Plant.setPump]
  | offers pump hp u sink rest phase taken p' hq =>
      rw [pumps_of_offer hq, List.length_set]

/-- Only a start adds a pump. -/
theorem pumps_length_apply (p : Plant) {c : Change} (hc : c.Within requests fun _ => False) :
    (p.apply c).pumps.length = p.pumps.length := by
  cases applied p c with
  | advance id h => exact pumps_length_advanced h
  | request r => rw [apply, pumps_serve]
  | start pump => exact hc.elim
  | handled _ id pump pump' _ _ _ _ pumps => simp [pumps]
  | idle _ _ pumps => rw [pumps]

theorem Steps.pumps_length (h : Steps (Change.Within requests fun _ => False) p q) :
    q.pumps.length = p.pumps.length :=
  h.keeps (I := fun q => q.pumps.length = p.pumps.length)
    (fun q _ hc hq => (pumps_length_apply q hc).trans hq) rfl

/-- Where no pump was started, every pump is an earlier one at a later time. -/
theorem Steps.before (h : Steps (Change.Within requests fun _ => False) p q) {pump' : Pump}
    (hq : q.pump? id = some pump') : ∃ pump, p.pump? id = some pump ∧ pump.Becomes pump' := by
  have hlt : id < p.pumps.length := h.pumps_length ▸ (List.getElem?_eq_some_iff.mp hq).1
  have hp : p.pump? id = some p.pumps[id] := List.getElem?_eq_getElem hlt
  obtain ⟨pump'', hq', hb⟩ := h.continues id _ hp
  rw [hq] at hq'
  cases hq'
  exact ⟨_, hp, hb⟩

def Reads (p : Plant) (id : PumpId) (h : Handle) : Prop :=
  ∃ pump, p.pump? id = some pump ∧ pump.hasEnded = false ∧ pump.source = h

theorem Reads.of_pumps {h : Handle} (hr : q.Reads id h) (hq : q.pumps = p.pumps) :
    p.Reads id h := by
  rwa [Reads, pump?, hq] at hr

theorem Steps.reads (hs : Steps (Change.Within requests fun _ => False) p q) {h : Handle}
    (hq : q.Reads id h) : p.Reads id h := by
  obtain ⟨pump', hp', he, hsrc⟩ := hq
  obtain ⟨pump, hp, hb⟩ := hs.before hp'
  refine ⟨pump, hp, ?_, hb.source.symm.trans hsrc⟩
  cases hended : pump.hasEnded with
  | false => rfl
  | true => exact (hb.ended hended).symm.trans he

end Numbers

section Journal

theorem journal_advanced (h : Advanced p id q) : p.journal <+: q.journal := by
  cases h with
  | stays => exact List.prefix_rfl
  | checks | fetches | releases => exact List.prefix_append _ _
  | offers pump hp u sink rest phase taken p' hq =>
      have hj : p'.journal = p.journal := (offer_frame hq).2.2.1
      simp [note, Plant.setPump, hj]

theorem journal_serve (p : Plant) (r : Request) :
    ∃ fault, (p.serve r).2.journal = p.journal ++ [.asked r fault] := by
  simp only [serve]
  split <;> exact ⟨_, rfl⟩

theorem journal_apply (p : Plant) (c : Change) : p.journal <+: (p.apply c).journal := by
  cases applied p c with
  | advance id h => exact journal_advanced h
  | request r =>
      obtain ⟨fault, hj⟩ := journal_serve p r
      exact hj ▸ List.prefix_append _ _
  | start pump => exact List.prefix_append _ _
  | handled _ id pump pump' _ _ _ _ _ _ _ journal =>
      cases journal with
      | inl hj => exact hj ▸ List.prefix_rfl
      | inr hcase =>
          obtain ⟨k, b, hj⟩ := hcase
          exact hj ▸ List.prefix_append _ _
  | idle _ _ _ _ _ journal => exact journal ▸ List.prefix_rfl

theorem Steps.journal (h : Steps P p q) : p.journal <+: q.journal :=
  h.keeps (I := fun q => p.journal <+: q.journal)
    (fun q c _ hq => hq.trans (journal_apply q c)) List.prefix_rfl

/-- Every pump that was stopped so far had ended in time. -/
def Drained (p : Plant) : Prop := ∀ e ∈ p.journal, e.isLate = false

instance (p : Plant) : Decidable p.Drained :=
  inferInstanceAs (Decidable (∀ e ∈ p.journal, e.isLate = false))

theorem Steps.drained (h : Steps P p q) (hq : q.Drained) : p.Drained :=
  fun e hm => hq e (h.journal.subset hm)

end Journal

section Server

theorem circuit_advanced (h : Advanced p id q) : q.server.circuit = p.server.circuit := by
  cases h with
  | stays | checks => rfl
  | fetches pump => exact p.server.circuit_fetch pump.source
  | offers pump hp u sink rest phase taken p' hq =>
      simp [note, Plant.setPump, (offer_frame hq).1]
  | releases pump hp u phase taken fault _ =>
      cases ho : p.server.perform (.release pump.source u.slot) with
      | mk answer server =>
          cases answer with
          | error fault => exact Server.circuit_of_perform_error ho
          | ok h => exact (Server.circuit_of_perform_ok ho).2

theorem circuit_apply (p : Plant) {c : Change} (hc : c.IsQuiet) :
    (p.apply c).server.circuit = p.server.circuit := by
  cases applied p c with
  | advance id h => exact circuit_advanced h
  | request r => exact hc.elim
  | start pump => exact hc.elim
  | handled _ id pump pump' _ _ _ server => rw [server]
  | idle _ server => rw [server]

theorem Steps.circuit (h : Steps Change.IsQuiet p q) : q.server.circuit = p.server.circuit :=
  h.keeps (I := fun q => q.server.circuit = p.server.circuit)
    (fun q _ hc hq => (circuit_apply q hc).trans hq) rfl

theorem answer_serve (p : Plant) (r : Request) : (p.serve r).1 = (p.server.perform r).1 := by
  simp only [serve]
  split <;> rename_i hs <;> simp [hs]

/-- A request that was carried out was permitted when the pumps had had their turn. -/
theorem ask_ok {r : Request} {h : Handle} (ho : p.ask r = (.ok h, q)) :
    p.takeTurn.server.permit r = .ok h ∧ q.server.circuit = p.server.circuit.after h r := by
  have hs : (p.takeTurn.server.perform r).1 = .ok h := by
    rw [← answer_serve, ← ask_eq, ho]
  have hq : q.server = (p.takeTurn.server.perform r).2 := by
    rw [← server_serve, ← ask_eq, ho]
  obtain ⟨hp, hc⟩ := Server.circuit_of_perform_ok (Prod.ext hs rfl)
  exact ⟨hp, by rw [hq, ← (takeTurn_steps p).quiet.circuit]; exact hc⟩

theorem ask_error {r : Request} {fault : Fault} (ho : p.ask r = (.error fault, q)) :
    q.server.circuit = p.server.circuit := by
  have hs : (p.takeTurn.server.perform r).1 = .error fault := by
    rw [← answer_serve, ← ask_eq, ho]
  have hq : q.server = (p.takeTurn.server.perform r).2 := by
    rw [← server_serve, ← ask_eq, ho]
  rw [hq, ← (takeTurn_steps p).quiet.circuit]
  exact Server.circuit_of_perform_error (Prod.ext hs rfl)

section Calls

variable {I : Server → Prop} (hfetch : ∀ s h, I s → I (s.fetch h).2)
  (hperform : ∀ s r, I s → I (s.perform r).2)

include hfetch hperform

theorem advanced_keeps_server (h : Advanced p id q) (hp : I p.server) : I q.server := by
  cases h with
  | stays | checks => exact hp
  | fetches pump => exact hfetch _ _ hp
  | offers pump _ u sink rest _ taken p' hq =>
      rw [note, Plant.setPump, (offer_frame hq).1]
      exact hp
  | releases pump => exact hperform _ _ hp

theorem Steps.keeps_server (h : Steps P p q) (hp : I p.server) : I q.server := by
  refine h.keeps (I := fun q => I q.server) (fun q c _ hq => ?_) hp
  cases applied q c with
  | advance id h => exact advanced_keeps_server hfetch hperform h hq
  | request r => exact server_serve q r ▸ hperform _ _ hq
  | start pump => exact hq
  | handled _ id pump pump' _ _ _ server => exact server ▸ hq
  | idle _ server => exact server ▸ hq

end Calls

theorem Steps.numbered (h : Steps P p q) (hp : p.server.Numbered) : q.server.Numbered :=
  h.keeps_server (fun _ h hs => hs.fetch h) (fun _ r hs => hs.perform r) hp

end Server

section Honesty

/-- The owner's view of every worker is right. -/
def Honest (p : Plant) : Prop := ∀ id pump, p.pump? id = some pump → pump.Honest

theorem Honest.setPump {pump' : Pump} (hp : p.Honest) (h : pump'.Honest)
    (hq : q.pumps = p.pumps.set id pump') : q.Honest := by
  intro k pump hk
  have hk : (p.setPump id pump').pump? k = some pump := by
    rw [← hk, pump?, pump?, hq]
    rfl
  by_cases hid : k = id
  · subst hid
    simp only [pump?_setPump, if_true, Option.map_eq_some_iff] at hk
    obtain ⟨_, _, rfl⟩ := hk
    exact h
  · rw [pump?_setPump_ne p hid] at hk
    exact hp k pump hk

theorem Advanced.honest (h : Advanced p id q) (hp : p.Honest) : q.Honest := by
  cases h with
  | stays => exact hp
  | checks pump hpump phase =>
      have hc : pump.check.Honest := (hp id pump hpump).loop (by simp [phase]) rfl
      exact hp.setPump hc rfl
  | fetches pump hpump phase answer _ =>
      exact hp.setPump
        ((hp id pump hpump).loop (by simp [phase]) (pump.worker_fetched answer)) rfl
  | offers pump hpump u sink rest phase taken p' hq =>
      have ho : (pump.offered u rest taken).Honest :=
        (hp id pump hpump).loop (by simp [phase]) rfl
      exact hp.setPump ho (pumps_of_offer hq id _ _)
  | releases pump hpump u phase taken fault _ =>
      exact hp.setPump
        ((hp id pump hpump).loop (by simp [phase]) (pump.worker_released taken)) rfl

theorem Steps.honest (hP : ∀ pump, P (.start pump) → pump.Honest) (h : Steps P p q)
    (hp : p.Honest) : q.Honest := by
  refine h.keeps (fun q c hc hq => ?_) hp
  cases applied q c with
  | advance id h => exact h.honest hq
  | request r =>
      intro id pump hp
      exact hq id pump (by rwa [pump?, apply, pumps_serve] at hp)
  | start pump =>
      intro id pump' hp
      rw [apply, pump?_addPump] at hp
      split at hp
      · cases hp
        exact hP _ hc
      · exact hq id pump' hp
  | handled _ id pump pump' hp h _ _ pumps => exact hq.setPump (h.honest (hq id pump hp)) pumps
  | idle _ _ pumps => exact fun id pump hp => hq id pump (by rwa [pump?, pumps] at hp)

end Honesty
end Plant
end CameraPipeline
