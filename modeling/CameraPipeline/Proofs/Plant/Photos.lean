import CameraPipeline.Proofs.Plant.Continuity
import CameraPipeline.Proofs.Server.Production
import CameraPipeline.Proofs.Sink.Album

/-!
The photos that a plant has put away. Only pumps of the photo stream bring photos to a storage
directory, so while none of them runs the directory shows what it showed before.
-/

namespace CameraPipeline
namespace Plant

open MediaUnit

variable {p q : Plant} {d sink : SinkId} {size m m' : Nat} {id : PumpId}

/-- The directory behind the sink `d` shows the first `m` photos of a session, and what it took
of the photo stream is among them. -/
structure Shows (p : Plant) (d : SinkId) (size m : Nat) : Prop where
  bytes : p.server.payloadSize = size
  sink : ∃ s, p.sinks[d]? = some (.storage s) ∧ s.Shows size m
  taken : ∀ id u, .pumped id (.offered d u true) ∈ p.journal →
    ∃ pump, p.pump? id = some pump ∧ (pump.stream = .photo → u.Among size m)

/-- Every pump of the photo stream has ended. -/
def Dark (p : Plant) : Prop :=
  ∀ id pump, p.pump? id = some pump → pump.stream = .photo → pump.hasEnded

/-- Stills go to the photo stream alone. -/
def Focused (p : Plant) : Prop :=
  ∀ id pump, p.pump? id = some pump → pump.source.kind = .jpeg → pump.stream = .photo

/-- A pump after a change is an earlier one at a later time, or was just started. -/
theorem pump?_apply (p : Plant) (c : Change) {pump' : Pump}
    (hq : (p.apply c).pump? id = some pump') :
    (∃ pump, p.pump? id = some pump ∧ pump.Becomes pump') ∨ c = .start pump' := by
  have old : c.Within (fun _ => True) (fun _ => False) →
      ∃ pump, p.pump? id = some pump ∧ pump.Becomes pump' := fun hc =>
    (Steps.one c hc).before hq
  cases c with
  | start pump =>
      rw [apply, pump?_addPump] at hq
      split at hq
      · cases hq
        exact .inr rfl
      · exact .inl ⟨pump', hq, .refl pump'⟩
  | move | turns | request | raise | await | join => exact .inl (old trivial)

theorem Dark.apply (hp : p.Dark) {c : Change}
    (hc : ∀ pump, c = .start pump → pump.stream ≠ .photo) :
    (p.apply c).Dark := by
  intro id pump' hq hs
  cases pump?_apply p c hq with
  | inl hcase =>
      obtain ⟨pump, hpump, hb⟩ := hcase
      exact hb.ended (hp id pump hpump (hb.stream ▸ hs))
  | inr heq =>
      subst heq
      exact absurd hs (hc _ rfl)

theorem Focused.apply (hp : p.Focused) {c : Change}
    (hc : ∀ pump, c = .start pump → pump.source.kind = .jpeg → pump.stream = .photo) :
    (p.apply c).Focused := by
  intro id pump' hq hk
  cases pump?_apply p c hq with
  | inl hcase =>
      obtain ⟨pump, hpump, hb⟩ := hcase
      exact hb.stream.trans (hp id pump hpump (hb.source ▸ hk))
  | inr heq =>
      subst heq
      exact hc _ rfl hk

section Offer

variable {s : Storage} {stream : Stream} {u : MediaUnit} {taken : Bool}

theorem offer_storage (hs : p.sinks[d]? = some (.storage s))
    (ho : p.offer d stream u = some (taken, q)) :
    match s.accept stream u with
    | some s' => q.sinks[d]? = some (.storage s')
    | none => q = p := by
  simp only [offer, hs, Sink.accept] at ho
  cases ha : s.accept stream u with
  | none =>
      rw [ha] at ho
      cases ho
      rfl
  | some s' =>
      rw [ha] at ho
      cases ho
      have hlt : d < p.sinks.length := (List.getElem?_eq_some_iff.mp hs).1
      simp [setSink, hlt]

theorem sinks_offer_ne (ho : p.offer sink stream u = some (taken, q)) (hne : sink ≠ d) :
    q.sinks[d]? = p.sinks[d]? := by
  cases offer_cases ho with
  | inl heq =>
      subst heq
      rfl
  | inr hcase =>
      obtain ⟨s, s', _, _, _, rfl⟩ := hcase
      exact List.getElem?_set_ne hne

end Offer

namespace Shows

theorem bytes_apply (hp : p.Shows d size m) (c : Change) :
    (p.apply c).server.payloadSize = size :=
  (Steps.one (P := fun _ => True) c trivial).keeps_server
    (fun s h hs => (s.payloadSize_fetch h).trans hs)
    (fun s r hs => (s.payloadSize_perform r).trans hs) hp.bytes

theorem bytes_advanced (hp : p.Shows d size m) (h : Advanced p id q) :
    q.server.payloadSize = size :=
  advanced_keeps_server (fun s h hs => (s.payloadSize_fetch h).trans hs)
    (fun s r hs => (s.payloadSize_perform r).trans hs) h hp.bytes

theorem of_sinks (hp : p.Shows d size m) (hsize : q.server.payloadSize = size)
    (hc : p.Continues q) (hs : q.sinks[d]? = p.sinks[d]?)
    (hj : ∀ e ∈ q.journal, e ∈ p.journal ∨ ∀ id u, e ≠ .pumped id (.offered d u true)) :
    q.Shows d size m where
  bytes := hsize
  sink := hs ▸ hp.sink
  taken id u he := by
    cases hj _ he with
    | inl he =>
        obtain ⟨pump, hpump, hu⟩ := hp.taken id u he
        obtain ⟨pump', hpump', hb⟩ := hc id pump hpump
        exact ⟨pump', hpump', fun hs => hu (hb.stream ▸ hs)⟩
    | inr hne => exact absurd rfl (hne id u)

theorem of_note (hp : p.Shows d size m) (hsize : q.server.payloadSize = size)
    (hc : p.Continues q) (hs : q.sinks[d]? = p.sinks[d]?) {e : JournalEntry}
    (hj : q.journal = p.journal ++ [e]) (he : ∀ id u, e ≠ .pumped id (.offered d u true)) :
    q.Shows d size m := by
  refine hp.of_sinks hsize hc hs fun e' he' => ?_
  rw [hj] at he'
  refine (List.mem_append.mp he').imp_right fun hm => ?_
  cases List.mem_singleton.mp hm
  exact he

variable {pump : Pump} {u : MediaUnit} {rest : List SinkId} {taken : Bool}

theorem offered (hp : p.Shows d size m) (hpump : p.pump? id = some pump)
    (phase : pump.phase = .offering u sink rest)
    (ho : p.offer sink pump.stream u = some (taken, q)) (hm : m ≤ m')
    (hs : ∃ s, q.sinks[d]? = some (.storage s) ∧ s.Shows size m')
    (hnew : sink = d → pump.stream = .photo → u.Among size m') :
    ((q.setPump id (pump.offered u rest taken)).note
      (.pumped id (.offered sink u taken))).Shows d size m' where
  bytes := (congrArg Server.payloadSize (offer_frame ho).1).trans hp.bytes
  sink := hs
  taken id' u' he := by
    have hcont := (Advanced.offers pump hpump u sink rest phase taken q ho).continues
    cases List.mem_append.mp he with
    | inl he =>
        rw [setPump, (offer_frame ho).2.2.1] at he
        obtain ⟨pump', hpump', hu⟩ := hp.taken id' u' he
        obtain ⟨pump'', hpump'', hb⟩ := hcont id' pump' hpump'
        exact ⟨pump'', hpump'', fun hst => (hu (hb.stream ▸ hst)).mono hm⟩
    | inr he =>
        obtain ⟨pump'', hpump'', hb⟩ := hcont id pump hpump
        cases List.mem_singleton.mp he
        exact ⟨pump'', hpump'', fun hst => hnew rfl (hb.stream ▸ hst)⟩

/-- What the other streams bring is no photo. -/
theorem offers_stream (hp : p.Shows d size m) (hpump : p.pump? id = some pump)
    (phase : pump.phase = .offering u sink rest) (hst : pump.stream ≠ .photo)
    (ho : p.offer sink pump.stream u = some (taken, q)) :
    ((q.setPump id (pump.offered u rest taken)).note
      (.pumped id (.offered sink u taken))).Shows d size m := by
  refine hp.offered hpump phase ho (Nat.le_refl _) ?_ fun _ h => absurd h hst
  obtain ⟨s, hs, hshows⟩ := hp.sink
  by_cases hd : sink = d
  · subst hd
    have h := offer_storage hs ho
    cases ha : s.accept pump.stream u with
    | none =>
        rw [ha] at h
        exact ⟨s, by rw [h, hs], hshows⟩
    | some s' =>
        rw [ha] at h
        exact ⟨s', h, hshows.accept_stream hst ha⟩
  · exact ⟨s, (sinks_offer_ne ho hd).trans hs, hshows⟩

/-- The next photo of a session is put away when the directory's turn comes. -/
theorem offers_photo (hp : p.Shows d size m) (hpump : p.pump? id = some pump)
    (phase : pump.phase = .offering u sink rest) (hst : pump.stream = .photo)
    (hn : u.sequence ≤ m) (hu : u.payload = pattern u.sequence size)
    (ho : p.offer sink pump.stream u = some (taken, q)) :
    ((q.setPump id (pump.offered u rest taken)).note
      (.pumped id (.offered sink u taken))).Shows d size
        (if sink = d then max m (u.sequence + 1) else m) := by
  obtain ⟨s, hs, hshows⟩ := hp.sink
  split
  · rename_i hd
    subst hd
    obtain ⟨s', ha, hshows'⟩ := hshows.accept_photo hn hu
    have h := offer_storage hs ho
    rw [hst, ha] at h
    exact hp.offered hpump phase ho (Nat.le_max_left _ _) ⟨s', h, hshows'⟩ fun _ _ =>
      ⟨Nat.lt_of_lt_of_le (Nat.lt_succ_self _) (Nat.le_max_right _ _), hu⟩
  · rename_i hd
    exact hp.offered hpump phase ho (Nat.le_refl _) ⟨s, (sinks_offer_ne ho hd).trans hs, hshows⟩
      fun h => absurd h hd

theorem advanced (hp : p.Shows d size m) (h : Advanced p id q)
    (hbrings : ∀ pump u sink rest, p.pump? id = some pump →
      pump.phase = .offering u sink rest → pump.stream ≠ .photo) : q.Shows d size m := by
  have hsize := hp.bytes_advanced h
  have hcont := h.continues
  cases h with
  | stays => exact hp
  | checks | fetches | releases =>
      refine hp.of_sinks hsize hcont rfl fun e he => ?_
      refine (List.mem_append.mp he).imp_right fun he => ?_
      cases List.mem_singleton.mp he
      exact fun id u hd => by cases hd
  | offers pump hpump u sink rest phase taken p' ho =>
      exact hp.offers_stream hpump phase (hbrings pump u sink rest hpump phase) ho

/-- Whatever happens, if it is no step of a pump that takes photos, the directory shows what it
showed. -/
theorem apply (hp : p.Shows d size m) (c : Change)
    (hdark : ∀ id pump, c = .move (.advance id) → p.pump? id = some pump →
      pump.stream = .photo → pump.hasEnded) : (p.apply c).Shows d size m := by
  have hsize := hp.bytes_apply c
  have hcont := apply_continues p c
  cases applied p c with
  | advance id h =>
      refine hp.advanced h fun pump u sink rest hpump phase hst => ?_
      have he := hdark id pump rfl hpump hst
      simp [Pump.hasEnded, phase] at he
  | request r =>
      obtain ⟨fault, hj⟩ := journal_serve p r
      have hsinks : (p.serve r).2.sinks = p.sinks := by
        simp only [serve]
        split <;> rfl
      exact hp.of_note hsize hcont (by rw [Plant.apply, hsinks]) hj (by simp)
  | start pump => exact hp.of_note hsize hcont rfl rfl (by simp)
  | handled _ id pump pump' _ _ _ _ _ sinks _ journal =>
      cases journal with
      | inl hj => exact hp.of_sinks hsize hcont (by rw [sinks]) fun e he => .inl (hj ▸ he)
      | inr hcase =>
          obtain ⟨k, b, hj⟩ := hcase
          exact hp.of_note hsize hcont (by rw [sinks]) hj (by simp)
  | idle _ _ _ sinks _ journal =>
      exact hp.of_sinks hsize hcont (by rw [sinks]) fun e he => .inl (journal ▸ he)

end Shows

variable {requests : Request → Prop} {pumps : Pump → Prop}

theorem Steps.focused
    (hpumps : ∀ pump, pumps pump → pump.source.kind = .jpeg → pump.stream = .photo)
    (h : Steps (Change.Within requests pumps) p q) (hp : p.Focused) : q.Focused :=
  h.keeps (fun _ _ hc hq => hq.apply fun pump he => hpumps pump (by rwa [he] at hc)) hp

/-- While nobody takes photos the directory stays, and nobody starts to. -/
theorem Steps.dark (hpumps : ∀ pump, pumps pump → pump.stream ≠ .photo)
    (h : Steps (Change.Within requests pumps) p q) (hp : p.Shows d size m) (hd : p.Dark) :
    q.Shows d size m ∧ q.Dark := by
  refine h.keeps (I := fun q => q.Shows d size m ∧ q.Dark) (fun q c hc hq => ?_) ⟨hp, hd⟩
  exact ⟨hq.1.apply c fun id pump _ => hq.2 id pump,
    hq.2.apply fun pump he => hpumps pump (by rwa [he] at hc)⟩

end Plant
end CameraPipeline
