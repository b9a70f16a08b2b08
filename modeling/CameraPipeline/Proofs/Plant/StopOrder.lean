import CameraPipeline.Proofs.Plant.Mindful
import CameraPipeline.Proofs.Plant.Notes

/-!
The order of stops and withdrawals. Unwinding a stack, all its pumps are stopped before anything
is taken away from a channel. Of two stacks unwound one after the other, the second one's pumps
still run while the first one is undone.
-/

namespace CameraPipeline

/-- Something was to be taken away from a channel. -/
def JournalEntry.Withdraws : JournalEntry → Prop
  | .asked r _ => r.withdrawn?.isSome
  | .started _ | .pumped _ _ | .stopped _ _ => False

/-- A pump that nobody has stopped yet. -/
def Pump.IsNew (pump : Pump) : Prop := pump.Honest ∧ pump.worker.joined = false

theorem Worker.joined_stop {w : Worker} {millis : Nat} {ended : Bool}
    (hw : (w.stop millis ended).2.joined) : w.joined ∨ w.seenEnd ∨ ended := by
  simp only [stop] at hw
  split at hw
  · exact .inl ‹_›
  · split at hw <;> rename_i hwait <;>
      simp only [wait, requestStop, Prod.mk.injEq, Bool.or_eq_true] at hwait
    · exact .inr hwait.1
    · obtain ⟨-, rfl⟩ := hwait
      exact .inl hw

namespace Plant

variable {P : Change → Prop} {p q : Plant} {id : PumpId} {millis : Nat}

/-- From `p` to `q` nothing was taken away from a channel before all of `ids` had been stopped and
joined. -/
def StopsFirst (ids : PumpId → Prop) (p q : Plant) : Prop :=
  ∀ before e rest, q.journal = before ++ e :: rest → p.journal <+: before → e.Withdraws →
    ∀ id, ids id → .stopped id true ∈ before

/-- Joins are on record, and only of pumps that were there. -/
structure Logged (p : Plant) : Prop where
  joined : ∀ id pump, p.pump? id = some pump → pump.worker.joined → .stopped id true ∈ p.journal
  known : ∀ id drained, .stopped id drained ∈ p.journal → id < p.pumps.length

namespace Logged

theorem of_pumps (hl : p.Logged) (hp : q.pumps = p.pumps)
    (hj : StopsOnly (fun _ => False) p q) : q.Logged where
  joined id pump hpump hw := by
    rw [pump?, hp] at hpump
    exact hj.journal.subset (hl.joined id pump hpump hw)
  known id drained hm := by
    rw [hp]
    exact hl.known id drained ((hj.mem hm).resolve_right fun hf => hf)

theorem setPump {pump pump' : Pump} (hl : p.Logged) (hp : p.pump? id = some pump)
    (hq : q.pumps = p.pumps.set id pump') (hj : StopsOnly (· = id) p q)
    (hw : pump'.worker.joined → pump.worker.joined ∨ .stopped id true ∈ q.journal) :
    q.Logged := by
  have hpump : ∀ k, q.pump? k = (p.setPump id pump').pump? k := fun k => by rw [pump?, hq]; rfl
  constructor
  · intro k pump₁ hk hjoined
    rw [hpump] at hk
    by_cases hid : k = id
    · subst hid
      rw [pump?_setPump_self hp] at hk
      cases hk
      exact (hw hjoined).elim (fun h => hj.journal.subset (hl.joined k pump hp h)) fun h => h
    · rw [pump?_setPump_ne p hid] at hk
      exact hj.journal.subset (hl.joined k pump₁ hk hjoined)
  · intro k drained hm
    rw [hq, List.length_set]
    cases hj.mem hm with
    | inl hm => exact hl.known k drained hm
    | inr heq =>
        obtain rfl : k = id := heq
        exact (List.getElem?_eq_some_iff.mp hp).1

theorem advanced (hl : p.Logged) (h : Advanced p id q) : q.Logged := by
  have hnotes {ids : PumpId → Prop} : StopsOnly ids p q :=
    h.notes.mono fun e he => by obtain ⟨deed, rfl⟩ := he; trivial
  cases h with
  | stays => exact hl
  | checks pump hp => exact hl.setPump hp rfl hnotes .inl
  | fetches pump hp phase answer =>
      exact hl.setPump hp rfl hnotes fun hw => .inl (pump.worker_fetched answer ▸ hw)
  | offers pump hp u sink rest phase taken p' hq =>
      exact hl.setPump hp (pumps_of_offer hq id _ _) hnotes .inl
  | releases pump hp u phase taken =>
      exact hl.setPump hp rfl hnotes fun hw => .inl (pump.worker_released taken ▸ hw)

/-- Only a join that is noted as in time marks a pump as joined. -/
theorem apply (hl : p.Logged) (hh : p.Honest) {c : Change}
    (hc : ∀ pump, c = .start pump → pump.IsNew) : (p.apply c).Logged := by
  cases c with
  | move m =>
      cases m with
      | advance id => exact hl.advanced (Plant.advanced p id)
      | stall id | unstall id =>
          simp only [Plant.apply, move, setStalled]
          split
          · exact hl
          · rename_i pump hp
            exact hl.setPump hp rfl (.of_same rfl) .inl
      | hold | letGo => exact hl.of_pumps rfl (.of_same rfl)
  | turns => exact hl.of_pumps rfl (.of_same rfl)
  | request r =>
      obtain ⟨fault, hj⟩ := journal_serve p r
      exact hl.of_pumps (pumps_serve p r) (.one hj trivial)
  | start pump =>
      constructor
      · intro id pump' hp hw
        rw [Plant.apply, pump?_addPump] at hp
        split at hp
        · cases hp
          exact absurd ((hc pump rfl).2.symm.trans hw) Bool.false_ne_true
        · exact List.mem_append_left _ (hl.joined id pump' hp hw)
      · intro id drained hm
        have hm : .stopped id drained ∈ p.journal :=
          (List.mem_append.mp hm).resolve_right (by simp)
        simpa [Plant.apply, addPump] using Nat.lt_succ_of_lt (hl.known id drained hm)
  | raise id =>
      simp only [Plant.apply, raise]
      split
      · exact hl
      · rename_i pump hp
        exact hl.setPump hp rfl (.of_same rfl) .inl
  | await id =>
      simp only [Plant.apply, waitPump]
      split
      · exact hl
      · rename_i pump hp
        exact hl.setPump hp rfl (.of_same rfl) .inl
  | join id millis =>
      simp only [Plant.apply, join]
      split
      · exact hl
      · rename_i pump hp
        refine hl.setPump hp rfl (.one rfl rfl) fun hw => ?_
        refine (Worker.joined_stop hw).imp_right fun hended => ?_
        have hended : pump.hasEnded = true := hended.elim (hh id pump hp).seenEnd fun he => he
        rw [hended]
        exact List.mem_append_right _ (.head _)

end Logged

theorem Steps.logged (hP : ∀ pump, P (.start pump) → pump.IsNew) (h : Steps P p q)
    (hh : p.Honest) (hl : p.Logged) : q.Honest ∧ q.Logged := by
  refine h.keeps (I := fun q => q.Honest ∧ q.Logged) (fun q c hc hq => ⟨?_, ?_⟩) ⟨hh, hl⟩
  · have hone : Steps P q (q.apply c) := .one c hc
    exact hone.honest (fun pump hp => (hP pump hp).1) hq.1
  · exact hq.2.apply hq.1 fun pump heq => hP pump (heq ▸ hc)

theorem join_stopped (hh : p.Honest) (hid : ∃ pump, p.pump? id = some pump)
    (ho : (p.join id millis).1 = .ok ()) : .stopped id true ∈ (p.join id millis).2.journal := by
  obtain ⟨pump, hp⟩ := hid
  simp only [join, hp] at ho ⊢
  have hended : pump.hasEnded = true := (Worker.stop_ok ho).elim (hh id pump hp).joined
    fun hseen => hseen.elim (hh id pump hp).seenEnd fun he => he
  rw [hended]
  exact List.mem_append_right _ (.head _)

/-- A pump that was there and could be stopped is noted as stopped in time. -/
theorem stopPump_stopped (hh : p.Honest) (hl : p.Logged) (hid : id < p.pumps.length)
    (ho : (p.stopPump id millis).1 = .ok ()) :
    .stopped id true ∈ (p.stopPump id millis).2.journal := by
  have hs : Steps Change.IsQuiet p ((p.raise id).takeTurn.rest id) :=
    .cons (.raise id) trivial ((takeTurn_steps _).quiet.trans (rest_steps _ id).quiet)
  obtain ⟨pump, hp⟩ : ∃ pump, p.pump? id = some pump := ⟨_, List.getElem?_eq_getElem hid⟩
  obtain ⟨pump', hp', -⟩ := hs.continues id pump hp
  rw [stopPump_eq, hp] at ho ⊢
  dsimp only at ho ⊢
  split at ho
  · rename_i hj
    rw [if_pos hj]
    exact hl.joined id pump hp hj
  · rename_i hj
    rw [if_neg hj]
    exact join_stopped (hs.honest (fun _ => False.elim) hh) ⟨pump', hp'⟩ ho

/-- Nothing is taken away without a request that does so. -/
theorem Steps.withdraws_none {requests : Request → Prop} {pumps : Pump → Prop}
    (h : Steps (Change.Within requests pumps) p q)
    (hr : ∀ r, requests r → r.withdrawn? = none) : Notes (¬·.Withdraws) p q := by
  refine h.notes fun c e hc he => ?_
  cases e with
  | asked r fault =>
      cases c with
      | request r' =>
          obtain rfl : r = r' := he
          simp [JournalEntry.Withdraws, hr r hc]
      | _ => exact he.elim
  | started | pumped | stopped => exact fun hw => hw

namespace StopsFirst

variable {ids : PumpId → Prop} {m : Plant}

theorem of_noted (h : Notes (¬·.Withdraws) p m) (hq : m.journal <+: q.journal)
    (hids : ∀ id, ids id → .stopped id true ∈ m.journal) : StopsFirst ids p q :=
  fun _ _ _ hj hp hw id hid =>
    (h.later hq hj hp fun hn => hn hw).subset (hids id hid)

/-- It makes no difference whether one looks from `p` on or from `m` on, if nothing was taken away
in between. -/
theorem skip_iff (h : Notes (¬·.Withdraws) p m) (hq : m.journal <+: q.journal) :
    StopsFirst ids p q ↔ StopsFirst ids m q :=
  ⟨fun hs before e rest hj hm => hs before e rest hj (h.journal.trans hm),
    fun hs before e rest hj hp hw =>
      hs before e rest hj (h.later hq hj hp fun hn => hn hw) hw⟩

end StopsFirst

end Plant

namespace Stack

open Plant

variable {p : Plant} {s base : Stack} {id : PumpId}

theorem stopEach_stopped {steps : List Undo} (hh : p.Honest) (hl : p.Logged)
    (hid : ∀ id, .pump id ∈ steps → id < p.pumps.length)
    (hd : p.DrainsTo (stopEach p steps).2.2) :
    ∀ id, .pump id ∈ steps → .stopped id true ∈ (stopEach p steps).2.2.journal := by
  induction steps with
  | nil => simp
  | cons step older ih =>
      have hid' : ∀ id, .pump id ∈ older → id < p.pumps.length := fun id hm => hid id (.tail _ hm)
      cases step with
      | request r =>
          intro id hm
          exact ih hid' hd id (Undo.mem_of_pump_mem hm)
      | pump k =>
          have holder := stopEach_steps p older
          have hs := stopPump_steps (stopEach p older).2.2 k (stopEach p older).2.2.drainMillis
          obtain ⟨hh', hl'⟩ := holder.logged (fun _ => False.elim) hh hl
          have hk : k < (stopEach p older).2.2.pumps.length :=
            holder.pumps_length ▸ hid k (.head _)
          simp only [stopEach] at hd ⊢
          split at hd <;> rename_i answer plant ho <;> rw [ho] at hs
          · obtain ⟨hd', -⟩ := hd.split holder.journal hs.journal
            intro id hm
            cases List.mem_cons.mp hm with
            | inl heq =>
                cases heq
                have hstopped := stopPump_stopped hh' hl' hk (by rw [ho])
                rwa [ho] at hstopped
            | inr hm => exact hs.journal.subset (ih hid' hd' id hm)
          · have hlate := stopPump_error (by rw [ho])
            rw [ho] at hlate
            exact absurd (hd.split holder.journal hs.journal).2 hlate

theorem stopEach_stopsOnly (p : Plant) (steps : List Undo) :
    StopsOnly (.pump · ∈ steps) p (stopEach p steps).2.2 := by
  induction steps with
  | nil => exact .refl p
  | cons step older ih =>
      have holder : StopsOnly (.pump · ∈ step :: older) p (stopEach p older).2.2 :=
        ih.mono fun id hm => .tail _ hm
      cases step with
      | request r => exact holder
      | pump k =>
          have hk : StopsOnly (.pump · ∈ Undo.pump k :: older) _ _ :=
            (stopPump_stopsOnly (stopEach p older).2.2 k (stopEach p older).2.2.drainMillis).mono
              fun _ (heq : _ = k) => heq ▸ .head _
          simp only [stopEach]
          split <;> rename_i ho <;> rw [ho] at hk <;> exact holder.trans hk

theorem undoEach_stopsOnly (p : Plant) (steps : List Undo) :
    StopsOnly (.pump · ∈ steps) p (undoEach p steps).2 := by
  induction steps generalizing p with
  | nil => exact .refl p
  | cons step older ih =>
      have holder (q : Plant) : StopsOnly (.pump · ∈ step :: older) q (undoEach q older).2 :=
        (ih q).mono fun id hm => .tail _ hm
      cases step with
      | request r =>
          have hr : StopsOnly (.pump · ∈ Undo.request r :: older) p (p.ask r).2 :=
            ask_stopsOnly p r
          simp only [undoEach]
          split <;> rename_i ho <;> rw [ho] at hr <;> exact hr.trans (holder _)
      | pump k =>
          have hk : StopsOnly (.pump · ∈ Undo.pump k :: older) p (p.dropPump k) :=
            (dropPump_stopsOnly p k).mono fun _ (heq : _ = k) => heq ▸ .head _
          exact hk.trans (holder _)

theorem pump_mem_of_stopEach {steps : List Undo} (hm : .pump id ∈ (stopEach p steps).2.1) :
    .pump id ∈ steps := by
  induction steps with
  | nil => exact hm
  | cons step older ih =>
      cases step with
      | request r => exact .tail _ (ih (Undo.mem_of_pump_mem hm))
      | pump k =>
          simp only [stopEach] at hm
          split at hm
          · exact .tail _ (ih hm)
          · exact (List.mem_cons.mp hm).elim (fun heq => heq ▸ .head _) fun hm => .tail _ (ih hm)

theorem unwind_stopsOnly (s : Stack) (p : Plant) :
    StopsOnly (.pump · ∈ s.steps) p (s.unwind p).2 := by
  exact (stopEach_stopsOnly p s.steps).trans
    ((undoEach_stopsOnly _ _).mono fun id => pump_mem_of_stopEach)

/-- Each step is asked for, whatever comes of the others. -/
theorem undoEach_asks_each {steps : List Undo} {r : Request} (hm : .request r ∈ steps) :
    ∃ before fault rest, (undoEach p steps).2.journal = before ++ .asked r fault :: rest ∧
      p.journal <+: before := by
  induction steps generalizing p with
  | nil => exact absurd hm List.not_mem_nil
  | cons step older ih =>
      have hlater {q : Plant} (hq : p.journal <+: q.journal) (hm : .request r ∈ older) :
          ∃ before fault rest, (undoEach q older).2.journal = before ++ .asked r fault :: rest ∧
            p.journal <+: before := by
        obtain ⟨before, fault, rest, hj, hb⟩ := ih (p := q) hm
        exact ⟨before, fault, rest, hj, hq.trans hb⟩
      cases step with
      | pump k =>
          exact hlater (dropPump_steps p k).journal (Undo.mem_of_request_mem hm)
      | request r' =>
          have hs := (ask_steps p r').journal
          obtain ⟨fault, hj⟩ := journal_serve p.takeTurn r'
          rw [← ask_eq] at hj
          simp only [undoEach]
          split <;> rename_i q ho <;> rw [ho] at hs hj <;> cases List.mem_cons.mp hm with
          | inl heq =>
              cases heq
              obtain ⟨rest, hrest⟩ := (undoEach_steps q older).journal
              refine ⟨p.takeTurn.journal, fault, rest, ?_, (takeTurn_steps p).journal⟩
              rw [← hrest, hj, List.append_assoc]
              rfl
          | inr hm => exact hlater hs hm

theorem unwind_asks_each {r : Request} (hm : .request r ∈ s.steps) (p : Plant) :
    ∃ before fault rest, (s.unwind p).2.journal = before ++ .asked r fault :: rest ∧
      p.journal <+: before := by
  obtain ⟨before, fault, rest, hj, hb⟩ :=
    undoEach_asks_each (p := (s.stopPumps p).2.2) ((request_mem_stopEach p s.steps r).mpr hm)
  exact ⟨before, fault, rest, hj, (stopEach_steps p s.steps).journal.trans hb⟩

/-- There is a moment at which the pumps of the stack have been stopped, and nothing was taken away
from a channel. -/
theorem unwind_stops (hh : p.Honest) (hl : p.Logged)
    (hid : ∀ id, .pump id ∈ s.steps → id < p.pumps.length) (hd : p.DrainsTo (s.unwind p).2) :
    ∃ m, Notes (¬·.Withdraws) p m ∧ m.journal <+: (s.unwind p).2.journal ∧
      ∀ id, .pump id ∈ s.steps → .stopped id true ∈ m.journal := by
  have hstop := stopEach_steps p s.steps
  have hundo := (undoEach_steps (s.stopPumps p).2.2 (s.stopPumps p).2.1.steps).journal
  exact ⟨_, hstop.withdraws_none fun _ => False.elim, hundo,
    stopEach_stopped hh hl hid (hd.split hstop.journal hundo).1⟩

/-- Two stacks are unwound in turn. All their pumps are stopped before anything is taken away from
a channel just if the first one has nothing to take away or the second one has no pump. -/
theorem stopsFirst_unwind_iff (hh : p.Honest) (hl : p.Logged)
    (hs : ∀ id, .pump id ∈ s.steps → id < p.pumps.length ∧ .pump id ∉ base.steps)
    (hbase : ∀ id, .pump id ∈ base.steps → id < p.pumps.length ∧ .stopped id true ∉ p.journal)
    (hw : ∀ r, .request r ∈ s.steps → r.withdrawn?.isSome)
    (hd : p.DrainsTo (base.unwind (s.unwind p).2).2) :
    StopsFirst (.pump · ∈ s.steps ++ base.steps) p (base.unwind (s.unwind p).2).2 ↔
      (∀ r, .request r ∉ s.steps) ∨ ∀ id, .pump id ∉ base.steps := by
  have hunwind := s.unwind_steps p
  have hfinal := (base.unwind_steps (s.unwind p).2).journal
  obtain ⟨hd₁, hd₂⟩ := hd.split hunwind.journal hfinal
  obtain ⟨m, hnone, hm, hstopped⟩ := unwind_stops hh hl (fun id hid => (hs id hid).1) hd₁
  constructor
  · intro h
    by_contra hn
    push Not at hn
    obtain ⟨⟨r, hr⟩, k, hk⟩ := hn
    obtain ⟨before, fault, rest, hj, hb⟩ := unwind_asks_each hr p
    obtain ⟨later, hlater⟩ := hfinal
    have hk' : .stopped k true ∈ before :=
      h before (.asked r fault) (rest ++ later) (by rw [← hlater, hj]; simp) hb (hw r hr) k
        (List.mem_append_right _ hk)
    -- while the first stack is unwound only its own pumps are stopped
    have hown : .stopped k true ∈ p.journal ∨ .pump k ∈ s.steps :=
      (s.unwind_stopsOnly p).mem (hj ▸ List.mem_append_left _ hk')
    exact hown.elim (hbase k hk).2 fun hm => (hs k hm).2 hk
  · rintro (hempty | hempty)
    · obtain ⟨hh', hl'⟩ := hunwind.logged (fun _ => False.elim) hh hl
      obtain ⟨m', hnone', hm', hstopped'⟩ := unwind_stops hh' hl'
        (fun id hid => hunwind.pumps_length ▸ (hbase id hid).1) hd₂
      have hquiet : Notes (¬·.Withdraws) p (s.unwind p).2 :=
        (s.unwind_asks p).withdraws_none fun r hr => absurd hr (hempty r)
      refine .of_noted (hquiet.trans hnone') hm' fun id hid => ?_
      exact (List.mem_append.mp hid).elim
        (fun hid => (hm.trans hnone'.journal).subset (hstopped id hid)) (hstopped' id)
    · exact .of_noted hnone (hm.trans hfinal) fun id hid =>
        hstopped id ((List.mem_append.mp hid).resolve_right (hempty id))

end Stack
end CameraPipeline
