import Mathlib.Data.List.Forall2
import CameraPipeline.Proofs.Plant.Unwind

/-!
Unwinding a stack skips nothing. The pumps are asked to stop one after the other, oldest first;
then every step that is left is tried once, newest first, whatever has failed before. What the
journal holds of the owner is exactly these attempts, and the errors are those of the pumps that
did not drain, followed by those of the attempts that failed, in their order.
-/

namespace CameraPipeline

namespace JournalEntry

/-- Noted by the owner of the plant and not by a pump. -/
def isOwn : JournalEntry → Bool
  | .asked _ _ | .stopped _ _ | .started _ => true
  | .pumped _ _ => false

/-- The error of a request that the server refused. -/
def refusal? : JournalEntry → Option PipelineError
  | .asked r (some fault) => some (.capability r fault)
  | .asked _ none | .stopped _ _ | .started _ | .pumped _ _ => none

end JournalEntry

/-- What is noted when a step is undone: a request is put to the server, a pump is stopped. -/
inductive Undo.Tried : Undo → JournalEntry → Prop
  | request (r : Request) (fault : Option Fault) : Tried (.request r) (.asked r fault)
  | pump (id : PumpId) (drained : Bool) : Tried (.pump id) (.stopped id drained)

/-- A worker that was stopped is joined, or its stop has failed. -/
theorem Worker.answer_stop (w : Worker) (millis : Nat) (ended : Bool) :
    (w.stop millis ended).1 =
      if (w.stop millis ended).2.joined then .ok ()
      else .error ⟨(w.stop millis ended).2.name, millis⟩ := by
  simp only [stop]
  split
  · simp
  · rename_i hj
    split <;> rename_i hw
    · rfl
    · obtain ⟨-, rfl⟩ := Prod.mk.inj hw
      simp [requestStop, hj]

namespace Plant

def worker? (p : Plant) (id : PumpId) : Option Worker := (p.pump? id).map (·.worker)

/-- The pump has still to be joined. -/
def isOut (p : Plant) (id : PumpId) : Bool := (p.worker? id).any (!·.joined)

/-- The error of a pump that has not drained in time. -/
def late? (p : Plant) (id : PumpId) : Option PipelineError :=
  (p.worker? id).bind fun w => if w.joined then none else some (.drain ⟨w.name, p.drainMillis⟩)

/-- From `p` to `q` the owner has done `acts` and nothing else. -/
def Does (p : Plant) (acts : List JournalEntry) (q : Plant) : Prop :=
  ∃ since, q.journal = p.journal ++ since ∧ since.filter (·.isOwn) = acts

/-- But for the pumps `ids` nothing has changed on the owner's side of the pumps. -/
structure Spares (ids : PumpId → Prop) (p q : Plant) : Prop where
  worker? : ∀ id, ¬ids id → q.worker? id = p.worker? id
  drainMillis : q.drainMillis = p.drainMillis

variable {p q r : Plant} {id : PumpId} {ids : PumpId → Prop} {acts acts' : List JournalEntry}

section Does

theorem Does.refl (p : Plant) : p.Does [] p := ⟨[], by simp, rfl⟩

theorem Does.trans (h : p.Does acts q) (h' : q.Does acts' r) : p.Does (acts ++ acts') r := by
  obtain ⟨since, hq, hacts⟩ := h
  obtain ⟨later, hr, hacts'⟩ := h'
  exact ⟨since ++ later, by rw [hr, hq, List.append_assoc],
    by rw [List.filter_append, hacts, hacts']⟩

theorem Does.one {e : JournalEntry} (h : q.journal = p.journal ++ [e]) (he : e.isOwn = true) :
    p.Does [e] q :=
  ⟨[e], h, by simp [he]⟩

/-- What pumps do by themselves is nothing that the owner does. -/
theorem Steps.does_nothing (h : Steps Change.IsDrift p q) : p.Does [] q := by
  obtain ⟨since, hq, hs⟩ := h.notes (P := (·.isOwn = false)) fun c e hc he => by
    cases c <;> cases e <;> first | rfl | exact he.elim | exact hc.elim
  exact ⟨since, hq, by simpa using hs⟩

end Does

section Spares

theorem Spares.refl (p : Plant) : Spares ids p p := ⟨fun _ _ => rfl, rfl⟩

theorem Spares.trans (h : Spares ids p q) (h' : Spares ids q r) : Spares ids p r :=
  ⟨fun id hid => (h'.worker? id hid).trans (h.worker? id hid),
    h'.drainMillis.trans h.drainMillis⟩

theorem Spares.mono {ids' : PumpId → Prop} (hids : ∀ id, ids id → ids' id) (h : Spares ids p q) :
    Spares ids' p q :=
  ⟨fun id hid => h.worker? id fun hi => hid (hids id hi), h.drainMillis⟩

theorem Spares.isOut (h : Spares ids p q) (hid : ¬ids id) : q.isOut id = p.isOut id := by
  rw [Plant.isOut, Plant.isOut, h.worker? id hid]

theorem Spares.late? (h : Spares ids p q) (hid : ¬ids id) : q.late? id = p.late? id := by
  rw [Plant.late?, Plant.late?, h.worker? id hid, h.drainMillis]

theorem isSome_late? (p : Plant) (id : PumpId) : (p.late? id).isSome = p.isOut id := by
  simp only [late?, isOut]
  cases p.worker? id with
  | none => rfl
  | some w => cases hj : w.joined <;> simp [hj]

theorem Spares.setPump {pump pump' : Pump} (hp : p.pump? id = some pump)
    (hq : q.pumps = p.pumps.set id pump') (hw : ids id ∨ pump'.worker = pump.worker)
    (hm : q.drainMillis = p.drainMillis) : Spares ids p q := by
  refine ⟨fun k hk => ?_, hm⟩
  have hq : q.pump? k = (p.setPump id pump').pump? k := by rw [pump?, hq]; rfl
  rw [Plant.worker?, Plant.worker?, hq]
  by_cases hid : k = id
  · subst hid
    rw [pump?_setPump_self hp, hp]
    exact congrArg some (hw.resolve_left hk)
  · rw [pump?_setPump_ne p hid]

theorem Spares.of_pumps (h : q.pumps = p.pumps) (hm : q.drainMillis = p.drainMillis) :
    Spares ids p q :=
  ⟨fun id _ => by rw [Plant.worker?, Plant.worker?, pump?, pump?, h], hm⟩

theorem Advanced.spares (h : Advanced p id q) : Spares ids p q := by
  cases h with
  | stays => exact .refl p
  | checks pump hp phase => exact .setPump hp rfl (.inr rfl) rfl
  | fetches pump hp phase answer =>
      exact .setPump hp rfl (.inr (pump.worker_fetched answer)) rfl
  | offers pump hp u sink rest phase taken p' hq =>
      exact .setPump hp (pumps_of_offer hq id _ _) (.inr rfl) (offer_frame hq).2.2.2
  | releases pump hp u phase taken =>
      exact .setPump hp rfl (.inr (pump.worker_released taken)) rfl

theorem Steps.spares (h : Steps Change.IsDrift p q) : Spares ids p q := by
  induction h with
  | refl p => exact .refl p
  | @cons p q c hc _ ih =>
      refine Spares.trans ?_ ih
      cases c with
      | move m =>
          cases m with
          | advance id => exact (advanced p id).spares
          | stall id | unstall id =>
              simp only [apply, move, setStalled]
              split
              · exact .refl p
              · rename_i pump hp
                exact .setPump hp rfl (.inr rfl) rfl
          | hold | letGo => exact .of_pumps rfl rfl
      | turns => exact .of_pumps rfl rfl
      | request | start | raise | await | join => exact hc.elim

end Spares

section Owner

variable (p)

theorem ask_spares (r : Request) : Spares ids p (p.ask r).2 := by
  have hm : (p.takeTurn.serve r).2.drainMillis = p.takeTurn.drainMillis := by
    simp only [serve]
    split <;> rfl
  exact (takeTurn_steps p).spares.trans (.of_pumps (pumps_serve _ r) hm)

/-- A request is noted with its answer. -/
theorem ask_does (r : Request) :
    (∃ h, (p.ask r).1 = .ok h ∧ p.Does [.asked r none] (p.ask r).2) ∨
      ∃ fault, (p.ask r).1 = .error fault ∧ p.Does [.asked r (some fault)] (p.ask r).2 := by
  have hturn : p.Does [] p.takeTurn := (takeTurn_steps p).does_nothing
  rw [ask_eq, serve]
  split
  · exact .inl ⟨_, rfl, hturn.trans (.one rfl rfl)⟩
  · exact .inr ⟨_, rfl, hturn.trans (.one rfl rfl)⟩

/-- The plant when the pump has been asked to stop and given time to end. -/
def coaxed (id : PumpId) : Plant := (p.raise id).takeTurn.rest id

variable {p} {pump : Pump} {millis : Nat}

theorem coaxed_steps (p : Plant) (id : PumpId) :
    Steps Change.IsDrift (p.raise id) (p.coaxed id) :=
  (takeTurn_steps _).trans (rest_steps _ id)

theorem stopPump_of_not_isOut (h : p.isOut id = false) (millis : Nat) :
    p.stopPump id millis = (.ok (), p) := by
  rw [stopPump_eq]
  split
  · rfl
  · rename_i pump hp
    rw [if_pos (by simpa [isOut, worker?, hp] using h)]

/-- A pump that is out is asked to stop, and joined if it ends. -/
theorem stopPump_of_isOut (h : p.isOut id = true) (millis : Nat) :
    ∃ pump, (p.coaxed id).pump? id = some pump ∧ pump.worker.stopRequested = true ∧
      p.stopPump id millis = ((pump.worker.stop millis pump.hasEnded).1,
        ((p.coaxed id).setPump id
          { pump with worker := (pump.worker.stop millis pump.hasEnded).2 }).note
            (.stopped id pump.hasEnded)) := by
  cases hp : p.pump? id with
  | none => simp [isOut, worker?, hp] at h
  | some pump =>
      have hj : pump.worker.joined = false := by simpa [isOut, worker?, hp] using h
      have hraised : (p.raise id).worker? id = some pump.worker.requestStop := by
        simp only [raise, hp, worker?, pump?_setPump_self hp]
        rfl
      have hspares : Spares (fun _ => False) (p.raise id) (p.coaxed id) :=
        (coaxed_steps p id).spares
      have hworker := hspares.worker? id not_false
      rw [hraised] at hworker
      obtain ⟨pump', hp', hw⟩ := Option.map_eq_some_iff.mp hworker
      refine ⟨pump', hp', by rw [hw]; rfl, ?_⟩
      rw [stopPump_eq, hp]
      dsimp only
      rw [if_neg (by simp [hj]), ← coaxed, join, hp']

/-- The stop of a pump that is out is noted, with whether the pump had ended by then. -/
theorem stopPump_notes (h : p.isOut id = true) (millis : Nat) :
    let q := (p.stopPump id millis).2
    ∃ pump, (p.coaxed id).pump? id = some pump ∧ pump.worker.stopRequested = true ∧
      (p.stopPump id millis).1 = (pump.worker.stop millis pump.hasEnded).1 ∧
      q.worker? id = some (pump.worker.stop millis pump.hasEnded).2 ∧
      p.Does [.stopped id pump.hasEnded] q := by
  intro q
  obtain ⟨pump, hp, hasked, heq⟩ := stopPump_of_isOut h millis
  have hraise : p.Does [] (p.raise id) := by
    refine ⟨[], ?_, rfl⟩
    simp only [raise]
    split <;> simp [Plant.setPump]
  have hcoax : p.Does [] (p.coaxed id) := hraise.trans (coaxed_steps p id).does_nothing
  have hlast : q.journal = (p.coaxed id).journal ++ [.stopped id pump.hasEnded] := by
    simp only [q, heq]
    rfl
  refine ⟨pump, hp, hasked, congrArg Prod.fst heq, ?_, hcoax.trans (.one hlast rfl)⟩
  simp only [q, heq, worker?, pump?_note, pump?_setPump_self hp]
  rfl

theorem stopPump_spares (p : Plant) (id : PumpId) (millis : Nat) :
    Spares (· = id) p (p.stopPump id millis).2 := by
  cases h : p.isOut id with
  | false =>
      rw [stopPump_of_not_isOut h]
      exact .refl p
  | true =>
      obtain ⟨pump, hp, -, heq⟩ := stopPump_of_isOut h millis
      have hraise : Spares (· = id) p (p.raise id) := by
        simp only [raise]
        split
        · exact .refl p
        · rename_i hp
          exact .setPump hp rfl (.inl rfl) rfl
      rw [heq]
      exact hraise.trans ((coaxed_steps p id).spares.trans (.setPump hp rfl (.inl rfl) rfl))

/-- A stop that succeeds joins the pump; one that fails tells that it has not. -/
theorem stopPump_answer (p : Plant) (id : PumpId) :
    let q := (p.stopPump id p.drainMillis).2
    ((p.stopPump id p.drainMillis).1 = .ok () ∧ q.late? id = none) ∨
      ∃ late, (p.stopPump id p.drainMillis).1 = .error late ∧ q.late? id = some (.drain late) := by
  intro q
  have hmillis : q.drainMillis = p.drainMillis := (stopPump_spares p id _).drainMillis
  cases h : p.isOut id with
  | false =>
      have heq := stopPump_of_not_isOut h p.drainMillis
      have hsame : q = p := congrArg Prod.snd heq
      refine .inl ⟨congrArg Prod.fst heq, ?_⟩
      rw [hsame, ← Option.isNone_iff_eq_none, ← Option.not_isSome, isSome_late?, h]
      rfl
  | true =>
      obtain ⟨pump, -, -, hstop, hworker, -⟩ := stopPump_notes h p.drainMillis
      have hanswer := pump.worker.answer_stop p.drainMillis pump.hasEnded
      simp only [late?, q, hworker, hmillis, Option.bind_some]
      rw [hstop]
      split at hanswer <;> rename_i hj
      · exact .inl ⟨hanswer, if_pos hj⟩
      · exact .inr ⟨_, hanswer, if_neg hj⟩

/-- A pump that is out is stopped once, and knows that it is to stop. -/
theorem stopPump_does (h : p.isOut id = true) (millis : Nat) :
    let q := (p.stopPump id millis).2
    (∃ drained, p.Does [.stopped id drained] q) ∧
      (q.worker? id).any (·.stopRequested) = true := by
  obtain ⟨pump, -, hasked, -, hworker, hdoes⟩ := stopPump_notes h millis
  refine ⟨⟨_, hdoes⟩, ?_⟩
  rw [hworker]
  exact pump.worker.asked_stop millis _ hasked

/-- A pump that is out when it is given up is stopped once more. -/
theorem dropPump_does (h : p.isOut id = true) :
    ∃ drained, p.Does [.stopped id drained] (p.dropPump id) := by
  cases hp : p.pump? id with
  | none => simp [isOut, worker?, hp] at h
  | some pump =>
      simp only [dropPump, hp]
      exact (stopPump_does h _).1

theorem dropPump_spares (p : Plant) (id : PumpId) : Spares (· = id) p (p.dropPump id) := by
  simp only [dropPump]
  split
  · exact .refl p
  · exact stopPump_spares p id _

end Owner
end Plant

namespace Stack

open Plant

variable {p : Plant} {steps older : List Undo} {id : PumpId}

theorem pumps_cons_request (r : Request) (older : List Undo) :
    pumps ⟨.request r :: older⟩ = pumps ⟨older⟩ := by
  simp [pumps]

theorem pumps_cons_pump (id : PumpId) (older : List Undo) :
    pumps ⟨.pump id :: older⟩ = pumps ⟨older⟩ ++ [id] := by
  simp [pumps]

theorem mem_pumps : id ∈ pumps ⟨steps⟩ ↔ .pump id ∈ steps := by
  simp only [pumps, List.mem_filterMap, List.mem_reverse]
  constructor
  · rintro ⟨u, hu, heq⟩
    cases u with
    | request r => cases heq
    | pump k =>
        obtain rfl := Option.some.inj heq
        exact hu
  · exact fun h => ⟨_, h, rfl⟩

/-- The step is left when the pumps have been stopped. -/
def isLeft (m : Plant) : Undo → Bool
  | .request _ => true
  | .pump id => m.isOut id

/-- What stopping the pumps comes to. -/
structure Stopped (p : Plant) (steps : List Undo) (errors : List PipelineError)
    (kept : List Undo) (m : Plant) : Prop where
  errors : errors = (pumps ⟨steps⟩).filterMap m.late?
  kept : kept = steps.filter (isLeft m)
  spares : Spares (· ∈ pumps ⟨steps⟩) p m
  does : ∃ stops, p.Does stops m ∧
    List.Forall₂ Undo.Tried (((pumps ⟨steps⟩).filter p.isOut).map .pump) stops
  asked : ∀ id ∈ pumps ⟨steps⟩, p.isOut id = true → (m.worker? id).any (·.stopRequested) = true

/-- Stopping one more pump, another one than those before. -/
theorem Stopped.pump {errors : List PipelineError} {kept : List Undo} {m : Plant}
    (h : Stopped p older errors kept m) (hid : id ∉ pumps ⟨older⟩) :
    let q := (m.stopPump id m.drainMillis).2
    Stopped p (.pump id :: older) (errors ++ (q.late? id).toList)
      ((if q.isOut id then [.pump id] else []) ++ kept) q := by
  intro q
  have hspares : Spares (· = id) m q := stopPump_spares m id _
  have hother {k : PumpId} (hk : k ∈ pumps ⟨older⟩) : k ≠ id := fun heq => hid (heq ▸ hk)
  have hout : m.isOut id = p.isOut id := h.spares.isOut hid
  have hpumps := pumps_cons_pump id older
  constructor
  · rw [h.errors, hpumps, List.filterMap_append]
    refine congrArg₂ _ (List.filterMap_congr fun k hk => (hspares.late? (hother hk)).symm) ?_
    cases hl : q.late? id <;> simp [hl]
  · rw [h.kept, List.filter_cons]
    have hkeep : older.filter (isLeft m) = older.filter (isLeft q) := by
      refine List.filter_congr fun u hu => ?_
      cases u with
      | request r => rfl
      | pump k => exact (hspares.isOut (hother (mem_pumps.mpr hu))).symm
    rw [hkeep]
    by_cases ho : q.isOut id <;> simp [isLeft, ho]
  · rw [hpumps]
    exact (h.spares.mono fun k hk => List.mem_append_left _ hk).trans
      (hspares.mono fun k hk => List.mem_append_right _ (List.mem_singleton.mpr hk))
  · obtain ⟨stops, hdoes, htried⟩ := h.does
    rw [hpumps, List.filter_append, List.map_append]
    cases ho : p.isOut id with
    | true =>
        obtain ⟨⟨drained, hstop⟩, -⟩ := stopPump_does (hout.trans ho) m.drainMillis
        refine ⟨stops ++ [.stopped id drained], hdoes.trans hstop, List.rel_append htried ?_⟩
        simpa [ho] using Undo.Tried.pump id drained
    | false =>
        have hsame : q = m := congrArg Prod.snd (stopPump_of_not_isOut (hout.trans ho) _)
        refine ⟨stops, hsame ▸ hdoes, ?_⟩
        simpa [ho] using htried
  · intro k hk ho
    rw [hpumps] at hk
    cases List.mem_append.mp hk with
    | inl hk =>
        rw [hspares.worker? k (hother hk)]
        exact h.asked k hk ho
    | inr hk =>
        obtain rfl := List.mem_singleton.mp hk
        exact (stopPump_does (hout.trans ho) m.drainMillis).2

/-- Stopping a pump after the older ones: it stays, with an error, just if it is still out. -/
theorem stopEach_pump (p : Plant) (id : PumpId) (older : List Undo) :
    let m := (stopEach p older).2.2
    let q := (m.stopPump id m.drainMillis).2
    stopEach p (.pump id :: older) = ((stopEach p older).1 ++ (q.late? id).toList,
      (if q.isOut id then [.pump id] else []) ++ (stopEach p older).2.1, q) := by
  simp only [← isSome_late?, stopEach]
  obtain ⟨hanswer, hlate⟩ | ⟨late, hanswer, hlate⟩ := stopPump_answer (stopEach p older).2.2 id
  · rw [hlate]
    split <;> rename_i ho <;> rw [ho] at hanswer ⊢
    · simp
    · cases hanswer
  · rw [hlate]
    split <;> rename_i ho <;> rw [ho] at hanswer ⊢
    · cases hanswer
    · obtain rfl := Except.error.inj hanswer
      simp

theorem stopped_stopEach (p : Plant) (hnodup : (pumps ⟨steps⟩).Nodup) :
    Stopped p steps (stopEach p steps).1 (stopEach p steps).2.1 (stopEach p steps).2.2 := by
  induction steps with
  | nil => exact ⟨rfl, rfl, .refl p, ⟨[], .refl p, .nil⟩, fun id hid => by cases hid⟩
  | cons step older ih =>
      cases step with
      | request r =>
          rw [pumps_cons_request] at hnodup
          have h := ih hnodup
          have hpumps := pumps_cons_request r older
          have hkept : .request r :: (stopEach p older).2.1 =
              (.request r :: older).filter (isLeft (stopEach p older).2.2) := by
            rw [List.filter_cons_of_pos rfl, ← h.kept]
          exact ⟨hpumps ▸ h.errors, hkept, hpumps ▸ h.spares, hpumps ▸ h.does, hpumps ▸ h.asked⟩
      | pump id =>
          rw [pumps_cons_pump] at hnodup
          obtain ⟨holder, -, hdisjoint⟩ := List.nodup_append.mp hnodup
          have hid : id ∉ pumps ⟨older⟩ := fun hm => hdisjoint id hm id (.head _) rfl
          rw [stopEach_pump]
          exact (ih holder).pump hid

/-- Undoing a request and then the older steps: its refusal is one more error. -/
theorem undoEach_request (p : Plant) (r : Request) (older : List Undo) :
    ∃ fault, p.Does [.asked r fault] (p.ask r).2 ∧ undoEach p (.request r :: older) =
      ((JournalEntry.refusal? (.asked r fault)).toList ++ (undoEach (p.ask r).2 older).1,
        (undoEach (p.ask r).2 older).2) := by
  simp only [undoEach]
  obtain ⟨h, hanswer, hask⟩ | ⟨fault, hanswer, hask⟩ := ask_does p r
  · refine ⟨none, hask, ?_⟩
    split <;> rename_i ho <;> rw [ho] at hanswer ⊢
    · rfl
    · cases hanswer
  · refine ⟨some fault, hask, ?_⟩
    split <;> rename_i ho <;> rw [ho] at hanswer ⊢
    · cases hanswer
    · obtain rfl := Except.error.inj hanswer
      rfl

/-- The steps are tried in turn, once each, whatever comes of the others. -/
theorem undoEach_does (p : Plant) (hnodup : (pumps ⟨steps⟩).Nodup)
    (hout : ∀ id ∈ pumps ⟨steps⟩, p.isOut id = true) :
    ∃ undos, p.Does undos (undoEach p steps).2 ∧ List.Forall₂ Undo.Tried steps undos ∧
      (undoEach p steps).1 = undos.filterMap JournalEntry.refusal? := by
  induction steps generalizing p with
  | nil => exact ⟨[], .refl p, .nil, rfl⟩
  | cons step older ih =>
      cases step with
      | request r =>
          rw [pumps_cons_request] at hnodup hout
          have hspares : Spares (fun _ => False) p (p.ask r).2 := ask_spares p r
          obtain ⟨undos, hdoes, htried, herrors⟩ := ih (p.ask r).2 hnodup fun id hid =>
            (hspares.isOut not_false).trans (hout id hid)
          obtain ⟨fault, hask, heq⟩ := undoEach_request p r older
          refine ⟨.asked r fault :: undos, ?_, .cons (.request r fault) htried, ?_⟩
          · rw [heq]
            exact hask.trans hdoes
          · rw [heq, herrors]
            cases fault <;> rfl
      | pump id =>
          rw [pumps_cons_pump] at hnodup hout
          obtain ⟨holder, -, hdisjoint⟩ := List.nodup_append.mp hnodup
          have hspares := dropPump_spares p id
          obtain ⟨drained, hdrop⟩ :=
            dropPump_does (hout id (List.mem_append_right _ (.head _)))
          obtain ⟨undos, hdoes, htried, herrors⟩ := ih (p.dropPump id) holder fun k hk =>
            (hspares.isOut (hdisjoint k hk id (.head _))).trans
              (hout k (List.mem_append_left _ hk))
          exact ⟨.stopped id drained :: undos, hdrop.trans hdoes, .cons (.pump id drained) htried,
            herrors⟩

theorem pumps_filter (m : Plant) (steps : List Undo) :
    pumps ⟨steps.filter (isLeft m)⟩ = (pumps ⟨steps⟩).filter m.isOut := by
  induction steps with
  | nil => rfl
  | cons step older ih =>
      cases step with
      | request r => rw [List.filter_cons_of_pos rfl, pumps_cons_request, pumps_cons_request, ih]
      | pump id =>
          rw [pumps_cons_pump, List.filter_append, List.filter_cons]
          cases ho : m.isOut id <;> simp [isLeft, ho, pumps_cons_pump, ih]

end Stack

theorem firstError_eq_ok_iff {errors : List PipelineError} :
    firstError errors = .ok () ↔ errors = [] := by
  cases errors <;> simp [firstError]

theorem firstError_eq_error_iff {errors : List PipelineError} {e : PipelineError} :
    firstError errors = .error e ↔ errors.head? = some e := by
  cases errors <;> simp [firstError]

namespace Site

open Plant Stack

/-- A camera with two pumps. The second one does not come back from its fetch, and the camera
will not be disabled. -/
def unruly : Site where
  stack := ⟨[.pump 1, .request (.disable ⟨.vi, 0⟩), .pump 0, .request (.destroy ⟨.vi, 0⟩)]⟩
  plant :=
    let camera := .vi ⟨⟨1280, 720⟩, 30, .nv12, 4, false⟩
    let server := (({ payloadSize := 4 } : Server).perform (.create .vi camera)).2
    { server := (server.perform (.enable ⟨.vi, 0⟩)).2.inject ⟨.disable, none, 1, Nat.one_pos⟩
      drainMillis := 100
      pumps := [.ofTuning {} .main ⟨.vi, 0⟩ [] none,
        { Pump.ofTuning {} .sub ⟨.vi, 0⟩ [] none with phase := .fetching, stalled := true }] }

end Site
end CameraPipeline
