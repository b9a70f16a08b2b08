import CameraPipeline.Proofs.Plant.Failure
import CameraPipeline.Proofs.Plant.Photos
import CameraPipeline.Proofs.Plant.Restore
import CameraPipeline.Proofs.Server.Controls

/-!
Stopping a pump that may be late. A pump that does not end in time stays out, and all that a stop
has done to it is to raise its flag; the controls of the server stay as they are, because pumps only
move units on the channels that they read. So the undoing that follows the stop that succeeds finds
the same controls, however often the pump was late before, and comes to the same.
-/

namespace CameraPipeline
namespace Plant

variable {p q : Plant} {id : PumpId} {pump : Pump}

section Controls

/-- Every pump reads a channel of a kind that pumps read. -/
def Sourced (p : Plant) : Prop :=
  ∀ id pump, p.pump? id = some pump → pump.source.kind.isPumped = true

variable {requests : Request → Prop} {pumps : Pump → Prop}

theorem Sourced.apply (hp : p.Sourced) {c : Change}
    (hc : ∀ pump, c = .start pump → pump.source.kind.isPumped = true) : (p.apply c).Sourced := by
  intro id pump' hq
  cases pump?_apply p c hq with
  | inl hcase =>
      obtain ⟨pump, hpump, hb⟩ := hcase
      exact hb.source ▸ hp id pump hpump
  | inr heq => exact hc pump' heq

theorem Steps.sourced (hpumps : ∀ pump, pumps pump → pump.source.kind.isPumped = true)
    (h : Steps (Change.Within requests pumps) p q) (hp : p.Sourced) : q.Sourced :=
  h.keeps (fun _ _ hc hq => hq.apply fun pump he => hpumps pump (by rwa [he] at hc)) hp

theorem controls_advanced (h : Advanced p id q) (hp : p.Sourced) :
    q.server.controls = p.server.controls := by
  cases h with
  | stays | checks => rfl
  | fetches pump hpump => exact p.server.controls_fetch (hp id pump hpump)
  | offers pump hpump u sink rest phase taken p' hq =>
      rw [note, Plant.setPump, (offer_frame hq).1]
  | releases pump hpump u => exact p.server.controls_release (hp id pump hpump) u.slot

/-- What is no request leaves the controls as they are. -/
theorem Steps.controls (h : Steps Change.IsQuiet p q) (hp : p.Sourced) :
    q.server.controls = p.server.controls := by
  refine (h.keeps (I := fun q => q.Sourced ∧ q.server.controls = p.server.controls)
    (fun q c hc hq => ⟨?_, ?_⟩) ⟨hp, rfl⟩).2
  · exact hq.1.apply fun pump he => by rw [he] at hc; exact hc.elim
  · refine Eq.trans ?_ hq.2
    cases applied q c with
    | advance id h => exact controls_advanced h hq.1
    | request | start => exact hc.elim
    | handled _ _ _ _ _ _ _ server | idle _ server => rw [server]

end Controls

section Stop

/-- The pump ends when it is asked to stop and given its time. -/
def endsInTime (p : Plant) (id : PumpId) : Bool := ((p.coaxed id).pump? id).all (·.hasEnded)

theorem coaxes (p : Plant) (id : PumpId) : Steps Change.IsQuiet p (p.coaxed id) :=
  .cons (.raise id) trivial (coaxed_steps p id).quiet

theorem endsInTime_of_hasEnded (hp : p.pump? id = some pump) (he : pump.hasEnded) :
    p.endsInTime id = true := by
  obtain ⟨pump', hp', hb⟩ := (coaxes p id).continues id pump hp
  rw [endsInTime, hp', Option.all_some]
  exact hb.ended he

theorem isOut_iff : p.isOut id = true ↔ ∃ w, p.worker? id = some w ∧ w.joined = false := by
  rw [isOut]
  cases p.worker? id <;> simp

/-- A pump that is late has not been joined. -/
theorem isOut_of_late (hh : p.Honest) (h : p.endsInTime id = false) : p.isOut id = true := by
  cases hp' : (p.coaxed id).pump? id with
  | none => simp [endsInTime, hp'] at h
  | some pump' =>
      have he : ¬pump'.hasEnded := by simpa [endsInTime, hp'] using h
      obtain ⟨pump, hp, hb⟩ := (coaxes p id).before hp'
      have hj : ¬pump.worker.joined := fun hj => he (hb.ended ((hh id pump hp).joined hj))
      exact isOut_iff.mpr ⟨pump.worker, by rw [worker?, hp]; rfl, by simpa using hj⟩

/-- A pump that is stopped stays out just if it is late, and that is noted. -/
theorem stopPump_endsInTime (hh : p.Honest) (h : p.isOut id = true) (millis : Nat) :
    let q := (p.stopPump id millis).2
    q.isOut id = !p.endsInTime id ∧ p.Does [.stopped id (p.endsInTime id)] q := by
  intro q
  obtain ⟨pump, hp, -, -, hworker, hdoes⟩ := stopPump_notes h millis
  have hended : p.endsInTime id = pump.hasEnded := by rw [endsInTime, hp, Option.all_some]
  have hhonest : (p.coaxed id).Honest := (coaxes p id).honest (fun _ => False.elim) hh
  have hjoined := (hhonest id pump hp).joined_stop millis
  refine ⟨?_, hended ▸ hdoes⟩
  rw [isOut, hworker, hended, Option.any_some, hjoined]

theorem isOut_stopPump (hh : p.Honest) (id : PumpId) (millis : Nat) :
    (p.stopPump id millis).2.isOut id = !p.endsInTime id := by
  cases h : p.isOut id with
  | true => exact (stopPump_endsInTime hh h millis).1
  | false =>
      rw [stopPump_of_not_isOut h, h]
      cases he : p.endsInTime id with
      | true => rfl
      | false => exact h.symm.trans (isOut_of_late hh he)

/-- A pump that is late is reported by its name. -/
theorem late?_stopPump (hh : p.Honest) (h : p.endsInTime id = false) :
    ∃ w, p.worker? id = some w ∧
      (p.stopPump id p.drainMillis).2.late? id = some (.drain ⟨w.name, p.drainMillis⟩) := by
  obtain ⟨w, hw, -⟩ := isOut_iff.mp (isOut_of_late hh h)
  have hstays := (isOut_stopPump hh id p.drainMillis).trans (congrArg (!·) h)
  obtain ⟨w', hw', hj⟩ := isOut_iff.mp hstays
  have hname := (stopPump_steps p id p.drainMillis).knows.name id w hw
  rw [hw', Option.map_some, Option.some_inj] at hname
  refine ⟨w, hw, ?_⟩
  rw [late?, hw', Option.bind_some, if_neg (by simp [hj]), hname,
    (stopPump_spares p id _).drainMillis]

end Stop

section Undo

/-- Why a request is refused, if it is. -/
def refused? (p : Plant) (r : Request) : Option Fault :=
  match (p.ask r).1 with
  | .ok _ => none
  | .error fault => some fault

theorem ask_refused (p : Plant) (r : Request) : p.Does [.asked r (p.refused? r)] (p.ask r).2 := by
  obtain ⟨h, hanswer, hdoes⟩ | ⟨fault, hanswer, hdoes⟩ := ask_does p r <;>
    simpa only [refused?, hanswer] using hdoes

theorem Sourced.ask (hp : p.Sourced) (r : Request) : (p.ask r).2.Sourced :=
  (ask_steps p r).sourced (fun _ => False.elim) hp

/-- What comes of a request that closes something can be told from the controls. -/
theorem ask_of_controls (hp : p.Sourced) (hq : q.Sourced)
    (hc : p.server.controls = q.server.controls) {r : Request} (hr : r.Closes) :
    p.refused? r = q.refused? r ∧ (p.ask r).2.server.controls = (q.ask r).2.server.controls := by
  have hturn (p : Plant) (hp : p.Sourced) : p.takeTurn.server.controls = p.server.controls :=
    (takeTurn_steps p).quiet.controls hp
  obtain ⟨hanswer, hcontrols⟩ :=
    Server.perform_of_controls ((hturn p hp).trans (hc.trans (hturn q hq).symm)) hr
  simp only [refused?, ask_eq, answer_serve, server_serve]
  exact ⟨by rw [hanswer], hcontrols⟩

end Undo
end Plant

namespace Stack

open Plant

variable {p q : Plant} {steps : List Undo} {id : PumpId}

/-- The steps of the stack that ask the server. -/
def asks (s : Stack) : List Undo :=
  s.steps.filter fun
    | .request _ => true
    | .pump _ => false

/-- The pump is the only one on the stack, and it is there until it has been joined. -/
def Holds (s : Stack) (id : PumpId) (p : Plant) : Prop := s.pumps = [id].filter p.isOut

/-- The pumps of a stack are stopped one after the other. -/
theorem plant_stopEach (p : Plant) (steps : List Undo) :
    (stopEach p steps).2.2 =
      (pumps ⟨steps⟩).foldl (fun p id => (p.stopPump id p.drainMillis).2) p := by
  induction steps with
  | nil => rfl
  | cons step older ih =>
      cases step with
      | request r => rw [pumps_cons_request, ← ih]; rfl
      | pump id => rw [pumps_cons_pump, List.foldl_append, ← ih, stopEach_pump]; rfl

/-- Where the pumps have been joined, only the requests are left. -/
theorem filter_isLeft_eq_asks {s : Stack} (h : ∀ k ∈ s.pumps, q.isOut k = false) :
    s.steps.filter (isLeft q) = s.asks := by
  refine List.filter_congr fun u hu => ?_
  cases u with
  | request r => rfl
  | pump k => exact h k (mem_pumps.mpr hu)

theorem requests_asks (s : Stack) : ∀ u ∈ s.asks, ∃ r, u = .request r := by
  intro u hu
  cases u with
  | request r => exact ⟨r, rfl⟩
  | pump k => cases (List.mem_filter.mp hu).2

namespace Holds

variable {s : Stack} (hs : s.Holds id p)

include hs

theorem mem {k : PumpId} (hk : k ∈ s.pumps) : k = id ∧ p.isOut k = true := by
  rw [hs] at hk
  exact (List.mem_filter.mp hk).imp_left List.mem_singleton.mp

/-- Stopping the pumps of the stack is stopping that one pump. -/
theorem stopPumps :
    let q := (p.stopPump id p.drainMillis).2
    s.stopPumps p = ((q.late? id).toList, ⟨s.steps.filter (isLeft q)⟩, q) := by
  intro q
  have hpumps : s.pumps = [id].filter p.isOut := hs
  have hplant : (stopEach p s.steps).2.2 = q := by
    rw [plant_stopEach, hpumps]
    cases ho : p.isOut id with
    | true => simp [ho, q]
    | false => simp [ho, q, stopPump_of_not_isOut ho]
  have hnodup : s.pumps.Nodup := hpumps ▸ (List.nodup_singleton id).filter _
  have hstop : Stopped p s.steps _ _ _ := stopped_stopEach p hnodup
  rw [hplant] at hstop
  have herrors : (stopEach p s.steps).1 = (q.late? id).toList := by
    rw [hstop.errors, hpumps]
    cases ho : p.isOut id with
    | true => cases hl : q.late? id <;> simp [ho, hl]
    | false =>
        have hnone : p.late? id = none := by simpa [← isSome_late?] using ho
        simp [ho, q, stopPump_of_not_isOut ho, hnone]
  exact Prod.ext herrors (Prod.ext (congrArg Stack.mk hstop.kept) hplant)

/-- A pump that is late keeps everything on the stack. -/
theorem stopPumps_late (hh : p.Honest) (h : p.endsInTime id = false) :
    let q := (p.stopPump id p.drainMillis).2
    s.stopPumps p = ((q.late? id).toList, s, q) := by
  intro q
  have hleft : s.steps.filter (isLeft q) = s.steps := by
    refine List.filter_eq_self.mpr fun u hu => ?_
    cases u with
    | request r => rfl
    | pump k =>
        obtain ⟨rfl, -⟩ := hs.mem (mem_pumps.mpr hu)
        exact (isOut_stopPump hh k _).trans (congrArg (!·) h)
  rw [hs.stopPumps, hleft]

/-- A pump that ends leaves only requests on the stack. -/
theorem stopPumps_inTime (hh : p.Honest) (h : p.endsInTime id = true) :
    s.stopPumps p = ([], ⟨s.asks⟩, (p.stopPump id p.drainMillis).2) := by
  have hin : (p.stopPump id p.drainMillis).2.isOut id = false :=
    (isOut_stopPump hh id _).trans (congrArg (!·) h)
  have hnone : (p.stopPump id p.drainMillis).2.late? id = none := by
    simpa [← isSome_late?] using hin
  have hleft : s.steps.filter (isLeft (p.stopPump id p.drainMillis).2) = s.asks :=
    filter_isLeft_eq_asks fun k hk => (hs.mem hk).1 ▸ hin
  rw [hs.stopPumps, hnone, hleft]
  rfl

/-- The stop of a pump that ends is noted, if the pump was still out. -/
theorem does_inTime (hh : p.Honest) (h : p.endsInTime id = true) (millis : Nat) :
    p.Does (s.pumps.map (.stopped · true)) (p.stopPump id millis).2 := by
  have hpumps : s.pumps = [id].filter p.isOut := hs
  rw [hpumps]
  cases ho : p.isOut id with
  | true => simpa [ho, h] using (stopPump_endsInTime hh ho millis).2
  | false => simpa [ho, stopPump_of_not_isOut ho] using Does.refl p

end Holds

/-- Requests that close something come to the same wherever the controls are the same. -/
theorem undoEach_of_controls (hr : ∀ u ∈ steps, ∃ r : Request, u = .request r ∧ r.Closes)
    (hp : p.Sourced) (hq : q.Sourced) (hc : p.server.controls = q.server.controls) :
    (undoEach p steps).2.server.controls = (undoEach q steps).2.server.controls ∧
      ∃ undos, p.Does undos (undoEach p steps).2 ∧ q.Does undos (undoEach q steps).2 := by
  induction steps generalizing p q with
  | nil => exact ⟨hc, [], .refl p, .refl q⟩
  | cons step older ih =>
      obtain ⟨r, rfl, hcloses⟩ := hr step (.head _)
      obtain ⟨hrefused, hasked⟩ := ask_of_controls hp hq hc hcloses
      obtain ⟨hcontrols, undos, hdoes, hdoes'⟩ :=
        ih (fun u hu => hr u (.tail _ hu)) (hp.ask r) (hq.ask r) hasked
      obtain ⟨fault, -, heq⟩ := undoEach_request p r older
      obtain ⟨fault', -, heq'⟩ := undoEach_request q r older
      rw [heq, heq']
      refine ⟨hcontrols, .asked r (p.refused? r) :: undos, ?_, ?_⟩
      · exact (p.ask_refused r).trans hdoes
      · exact hrefused ▸ (q.ask_refused r).trans hdoes'

theorem undoEach_spares {ids : PumpId → Prop} (hr : ∀ u ∈ steps, ∃ r, u = .request r)
    (p : Plant) : Spares ids p (undoEach p steps).2 := by
  induction steps generalizing p with
  | nil => exact .refl p
  | cons step older ih =>
      obtain ⟨r, rfl⟩ := hr step (.head _)
      obtain ⟨_, -, heq⟩ := undoEach_request p r older
      rw [heq]
      exact (ask_spares p r).trans (ih (fun u hu => hr u (.tail _ hu)) _)

/-- Wherever the controls are `start`, undoing the steps is trying them by `undos`, and the controls
are `stop` then. -/
structure Settles (start : Controls) (steps : List Undo) (undos : List JournalEntry)
    (stop : Controls) : Prop where
  tried : List.Forall₂ Undo.Tried steps undos
  undoes : ∀ q : Plant, q.Sourced → q.server.controls = start →
    q.Does undos (undoEach q steps).2 ∧
      (undoEach q steps).1 = undos.filterMap JournalEntry.refusal? ∧
      (undoEach q steps).2.server.controls = stop

/-- What comes of undoing requests that close something is settled by the controls. -/
theorem undoEach_settles (hr : ∀ u ∈ steps, ∃ r : Request, u = .request r ∧ r.Closes)
    (hp : p.Sourced) : ∃ undos stop, Settles p.server.controls steps undos stop := by
  have hnone : pumps ⟨steps⟩ = [] := by
    rw [List.eq_nil_iff_forall_not_mem]
    intro k hk
    obtain ⟨r, heq, -⟩ := hr _ (mem_pumps.mp hk)
    cases heq
  have htries (q : Plant) : ∃ undos, q.Does undos (undoEach q steps).2 ∧
      List.Forall₂ Undo.Tried steps undos ∧
      (undoEach q steps).1 = undos.filterMap JournalEntry.refusal? :=
    undoEach_does q (by simp [hnone]) (by simp [hnone])
  obtain ⟨undos, hdoes, htried, -⟩ := htries p
  refine ⟨undos, (undoEach p steps).2.server.controls, htried, fun q hq hc => ?_⟩
  obtain ⟨hcontrols, same, hdoes', hsame⟩ := undoEach_of_controls hr hp hq hc.symm
  obtain rfl := hdoes.unique hdoes'
  obtain ⟨undos', hdoes', -, herrors⟩ := htries q
  obtain rfl := hsame.unique hdoes'
  exact ⟨hsame, herrors, hcontrols.symm⟩

end Stack
end CameraPipeline
