import Mathlib.Data.List.Forall2
import CameraPipeline.Proofs.Plant.Notes
import CameraPipeline.Proofs.Server.Production

/-!
The rounds of a pump that has a limit. A round begins with a check that lets it pass and a fetch;
one that brings a unit offers it to each sink in turn and hands it back before the next round
begins. No round begins once the limit is reached, and then the pump ends.
-/

namespace CameraPipeline

namespace PumpDeed

def fetched? : PumpDeed → Option MediaUnit
  | .fetched (.unit u) => some u
  | _ => none

def offered? : PumpDeed → Option (SinkId × MediaUnit)
  | .offered sink u _ => some (sink, u)
  | _ => none

def released? : PumpDeed → Option MediaUnit
  | .released u _ => some u
  | _ => none

end PumpDeed

/-- The unit was offered to the sinks in their order. -/
def Offers (u : MediaUnit) : List SinkId → List PumpDeed → Prop :=
  List.Forall₂ fun sink deed => ∃ taken, deed = .offered sink u taken

/-- Whole rounds of a pump, which brought the units `us`. -/
inductive Rounds (limit : Nat) (sinks : List SinkId) : List MediaUnit → List PumpDeed → Prop
  | none : Rounds limit sinks [] []
  | idle {us : List MediaUnit} {deeds : List PumpDeed} (before : Rounds limit sinks us deeds)
      (left : us.length < limit) (answer : FetchAnswer) (nothing : ∀ u, answer ≠ .unit u) :
      Rounds limit sinks us (deeds ++ [.checked true, .fetched answer])
  | unit {us : List MediaUnit} {deeds offers : List PumpDeed} (before : Rounds limit sinks us deeds)
      (left : us.length < limit) (u : MediaUnit) (offered : Offers u sinks offers)
      (fault : Option Fault) :
      Rounds limit sinks (us ++ [u])
        (deeds ++ .checked true :: .fetched (.unit u) :: (offers ++ [.released u fault]))

namespace Offers

variable {u : MediaUnit} {sinks : List SinkId} {offers : List PumpDeed}

theorem concat (h : Offers u sinks offers) (sink : SinkId) (taken : Bool) :
    Offers u (sinks ++ [sink]) (offers ++ [.offered sink u taken]) := by
  induction h with
  | nil => exact .cons ⟨taken, rfl⟩ .nil
  | cons hd _ ih => exact .cons hd ih

theorem filterMap {β : Type} {f : PumpDeed → Option β} {g : SinkId → Option β}
    (h : Offers u sinks offers) (hf : ∀ sink taken, f (.offered sink u taken) = g sink) :
    offers.filterMap f = sinks.filterMap g := by
  induction h with
  | nil => rfl
  | cons hd _ ih =>
      obtain ⟨taken, rfl⟩ := hd
      simp only [List.filterMap_cons, hf, ih]

theorem offered (h : Offers u sinks offers) :
    offers.filterMap PumpDeed.offered? = sinks.map (·, u) :=
  (h.filterMap fun _ _ => rfl).trans (congrFun List.filterMap_eq_map sinks)

theorem fetched (h : Offers u sinks offers) : offers.filterMap PumpDeed.fetched? = [] :=
  (h.filterMap (g := fun _ => none) fun _ _ => rfl).trans (by simp)

theorem released (h : Offers u sinks offers) : offers.filterMap PumpDeed.released? = [] :=
  (h.filterMap (g := fun _ => none) fun _ _ => rfl).trans (by simp)

end Offers

namespace Rounds

variable {limit : Nat} {sinks : List SinkId} {us : List MediaUnit} {deeds : List PumpDeed}

theorem length_le (h : Rounds limit sinks us deeds) : us.length ≤ limit := by
  induction h with
  | none => exact Nat.zero_le _
  | idle _ _ _ _ ih => exact ih
  | unit _ left =>
      rw [List.length_append]
      exact left

/-- What whole rounds come to is what each unit came to. -/
theorem filterMap {β : Type} {f : PumpDeed → Option β} {g : MediaUnit → List β}
    (h : Rounds limit sinks us deeds) (hc : f (.checked true) = .none)
    (hidle : ∀ answer, (∀ u, answer ≠ .unit u) → f (.fetched answer) = .none)
    (hunit : ∀ u offers fault, Offers u sinks offers →
      (.fetched (.unit u) :: (offers ++ [.released u fault])).filterMap f = g u) :
    deeds.filterMap f = us.flatMap g := by
  induction h with
  | none => rfl
  | idle _ _ answer nothing ih =>
      rw [List.filterMap_append, ih, List.filterMap_cons_none hc,
        List.filterMap_cons_none (hidle answer nothing), List.filterMap_nil, List.append_nil]
  | unit _ _ u offered fault ih =>
      rw [List.filterMap_append, ih, List.filterMap_cons_none hc, hunit u _ fault offered,
        List.flatMap_append, List.flatMap_singleton]

theorem fetched (h : Rounds limit sinks us deeds) : deeds.filterMap PumpDeed.fetched? = us := by
  refine (h.filterMap (g := fun u => [u]) rfl (fun answer nothing => ?_) ?_).trans (by simp)
  · cases answer with
    | unit u => exact absurd rfl (nothing u)
    | timeout | eof | failed => rfl
  · intro u offers fault offered
    simp [List.filterMap_cons, PumpDeed.fetched?, offered.fetched]

theorem offered (h : Rounds limit sinks us deeds) :
    deeds.filterMap PumpDeed.offered? = us.flatMap fun u => sinks.map (·, u) := by
  refine h.filterMap rfl (fun _ _ => rfl) fun u offers fault offered => ?_
  simp [List.filterMap_cons, PumpDeed.offered?, offered.offered]

theorem released (h : Rounds limit sinks us deeds) :
    deeds.filterMap PumpDeed.released? = us := by
  refine (h.filterMap (g := fun u => [u]) rfl (fun _ _ => rfl) ?_).trans (by simp)
  intro u offers fault offered
  simp [List.filterMap_cons, PumpDeed.released?, offered.released]

/-- The round that reaches the limit is the last one: whatever comes after as many releases is no
part of any round. -/
theorem nothing_after (h : Rounds limit sinks us deeds) (full : us.length = limit)
    {before rest : List PumpDeed} (hd : deeds = before ++ rest)
    (hr : (before.filterMap PumpDeed.released?).length = limit) : rest = [] := by
  have hall : (rest.filterMap PumpDeed.released?).length = 0 := by
    have hlength := congrArg List.length h.released
    rw [hd, List.filterMap_append, List.length_append, hr, full] at hlength
    omega
  cases h with
  | none => exact (List.append_eq_nil_iff.mp hd.symm).2
  | idle _ left => exact absurd full (Nat.ne_of_lt left)
  | unit _ _ u _ fault =>
      cases List.eq_nil_or_concat rest with
      | inl hnil => exact hnil
      | inr hcase =>
          obtain ⟨rest', deed, rfl⟩ := hcase
          rw [List.concat_eq_append, ← List.append_assoc, ← List.cons_append,
            ← List.cons_append, ← List.append_assoc] at hd
          have hlast : PumpDeed.released u fault = deed := List.append_singleton_inj.mp hd |>.2
          simp [← hlast, PumpDeed.released?] at hall

end Rounds

/-- Exactly `n` units were fetched; each was offered once to every sink and handed back once, and
after the last of them nothing was fetched any more. -/
structure Exact (n : Nat) (sinks : List SinkId) (deeds : List PumpDeed) : Prop where
  fetched : (deeds.filterMap PumpDeed.fetched?).length = n
  offered : deeds.filterMap PumpDeed.offered? =
    (deeds.filterMap PumpDeed.fetched?).flatMap fun u => sinks.map (·, u)
  released : deeds.filterMap PumpDeed.released? = deeds.filterMap PumpDeed.fetched?
  last : ∀ before rest, deeds = before ++ rest →
    (before.filterMap PumpDeed.released?).length = n → ∀ answer, .fetched answer ∉ rest

theorem Rounds.exact {limit : Nat} {sinks : List SinkId} {us : List MediaUnit}
    {deeds : List PumpDeed} (h : Rounds limit sinks us deeds) (full : us.length = limit) :
    Exact limit sinks (deeds ++ [.checked false]) where
  fetched := by simpa [List.filterMap_cons, PumpDeed.fetched?, h.fetched] using full
  offered := by
    simp [List.filterMap_cons, PumpDeed.fetched?, PumpDeed.offered?, h.fetched, h.offered]
  released := by
    simp [List.filterMap_cons, PumpDeed.fetched?, PumpDeed.released?, h.fetched, h.released]
  last before rest hd hr answer hm := by
    cases List.eq_nil_or_concat rest with
    | inl hnil => exact List.not_mem_nil (hnil ▸ hm)
    | inr hcase =>
        obtain ⟨rest, deed, rfl⟩ := hcase
        rw [List.concat_eq_append, ← List.append_assoc] at hd
        obtain ⟨hd, hlast⟩ := List.append_singleton_inj.mp hd
        have hnil := h.nothing_after full hd hr
        simp [hnil, ← hlast] at hm

/-- The unit `u` was fetched in a round that is not over; `rest` has yet to see it. -/
def InHand (limit : Nat) (sinks : List SinkId) (us : List MediaUnit) (deeds : List PumpDeed)
    (u : MediaUnit) (rest : List SinkId) : Prop :=
  ∃ earlier before seen offers, us = earlier ++ [u] ∧ earlier.length < limit ∧
    Rounds limit sinks earlier before ∧ sinks = seen ++ rest ∧ Offers u seen offers ∧
    deeds = before ++ .checked true :: .fetched (.unit u) :: offers

theorem InHand.fetched {limit : Nat} {sinks : List SinkId} {us : List MediaUnit}
    {deeds : List PumpDeed} {u : MediaUnit} {rest : List SinkId}
    (h : InHand limit sinks us deeds u rest) : deeds.filterMap PumpDeed.fetched? = us := by
  obtain ⟨earlier, before, seen, offers, rfl, _, hrounds, _, hoffers, rfl⟩ := h
  simp [List.filterMap_cons, PumpDeed.fetched?, hrounds.fetched, hoffers.fetched]

namespace Pump

/-- Where the pump stands in its rounds. -/
def InRound (pump : Pump) (limit : Nat) (us : List MediaUnit) (deeds : List PumpDeed) : Prop :=
  match pump.phase with
  | .checking => Rounds limit pump.sinks us deeds
  | .fetching => ∃ before, deeds = before ++ [.checked true] ∧ us.length < limit ∧
      Rounds limit pump.sinks us before
  | .offering u sink rest => InHand limit pump.sinks us deeds u (sink :: rest)
  | .releasing u => InHand limit pump.sinks us deeds u []
  | .ended => ∃ before, deeds = before ++ [.checked false] ∧ us.length = limit ∧
      Rounds limit pump.sinks us before

/-- A pump with the limit `n` that nobody has asked to stop. It has taken the units `us`. -/
structure Takes (pump : Pump) (n : UInt32) (us : List MediaUnit) (deeds : List PumpDeed) :
    Prop where
  limit : pump.limit = some n
  willing : pump.worker.stopRequested = false
  honest : pump.Honest
  taken : pump.taken = us.length
  units : pump.stats.units = us.length
  round : pump.InRound n.toNat us deeds

variable {pump pump' : Pump} {n : UInt32} {us : List MediaUnit} {deeds : List PumpDeed}
  {u : MediaUnit} {sink : SinkId} {rest : List SinkId}

/-- What is in hand goes to the next sink, or back. -/
theorem inRound_dispatch (h : InHand n.toNat pump.sinks us deeds u rest)
    (phase : pump.phase = .dispatch u rest) : pump.InRound n.toNat us deeds := by
  cases rest <;> simp only [InRound, phase, PumpPhase.dispatch] <;> exact h

namespace Takes

theorem length_le (h : pump.Takes n us deeds) : us.length ≤ n.toNat := by
  have hround := h.round
  have inHand {u : MediaUnit} {rest : List SinkId} :
      InHand n.toNat pump.sinks us deeds u rest → us.length ≤ n.toNat := by
    rintro ⟨earlier, _, _, _, rfl, left, _⟩
    rw [List.length_append]
    exact left
  simp only [InRound] at hround
  split at hround
  · exact hround.length_le
  · obtain ⟨_, _, left, _⟩ := hround
    exact Nat.le_of_lt left
  · exact inHand hround
  · exact inHand hround
  · obtain ⟨_, _, full, _⟩ := hround
    exact Nat.le_of_eq full

theorem check (h : pump.Takes n us deeds) (phase : pump.phase = .checking) :
    pump.check.Takes n us (deeds ++ [.checked !pump.check.hasEnded]) := by
  have hround := h.round
  simp only [InRound, phase] at hround
  refine ⟨h.limit, h.willing, h.honest.loop (by simp [phase]) rfl, h.taken, h.units, ?_⟩
  have hnext : pump.check.phase = if n.toNat ≤ us.length then .ended else .fetching := by
    simp [Pump.check, h.willing, atLimit, h.limit, h.taken]
  by_cases full : n.toNat ≤ us.length
  · rw [if_pos full] at hnext
    simp only [InRound, hnext, hasEnded, decide_true, Bool.not_true]
    exact ⟨deeds, rfl, Nat.le_antisymm hround.length_le full, hround⟩
  · rw [if_neg full] at hnext
    simp only [InRound, hnext, hasEnded, reduceCtorEq, decide_false, Bool.not_false]
    exact ⟨deeds, rfl, Nat.lt_of_not_le full, hround⟩

theorem fetched_unit (h : pump.Takes n us deeds) (phase : pump.phase = .fetching)
    (u : MediaUnit) :
    (pump.fetched (.unit u)).Takes n (us ++ [u]) (deeds ++ [.fetched (.unit u)]) := by
  have hround := h.round
  simp only [InRound, phase] at hround
  obtain ⟨before, rfl, left, hround⟩ := hround
  refine ⟨h.limit, h.willing, h.honest.loop (by simp [phase]) rfl, ?_, ?_, ?_⟩
  · simp [fetched, h.taken]
  · simp [fetched, PumpStats.countUnit, h.units]
  · refine inRound_dispatch ⟨us, before, [], [], rfl, left, hround, rfl, .nil, ?_⟩ rfl
    simp

theorem fetched_idle (h : pump.Takes n us deeds) (phase : pump.phase = .fetching)
    {r : Except Fault (Option MediaUnit)} (hr : ∀ u, r ≠ .ok (some u)) :
    (pump.fetched (.ofServer r)).Takes n us (deeds ++ [.fetched (.ofServer r)]) := by
  have hround := h.round
  simp only [InRound, phase] at hround
  obtain ⟨before, rfl, left, hround⟩ := hround
  have hidle {answer : FetchAnswer} (hu : ∀ u, answer ≠ .unit u) :
      Rounds n.toNat pump.sinks us (before ++ [.checked true] ++ [.fetched answer]) := by
    rw [List.append_assoc]
    exact .idle hround left answer hu
  match r with
  | .ok (some u) => exact absurd rfl (hr u)
  | .ok none =>
      exact ⟨h.limit, h.willing, h.honest.loop (by simp [phase]) rfl, h.taken, h.units,
        hidle nofun⟩
  | .error _ =>
      exact ⟨h.limit, h.willing, h.honest.loop (by simp [phase]) rfl, h.taken, h.units,
        hidle nofun⟩

theorem offered (h : pump.Takes n us deeds) (phase : pump.phase = .offering u sink rest)
    (taken : Bool) :
    (pump.offered u rest taken).Takes n us (deeds ++ [.offered sink u taken]) := by
  have hround := h.round
  simp only [InRound, phase] at hround
  obtain ⟨earlier, before, seen, offers, hus, left, hrounds, hsinks, hoffers, rfl⟩ := hround
  refine ⟨h.limit, h.willing, h.honest.loop (by simp [phase]) rfl, h.taken,
    (pump.units_offered u rest taken).trans h.units, inRound_dispatch ?_ rfl⟩
  refine ⟨earlier, before, seen ++ [sink], offers ++ [.offered sink u taken], hus, left, hrounds,
    ?_, hoffers.concat sink taken, ?_⟩
  · rw [List.append_assoc]
    exact hsinks
  · simp

theorem released (h : pump.Takes n us deeds) (phase : pump.phase = .releasing u) (taken : Bool)
    (fault : Option Fault) :
    (pump.released taken).Takes n us (deeds ++ [.released u fault]) := by
  have hround := h.round
  simp only [InRound, phase] at hround
  obtain ⟨earlier, before, seen, offers, rfl, left, hrounds, hsinks, hoffers, rfl⟩ := hround
  rw [List.append_nil] at hsinks
  subst hsinks
  have hbecomes := released_becomes phase taken
  have hworker := worker_released pump taken
  have hphase : (pump.released taken).phase = .checking := rfl
  refine ⟨hbecomes.limit.trans h.limit, (congrArg _ hworker).trans h.willing,
    h.honest.loop (by simp [phase]) hworker, (pump.taken_released taken).trans h.taken,
    (pump.units_released taken).trans h.units, ?_⟩
  simp only [InRound, hphase, hbecomes.sinks]
  have hunit := Rounds.unit hrounds left u hoffers fault
  simpa using hunit

/-- How the owner treats a pump does not move it on. -/
theorem handled (h : pump.Takes n us deeds) (hh : pump.Handled pump')
    (hw : pump'.worker.stopRequested = pump.worker.stopRequested) : pump'.Takes n us deeds := by
  have heq := hh.eq
  have hround : pump'.InRound n.toNat us deeds := by
    rw [heq]
    exact h.round
  refine ⟨hh.becomes.limit.trans h.limit, hw.trans h.willing, hh.honest h.honest, ?_, ?_, hround⟩
  · rw [heq]
    exact h.taken
  · rw [heq]
    exact h.units

/-- The units taken are those fetched. -/
theorem fetched (h : pump.Takes n us deeds) : deeds.filterMap PumpDeed.fetched? = us := by
  have hround := h.round
  simp only [InRound] at hround
  split at hround
  · exact hround.fetched
  · obtain ⟨_, rfl, _, hrounds⟩ := hround
    simp [PumpDeed.fetched?, hrounds.fetched]
  · exact hround.fetched
  · exact hround.fetched
  · obtain ⟨_, rfl, _, hrounds⟩ := hround
    simp [PumpDeed.fetched?, hrounds.fetched]

theorem exact (h : pump.Takes n us deeds) (he : pump.hasEnded) :
    Exact n.toNat pump.sinks deeds := by
  have phase : pump.phase = .ended := by simpa [hasEnded] using he
  have hround := h.round
  simp only [InRound, phase] at hround
  obtain ⟨before, rfl, full, hrounds⟩ := hround
  exact hrounds.exact full

end Takes
end Pump
end CameraPipeline
