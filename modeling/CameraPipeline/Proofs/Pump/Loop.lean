import CameraPipeline.Proofs.Plant.Rounds

/-!
The loop of a pump against any server and any sinks. A run is a list of events: the steps of the
loop, each with the answer that it got, and the moments at which the stop flag goes up. What the
loop calls is told by what its fetches answered: each unit goes to every sink in turn and back to
the server before the next fetch. The counters tell how often each answer was given.
-/

namespace CameraPipeline

/-- What may happen to a pump: its stop flag goes up, or its loop takes a step. -/
inductive PumpEvent where
  | raise
  | did (deed : PumpDeed)
  deriving DecidableEq

/-- A call of the loop. What a fetch has answered decides what is called next; what the other calls
have answered does not. -/
inductive PumpCall where
  | fetch (answer : FetchAnswer)
  | offer (sink : SinkId) (u : MediaUnit)
  | release (u : MediaUnit)
  deriving DecidableEq

/-- What is called for a fetch, with its answer. -/
def FetchAnswer.round (sinks : List SinkId) : FetchAnswer → List PumpCall
  | .unit u => .fetch (.unit u) :: (sinks.map (PumpCall.offer · u) ++ [.release u])
  | .timeout => [.fetch .timeout]
  | .eof => [.fetch .eof]
  | .failed fault => [.fetch (.failed fault)]

def FetchAnswer.isFailed : FetchAnswer → Bool
  | .failed _ => true
  | .unit _ | .timeout | .eof => false

/-- What is still to be called for the unit in hand. -/
def PumpPhase.owed : PumpPhase → List PumpCall
  | .offering u sink rest => (sink :: rest).map (PumpCall.offer · u) ++ [.release u]
  | .releasing u => [.release u]
  | .checking | .fetching | .ended => []

namespace PumpDeed

def call? : PumpDeed → Option PumpCall
  | .checked _ => none
  | .fetched answer => some (.fetch answer)
  | .offered sink u _ => some (.offer sink u)
  | .released u _ => some (.release u)

def answer? : PumpDeed → Option FetchAnswer
  | .fetched answer => some answer
  | .checked _ | .offered _ _ _ | .released _ _ => none

def isRefusal : PumpDeed → Bool
  | .offered _ _ taken => !taken
  | .checked _ | .fetched _ | .released _ _ => false

/-- The unit could not be handed back. -/
def isLoss : PumpDeed → Bool
  | .released _ fault => fault.isSome
  | .checked _ | .fetched _ | .offered _ _ _ => false

end PumpDeed

namespace PumpEvent

def deed? : PumpEvent → Option PumpDeed
  | .raise => none
  | .did deed => some deed

def deeds (events : List PumpEvent) : List PumpDeed := events.filterMap deed?

def calls (events : List PumpEvent) : List PumpCall := (deeds events).filterMap PumpDeed.call?

/-- What the fetches have answered, in order. -/
def answers (events : List PumpEvent) : List FetchAnswer :=
  (deeds events).filterMap PumpDeed.answer?

def units (events : List PumpEvent) : List MediaUnit :=
  (deeds events).filterMap PumpDeed.fetched?

/-- A check of the loop came after the flag had gone up. -/
def Seen (events : List PumpEvent) : Prop :=
  ∃ before goesOn after, events = before ++ .did (.checked goesOn) :: after ∧ .raise ∈ before

end PumpEvent

namespace Pump

/-- An event of a pump. The server and the sinks answer as they like. -/
inductive Meets (p : Pump) : PumpEvent → Pump → Prop
  | raise : Meets p .raise { p with worker := p.worker.requestStop }
  | checks (phase : p.phase = .checking) : Meets p (.did (.checked !p.check.hasEnded)) p.check
  | fetches (phase : p.phase = .fetching) (answer : FetchAnswer) :
      Meets p (.did (.fetched answer)) (p.fetched answer)
  | offers {u : MediaUnit} {sink : SinkId} {rest : List SinkId}
      (phase : p.phase = .offering u sink rest) (taken : Bool) :
      Meets p (.did (.offered sink u taken)) (p.offered u rest taken)
  | releases {u : MediaUnit} (phase : p.phase = .releasing u) (fault : Option Fault) :
      Meets p (.did (.released u fault)) (p.released fault.isNone)

inductive Runs : Pump → List PumpEvent → Pump → Prop
  | nil (p : Pump) : Runs p [] p
  | cons {p q r : Pump} {e : PumpEvent} {events : List PumpEvent} (h : p.Meets e q)
      (rest : Runs q events r) : Runs p (e :: events) r

/-- How a pump with these sinks and this limit stands after the events. -/
structure Accounted (sinks : List SinkId) (limit : Option UInt32) (events : List PumpEvent)
    (p : Pump) : Prop where
  wired : p.sinks = sinks
  bounded : p.limit = limit
  raised : p.worker.stopRequested = true ↔ .raise ∈ events
  taken : p.taken = (PumpEvent.units events).length
  /-- The loop has called what its fetches ask for, but for what it still owes. -/
  traffic : PumpEvent.calls events ++ p.phase.owed =
    (PumpEvent.answers events).flatMap (FetchAnswer.round sinks)
  heeds : p.phase ≠ .ended → ¬PumpEvent.Seen events ∧ .eof ∉ PumpEvent.answers events
  left : p.phase = .fetching → ∀ n, limit = some n → p.taken < n.toNat

/-- The counters tell what happened. -/
structure Counted (events : List PumpEvent) (s : PumpStats) : Prop where
  units : s.units = (PumpEvent.units events).length
  timeouts : s.timeouts = (PumpEvent.answers events).count .timeout
  errors : s.errors = (PumpEvent.answers events).countP FetchAnswer.isFailed +
    (PumpEvent.deeds events).countP PumpDeed.isLoss
  sinkErrors : s.sinkErrors = (PumpEvent.deeds events).countP PumpDeed.isRefusal
  firstPts : s.firstPts = (PumpEvent.units events).findSome? fun u => PumpStats.stamp? u.ptsMicros

end Pump

namespace PumpEvent

variable {events : List PumpEvent} {e : PumpEvent}

theorem deeds_concat (events : List PumpEvent) (e : PumpEvent) :
    deeds (events ++ [e]) = deeds events ++ e.deed?.toList := by
  cases e <;> simp [deeds, deed?]

theorem calls_concat (events : List PumpEvent) (e : PumpEvent) :
    calls (events ++ [e]) = calls events ++ (e.deed?.bind PumpDeed.call?).toList := by
  rw [calls, deeds_concat, List.filterMap_append, calls]
  cases e with
  | raise => rfl
  | did deed => cases deed <;> rfl

theorem answers_concat (events : List PumpEvent) (e : PumpEvent) :
    answers (events ++ [e]) = answers events ++ (e.deed?.bind PumpDeed.answer?).toList := by
  rw [answers, deeds_concat, List.filterMap_append, answers]
  cases e with
  | raise => rfl
  | did deed => cases deed <;> rfl

theorem units_concat (events : List PumpEvent) (e : PumpEvent) :
    units (events ++ [e]) = units events ++ (e.deed?.bind PumpDeed.fetched?).toList := by
  rw [units, deeds_concat, List.filterMap_append, units]
  cases e with
  | raise => rfl
  | did deed =>
      cases deed with
      | fetched answer => cases answer <;> rfl
      | checked | offered | released => rfl

@[simp] theorem seen_nil : ¬Seen [] := by
  rintro ⟨before, goesOn, after, h, -⟩
  simp at h

theorem seen_concat : Seen (events ++ [e]) ↔
    Seen events ∨ (∃ goesOn, e = .did (.checked goesOn)) ∧ .raise ∈ events := by
  constructor
  · rintro ⟨before, goesOn, after, h, hraise⟩
    cases List.eq_nil_or_concat after with
    | inl hnil =>
        subst hnil
        obtain ⟨rfl, he⟩ := List.append_inj' h rfl
        exact .inr ⟨⟨goesOn, List.singleton_inj.mp he⟩, hraise⟩
    | inr hconcat =>
        obtain ⟨after, last, rfl⟩ := hconcat
        rw [List.concat_eq_append, ← List.cons_append, ← List.append_assoc] at h
        exact .inl ⟨before, goesOn, after, List.append_inj_left' h rfl, hraise⟩
  · rintro (⟨before, goesOn, after, rfl, hraise⟩ | ⟨⟨goesOn, rfl⟩, hraise⟩)
    · exact ⟨before, goesOn, after ++ [e], by simp, hraise⟩
    · exact ⟨events, goesOn, [], rfl, hraise⟩

end PumpEvent

theorem PumpPhase.owed_dispatch (u : MediaUnit) (sinks : List SinkId) :
    (PumpPhase.dispatch u sinks).owed = sinks.map (PumpCall.offer · u) ++ [.release u] := by
  cases sinks <;> rfl

theorem PumpPhase.dispatch_ne_fetching (u : MediaUnit) (sinks : List SinkId) :
    PumpPhase.dispatch u sinks ≠ .fetching := by
  cases sinks <;> simp [PumpPhase.dispatch]

/-- All time stamps but the one that means none are kept as they are. -/
theorem PumpStats.stamp?_of_lt {ptsMicros : Nat} (h : ptsMicros < UInt64.size - 1) :
    PumpStats.stamp? ptsMicros = some ptsMicros := by
  have hsmall : ptsMicros % UInt64.size = ptsMicros := Nat.mod_eq_of_lt (by omega)
  have hreal : ptsMicros ≠ UInt64.size - 1 := by omega
  simp only [stamp?, hsmall, if_neg hreal]

namespace Pump

variable {sinks : List SinkId} {limit : Option UInt32} {events before after : List PumpEvent}
  {e : PumpEvent} {p q r : Pump}

theorem Runs.append_iff : p.Runs (before ++ after) r ↔ ∃ q, p.Runs before q ∧ q.Runs after r := by
  induction before generalizing p with
  | nil =>
      refine ⟨fun h => ⟨p, .nil p, h⟩, ?_⟩
      rintro ⟨q, h, h'⟩
      cases h
      exact h'
  | cons e before ih =>
      constructor
      · rintro (_ | ⟨h, rest⟩)
        obtain ⟨q, hq, hr⟩ := ih.mp rest
        exact ⟨q, .cons h hq, hr⟩
      · rintro ⟨q, _ | ⟨h, rest⟩, hr⟩
        exact .cons h (ih.mpr ⟨q, rest, hr⟩)

theorem check_phase_of_not_ended (h : p.check.phase ≠ .ended) :
    p.check.phase = .fetching ∧ p.worker.stopRequested = false ∧ p.atLimit = false := by
  simp only [check] at h ⊢
  split at h
  · exact absurd rfl h
  · rename_i hgo
    rw [if_neg hgo]
    simpa using hgo

namespace Accounted

theorem raise (h : p.Accounted sinks limit events) :
    Accounted sinks limit (events ++ [.raise]) { p with worker := p.worker.requestStop } where
  wired := h.wired
  bounded := h.bounded
  raised := by simp [Worker.requestStop]
  taken := by simpa [PumpEvent.units_concat, PumpEvent.deed?] using h.taken
  traffic := by
    simpa [PumpEvent.calls_concat, PumpEvent.answers_concat, PumpEvent.deed?] using h.traffic
  heeds := fun hp => by
    simpa [PumpEvent.seen_concat, PumpEvent.answers_concat, PumpEvent.deed?] using h.heeds hp
  left := h.left

theorem check (h : p.Accounted sinks limit events) (phase : p.phase = .checking) :
    Accounted sinks limit (events ++ [.did (.checked !p.check.hasEnded)]) p.check where
  wired := h.wired
  bounded := h.bounded
  raised := by
    rw [show p.check.worker = p.worker from rfl, h.raised]
    simp
  taken := by
    rw [show p.check.taken = p.taken from rfl, h.taken]
    simp [PumpEvent.units_concat, PumpEvent.deed?, PumpDeed.fetched?]
  traffic := by
    have hnone : p.check.phase.owed = [] := by
      simp only [Pump.check]
      split <;> rfl
    have htraffic := h.traffic
    rw [phase] at htraffic
    rw [PumpEvent.calls_concat, PumpEvent.answers_concat, hnone]
    simpa [PumpEvent.deed?, PumpDeed.call?, PumpDeed.answer?, PumpPhase.owed] using htraffic
  heeds := fun hp => by
    obtain ⟨-, hstop, -⟩ := check_phase_of_not_ended hp
    obtain ⟨hseen, heof⟩ := h.heeds (by simp [phase])
    have hraise : .raise ∉ events := fun hmem => by simp [h.raised.mpr hmem] at hstop
    rw [PumpEvent.seen_concat]
    refine ⟨by simp [hseen, hraise], ?_⟩
    simpa [PumpEvent.answers_concat, PumpEvent.deed?, PumpDeed.answer?] using heof
  left := fun hp n hn => by
    have hne : p.check.phase ≠ .ended := by simp [hp]
    obtain ⟨-, -, hlimit⟩ := check_phase_of_not_ended hne
    have hlt : p.taken < n.toNat := by simpa [atLimit, h.bounded, hn] using hlimit
    exact hlt

/-- What a step other than a check does, given what it calls and what is still owed after it. -/
theorem acts (h : p.Accounted sinks limit events) (running : p.phase ≠ .ended)
    (hb : p.Becomes q) (hw : q.worker = p.worker) {deed : PumpDeed}
    (hne : ∀ goesOn, deed ≠ .checked goesOn)
    (htaken : q.taken = p.taken + deed.fetched?.toList.length)
    (howed : deed.call?.toList ++ q.phase.owed =
      p.phase.owed ++ deed.answer?.toList.flatMap (FetchAnswer.round sinks))
    (heof : deed.answer? = some .eof → q.phase = .ended) (hfetching : q.phase ≠ .fetching) :
    q.Accounted sinks limit (events ++ [.did deed]) where
  wired := hb.sinks.trans h.wired
  bounded := hb.limit.trans h.bounded
  raised := by
    rw [hw, h.raised]
    simp
  taken := by
    rw [htaken, h.taken, PumpEvent.units_concat, List.length_append]
    rfl
  traffic := by
    rw [PumpEvent.calls_concat, PumpEvent.answers_concat, List.flatMap_append, ← h.traffic,
      List.append_assoc, List.append_assoc]
    exact congrArg _ howed
  heeds := fun hp => by
    obtain ⟨hseen, hnone⟩ := h.heeds running
    rw [PumpEvent.seen_concat, PumpEvent.answers_concat]
    refine ⟨by simp [hseen, hne], fun hmem => ?_⟩
    cases List.mem_append.mp hmem with
    | inl hmem => exact hnone hmem
    | inr hmem => exact hp (heof (Option.mem_toList.mp hmem))
  left := fun hp => absurd hp hfetching

theorem fetch (h : p.Accounted sinks limit events) (phase : p.phase = .fetching)
    (answer : FetchAnswer) :
    Accounted sinks limit (events ++ [.did (.fetched answer)]) (p.fetched answer) := by
  refine h.acts (by simp [phase]) (fetched_becomes phase answer) (worker_fetched p answer)
    (by simp) ?_ ?_ ?_ ?_
  · cases answer <;> rfl
  · rw [phase]
    cases answer with
    | unit u =>
        simp only [Pump.fetched, PumpPhase.owed_dispatch, h.wired]
        simp [PumpPhase.owed, PumpDeed.call?, PumpDeed.answer?, FetchAnswer.round]
    | timeout | eof | failed => rfl
  · rintro ⟨⟩
    rfl
  · cases answer with
    | unit u => exact PumpPhase.dispatch_ne_fetching u p.sinks
    | timeout | eof | failed => simp [Pump.fetched]

theorem offer {u : MediaUnit} {sink : SinkId} {rest : List SinkId}
    (h : p.Accounted sinks limit events) (phase : p.phase = .offering u sink rest)
    (taken : Bool) :
    Accounted sinks limit (events ++ [.did (.offered sink u taken)]) (p.offered u rest taken) := by
  refine h.acts (by simp [phase]) (offered_becomes phase taken) rfl (by simp) rfl ?_
    (by simp [PumpDeed.answer?]) (PumpPhase.dispatch_ne_fetching u rest)
  rw [phase, show (p.offered u rest taken).phase = .dispatch u rest from rfl,
    PumpPhase.owed_dispatch]
  simp [PumpPhase.owed, PumpDeed.call?, PumpDeed.answer?]

theorem release {u : MediaUnit} (h : p.Accounted sinks limit events)
    (phase : p.phase = .releasing u) (fault : Option Fault) :
    Accounted sinks limit (events ++ [.did (.released u fault)]) (p.released fault.isNone) := by
  refine h.acts (by simp [phase]) (released_becomes phase _) (worker_released p _) (by simp)
    (taken_released p _) ?_ (by simp [PumpDeed.answer?]) (by simp [released])
  rw [phase]
  rfl

end Accounted

/-- One event of the loop. -/
theorem Accounted.meets (h : p.Accounted sinks limit events) (he : p.Meets e q) :
    q.Accounted sinks limit (events ++ [e]) := by
  cases he with
  | raise => exact h.raise
  | checks phase => exact h.check phase
  | fetches phase answer => exact h.fetch phase answer
  | offers phase taken => exact h.offer phase taken
  | releases phase fault => exact h.release phase fault

theorem Accounted.runs (h : p.Accounted sinks limit before) (hr : p.Runs events q) :
    q.Accounted sinks limit (before ++ events) := by
  induction hr generalizing before with
  | nil => simpa using h
  | cons he _ ih => simpa using ih (h.meets he)

/-- Handing a unit back counts its failure; the rest is the measurement of the rate. -/
theorem stats_released (p : Pump) (taken : Bool) :
    (p.released taken).stats =
      { (if taken then p.stats else p.stats.countError) with
        rateMeasured := (p.released taken).stats.rateMeasured } := by
  simp only [released, tick]
  split <;> rfl

namespace Counted

theorem of_rate {s : PumpStats} (h : Counted events s) (rateMeasured : Bool) :
    Counted events { s with rateMeasured } :=
  ⟨h.units, h.timeouts, h.errors, h.sinkErrors, h.firstPts⟩

/-- One more deed, given how often it adds to each counter. -/
theorem concat {s s' : PumpStats} {deed : PumpDeed} (h : Counted events s)
    (units : s'.units = s.units + deed.fetched?.toList.length)
    (timeouts : s'.timeouts = s.timeouts + deed.answer?.toList.count .timeout)
    (errors : s'.errors =
      s.errors + (deed.answer?.toList.countP FetchAnswer.isFailed + [deed].countP PumpDeed.isLoss))
    (sinkErrors : s'.sinkErrors = s.sinkErrors + [deed].countP PumpDeed.isRefusal)
    (firstPts : s'.firstPts =
      s.firstPts.or (deed.fetched?.bind fun u => PumpStats.stamp? u.ptsMicros)) :
    Counted (events ++ [.did deed]) s' where
  units := by
    rw [units, h.units, PumpEvent.units_concat, List.length_append]
    rfl
  timeouts := by
    rw [timeouts, h.timeouts, PumpEvent.answers_concat, List.count_append]
    rfl
  errors := by
    rw [errors, h.errors, PumpEvent.answers_concat, PumpEvent.deeds_concat, List.countP_append,
      List.countP_append]
    exact Nat.add_add_add_comm _ _ _ _
  sinkErrors := by
    rw [sinkErrors, h.sinkErrors, PumpEvent.deeds_concat, List.countP_append]
    rfl
  firstPts := by
    rw [firstPts, h.firstPts, PumpEvent.units_concat, List.findSome?_append]
    refine congrArg _ ?_
    cases hu : deed.fetched? <;> simp [PumpEvent.deed?, hu]

/-- A deed that no counter counts. -/
theorem quiet {s : PumpStats} {deed : PumpDeed} (h : Counted events s)
    (answer : deed.answer? = none) (unit : deed.fetched? = none) (refusal : deed.isRefusal = false)
    (loss : deed.isLoss = false) : Counted (events ++ [.did deed]) s :=
  h.concat (by simp [unit]) (by simp [answer]) (by simp [answer, loss]) (by simp [refusal])
    (by simp [unit])

theorem fetch (h : Counted events p.stats) (answer : FetchAnswer) :
    Counted (events ++ [.did (.fetched answer)]) (p.fetched answer).stats := by
  cases answer with
  | unit u => exact h.concat rfl rfl rfl rfl (Option.orElse_eq_or ..)
  | timeout | eof | failed => exact h.concat rfl rfl rfl rfl Option.or_none.symm

theorem offer (h : Counted events p.stats) (sink : SinkId) (u : MediaUnit) (rest : List SinkId)
    (taken : Bool) :
    Counted (events ++ [.did (.offered sink u taken)]) (p.offered u rest taken).stats := by
  cases taken with
  | true => exact h.quiet rfl rfl rfl rfl
  | false => exact h.concat rfl rfl rfl rfl Option.or_none.symm

theorem release (h : Counted events p.stats) (u : MediaUnit) (fault : Option Fault) :
    Counted (events ++ [.did (.released u fault)]) (p.released fault.isNone).stats := by
  rw [stats_released]
  cases fault with
  | none => exact (h.quiet rfl rfl rfl rfl).of_rate _
  | some fault => exact Counted.of_rate (h.concat rfl rfl rfl rfl Option.or_none.symm) _

theorem raise {s : PumpStats} (h : Counted events s) : Counted (events ++ [.raise]) s := by
  have hdeeds : PumpEvent.deeds (events ++ [.raise]) = PumpEvent.deeds events := by
    simp [PumpEvent.deeds_concat, PumpEvent.deed?]
  obtain ⟨hunits, htimeouts, herrors, hsinkErrors, hfirst⟩ := h
  constructor <;> simpa only [PumpEvent.units, PumpEvent.answers, hdeeds]

theorem meets (h : Counted events p.stats) (he : p.Meets e q) :
    Counted (events ++ [e]) q.stats := by
  cases he with
  | raise => exact h.raise
  | checks phase => exact h.quiet rfl rfl rfl rfl
  | fetches phase answer => exact h.fetch answer
  | offers phase taken => exact h.offer _ _ _ taken
  | releases phase fault => exact h.release _ fault

theorem runs (h : Counted before p.stats) (hr : p.Runs events q) :
    Counted (before ++ events) q.stats := by
  induction hr generalizing before with
  | nil => simpa using h
  | cons he _ ih => simpa using ih (h.meets he)

end Counted

variable {tuning : PumpTuning} {stream : Stream} {source : Handle}

theorem accounted_ofTuning (tuning : PumpTuning) (stream : Stream) (source : Handle)
    (sinks : List SinkId) (limit : Option UInt32) :
    (ofTuning tuning stream source sinks limit).Accounted sinks limit [] where
  wired := rfl
  bounded := rfl
  raised := by simp [ofTuning]
  taken := rfl
  traffic := rfl
  heeds := fun _ => ⟨PumpEvent.seen_nil, List.not_mem_nil⟩
  left := by simp [ofTuning]

theorem counted_ofTuning (tuning : PumpTuning) (stream : Stream) (source : Handle)
    (sinks : List SinkId) (limit : Option UInt32) :
    Counted [] (ofTuning tuning stream source sinks limit).stats :=
  ⟨rfl, rfl, rfl, rfl, rfl⟩

/-- Nothing is owed between two iterations. -/
theorem owed_of_idle (h : p.isBusy = false) : p.phase.owed = [] := by
  simp only [isBusy] at h
  split at h
  · rename_i phase
    rw [phase]
    rfl
  · rename_i phase
    rw [phase]
    rfl
  · cases h
  · cases h
  · cases h

theorem check_goesOn (h : p.Accounted sinks limit events) :
    (!p.check.hasEnded) = true ↔ .raise ∉ events ∧
      ∀ n, limit = some n → (PumpEvent.units events).length < n.toNat := by
  have hlimit : p.atLimit = false ↔
      ∀ n, limit = some n → (PumpEvent.units events).length < n.toNat := by
    rw [atLimit, h.bounded, h.taken]
    cases limit <;> simp
  rw [← hlimit, ← h.raised]
  by_cases hstop : p.worker.stopRequested || p.atLimit
  · have hstop' := Bool.or_eq_true_iff.mp hstop
    simp only [hasEnded, check, hstop, if_true, decide_true, Bool.not_true, Bool.false_eq_true,
      false_iff]
    rintro ⟨hraise, hleft⟩
    cases hstop' with
    | inl h => exact hraise h
    | inr h => simp [hleft] at h
  · have hgo : p.worker.stopRequested = false ∧ p.atLimit = false := by simpa using hstop
    simp [hasEnded, check, hgo]

/-- A pump accounts for every run of its loop, whatever it is answered and whenever its flag goes
up. Each unit that it has fetched is offered to every sink in turn, then handed back, before the
next fetch; in the middle of an iteration a part of this is still to come. It fetches no more after
a check that found the flag up, after the end of the stream and beyond its limit. A check goes on
just if the flag is down and the limit not reached. The counters tell what was answered. They are
numbers without a bound here, as they are in a run of fewer units than its count can hold. -/
theorem runs_accounted (h : (ofTuning tuning stream source sinks limit).Runs events q) :
    PumpEvent.calls events <+:
      (PumpEvent.answers events).flatMap (FetchAnswer.round sinks) ∧
    (q.isBusy = false → PumpEvent.calls events =
      (PumpEvent.answers events).flatMap (FetchAnswer.round sinks)) ∧
    (∀ before answer after, events = before ++ .did (.fetched answer) :: after →
      ¬PumpEvent.Seen before ∧ .eof ∉ PumpEvent.answers before ∧
        ∀ n, limit = some n → (PumpEvent.units before).length < n.toNat) ∧
    (∀ before goesOn after, events = before ++ .did (.checked goesOn) :: after →
      (goesOn = true ↔ .raise ∉ before ∧
        ∀ n, limit = some n → (PumpEvent.units before).length < n.toNat)) ∧
    Counted events q.stats ∧
    ∀ u us, PumpEvent.units events = u :: us → u.ptsMicros < UInt64.size - 1 →
      q.stats.firstPts = some u.ptsMicros := by
  have hend := (accounted_ofTuning tuning stream source sinks limit).runs h
  have hcounts := (counted_ofTuning tuning stream source sinks limit).runs h
  rw [List.nil_append] at hend hcounts
  have hwhen {before after : List PumpEvent} {e : PumpEvent}
      (hsplit : events = before ++ e :: after) :
      ∃ p r : Pump, p.Accounted sinks limit before ∧ p.Meets e r := by
    subst hsplit
    obtain ⟨p, hp, _ | ⟨he, _⟩⟩ := Runs.append_iff.mp h
    have hbefore := (accounted_ofTuning tuning stream source sinks limit).runs hp
    exact ⟨p, _, hbefore, he⟩
  refine ⟨⟨_, hend.traffic⟩, fun hidle => ?_, ?_, ?_, hcounts, ?_⟩
  · have htraffic := hend.traffic
    rwa [owed_of_idle hidle, List.append_nil] at htraffic
  · intro before answer after hsplit
    obtain ⟨p, r, hp, he⟩ := hwhen hsplit
    cases he with
    | fetches phase =>
        obtain ⟨hseen, heof⟩ := hp.heeds (by simp [phase])
        exact ⟨hseen, heof, fun n hn => hp.taken ▸ hp.left phase n hn⟩
  · intro before goesOn after hsplit
    obtain ⟨p, r, hp, he⟩ := hwhen hsplit
    cases he with
    | checks phase => exact check_goesOn hp
  · intro u us hunits hpts
    simp [hcounts.firstPts, hunits, PumpStats.stamp?_of_lt hpts]

/-- A loop that meets everything but the end of the stream before it is stopped. -/
def interrupted (u : MediaUnit) : List PumpEvent :=
  [.did (.checked true), .did (.fetched .timeout), .did (.checked true),
    .did (.fetched (.failed .injected)), .did (.checked true), .did (.fetched (.unit u)),
    .did (.offered 0 u true), .raise, .did (.offered 1 u false),
    .did (.released u (some .injected)), .did (.checked false)]

theorem runs_accounted_interrupted :
    let u : MediaUnit := ⟨⟨.venc, 0⟩, 0, 40000, .keyFrame, 0, []⟩
    ∃ q, (ofTuning {} .main ⟨.venc, 0⟩ [0, 1] none).Runs (interrupted u) q ∧
      PumpEvent.calls (interrupted u) =
        [.fetch .timeout, .fetch (.failed .injected), .fetch (.unit u), .offer 0 u, .offer 1 u,
          .release u] ∧
      (q.stats.units, q.stats.timeouts, q.stats.errors, q.stats.sinkErrors) = (1, 1, 2, 1) ∧
      q.stats.firstPts = some 40000 := by
  intro u
  have hrun : ∃ q, (ofTuning {} .main ⟨.venc, 0⟩ [0, 1] none).Runs (interrupted u) q ∧
      q.isBusy = false := by
    refine ⟨_, .cons (.checks rfl) <| .cons (.fetches rfl _) <| .cons (.checks rfl) <|
      .cons (.fetches rfl _) <| .cons (.checks rfl) <| .cons (.fetches rfl _) <|
      .cons (.offers rfl _) <| .cons .raise <| .cons (.offers rfl _) <|
      .cons (.releases rfl _) <| .cons (.checks rfl) (.nil _), rfl⟩
  obtain ⟨q, hq, hidle⟩ := hrun
  obtain ⟨-, hcalls, -, -, hcounts, hfirst⟩ := runs_accounted hq
  refine ⟨q, hq, (hcalls hidle).trans (by decide), ?_, hfirst u [] rfl (by decide)⟩
  rw [hcounts.units, hcounts.timeouts, hcounts.errors, hcounts.sinkErrors]
  decide

end Pump

/-- A step of a pump in a plant is a step of its loop, with what the server or the sink answered. -/
theorem Plant.advance_meets {p : Plant} {id : PumpId} {pump : Pump} (hp : p.pump? id = some pump) :
    p.advance id = p ∨ ∃ deed pump', pump.Meets (.did deed) pump' ∧
      (p.advance id).pump? id = some pump' ∧
      (p.advance id).journal = p.journal ++ [.pumped id deed] := by
  have hself {q : Plant} (hq : q.pumps = p.pumps) (pump' : Pump) :
      (q.setPump id pump').pump? id = some pump' :=
    pump?_setPump_self (show q.pump? id = some pump by rw [pump?, hq, ← pump?, hp]) pump'
  simp only [advance, hp]
  cases phase : pump.phase with
  | checking =>
      dsimp only
      split
      · exact .inl rfl
      · exact .inr ⟨_, _, .checks phase, hself rfl _, rfl⟩
  | fetching =>
      dsimp only
      split
      · exact .inl rfl
      · exact .inr ⟨_, _, .fetches phase _, hself rfl _, rfl⟩
  | offering u sink rest =>
      dsimp only
      split
      · exact .inl rfl
      · rename_i hoffer
        have hframe := offer_frame hoffer
        exact .inr ⟨_, _, .offers phase _, hself hframe.2.1 _,
          congrArg (· ++ [_]) hframe.2.2.1⟩
  | releasing u =>
      dsimp only
      split
      · exact .inr ⟨_, _, .releases phase none, hself rfl _, rfl⟩
      · rename_i fault _ _
        exact .inr ⟨_, _, .releases phase (some fault), hself rfl _, rfl⟩
  | ended => exact .inl rfl

end CameraPipeline
