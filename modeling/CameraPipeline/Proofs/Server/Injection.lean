import Mathlib.Data.List.Induction
import CameraPipeline.Proofs.Server.Outstanding
import CameraPipeline.Proofs.Server.Run
import CameraPipeline.Proofs.Server.Strike

/-!
Injected failures over a run. A rule is to fail the call that is its last: the `n`th one that it
covers since it was registered. The rules are asked in the order of their registration and the
first one to run out ends the count, so a rule does not count the calls that an earlier one fails.
What each rule has counted is therefore told by the calls that the rules before it let pass. As
long as no call that fails one rule is still to be counted by a later one, that is every call.
-/

namespace CameraPipeline
namespace ServerEvent

open FailureRule (Attempt)

/-- The call that an event puts to the failure rules. The second look of a fetch is not put to
them. -/
def call? : ServerEvent → Option Attempt
  | .ask r _ => some (r.operation, r.kind)
  | .giveBack h _ => some (.release, h.kind)
  | .probe h => some (.fetch, h.kind)
  | .produce _ | .inject _ | .clearLog => none

def calls (events : List ServerEvent) : List Attempt := events.filterMap call?

def rule? : ServerEvent → Option FailureRule
  | .inject rule => some rule
  | .ask _ _ | .giveBack _ _ | .probe _ | .produce _ | .clearLog => none

/-- The rules as they are to be: each registered one has counted all the calls that it covers. -/
def due : List ServerEvent → List FailureRule
  | [] => []
  | .inject rule :: events => rule.left (rule.matching (calls events)) ++ due events
  | .ask _ _ :: events | .giveBack _ _ :: events | .probe _ :: events | .produce _ :: events
  | .clearLog :: events => due events

/-- No call that is to fail a rule is also to be counted by one that was registered later. -/
def Untangled (events : List ServerEvent) : Prop :=
  ∀ before e after c, events = before ++ e :: after → e.call? = some c →
    FailureRule.Clear c (due before)

variable {events before : List ServerEvent} {e : ServerEvent} {c : Attempt} {rule : FailureRule}

theorem calls_concat (events : List ServerEvent) (e : ServerEvent) :
    calls (events ++ [e]) = calls events ++ e.call?.toList := by
  cases h : e.call? <;> simp [calls, h]

theorem rule?_of_call (h : e.call? = some c) : e.rule? = none := by
  cases e with
  | inject => cases h
  | ask | giveBack | probe | produce | clearLog => rfl

theorem call?_of_rule (h : e.rule? = some rule) : e.call? = none := by
  cases e with
  | inject => rfl
  | ask | giveBack | probe | produce | clearLog => cases h

theorem due_cons (e : ServerEvent) (events : List ServerEvent) :
    due (e :: events) =
      (e.rule?.toList.flatMap fun rule => rule.left (rule.matching (calls events))) ++
        due events := by
  cases e with
  | inject => simp [due, rule?]
  | ask | giveBack | probe | produce | clearLog => rfl

theorem due_concat_of_call (events : List ServerEvent) (h : e.call? = some c) :
    due (events ++ [e]) = FailureRule.tick c (due events) := by
  induction events with
  | nil =>
      cases e with
      | ask | giveBack | probe => rfl
      | produce | inject | clearLog => cases h
  | cons first events ih =>
      rw [List.cons_append, due_cons, due_cons, ih, FailureRule.tick_append, calls_concat, h]
      cases first.rule? with
      | none => rfl
      | some rule => simp [FailureRule.tick_left, FailureRule.matching]

theorem due_concat_of_none (events : List ServerEvent) (h : e.call? = none) :
    due (events ++ [e]) = due events ++ e.rule?.toList := by
  induction events with
  | nil =>
      rw [List.nil_append, due_cons]
      cases e.rule? with
      | none => rfl
      | some rule => simp [due, FailureRule.matching, calls]
  | cons first events ih =>
      rw [List.cons_append, due_cons, due_cons, ih, calls_concat, h, List.append_assoc]
      simp

/-- A rule was registered first of all or later. -/
theorem exists_split_cons {P : List ServerEvent → FailureRule → List ServerEvent → Prop} :
    (∃ before rule since, e :: events = before ++ .inject rule :: since ∧ P before rule since) ↔
      (∃ rule, e.rule? = some rule ∧ P [] rule events) ∨
      ∃ before rule since, events = before ++ .inject rule :: since ∧
        P (e :: before) rule since := by
  constructor
  · rintro ⟨before, rule, since, hsplit, h⟩
    cases before with
    | nil =>
        obtain ⟨rfl, rfl⟩ := List.cons.inj hsplit
        exact .inl ⟨rule, rfl, h⟩
    | cons first before =>
        obtain ⟨rfl, rfl⟩ := List.cons.inj hsplit
        exact .inr ⟨before, rule, since, rfl, h⟩
  · rintro (⟨rule, hr, h⟩ | ⟨before, rule, since, rfl, h⟩)
    · cases e with
      | inject rule' =>
          obtain rfl := Option.some.inj hr
          exact ⟨[], rule', events, rfl, h⟩
      | ask | giveBack | probe | produce | clearLog => cases hr
    · exact ⟨e :: before, rule, since, rfl, h⟩

/-- A rule that is to be there is what the calls since its registration have left of it. -/
theorem mem_due {q : FailureRule} : q ∈ due events ↔ ∃ before rule since,
    events = before ++ .inject rule :: since ∧
      q ∈ rule.left (rule.matching (calls since)) := by
  induction events with
  | nil => simp [due]
  | cons e events ih =>
      rw [due_cons, List.mem_append, exists_split_cons, ih]
      simp [List.mem_flatMap]

@[simp] theorem untangled_nil : Untangled [] := by
  intro before e after c h
  simp at h

theorem untangled_concat : Untangled (events ++ [e]) ↔
    Untangled events ∧ ∀ c, e.call? = some c → FailureRule.Clear c (due events) := by
  constructor
  · intro h
    exact ⟨fun before e' after c he => h before e' (after ++ [e]) c (by simp [he]),
      fun c => h events e [] c rfl⟩
  · rintro ⟨hevents, hlast⟩ before e' after c he hc
    cases List.eq_nil_or_concat after with
    | inl hnil =>
        subst hnil
        obtain ⟨rfl, hee⟩ := List.append_inj' he rfl
        obtain rfl := List.singleton_inj.mp hee
        exact hlast c hc
    | inr hconcat =>
        obtain ⟨after, e'', rfl⟩ := hconcat
        rw [List.concat_eq_append, ← List.cons_append, ← List.append_assoc] at he
        exact hevents before e' after c (List.append_inj_left' he rfl) hc

theorem Untangled.concat (h : Untangled events)
    (he : ∀ c, e.call? = some c → FailureRule.Clear c (due events)) : Untangled (events ++ [e]) :=
  untangled_concat.mpr ⟨h, he⟩

end ServerEvent

namespace Server

open FailureRule (Attempt Fails FailsAfter passed struck)
open ServerEvent (calls due Untangled)

/-- The fault that a call has answered. -/
def refusal? {α : Type} : Except Fault α → Option Fault
  | .error fault => some fault
  | .ok _ => none

/-- The fault that an event is answered with. -/
def fault? (s : Server) : ServerEvent → Option Fault
  | .ask r _ => refusal? (s.perform r).1
  | .giveBack h u => refusal? (s.perform (.release h u.slot)).1
  | .probe h => refusal? (s.probe h).1
  | .produce _ | .inject _ | .clearLog => none

variable {s : Server} {e : ServerEvent} {c : Attempt} {events : List ServerEvent}

theorem bind_ne_injected {α β : Type} {x : Except Fault α} {f : α → Except Fault β}
    (hx : x ≠ .error .injected) (hf : ∀ a, f a ≠ .error .injected) :
    x >>= f ≠ .error .injected := by
  cases x with
  | error fault => simpa [bind, Except.bind] using hx
  | ok a => exact hf a

/-- A check before the rest of a call, which fails with a fault of its own. -/
theorem check_ne_injected {α β : Type} {p : Prop} [Decidable p] {fault : Fault}
    {f : β → Except Fault α} {rest : Except Fault α} (h : fault ≠ .injected)
    (hrest : rest ≠ .error .injected) :
    (if p then throw fault >>= f else rest) ≠ .error .injected := by
  split
  · simpa [bind, Except.bind, throw, throwThe, MonadExceptOf.throw] using h
  · exact hrest

theorem channel_ne_injected (s : Server) (h : Handle) : s.channel h ≠ .error .injected := by
  simp only [channel]
  split <;> simp

theorem enabledChannel_ne_injected (s : Server) (h : Handle) :
    s.enabledChannel h ≠ .error .injected := by
  refine bind_ne_injected (channel_ne_injected s h) fun c => ?_
  split <;> simp [pure, Except.pure, throw, throwThe, MonadExceptOf.throw]

/-- Only a failure rule answers that a failure was injected. -/
theorem permit_ne_injected (s : Server) (r : Request) : s.permit r ≠ .error .injected := by
  have hc := channel_ne_injected s
  have he := enabledChannel_ne_injected s
  have hpure : ∀ h, (pure h : Except Fault Handle) ≠ .error .injected := by
    simp [pure, Except.pure]
  cases r with
  | create kind attr =>
      refine check_ne_injected (by simp) ?_
      split
      · exact bind_ne_injected (hc _) fun _ => hpure _
      · exact hpure _
  | setAttr k | enable k | startReceiving k | stopReceiving k =>
      exact bind_ne_injected (hc k) fun _ => hpure k
  | submit k => exact bind_ne_injected (he k) fun _ => hpure k
  | disable k =>
      exact check_ne_injected (by simp) (bind_ne_injected (hc k) fun _ => hpure k)
  | bind l =>
      exact bind_ne_injected (he _) fun _ => bind_ne_injected (he _) fun _ =>
        check_ne_injected (by simp) (hpure _)
  | unbind l => exact check_ne_injected (by simp) (hpure _)
  | release k | destroy k =>
      exact bind_ne_injected (hc k) fun _ => check_ne_injected (by simp) (hpure k)

theorem failures_meet_of_call (h : e.call? = some c) :
    (s.meet e).failures = (FailureRule.strike c.1 c.2 s.failures).2 := by
  have hperform : ∀ r, (s.perform r).2.failures =
      (FailureRule.strike r.operation r.kind s.failures).2 := by
    intro r
    cases perform_cases s r with
    | inl hcase =>
        obtain ⟨fault, hf⟩ := hcase
        rw [hf]
        rfl
    | inr hcase =>
        obtain ⟨k, -, hf⟩ := hcase
        rw [hf, carryOut_strike]
        rfl
  cases e with
  | ask r =>
      obtain rfl := Option.some.inj h
      exact hperform r
  | giveBack k u =>
      obtain rfl := Option.some.inj h
      exact hperform (.release k u.slot)
  | probe k =>
      obtain rfl := Option.some.inj h
      simp only [meet, probe]
      split
      · rfl
      · split <;> rfl
  | produce | inject | clearLog => cases h

theorem failures_meet_of_none (h : e.call? = none) :
    (s.meet e).failures = s.failures ++ e.rule?.toList := by
  cases e with
  | ask | giveBack | probe => cases h
  | inject | clearLog => simp [meet, inject, clearLog, ServerEvent.rule?]
  | produce k =>
      simp [meet, ServerEvent.rule?, failures_produce]

/-- A call is answered as injected just if it is the last one for a rule that is left. -/
theorem fault?_eq_injected_iff : s.fault? e = some .injected ↔
    ∃ c, e.call? = some c ∧ (FailureRule.strike c.1 c.2 s.failures).1 = true := by
  have hperform : ∀ r, refusal? (s.perform r).1 = some .injected ↔
      (FailureRule.strike r.operation r.kind s.failures).1 = true := by
    intro r
    have hp := permit_ne_injected s r
    have hfst : (s.strike r.operation r.kind).1 =
        (FailureRule.strike r.operation r.kind s.failures).1 := rfl
    simp only [perform, permit_strike, hfst]
    cases FailureRule.strike r.operation r.kind s.failures with
    | mk hit rules =>
        cases hit with
        | true => simp [refusal?]
        | false => cases ho : s.permit r <;> simp_all [refusal?]
  cases e with
  | ask r => simpa [fault?, ServerEvent.call?] using hperform r
  | giveBack k u =>
      have hr := hperform (.release k u.slot)
      simp only [fault?, ServerEvent.call?, Option.some.injEq, exists_eq_left']
      exact hr
  | probe k =>
      have hc := channel_ne_injected s k
      have hfst : ((s.record (.fetch k)).strike .fetch k.kind).1 =
        (FailureRule.strike .fetch k.kind s.failures).1 := rfl
      have hchannel : ((s.record (.fetch k)).strike .fetch k.kind).2.channel k = s.channel k := rfl
      simp only [fault?, ServerEvent.call?, Option.some.injEq, exists_eq_left', probe, hfst,
        hchannel]
      cases FailureRule.strike .fetch k.kind s.failures with
      | mk hit rules =>
          cases hit with
          | true => simp [refusal?]
          | false => cases ho : s.channel k <;> simp_all [refusal?]
  | produce | inject | clearLog => simp [fault?, ServerEvent.call?]

/-- The events of a run that were answered as injected. -/
def injected (s : Server) : List ServerEvent → List ServerEvent
  | [] => []
  | e :: events =>
    let later := (s.meet e).injected events
    if s.fault? e = some .injected then e :: later else later

/-- The rules after an event and further calls: those there were, and the one it registered. -/
theorem struck_meet (s : Server) (e : ServerEvent) (events : List ServerEvent) :
    struck (s.meet e).failures (calls events) = struck s.failures (calls (e :: events)) ++
      e.rule?.toList.flatMap fun rule =>
        rule.left (rule.matching (passed s.failures (calls events))) := by
  cases hcall : e.call? with
  | some c =>
      have hrule := ServerEvent.rule?_of_call hcall
      simp [failures_meet_of_call hcall, hrule, calls, hcall, struck]
  | none =>
      have hcalls : calls (e :: events) = calls events := by simp [calls, hcall]
      rw [failures_meet_of_none hcall, hcalls]
      cases e.rule? with
      | none => simp
      | some rule =>
          have hself := FailureRule.struck_concat s.failures rule 0 (calls events)
          rw [FailureRule.left_zero, Nat.zero_add] at hself
          simpa using hself

/-- A call fails after a run just if it fails a rule that was there at the start, or one that the
run registered. -/
theorem strike_after_iff : (FailureRule.strike c.1 c.2 (s.after events).failures).1 = true ↔
    (FailureRule.strike c.1 c.2 (struck s.failures (calls events))).1 = true ∨
    ∃ before rule since, events = before ++ .inject rule :: since ∧
      Fails (s.after before).failures rule (calls since) c := by
  induction events generalizing s with
  | nil => simp [calls, struck]
  | cons e events ih =>
      rw [after_cons, ih, ServerEvent.exists_split_cons, ← or_assoc, struck_meet]
      refine or_congr_left ?_
      cases hrule : e.rule? with
      | none => simp
      | some rule =>
          have hlast := (FailureRule.strike_left rule
            (rule.matching (passed s.failures (calls events))) c).2
          have hcalls : calls (e :: events) = calls events := by
            simp [calls, ServerEvent.call?_of_rule hrule]
          rw [hcalls, FailureRule.strike_append]
          cases hhit : (FailureRule.strike c.1 c.2 (struck s.failures (calls events))).1 with
          | true => simp
          | false =>
              simp only [Bool.false_eq_true, if_false, false_or, Option.toList_some,
                List.flatMap_singleton, hlast, Option.some.injEq, exists_eq_left', after_nil]
              exact ⟨fun h => ⟨hhit, h⟩, fun h => h.last⟩

/-- The rules that are left after a run are what it has left of those there were, and of those it
registered. -/
theorem mem_failures_after {q : FailureRule} : q ∈ (s.after events).failures ↔
    q ∈ struck s.failures (calls events) ∨
    ∃ before rule since, events = before ++ .inject rule :: since ∧
      q ∈ rule.left (rule.matching (passed (s.after before).failures (calls since))) := by
  induction events generalizing s with
  | nil => simp [calls, struck]
  | cons e events ih =>
      rw [after_cons, ih, ServerEvent.exists_split_cons, ← or_assoc, struck_meet]
      simp [List.mem_flatMap]

/-- Every failure that is answered uses up one rule. -/
theorem length_failures_after (s : Server) (events : List ServerEvent) :
    (s.after events).failures.length + (s.injected events).length =
      s.failures.length + (events.filterMap ServerEvent.rule?).length := by
  induction events generalizing s with
  | nil => rfl
  | cons e events ih =>
      have hrest := ih (s.meet e)
      have hfault := fault?_eq_injected_iff (s := s) (e := e)
      rw [after_cons, injected]
      cases hcall : e.call? with
      | none =>
          have hne : s.fault? e ≠ some .injected := by simp [hfault, hcall]
          rw [failures_meet_of_none hcall, List.length_append] at hrest
          rw [if_neg hne, hrest]
          cases hrule : e.rule? with
          | none => simp [hrule]
          | some rule =>
              simp only [Option.toList_some, List.filterMap_cons_some hrule, List.length_cons,
                List.length_nil]
              omega
      | some c =>
          have hrule := ServerEvent.rule?_of_call hcall
          have hone := FailureRule.length_strike c.1 c.2 s.failures
          rw [failures_meet_of_call hcall] at hrest
          simp only [hcall, Option.some.injEq, exists_eq_left'] at hfault
          rw [List.filterMap_cons_none hrule]
          cases hhit : (FailureRule.strike c.1 c.2 s.failures).1 with
          | true =>
              rw [if_pos (hfault.mpr hhit), List.length_cons]
              rw [hhit, Bool.toNat_true] at hone
              omega
          | false =>
              rw [if_neg (by simp [hfault, hhit])]
              rw [hhit, Bool.toNat_false] at hone
              omega

theorem failures_of_untangled (payloadSize : Nat) (h : Untangled events) :
    ((fresh payloadSize).after events).failures = due events := by
  induction events using List.reverseRecOn with
  | nil => rfl
  | append_singleton events e ih =>
      obtain ⟨hevents, hlast⟩ := ServerEvent.untangled_concat.mp h
      rw [after_append, after_cons, after_nil]
      cases hcall : e.call? with
      | none => rw [failures_meet_of_none hcall, ServerEvent.due_concat_of_none _ hcall, ih hevents]
      | some c =>
          rw [failures_meet_of_call hcall, ServerEvent.due_concat_of_call _ hcall, ih hevents]
          exact FailureRule.strike_snd_eq_tick_iff.mpr (hlast c hcall)

/-- Exactly in an untangled run every rule counts all the calls that it covers. -/
theorem failures_eq_due_iff (payloadSize : Nat) (events : List ServerEvent) :
    (∀ before, before <+: events →
      ((fresh payloadSize).after before).failures = due before) ↔ Untangled events := by
  constructor
  · rintro hall before e after c rfl hcall
    have hbefore := hall before (List.prefix_append _ _)
    have hnext := hall (before ++ [e]) (by simp)
    rw [after_append, after_cons, after_nil, failures_meet_of_call hcall, hbefore,
      ServerEvent.due_concat_of_call _ hcall] at hnext
    exact FailureRule.strike_snd_eq_tick_iff.mp hnext
  · rintro h before ⟨later, rfl⟩
    refine failures_of_untangled payloadSize fun front e after c he => ?_
    exact h front e (after ++ later) c (by simp [he])

/-- In an untangled run a call fails just if it is the last one that some rule covers of those
since its registration. -/
theorem strike_of_untangled (payloadSize : Nat) (h : Untangled events) :
    (FailureRule.strike c.1 c.2 ((fresh payloadSize).after events).failures).1 = true ↔
      ∃ before rule since, events = before ++ .inject rule :: since ∧
        rule.FailsAfter (calls since) c := by
  rw [failures_of_untangled payloadSize h, FailureRule.strike_fst_iff]
  constructor
  · rintro ⟨q, hq, hlast⟩
    obtain ⟨before, rule, since, hsplit, hq⟩ := ServerEvent.mem_due.mp hq
    refine ⟨before, rule, since, hsplit, (FailureRule.strike_left rule _ c).2.mp ?_⟩
    exact FailureRule.strike_fst_iff.mpr ⟨q, hq, hlast⟩
  · rintro ⟨before, rule, since, hsplit, hlast⟩
    obtain ⟨q, hq, hq'⟩ :=
      FailureRule.strike_fst_iff.mp ((FailureRule.strike_left rule _ c).2.mpr hlast)
    exact ⟨q, ServerEvent.mem_due.mpr ⟨before, rule, since, hsplit, hq⟩, hq'⟩

/-- Failures injected over every run. A call is answered as injected just if it is the last one
for some rule, of those that the rules registered before it let pass; that rule fails no later
call, and what is left of the others has counted less than it was to count. Exactly in a run where
no call that is to fail one rule is also to be counted by a later one, each rule counts all the
calls that it covers since its registration; and then a call is answered as injected just if it is
the last of those for some rule. -/
theorem after_injects (payloadSize : Nat) (events : List ServerEvent) :
    let start := fresh payloadSize
    let s := start.after events
    (∀ e, s.fault? e = some .injected ↔ ∃ c, e.call? = some c ∧ ∃ before rule since,
      events = before ++ .inject rule :: since ∧
        Fails (start.after before).failures rule (calls since) c) ∧
    (∀ before rule since e later c c', events = before ++ .inject rule :: since ++ e :: later →
      e.call? = some c → Fails (start.after before).failures rule (calls since) c →
      ¬Fails (start.after before).failures rule (calls (since ++ e :: later)) c') ∧
    s.failures.length + (start.injected events).length =
      (events.filterMap ServerEvent.rule?).length ∧
    (∀ q ∈ s.failures, ∃ before rule since, events = before ++ .inject rule :: since ∧
      q.operation = rule.operation ∧ q.kind = rule.kind ∧
        q.remaining + rule.matching (passed (start.after before).failures (calls since)) =
          rule.remaining) ∧
    ((∀ before, before <+: events → (start.after before).failures = due before) ↔
      Untangled events) ∧
    (Untangled events → ∀ e, s.fault? e = some .injected ↔ ∃ c, e.call? = some c ∧
      ∃ before rule since, events = before ++ .inject rule :: since ∧
        rule.FailsAfter (calls since) c) := by
  refine ⟨fun e => ?_, ?_, ?_, ?_, failures_eq_due_iff payloadSize events, fun h e => ?_⟩
  · rw [fault?_eq_injected_iff]
    refine exists_congr fun c => and_congr_right fun _ => ?_
    have hstart : struck (fresh payloadSize).failures (calls events) = [] :=
      FailureRule.struck_nil _
    rw [strike_after_iff, hstart, or_iff_right (by simp [FailureRule.strike])]
  · rintro before rule since e later c c' - hcall hfails
    have hcalls : calls (since ++ e :: later) = calls since ++ c :: calls later := by
      simp [calls, hcall]
    rw [hcalls]
    exact hfails.once
  · have hlength := length_failures_after (fresh payloadSize) events
    simpa [fresh] using hlength
  · intro q hq
    obtain hq | ⟨before, rule, since, hsplit, hq⟩ := mem_failures_after.mp hq
    · simp [fresh, FailureRule.struck_nil] at hq
    · exact ⟨before, rule, since, hsplit, FailureRule.of_mem_left hq⟩
  · rw [fault?_eq_injected_iff]
    exact exists_congr fun c => and_congr_right fun _ => strike_of_untangled payloadSize h

/-- The third channel to be created is to fail, and the first camera. -/
def overlapping : List ServerEvent :=
  let camera : ChannelAttr := .vi ⟨⟨1280, 720⟩, 30, .nv12, 4, false⟩
  [.inject ⟨.create, none, 3, Nat.succ_pos 2⟩, .inject ⟨.create, some .vi, 1, Nat.one_pos⟩,
    .create .vi camera, .create .vi camera]

theorem after_injects_overlapping :
    Untangled overlapping ∧
      ((fresh 4).after overlapping).fault?
        (.create .vi (.vi ⟨⟨1280, 720⟩, 30, .nv12, 4, false⟩)) = some .injected ∧
      ¬Fails ((fresh 4).after (overlapping.take 1)).failures ⟨.create, some .vi, 1, Nat.one_pos⟩
        (calls (overlapping.drop 2)) (.create, .vi) := by
  have hfirst : Untangled (overlapping.take 1) :=
    ServerEvent.untangled_nil.concat fun c hc => by cases hc
  have hrules : Untangled (overlapping.take 2) := hfirst.concat fun c hc => by cases hc
  have hone : Untangled (overlapping.take 3) := by
    refine hrules.concat fun c hc => ?_
    obtain rfl := Option.some.inj hc
    decide
  have hclear : Untangled overlapping := by
    refine hone.concat fun c hc => ?_
    obtain rfl := Option.some.inj hc
    decide
  have hlaw := (after_injects 4 overlapping).2.2.2.2.2 hclear
  have honce := (after_injects 4 overlapping).2.1
  exact ⟨hclear, (hlaw _).mpr ⟨_, rfl, [], _, _, rfl, by decide, by decide⟩,
    honce (overlapping.take 1) _ [] _ _ (.create, .vi) _ rfl rfl
      ⟨by decide, by decide, by decide⟩⟩

/-- The second channel to be created is to fail, as well as the first: it does not, since only the
first rule has counted the call that failed. -/
theorem passes_of_shadowed :
    let camera : ChannelAttr := .vi ⟨⟨1280, 720⟩, 30, .nv12, 4, false⟩
    let rule : FailureRule := ⟨.create, none, 2, Nat.two_pos⟩
    let before : List ServerEvent := [.inject ⟨.create, none, 1, Nat.one_pos⟩]
    let since : List ServerEvent := [.create .vi camera]
    rule.FailsAfter (calls since) (.create, .vi) ∧
      ((fresh 4).after (before ++ .inject rule :: since)).fault? (.create .vi camera) = none :=
  ⟨⟨by decide, by decide⟩, rfl⟩

end Server
end CameraPipeline
