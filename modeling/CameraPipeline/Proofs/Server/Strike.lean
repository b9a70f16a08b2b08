import Mathlib.Data.List.Basic
import CameraPipeline.Server.Injection

/-!
Failure rules against calls. The rules are asked in the order of their registration, and the first
one to run out ends the count, so a rule does not count the calls that an earlier one fails: what
it has counted are the calls that the rules before it let pass. Every rule counts a call just if no
rule that the call fails stands before one that covers it.
-/

namespace CameraPipeline
namespace FailureRule

/-- What a rule looks at in a call: its operation and the kind of channel that it is about. -/
abbrev Attempt := Operation × ChannelKind

/-- How many of the calls the rule covers. -/
def matching (rule : FailureRule) (calls : List Attempt) : Nat :=
  calls.countP fun c => rule.covers c.1 c.2

/-- What is left of a rule that has counted `k` calls. -/
def left (rule : FailureRule) (k : Nat) : List FailureRule :=
  if h : k < rule.remaining then
    [{ rule with remaining := rule.remaining - k, remaining_pos := Nat.sub_pos_of_lt h }]
  else []

/-- After the calls that the rule has counted, `c` is the one that it fails. -/
def FailsAfter (rule : FailureRule) (counted : List Attempt) (c : Attempt) : Prop :=
  rule.covers c.1 c.2 = true ∧ rule.matching counted + 1 = rule.remaining

/-- The rules after calls. -/
def struck (rules : List FailureRule) (calls : List Attempt) : List FailureRule :=
  calls.foldl (fun rules c => (strike c.1 c.2 rules).2) rules

/-- The calls, in order, that the rules let pass. -/
def passed : List FailureRule → List Attempt → List Attempt
  | _, [] => []
  | rules, c :: calls =>
    let later := passed (strike c.1 c.2 rules).2 calls
    if (strike c.1 c.2 rules).1 then later else c :: later

/-- The rule, registered after the `earlier` ones, is the one that fails `c` after these calls. -/
structure Fails (earlier : List FailureRule) (rule : FailureRule) (calls : List Attempt) (c : Attempt) :
    Prop where
  spared : (strike c.1 c.2 (struck earlier calls)).1 = false
  last : rule.FailsAfter (passed earlier calls) c

/-- Every rule that covers the call counts it. -/
def tick (c : Attempt) (rules : List FailureRule) : List FailureRule :=
  rules.flatMap fun rule => if rule.covers c.1 c.2 then rule.left 1 else [rule]

/-- How many calls the rules have still to count. -/
def toCount (rules : List FailureRule) : Nat := rules.foldr (fun rule n => rule.remaining + n) 0

/-- A call that fails one of the rules is not to be counted by a later one. -/
def Clear (c : Attempt) (rules : List FailureRule) : Prop :=
  rules.Pairwise fun rule later =>
    rule.covers c.1 c.2 = true → rule.remaining = 1 → later.covers c.1 c.2 = false

instance (c : Attempt) (rules : List FailureRule) : Decidable (Clear c rules) :=
  inferInstanceAs (Decidable (List.Pairwise _ _))

variable {rule : FailureRule} {rules : List FailureRule} {calls : List Attempt} {c : Attempt}
  {op : Operation} {kind : ChannelKind} {k : Nat}

@[simp] theorem left_zero (rule : FailureRule) : rule.left 0 = [rule] := by
  simp [left, rule.remaining_pos]

theorem left_eq_nil (h : rule.remaining ≤ k) : rule.left k = [] := by
  simp [left, h]

/-- What is left of a rule that still has calls to count. -/
theorem exists_left (h : k < rule.remaining) :
    ∃ rest : FailureRule, rule.left k = [rest] ∧ rest.operation = rule.operation ∧
      rest.kind = rule.kind ∧ rest.remaining + k = rule.remaining :=
  ⟨⟨rule.operation, rule.kind, rule.remaining - k, Nat.sub_pos_of_lt h⟩, by rw [left, dif_pos h],
    rfl, rfl, Nat.sub_add_cancel (Nat.le_of_lt h)⟩

/-- What is left of what is left. -/
theorem left_left {rest : FailureRule} (h : rule.left k = [rest]) (j : Nat) :
    rest.left j = rule.left (k + j) := by
  by_cases hk : k < rule.remaining
  · rw [left, dif_pos hk, List.singleton_inj] at h
    subst h
    by_cases hj : k + j < rule.remaining
    · have hj' : j < rule.remaining - k := by omega
      simp [left, hj, hj', Nat.sub_sub]
    · have hj' : ¬j < rule.remaining - k := by omega
      simp [left, hj, hj']
  · rw [left_eq_nil (by omega)] at h
    cases h

theorem of_mem_left {q : FailureRule} (h : q ∈ rule.left k) :
    q.operation = rule.operation ∧ q.kind = rule.kind ∧ q.remaining + k = rule.remaining := by
  by_cases hk : k < rule.remaining
  · obtain ⟨rest, hleft, hrest⟩ := exists_left hk
    rw [hleft, List.mem_singleton] at h
    exact h ▸ hrest
  · rw [left_eq_nil (by omega)] at h
    cases h

theorem covers_of_left {rest : FailureRule} (h : rule.left k = [rest]) :
    rest.covers op kind = rule.covers op kind := by
  have hmem : rest ∈ rule.left k := h ▸ .head _
  obtain ⟨hop, hkind, -⟩ := of_mem_left hmem
  simp only [covers, hop, hkind]

theorem strike_cons_of_covers (h : rule.covers op kind = true) :
    strike op kind (rule :: rules) = if rule.remaining = 1 then (true, rules) else
      ((strike op kind rules).1, rule.left 1 ++ (strike op kind rules).2) := by
  have hpos := rule.remaining_pos
  simp only [strike, h, if_true, left]
  split
  · rw [if_neg (by omega)]
    rfl
  · rw [if_pos (by omega)]

theorem strike_cons_of_not_covers (h : rule.covers op kind = false) :
    strike op kind (rule :: rules) =
      ((strike op kind rules).1, rule :: (strike op kind rules).2) := by
  simp [strike, h]

/-- A call fails just if it is the last one for one of the rules. -/
theorem strike_fst_iff :
    (strike op kind rules).1 = true ↔ ∃ rule ∈ rules, rule.covers op kind = true ∧
      rule.remaining = 1 := by
  induction rules with
  | nil => simp [strike]
  | cons rule rules ih =>
      cases hc : rule.covers op kind with
      | false => simp [strike_cons_of_not_covers hc, ih, hc]
      | true =>
          rw [strike_cons_of_covers hc]
          split <;> simp [*]

/-- The rules in front are asked first; the others only if those let the call pass. -/
theorem strike_append (rules rules' : List FailureRule) :
    strike op kind (rules ++ rules') =
      if (strike op kind rules).1 then (true, (strike op kind rules).2 ++ rules')
      else ((strike op kind rules').1, (strike op kind rules).2 ++ (strike op kind rules').2) := by
  induction rules with
  | nil => simp [strike]
  | cons rule rules ih =>
      cases hc : rule.covers op kind with
      | false =>
          rw [List.cons_append, strike_cons_of_not_covers hc, strike_cons_of_not_covers hc, ih]
          split <;> rfl
      | true =>
          rw [List.cons_append, strike_cons_of_covers hc, strike_cons_of_covers hc, ih]
          split
          · rfl
          · split <;> simp

theorem matching_append (rule : FailureRule) (calls later : List Attempt) :
    rule.matching (calls ++ later) = rule.matching calls + rule.matching later :=
  List.countP_append

theorem matching_cons (rule : FailureRule) (c : Attempt) (calls : List Attempt) :
    rule.matching (c :: calls) =
      rule.matching calls + if rule.covers c.1 c.2 then 1 else 0 :=
  List.countP_cons

/-- A call counts once against what is left of a rule and fails if it is the last one. -/
theorem strike_left (rule : FailureRule) (k : Nat) (c : Attempt) :
    (strike c.1 c.2 (rule.left k)).2 =
        rule.left (k + if rule.covers c.1 c.2 then 1 else 0) ∧
      ((strike c.1 c.2 (rule.left k)).1 = true ↔
        rule.covers c.1 c.2 = true ∧ k + 1 = rule.remaining) := by
  by_cases hk : k < rule.remaining
  · obtain ⟨rest, hleft, -, -, hrem⟩ := exists_left hk
    have hcov : rest.covers c.1 c.2 = rule.covers c.1 c.2 := covers_of_left hleft
    rw [hleft]
    cases hc : rule.covers c.1 c.2 with
    | false =>
        rw [strike_cons_of_not_covers (hcov.trans hc)]
        simp [strike, hleft]
    | true =>
        rw [strike_cons_of_covers (hcov.trans hc), left_left hleft]
        by_cases hlast : rest.remaining = 1
        · have hspent : rule.left (k + 1) = [] := left_eq_nil (by omega)
          simp only [hlast, if_true, hspent, true_and, true_iff]
          omega
        · have hne : k + 1 ≠ rule.remaining := by omega
          simp [hlast, hne, strike]
  · have hge : rule.remaining ≤ k := by omega
    rw [left_eq_nil hge, left_eq_nil (by omega)]
    refine ⟨rfl, by simp [strike], fun h => ?_⟩
    omega

theorem struck_nil (calls : List Attempt) : struck [] calls = [] := by
  induction calls with
  | nil => rfl
  | cons c calls ih => exact ih

/-- A rule counts the calls that those before it let pass, and they take no notice of it. -/
theorem struck_concat (rules : List FailureRule) (rule : FailureRule) (k : Nat)
    (calls : List Attempt) :
    struck (rules ++ rule.left k) calls =
      struck rules calls ++ rule.left (k + rule.matching (passed rules calls)) := by
  induction calls generalizing rules k with
  | nil => rfl
  | cons c calls ih =>
      have hself := (strike_left rule k c).1
      simp only [struck, List.foldl_cons] at ih ⊢
      rw [strike_append]
      cases hhit : (strike c.1 c.2 rules).1 with
      | true => simp only [if_true, ih, passed, hhit]
      | false =>
          simp only [hself, ih, passed, hhit, Bool.false_eq_true, if_false, matching_cons]
          rw [Nat.add_assoc, Nat.add_comm (rule.matching _)]

theorem passed_append (rules : List FailureRule) (calls later : List Attempt) :
    passed rules (calls ++ later) = passed rules calls ++ passed (struck rules calls) later := by
  induction calls generalizing rules with
  | nil => rfl
  | cons c calls ih =>
      simp only [List.cons_append, passed, ih, struck, List.foldl_cons]
      split <;> rfl

/-- A rule that has failed a call fails no later one. -/
theorem Fails.once {later : List Attempt} {c' : Attempt} (h : Fails rules rule calls c) :
    ¬Fails rules rule (calls ++ c :: later) c' := by
  intro h'
  have hpassed : passed rules (calls ++ c :: later) =
      passed rules calls ++ c :: passed (strike c.1 c.2 (struck rules calls)).2 later := by
    rw [passed_append, passed, if_neg (by simp [h.spared])]
  have hfirst := h.last.2
  have hsecond := h'.last.2
  rw [hpassed, matching_append, matching_cons, if_pos h.last.1] at hsecond
  omega

/-- Each call that fails uses a rule up, and no other does. -/
theorem length_strike (op : Operation) (kind : ChannelKind) (rules : List FailureRule) :
    (strike op kind rules).2.length + (strike op kind rules).1.toNat = rules.length := by
  induction rules with
  | nil => rfl
  | cons rule rules ih =>
      cases hc : rule.covers op kind with
      | false =>
          rw [strike_cons_of_not_covers hc]
          simp only [List.length_cons]
          omega
      | true =>
          rw [strike_cons_of_covers hc]
          by_cases hlast : rule.remaining = 1
          · simp [hlast]
          · have hlt : 1 < rule.remaining := by
              have := rule.remaining_pos
              omega
            simp only [hlast, if_false, left, hlt, dif_pos, List.length_append, List.length_cons,
              List.length_nil]
            omega

theorem tick_append (c : Attempt) (rules rules' : List FailureRule) :
    tick c (rules ++ rules') = tick c rules ++ tick c rules' :=
  List.flatMap_append

theorem tick_cons (c : Attempt) (rule : FailureRule) (rules : List FailureRule) :
    tick c (rule :: rules) =
      (if rule.covers c.1 c.2 then rule.left 1 else [rule]) ++ tick c rules :=
  List.flatMap_cons

theorem tick_left (rule : FailureRule) (k : Nat) (c : Attempt) :
    tick c (rule.left k) = rule.left (k + if rule.covers c.1 c.2 then 1 else 0) := by
  by_cases hk : k < rule.remaining
  · obtain ⟨rest, hleft, -⟩ := exists_left hk
    have hcov : rest.covers c.1 c.2 = rule.covers c.1 c.2 := covers_of_left hleft
    rw [hleft, tick_cons, hcov, left_left hleft]
    split <;> simp [tick, hleft]
  · rw [left_eq_nil (by omega), left_eq_nil (by omega)]
    rfl

theorem toCount_cons (rule : FailureRule) (rules : List FailureRule) :
    toCount (rule :: rules) = rule.remaining + toCount rules := rfl

theorem toCount_append (rules later : List FailureRule) :
    toCount (rules ++ later) = toCount rules + toCount later := by
  induction rules with
  | nil => exact (Nat.zero_add _).symm
  | cons rule rules ih => rw [List.cons_append, toCount_cons, ih, toCount_cons, Nat.add_assoc]

theorem toCount_left_succ (rule : FailureRule) : toCount (rule.left 1) + 1 = rule.remaining := by
  have hpos := rule.remaining_pos
  simp only [left]
  split <;> simp only [toCount, List.foldr_cons, List.foldr_nil] <;> omega

/-- Counting a call takes one from every rule that covers it. -/
theorem toCount_tick (c : Attempt) (rules : List FailureRule) :
    toCount (tick c rules) + rules.countP (·.covers c.1 c.2) = toCount rules := by
  induction rules with
  | nil => rfl
  | cons rule rules ih =>
      have hleft := toCount_left_succ rule
      rw [tick_cons, toCount_append, List.countP_cons, toCount_cons]
      cases hc : rule.covers c.1 c.2 with
      | false =>
          rw [if_neg Bool.false_ne_true, if_neg Bool.false_ne_true, toCount_cons]
          simp only [toCount, List.foldr_nil] at ih ⊢
          omega
      | true =>
          rw [if_pos rfl, if_pos rfl]
          omega

theorem tick_eq_self_iff :
    tick c rules = rules ↔ ∀ rule ∈ rules, rule.covers c.1 c.2 = false := by
  constructor
  · intro h
    have hcount := toCount_tick c rules
    rw [h] at hcount
    have hnone : rules.countP (·.covers c.1 c.2) = 0 := by omega
    simpa using List.countP_eq_zero.mp hnone
  · intro h
    induction rules with
    | nil => rfl
    | cons rule rules ih =>
        rw [tick_cons, h rule (.head _), ih fun q hq => h q (.tail _ hq)]
        rfl

/-- Every rule counts the call just if none that it fails is before one that covers it. -/
theorem strike_snd_eq_tick_iff :
    (strike c.1 c.2 rules).2 = tick c rules ↔ Clear c rules := by
  induction rules with
  | nil => simp [strike, tick, Clear]
  | cons rule rules ih =>
      have hpos := rule.remaining_pos
      rw [tick_cons, Clear, List.pairwise_cons]
      cases hc : rule.covers c.1 c.2 with
      | false => simp [strike_cons_of_not_covers hc, ih, Clear]
      | true =>
          rw [strike_cons_of_covers hc]
          by_cases hlast : rule.remaining = 1
          · have hspent : rule.left 1 = [] := left_eq_nil (Nat.le_of_eq hlast)
            have hall : (∀ later ∈ rules, later.covers c.1 c.2 = false) → Clear c rules :=
              fun h => List.pairwise_of_forall_mem_list fun _ _ later hl _ _ => h later hl
            simp only [hlast, hspent, if_true, List.nil_append, forall_const]
            rw [eq_comm, tick_eq_self_iff]
            exact ⟨fun h => ⟨h, hall h⟩, fun h => h.1⟩
          · simp [hlast, ih, Clear]

end FailureRule
end CameraPipeline
