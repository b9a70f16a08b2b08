import CameraPipeline.Proofs.Server.Production
import CameraPipeline.Proofs.Server.Strike

/-!
The controls of a server: all of it but the traffic of units. Pumps fetch and give back units on the
channels that they read, and that leaves the controls as they are. What comes of a request that
closes something depends on the controls alone.
-/

namespace CameraPipeline

/-- Channels of this kind are read by pumps. -/
def ChannelKind.isPumped : ChannelKind → Bool
  | vi | venc | jpeg => true
  | gdc | vpss | rgn | vo | vdec | ai | ao | adec | aenc => false

/-- All operations but those that move units. -/
def Operation.isControl : Operation → Bool
  | fetch | release => false
  | create | setAttr | enable | disable | bind | unbind | startReceiving | stopReceiving | submit
  | destroy => true

/-- The request takes something away, and no channel that pumps read. -/
def Request.Closes : Request → Prop
  | disable _ | unbind _ | stopReceiving _ => True
  | destroy h => h.kind.isPumped = false
  | create _ _ | setAttr _ _ | enable _ | bind _ | startReceiving _ _ | release _ _
  | submit _ => False

theorem Request.Closes.isControl {r : Request} (hr : r.Closes) :
    r.operation.isControl = true ∧ ∀ h, (r.call h).isControl = true := by
  cases r <;> first | exact ⟨rfl, fun _ => rfl⟩ | exact hr.elim

/-- The channel without what the traffic of units leaves on it. -/
def Channel.still (h : Handle) (c : Channel) : Channel :=
  if h.kind.isPumped then { c with produced := 0, nextSlot := 0, outstanding := [] } else c

namespace Channel

variable {h : Handle} {c d : Channel}

theorem node_still (h : Handle) (c : Channel) : (c.still h).node = c.node := by
  simp only [still]
  split <;> rfl

theorem still_of_not_isPumped (hk : h.kind.isPumped = false) (c : Channel) : c.still h = c :=
  if_neg (by simp [hk])

theorem still_traffic (hk : h.kind.isPumped = true) (c : Channel) (produced : Nat)
    (nextSlot : UInt32) (outstanding : List UInt32) :
    still h { c with produced, nextSlot, outstanding } = c.still h := by
  simp only [still, hk, if_true]

theorem still_disabled (h : Handle) (c : Channel) :
    still h { c with enabled := false } = { c.still h with enabled := false } := by
  simp only [still]
  split <;> rfl

theorem still_stopped (h : Handle) (c : Channel) :
    still h { c with receiving := none } = { c.still h with receiving := none } := by
  simp only [still]
  split <;> rfl

end Channel

namespace FailureRule

variable {op : Operation} {kind : ChannelKind}

def isControl (rule : FailureRule) : Bool := rule.operation.isControl

theorem operation_of_covers {rule : FailureRule} (h : rule.covers op kind = true) :
    rule.operation = op := by
  simp only [covers, Bool.and_eq_true, beq_iff_eq] at h
  exact h.1

theorem filter_left (rule : FailureRule) (k : Nat) :
    (rule.left k).filter isControl = if rule.isControl then rule.left k else [] := by
  have hleft (rest : FailureRule) (hm : rest ∈ rule.left k) : rest.isControl = rule.isControl :=
    congrArg Operation.isControl (of_mem_left hm).1
  split
  · rename_i hrule
    exact List.filter_eq_self.mpr fun rest hm => (hleft rest hm).trans hrule
  · rename_i hrule
    exact List.filter_eq_nil_iff.mpr fun rest hm => hleft rest hm ▸ hrule

/-- Rules on control operations do not count the traffic of units. -/
theorem filter_strike_traffic (hop : op.isControl = false) (kind : ChannelKind)
    (rules : List FailureRule) :
    (strike op kind rules).2.filter isControl = rules.filter isControl := by
  induction rules with
  | nil => rfl
  | cons rule rules ih =>
      cases hc : rule.covers op kind with
      | false =>
          rw [strike_cons_of_not_covers hc]
          simp only [List.filter_cons, ih]
      | true =>
          have hrule : rule.isControl = false :=
            (congrArg Operation.isControl (operation_of_covers hc)).trans hop
          rw [strike_cons_of_covers hc, List.filter_cons_of_neg (by simp [hrule])]
          split
          · rfl
          · simp [filter_left, hrule, ih]

/-- Control operations are counted by the rules on them alone. -/
theorem strike_filter (hop : op.isControl = true) (kind : ChannelKind)
    (rules : List FailureRule) :
    strike op kind (rules.filter isControl) =
      ((strike op kind rules).1, (strike op kind rules).2.filter isControl) := by
  induction rules with
  | nil => rfl
  | cons rule rules ih =>
      cases hrule : rule.isControl with
      | true =>
          rw [List.filter_cons_of_pos hrule]
          cases hc : rule.covers op kind with
          | false =>
              rw [strike_cons_of_not_covers hc, strike_cons_of_not_covers hc, ih,
                List.filter_cons_of_pos hrule]
          | true =>
              rw [strike_cons_of_covers hc, strike_cons_of_covers hc, ih]
              split
              · rfl
              · simp [filter_left, hrule]
      | false =>
          have hc : rule.covers op kind = false := by
            rw [← Bool.not_eq_true]
            intro hc
            rw [isControl, operation_of_covers hc, hop] at hrule
            cases hrule
          have hneg : ¬rule.isControl = true := by simp [hrule]
          rw [strike_cons_of_not_covers hc, List.filter_cons_of_neg hneg, ih,
            List.filter_cons_of_neg hneg]

end FailureRule

/-- What a server is for its owner: its channels at rest, the links, the failures that are still to
be injected on control operations, and the control calls that it accepted. -/
@[ext] structure Controls where
  channel? : Handle → Option Channel
  links : Table Link PUnit.{1}
  nextId : ChannelKind → Nat
  payloadSize : Nat
  failures : List FailureRule
  calls : List Call

def Controls.modify (c : Controls) (h : Handle) (f : Option Channel → Option Channel) : Controls :=
  { c with channel? := fun k => if k = h then f (c.channel? h) else c.channel? k }

namespace Server

def controls (s : Server) : Controls where
  channel? h := (s.channels.get? h).map (Channel.still h)
  links := s.links
  nextId := s.nextId
  payloadSize := s.payloadSize
  failures := s.failures.filter FailureRule.isControl
  calls := s.controlCalls

variable {s t : Server} {h k : Handle} {r : Request}

theorem channel?_controls (s : Server) (h : Handle) :
    s.controls.channel? h = (s.channels.get? h).map (Channel.still h) := rfl

section Reads

theorem controlCalls_of_controls (hc : s.controls = t.controls) :
    s.controlCalls = t.controlCalls :=
  congrArg Controls.calls hc

theorem links_of_controls (hc : s.controls = t.controls) : s.links = t.links :=
  congrArg Controls.links hc

theorem channel?_of_controls (hc : s.controls = t.controls) (h : Handle) :
    (s.channels.get? h).map (Channel.still h) = (t.channels.get? h).map (Channel.still h) :=
  congrFun (congrArg Controls.channel? hc) h

theorem circuit_of_controls (hc : s.controls = t.controls) : s.circuit = t.circuit := by
  have hnode (s : Server) (h : Handle) :
      s.circuit.node? h = (s.controls.channel? h).map Channel.node := by
    rw [node?_circuit, channel?_controls, Option.map_map]
    exact congrArg (Option.map · _) (funext fun c => (c.node_still h).symm)
  ext1
  · funext h
    rw [hnode, hnode, hc]
  · funext l
    rw [linked_circuit, linked_circuit, links_of_controls hc]

theorem live_of_controls (hc : s.controls = t.controls) : s.live = t.live := by
  have hkeys (s : Server) : s.live = (s.channels.map fun _ => ()).keys := by
    simp [live, Table.keys, Table.map]
  rw [hkeys, hkeys]
  refine congrArg Table.keys (Table.ext_get? fun h => ?_)
  have hget := congrArg (Option.map fun _ => ()) (channel?_of_controls hc h)
  simpa [Table.get?_map, Function.comp_def] using hget

theorem binds_of_controls (hc : s.controls = t.controls) : s.binds = t.binds :=
  congrArg Table.keys (links_of_controls hc)

theorem isReceiving_of_controls (hc : s.controls = t.controls) (h : Handle) :
    s.isReceiving h = t.isReceiving h := by
  have hreceiving (s : Server) : s.isReceiving h = (s.circuit.node? h).any (·.receiving.isSome) := by
    rw [isReceiving, node?_circuit, Option.any_map]
    rfl
  rw [hreceiving, hreceiving, circuit_of_controls hc]

theorem isBound_of_controls (hc : s.controls = t.controls) (h : Handle) :
    s.isBound h = t.isBound h := by
  rw [isBound, isBound, binds_of_controls hc]

theorem hasOverlay_of_controls (hc : s.controls = t.controls) (h : Handle) :
    s.hasOverlay h = t.hasOverlay h := by
  rw [Bool.eq_iff_iff, hasOverlay_iff, hasOverlay_iff, circuit_of_controls hc]

end Reads

section Traffic

theorem controls_strike_traffic {op : Operation} (hop : op.isControl = false)
    (kind : ChannelKind) : (s.strike op kind).2.controls = s.controls := by
  refine Controls.ext rfl rfl rfl rfl ?_ rfl
  exact FailureRule.filter_strike_traffic hop kind s.failures

theorem controls_record_traffic {c : Call} (hc : c.isControl = false) :
    (s.record c).controls = s.controls := by
  refine Controls.ext rfl rfl rfl rfl rfl ?_
  simp [controls, controlCalls, record, hc]

theorem controls_probe (s : Server) (h : Handle) : (s.probe h).2.controls = s.controls := by
  have hs : ((s.record (.fetch h)).strike .fetch h.kind).2.controls = s.controls :=
    (controls_strike_traffic rfl h.kind).trans (controls_record_traffic rfl)
  simp only [probe]
  split
  · exact hs
  · split <;> exact hs

/-- A change of a channel that shows only in its traffic. -/
theorem controls_insert {c d : Channel} (hc : s.channels.get? h = some c)
    (hd : d.still h = c.still h) :
    controls { s with channels := s.channels.insert h d } = s.controls := by
  refine Controls.ext (funext fun k => ?_) rfl rfl rfl rfl rfl
  rw [channel?_controls, channel?_controls, Table.get?_insert]
  split
  · rename_i hk
    rw [hk, hc, Option.map_some, Option.map_some, hd]
  · rfl

/-- A pump that fetches leaves the controls alone. -/
theorem controls_fetch (s : Server) (hk : h.kind.isPumped = true) :
    (s.fetch h).2.controls = s.controls := by
  have hp := controls_probe s h
  simp only [fetch]
  split <;> rename_i t ht <;> rw [ht] at hp
  · exact hp
  · exact hp
  · simp only [produce]
    split
    · exact hp
    · rename_i c hc
      split
      · exact (controls_insert hc (Channel.still_traffic hk c _ _ _)).trans hp
      · exact hp

/-- A pump that gives a unit back leaves the controls alone. -/
theorem controls_release (s : Server) (hk : h.kind.isPumped = true) (slot : UInt32) :
    (s.perform (.release h slot)).2.controls = s.controls := by
  have hs : (s.strike .release h.kind).2.controls = s.controls := controls_strike_traffic rfl _
  obtain ⟨fault, hf⟩ | ⟨k, hp, hf⟩ := perform_cases s (.release h slot)
  · rw [hf]
    exact hs
  · obtain rfl := eq_of_permit hp rfl
    rw [hf]
    refine (controls_record_traffic rfl).trans (Eq.trans ?_ hs)
    simp only [carryOut, update]
    split
    · rename_i c hc
      exact controls_insert hc (Channel.still_traffic hk c c.produced c.nextSlot _)
    · rfl

end Traffic

section Closing

/-- What there is of a channel in two servers with the same controls. -/
theorem get?_of_controls (hc : s.controls = t.controls) (h : Handle) :
    (s.channels.get? h = none ∧ t.channels.get? h = none) ∨
      ∃ c d, s.channels.get? h = some c ∧ t.channels.get? h = some d ∧ c.still h = d.still h := by
  have hget := channel?_of_controls hc h
  cases hs : s.channels.get? h with
  | none =>
      rw [hs, Option.map_none, eq_comm, Option.map_eq_none_iff] at hget
      exact .inl ⟨rfl, hget⟩
  | some c =>
      rw [hs, Option.map_some, eq_comm, Option.map_eq_some_iff] at hget
      obtain ⟨d, hd, heq⟩ := hget
      exact .inr ⟨c, d, rfl, hd, heq.symm⟩

theorem permit_of_controls (hc : s.controls = t.controls) (hr : r.Closes) :
    s.permit r = t.permit r := by
  cases r with
  | create | setAttr | enable | bind | startReceiving | release | submit => exact hr.elim
  | unbind l =>
      simp only [permit, links_of_controls hc]
  | disable h =>
      obtain ⟨hs, ht⟩ | ⟨c, d, hs, ht, -⟩ := get?_of_controls hc h <;>
        simp only [permit, isBound_of_controls hc, channel, hs, ht]
      rfl
  | stopReceiving h =>
      obtain ⟨hs, ht⟩ | ⟨c, d, hs, ht, -⟩ := get?_of_controls hc h <;>
        simp only [permit, channel, hs, ht]
      rfl
  | destroy h =>
      obtain ⟨hs, ht⟩ | ⟨c, d, hs, ht, heq⟩ := get?_of_controls hc h
      · simp only [permit, channel, hs, ht]
        rfl
      · have hk : h.kind.isPumped = false := hr
        rw [Channel.still_of_not_isPumped hk, Channel.still_of_not_isPumped hk] at heq
        subst heq
        simp only [permit, channel, hs, ht, isBound_of_controls hc, hasOverlay_of_controls hc]

theorem controls_update (s : Server) (h : Handle) (f : Channel → Channel)
    (hf : ∀ c, (f c).still h = f (c.still h)) :
    (s.update h f).controls = s.controls.modify h (Option.map f) := by
  have hframe : s.update h f = { s with channels := (s.update h f).channels } := by
    simp only [update]
    split <;> rfl
  rw [hframe]
  refine Controls.ext (funext fun k => ?_) rfl rfl rfl rfl rfl
  rw [channel?_controls, get?_update, Controls.modify]
  by_cases hk : k = h
  · subst hk
    simp only [if_true, channel?_controls, Option.map_map]
    exact congrArg (Option.map · (s.channels.get? k)) (funext hf)
  · simp only [hk, if_false, channel?_controls]

theorem controls_erase (s : Server) (h : Handle) :
    controls { s with channels := s.channels.erase h } = s.controls.modify h fun _ => none := by
  refine Controls.ext (funext fun k => ?_) rfl rfl rfl rfl rfl
  rw [channel?_controls, Table.get?_erase, Controls.modify]
  by_cases hk : k = h <;> simp [hk, channel?_controls]

theorem carryOut_of_controls (hc : s.controls = t.controls) (hr : r.Closes) (h : Handle) :
    (s.carryOut h r).controls = (t.carryOut h r).controls := by
  cases r with
  | create | setAttr | enable | bind | startReceiving | release | submit => exact hr.elim
  | unbind l => exact congrArg (fun c : Controls => { c with links := c.links.erase l }) hc
  | disable =>
      have hupdate (s : Server) :=
        s.controls_update h (fun c => { c with enabled := false }) (Channel.still_disabled h)
      simp only [carryOut, hupdate, hc]
  | stopReceiving =>
      have hupdate (s : Server) :=
        s.controls_update h (fun c => { c with receiving := none }) (Channel.still_stopped h)
      simp only [carryOut, hupdate, hc]
  | destroy => simp only [carryOut, controls_erase, hc]

/-- Control operations are counted by the rules of the controls. -/
theorem strike_control {op : Operation} (hop : op.isControl = true) (kind : ChannelKind)
    (s : Server) :
    (s.strike op kind).1 = (FailureRule.strike op kind s.controls.failures).1 ∧
      (s.strike op kind).2.controls =
        { s.controls with failures := (FailureRule.strike op kind s.controls.failures).2 } := by
  have hrules : FailureRule.strike op kind s.controls.failures =
      ((s.strike op kind).1, (s.strike op kind).2.controls.failures) :=
    FailureRule.strike_filter hop kind s.failures
  rw [hrules]
  exact ⟨rfl, rfl⟩

theorem controls_record {c : Call} (hc : c.isControl = true) (s : Server) :
    (s.record c).controls = { s.controls with calls := s.controls.calls ++ [c] } := by
  simp [controls, controlCalls, record, hc]

/-- What comes of a request that closes something can be told from the controls. -/
theorem perform_of_controls (hc : s.controls = t.controls) (hr : r.Closes) :
    (s.perform r).1 = (t.perform r).1 ∧
      (s.perform r).2.controls = (t.perform r).2.controls := by
  obtain ⟨hop, hcall⟩ := hr.isControl
  obtain ⟨hhit, hstruck⟩ := strike_control hop r.kind s
  obtain ⟨hhit', hstruck'⟩ := strike_control hop r.kind t
  rw [hc] at hhit hstruck
  have hcontrols := hstruck.trans hstruck'.symm
  simp only [perform, hhit, hhit', permit_strike, permit_of_controls hc hr]
  split
  · exact ⟨rfl, hcontrols⟩
  · cases t.permit r with
    | error fault => exact ⟨rfl, hcontrols⟩
    | ok h =>
        refine ⟨rfl, ?_⟩
        dsimp only
        rw [controls_record (hcall h), controls_record (hcall h),
          carryOut_of_controls hcontrols hr]

end Closing
end Server
end CameraPipeline
