import CameraPipeline.Server.Fetch

/-!
The circuit of a server: which channels live, which of them are enabled, receive or lie on another
one, and which links stand. Every request acts on the circuit alone; the traffic of units leaves it
as it is.
-/

namespace CameraPipeline

/-- What a request can ask of a live channel, its units and the rest of its attributes apart. -/
structure Node where
  overlaid : Option Handle
  enabled : Bool
  receiving : Option Quota
  deriving DecidableEq

@[ext] structure Circuit where
  node? : Handle → Option Node
  linked : Link → Bool

namespace Circuit

def empty : Circuit := ⟨fun _ => none, fun _ => false⟩

def set (c : Circuit) (h : Handle) (n : Option Node) : Circuit :=
  { c with node? := fun k => if k = h then n else c.node? k }

def setLink (c : Circuit) (l : Link) (on : Bool) : Circuit :=
  { c with linked := fun k => if k = l then on else c.linked k }

def modify (c : Circuit) (h : Handle) (f : Node → Node) : Circuit :=
  c.set h ((c.node? h).map f)

def Live (c : Circuit) (h : Handle) : Prop := (c.node? h).isSome

def Enabled (c : Circuit) (h : Handle) : Prop := ∃ n, c.node? h = some n ∧ n.enabled

def Bound (c : Circuit) (h : Handle) : Prop := ∃ l, c.linked l ∧ l.touches h

def Overlaid (c : Circuit) (h : Handle) : Prop :=
  ∃ k n, c.node? k = some n ∧ n.overlaid = some h

/-- Links join enabled channels and overlays lie on live ones. -/
structure WellFormed (c : Circuit) : Prop where
  enabled_of_bound : ∀ h, c.Bound h → c.Enabled h
  live_of_overlaid : ∀ h, c.Overlaid h → c.Live h

@[simp] theorem node?_set (c : Circuit) (h k : Handle) (n : Option Node) :
    (c.set h n).node? k = if k = h then n else c.node? k := rfl

@[simp] theorem linked_set (c : Circuit) (h : Handle) (n : Option Node) (l : Link) :
    (c.set h n).linked l = c.linked l := rfl

@[simp] theorem node?_setLink (c : Circuit) (l : Link) (on : Bool) (h : Handle) :
    (c.setLink l on).node? h = c.node? h := rfl

@[simp] theorem linked_setLink (c : Circuit) (l k : Link) (on : Bool) :
    (c.setLink l on).linked k = if k = l then on else c.linked k := rfl

theorem live_iff {c : Circuit} {h : Handle} : c.Live h ↔ ∃ n, c.node? h = some n :=
  Option.isSome_iff_exists

theorem not_live_iff {c : Circuit} {h : Handle} : ¬c.Live h ↔ c.node? h = none := by
  simp [Live]

theorem live_set {c : Circuit} {h k : Handle} {n : Node} :
    (c.set h (some n)).Live k ↔ k = h ∨ c.Live k := by
  by_cases hk : k = h <;> simp [Live, hk]

theorem live_modify {c : Circuit} {h k : Handle} {f : Node → Node} :
    (c.modify h f).Live k ↔ c.Live k := by
  by_cases hk : k = h <;> simp [Live, modify, hk]

theorem Enabled.live {c : Circuit} {h : Handle} (he : c.Enabled h) : c.Live h := by
  obtain ⟨n, hn, _⟩ := he
  exact live_iff.mpr ⟨n, hn⟩

theorem bound_set {c : Circuit} {h k : Handle} {n : Option Node} :
    (c.set h n).Bound k ↔ c.Bound k := Iff.rfl

theorem set_self {c : Circuit} {h : Handle} {n : Option Node} (hn : c.node? h = n) :
    c.set h n = c := by
  ext1
  · funext k
    by_cases hk : k = h
    · simp [hk, hn]
    · simp [hk]
  · rfl

theorem set_set (c : Circuit) (h : Handle) (n m : Option Node) :
    (c.set h n).set h m = c.set h m := by
  ext1
  · funext k
    by_cases hk : k = h <;> simp [hk]
  · rfl

theorem modify_id (c : Circuit) (h : Handle) : c.modify h id = c := by
  simpa [modify] using set_self (c := c) (h := h) rfl

theorem setLink_setLink (c : Circuit) (l : Link) (on : Bool) (h : c.linked l = false) :
    (c.setLink l on).setLink l false = c := by
  ext1
  · rfl
  · funext k
    by_cases hk : k = l
    · simp [hk, h]
    · simp [hk]

theorem wellFormed_empty : empty.WellFormed := by
  constructor
  · intro h hex
    obtain ⟨l, hl, _⟩ := hex
    cases hl
  · intro h hex
    obtain ⟨k, n, hk, _⟩ := hex
    cases hk

/-- The circuit after a permitted request on channel `h`. -/
def after (c : Circuit) (h : Handle) : Request → Circuit
  | .create _ attr => c.set h (some ⟨attr.overlaid?, false, none⟩)
  | .setAttr _ attr => c.modify h fun n => { n with overlaid := attr.overlaid? }
  | .enable _ => c.modify h fun n => { n with enabled := true }
  | .disable _ => c.modify h fun n => { n with enabled := false }
  | .bind l => c.setLink l true
  | .unbind l => c.setLink l false
  | .startReceiving _ quota => c.modify h fun n => { n with receiving := some quota }
  | .stopReceiving _ => c.modify h fun n => { n with receiving := none }
  | .release _ _ | .submit _ => c
  | .destroy _ => c.set h none

/-- Only a destruction takes a channel away. -/
theorem Live.after {c : Circuit} {h k : Handle} {r : Request} (hl : c.Live k)
    (hr : ∀ h, r ≠ .destroy h) : (c.after h r).Live k := by
  cases r with
  | create => exact live_set.mpr (.inr hl)
  | setAttr | enable | disable | startReceiving | stopReceiving => exact live_modify.mpr hl
  | bind | unbind | release | submit => exact hl
  | destroy h => exact absurd rfl (hr h)

end Circuit

def Channel.node (c : Channel) : Node := ⟨c.attr.overlaid?, c.enabled, c.receiving⟩

namespace Server

def circuit (s : Server) : Circuit where
  node? h := (s.channels.get? h).map Channel.node
  linked l := s.links.contains l

theorem node?_circuit (s : Server) (h : Handle) :
    s.circuit.node? h = (s.channels.get? h).map Channel.node := rfl

theorem linked_circuit (s : Server) (l : Link) : s.circuit.linked l = s.links.contains l := rfl

theorem live_circuit {s : Server} {h : Handle} :
    s.circuit.Live h ↔ (s.channels.get? h).isSome := by
  simp [Circuit.Live, node?_circuit]

theorem mem_live_iff {s : Server} {h : Handle} : h ∈ s.live ↔ s.circuit.Live h := by
  rw [live, Table.mem_keys_iff, live_circuit]

theorem mem_binds_iff {s : Server} {l : Link} : l ∈ s.binds ↔ s.circuit.linked l := by
  rw [binds, Table.mem_keys_iff]
  rfl

/-- Units are out only of live channels. -/
theorem clear_of_circuit {s : Server} (hlive : ∀ h, ¬s.circuit.Live h)
    (hlinked : ∀ l, ¬s.circuit.linked l) :
    s.live = [] ∧ s.binds = [] ∧ s.outstanding = 0 := by
  have hl : s.live = [] := List.eq_nil_iff_forall_not_mem.mpr fun h hm =>
    hlive h (mem_live_iff.mp hm)
  have hb : s.binds = [] := List.eq_nil_iff_forall_not_mem.mpr fun l hm =>
    hlinked l (mem_binds_iff.mp hm)
  have he : s.channels.entries = [] := List.map_eq_nil_iff.mp hl
  exact ⟨hl, hb, by rw [outstanding, he]; rfl⟩

theorem isBound_iff {s : Server} {h : Handle} : s.isBound h ↔ s.circuit.Bound h := by
  simp only [isBound, List.any_eq_true, mem_binds_iff, Circuit.Bound]

theorem hasOverlay_iff {s : Server} {h : Handle} : s.hasOverlay h ↔ s.circuit.Overlaid h := by
  simp only [hasOverlay, List.any_eq_true, beq_iff_eq, Circuit.Overlaid, node?_circuit,
    Option.map_eq_some_iff]
  constructor
  · intro hex
    obtain ⟨⟨k, c⟩, he, hc⟩ := hex
    exact ⟨k, c.node, ⟨c, s.channels.mem_entries_iff.1 he, rfl⟩, hc⟩
  · intro hex
    obtain ⟨k, _, ⟨c, hc, rfl⟩, hn⟩ := hex
    exact ⟨(k, c), s.channels.mem_entries_iff.2 hc, hn⟩

theorem circuit_insert (s : Server) (h : Handle) (c : Channel) :
    circuit { s with channels := s.channels.insert h c } = s.circuit.set h (some c.node) := by
  ext1
  · funext k
    by_cases hk : k = h <;> simp [node?_circuit, Table.get?_insert, hk]
  · rfl

theorem circuit_erase (s : Server) (h : Handle) :
    circuit { s with channels := s.channels.erase h } = s.circuit.set h none := by
  ext1
  · funext k
    by_cases hk : k = h <;> simp [node?_circuit, Table.get?_erase, hk]
  · rfl

theorem circuit_update (s : Server) (h : Handle) (f : Channel → Channel) (g : Node → Node)
    (hf : ∀ c, (f c).node = g c.node) : (s.update h f).circuit = s.circuit.modify h g := by
  cases hc : s.channels.get? h with
  | none =>
      have hn : s.circuit.node? h = none := by simp [node?_circuit, hc]
      simp only [update, hc, Circuit.modify, hn, Option.map_none]
      exact (Circuit.set_self hn).symm
  | some c =>
      have hn : s.circuit.node? h = some c.node := by simp [node?_circuit, hc]
      simp only [update, hc, Circuit.modify, hn, Option.map_some, ← hf]
      exact circuit_insert s h (f c)

theorem circuit_carryOut (s : Server) (h : Handle) (r : Request) :
    (s.carryOut h r).circuit = s.circuit.after h r := by
  cases r with
  | create kind attr => exact circuit_insert s h { attr }
  | setAttr _ attr => exact circuit_update s h _ _ fun _ => rfl
  | enable _ | disable _ | stopReceiving _ => exact circuit_update s h _ _ fun _ => rfl
  | startReceiving _ quota => exact circuit_update s h _ _ fun _ => rfl
  | release _ slot =>
      have hf : ∀ c : Channel,
          Channel.node { c with outstanding := c.outstanding.erase slot } = id c.node :=
        fun _ => rfl
      exact (circuit_update s h _ id hf).trans (Circuit.modify_id _ _)
  | submit _ => rfl
  | destroy _ => exact circuit_erase s h
  | bind l =>
      ext1
      · rfl
      · funext k
        by_cases hk : k = l <;>
          simp [carryOut, Circuit.after, linked_circuit, Table.contains, Table.get?_insert, hk]
  | unbind l =>
      ext1
      · rfl
      · funext k
        by_cases hk : k = l <;>
          simp [carryOut, Circuit.after, linked_circuit, Table.contains, Table.get?_erase, hk]

@[simp] theorem circuit_record (s : Server) (c : Call) : (s.record c).circuit = s.circuit := rfl

@[simp] theorem circuit_strike (s : Server) (op : Operation) (kind : ChannelKind) :
    (s.strike op kind).2.circuit = s.circuit := rfl

@[simp] theorem circuit_probe (s : Server) (h : Handle) : (s.probe h).2.circuit = s.circuit := by
  simp only [probe]
  split
  · rfl
  · split <;> rfl

@[simp] theorem circuit_produce (s : Server) (h : Handle) :
    (s.produce h).2.circuit = s.circuit := by
  cases hc : s.channels.get? h with
  | none => simp [produce, hc]
  | some c =>
      simp only [produce, hc]
      split
      · refine (circuit_insert s h _).trans (Circuit.set_self ?_)
        simp [node?_circuit, hc, Channel.node]
      · rfl

@[simp] theorem circuit_fetch (s : Server) (h : Handle) : (s.fetch h).2.circuit = s.circuit := by
  have hp := circuit_probe s h
  simp only [fetch]
  split
  · simpa [*] using hp
  · simpa [*] using hp
  · rename_i q hq
    rw [hq] at hp
    exact (circuit_produce q h).trans hp

end Server
end CameraPipeline
