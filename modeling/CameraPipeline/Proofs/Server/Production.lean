import CameraPipeline.Proofs.Server.Outstanding

/-!
How channels count the units that they give. A fetch gives the unit of the count and moves it on,
receiving starts it anew, and no other call on a live channel touches it. A channel with a quota
gives no unit beyond it.
-/

namespace CameraPipeline

/-- Requests after which every channel counts on from where it was. -/
def Request.KeepsCounts : Request → Prop
  | create _ _ | startReceiving _ _ | destroy _ => False
  | _ => True

/-- Requests that take nothing from a channel at work and give it no other quota. -/
def Request.LetsWork : Request → Prop
  | create _ _ | startReceiving _ _ | stopReceiving _ | disable _ | unbind _ | destroy _ => False
  | _ => True

namespace Server

open MediaUnit

variable {s : Server} {h k : Handle} {n : Nat}

/-- The number of the next unit of a channel. -/
def next? (s : Server) (h : Handle) : Option Nat := (s.channels.get? h).map (·.produced)

theorem next?_of_channels {s t : Server} (hc : t.channels = s.channels) (k : Handle) :
    t.next? k = s.next? k := by
  rw [next?, hc, next?]

theorem next?_perform (s : Server) {r : Request} (hr : r.KeepsCounts) (k : Handle) :
    (s.perform r).2.next? k = s.next? k := by
  cases perform_cases s r with
  | inl hcase =>
      obtain ⟨fault, hf⟩ := hcase
      rw [hf]
      rfl
  | inr hcase =>
      obtain ⟨h, _, hf⟩ := hcase
      have hcarry := get?_carryOut (s.strike r.operation r.kind).2 h k r
      rw [hf]
      refine (congrArg (Option.map (·.produced)) hcarry).trans ?_
      split
      · subst k
        have hself : (s.strike r.operation r.kind).2.channels.get? h = s.channels.get? h := rfl
        rw [hself, next?]
        cases r with
        | create | startReceiving | destroy => exact hr.elim
        | bind | unbind | submit => rfl
        | setAttr | enable | disable | stopReceiving | release =>
            cases s.channels.get? h <;> rfl
      · rfl

theorem next?_startReceiving {quota : Quota}
    (ho : (s.perform (.startReceiving h quota)).1 = .ok k) :
    (s.perform (.startReceiving h quota)).2.next? h = some 0 := by
  cases perform_cases s (.startReceiving h quota) with
  | inl hcase =>
      obtain ⟨fault, hf⟩ := hcase
      rw [hf] at ho
      cases ho
  | inr hcase =>
      obtain ⟨k', hk, hf⟩ := hcase
      obtain rfl : k' = h := eq_of_permit hk rfl
      obtain ⟨c, hc⟩ := exists_of_permit_startReceiving hk
      rw [hf]
      have hu := get?_update (s.strike .startReceiving k'.kind).2 k' k'
        fun c => { c with receiving := some quota, produced := 0 }
      rw [if_pos rfl, show (s.strike .startReceiving k'.kind).2.channels = s.channels from rfl,
        hc] at hu
      exact congrArg (Option.map (·.produced)) hu

theorem payloadSize_probe (s : Server) (h : Handle) :
    (s.probe h).2.payloadSize = s.payloadSize := by
  simp only [probe]
  split
  · rfl
  · split <;> rfl

/-- What a fetch comes to: either no unit, with all counts as before, or the unit of the count. -/
theorem fetch_cases (s : Server) (h : Handle) :
    ((∀ u, (s.fetch h).1 ≠ .ok (some u)) ∧ ∀ k, (s.fetch h).2.next? k = s.next? k) ∨
      ∃ u, (s.fetch h).1 = .ok (some u) ∧ s.next? h = some u.sequence ∧
        u.payload = pattern u.sequence s.payloadSize ∧
        (s.fetch h).2.next? h = some (u.sequence + 1) ∧
        ∀ k, k ≠ h → (s.fetch h).2.next? k = s.next? k := by
  have hp := channels_probe s h
  have hsize := payloadSize_probe s h
  simp only [fetch]
  split <;> rename_i t ht <;> rw [ht] at hp hsize <;> simp only at hp hsize
  · exact .inl ⟨fun u hu => (by cases hu), next?_of_channels hp⟩
  · exact .inl ⟨fun u hu => (by cases hu), next?_of_channels hp⟩
  · simp only [produce]
    split
    · exact .inl ⟨fun u hu => (by cases hu), next?_of_channels hp⟩
    · rename_i c hc
      split
      · refine .inr ⟨.produce h c.attr c.produced c.nextSlot t.payloadSize, rfl, ?_, ?_, ?_, ?_⟩
        · rw [next?, ← hp, hc]
          rfl
        · rw [← hsize]
          rfl
        · rw [next?, Table.get?_insert_self]
          rfl
        · intro k hk
          rw [next?, Table.get?_insert_of_ne _ _ hk, next?, hp]
      · exact .inl ⟨fun u hu => (by cases hu), next?_of_channels hp⟩

theorem payloadSize_fetch (s : Server) (h : Handle) :
    (s.fetch h).2.payloadSize = s.payloadSize := by
  have hsize := payloadSize_probe s h
  simp only [fetch]
  split <;> rename_i t ht <;> rw [ht] at hsize
  · exact hsize
  · exact hsize
  · simp only [produce]
    split
    · exact hsize
    · split <;> exact hsize

theorem payloadSize_perform (s : Server) (r : Request) :
    (s.perform r).2.payloadSize = s.payloadSize := by
  have hu : ∀ (t : Server) h f, (t.update h f).payloadSize = t.payloadSize := fun t h f => by
    simp only [update]
    split <;> rfl
  cases perform_cases s r with
  | inl hcase =>
      obtain ⟨fault, hf⟩ := hcase
      rw [hf]
      rfl
  | inr hcase =>
      obtain ⟨h, _, hf⟩ := hcase
      rw [hf]
      cases r <;> first | rfl | exact hu _ _ _

/-- The channel is to give `quota` units, and has given `m` of them or more. -/
def Counts (s : Server) (h : Handle) (quota : UInt32) (m : Nat) : Prop :=
  ∃ c, s.channels.get? h = some c ∧ c.receiving = some (.count quota) ∧ m ≤ c.produced ∧
    c.produced ≤ quota.toNat

section Quota

variable {quota : UInt32} {m : Nat}

theorem Counts.of_channels {t : Server} (hs : s.Counts h quota m)
    (hc : t.channels = s.channels) : t.Counts h quota m := by
  rwa [Counts, hc]

theorem Counts.update (hs : s.Counts h quota m) (k : Handle) {f : Channel → Channel}
    (hr : ∀ c, (f c).receiving = c.receiving) (hf : ∀ c, (f c).produced = c.produced) :
    (s.update k f).Counts h quota m := by
  obtain ⟨c, hc, hquota, hle, hle'⟩ := hs
  by_cases hk : h = k
  · subst hk
    refine ⟨f c, by rw [get?_update, if_pos rfl, hc]; rfl, (hr c).trans hquota, ?_, ?_⟩
    · rwa [hf]
    · rwa [hf]
  · exact ⟨c, by rw [get?_update, if_neg hk, hc], hquota, hle, hle'⟩

theorem Counts.perform (hs : s.Counts h quota m) {r : Request} (hr : r.LetsWork) :
    (s.perform r).2.Counts h quota m := by
  cases perform_cases s r with
  | inl hcase =>
      obtain ⟨fault, hf⟩ := hcase
      rw [hf]
      exact hs
  | inr hcase =>
      obtain ⟨k, _, hf⟩ := hcase
      rw [hf]
      have ht : (s.strike r.operation r.kind).2.Counts h quota m := hs
      cases r with
      | create | startReceiving | stopReceiving | disable | unbind | destroy => exact hr.elim
      | bind | submit => exact ht
      | setAttr | enable | release =>
          exact ht.update k (fun _ => rfl) fun _ => rfl

theorem counts_startReceiving (ho : (s.perform (.startReceiving h (.count quota))).1 = .ok k) :
    (s.perform (.startReceiving h (.count quota))).2.Counts h quota 0 := by
  have hnext := next?_startReceiving ho
  cases perform_cases s (.startReceiving h (.count quota)) with
  | inl hcase =>
      obtain ⟨fault, hf⟩ := hcase
      rw [hf] at ho
      cases ho
  | inr hcase =>
      obtain ⟨k', hk, hf⟩ := hcase
      obtain rfl : k' = h := eq_of_permit hk rfl
      obtain ⟨c, hc, hzero⟩ := Option.map_eq_some_iff.mp hnext
      refine ⟨c, hc, ?_, Nat.zero_le _, hzero ▸ Nat.zero_le _⟩
      rw [hf] at hc
      have hu := get?_update (s.strike .startReceiving k'.kind).2 k' k'
        fun c => { c with receiving := some (.count quota), produced := 0 }
      rw [if_pos rfl] at hu
      obtain ⟨_, _, rfl⟩ := Option.map_eq_some_iff.mp (hu.symm.trans hc)
      rfl

/-- A still encoder gives a unit only of its quota. -/
theorem Counts.fetch (hs : s.Counts h quota m) (hk : h.kind = .jpeg) (k : Handle) :
    (s.fetch k).2.Counts h quota m ∧
      (k = h → ∀ u, (s.fetch k).1 = .ok (some u) → (s.fetch k).2.Counts h quota (m + 1)) := by
  have hp := channels_probe s k
  simp only [Server.fetch]
  split <;> rename_i t ht <;> rw [ht] at hp <;> simp only at hp
  · exact ⟨hs.of_channels hp, fun _ u hu => by cases hu⟩
  · exact ⟨hs.of_channels hp, fun _ u hu => by cases hu⟩
  · simp only [produce]
    split
    · exact ⟨hs.of_channels hp, fun _ u hu => by cases hu⟩
    · rename_i d hd
      split
      · rename_i hcan
        obtain ⟨c, hc, hquota, hle, hle'⟩ := hs.of_channels hp
        by_cases hkh : k = h
        · subst hkh
          obtain rfl : d = c := Option.some.inj (hd.symm.trans hc)
          have hleft : d.produced < quota.toNat := by
            simp only [canProduce, hd, hk, quotaLeft, hquota, Bool.and_eq_true,
              decide_eq_true_eq] at hcan
            exact hcan.2.1
          have hnew {m' : Nat} (hm : m' ≤ d.produced + 1) :
              Counts { t with channels := t.channels.insert k { d with
                produced := d.produced + 1
                nextSlot := d.nextSlot + 1
                outstanding := d.outstanding.insert d.nextSlot } } k quota m' :=
            ⟨_, Table.get?_insert_self _ _ _, hquota, hm, hleft⟩
          exact ⟨hnew (Nat.le_succ_of_le hle), fun _ _ _ => hnew (Nat.succ_le_succ hle)⟩
        · refine ⟨⟨c, ?_, hquota, hle, hle'⟩, fun heq => absurd heq hkh⟩
          rw [Table.get?_insert_of_ne _ _ (Ne.symm hkh), hc]
      · exact ⟨hs.of_channels hp, fun _ u hu => by cases hu⟩

end Quota

end Server
end CameraPipeline
