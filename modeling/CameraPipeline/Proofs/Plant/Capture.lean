import CameraPipeline.Proofs.Plant.Photos

/-!
A photo session from within. The pump of the session is the only one that reads its channel, so
the units that it fetches are numbered by its own count. Each of them goes to the directory before
the next one is fetched, and the pump ends when it has taken as many as it was started for.
-/

namespace CameraPipeline

open MediaUnit

/-- Changes in which nobody asks a pump to stop, starts one, or makes a channel count anew. -/
def Change.IsCalm (c : Change) : Prop :=
  c.Within Request.KeepsCounts (fun _ => False) ∧ ¬c.IsStop

theorem Change.IsDrift.calm {c : Change} (h : c.IsDrift) : c.IsCalm := by
  cases c <;> first | exact ⟨trivial, id⟩ | exact h.elim

/-- A pump that takes `n` photos for the sink `d`, and that nobody has asked to stop. -/
structure Pump.Shoots (pump : Pump) (d : SinkId) (n : UInt32) : Prop where
  stream : pump.stream = .photo
  source : pump.source.kind = .jpeg
  sink : d ∈ pump.sinks
  limit : pump.limit = some n
  willing : pump.worker.stopRequested = false

/-- How many photos the directory shows while the pump stands where it does, if there were `base`
of them before the session. The photo in hand may or may not be among them. -/
def Pump.Progress (pump : Pump) (d : SinkId) (size : Nat) (n : UInt32) (base m : Nat) : Prop :=
  match pump.phase with
  | .checking | .releasing _ => m = max base pump.taken ∧ pump.taken ≤ n.toNat
  | .fetching => m = max base pump.taken ∧ pump.taken < n.toNat
  | .offering u sink rest =>
    (u.sequence + 1 = pump.taken ∧ u.payload = pattern u.sequence size) ∧
      pump.taken ≤ n.toNat ∧
      (m = max base pump.taken ∨ m = max base u.sequence ∧ d ∈ sink :: rest)
  | .ended => m = max base pump.taken ∧ pump.taken = n.toNat

namespace Pump

variable {pump pump' : Pump} {d sink : SinkId} {size base m : Nat} {n : UInt32} {u : MediaUnit}
  {rest : List SinkId}

theorem taken_fetched (pump : Pump) {r : Except Fault (Option MediaUnit)}
    (hr : ∀ u, r ≠ .ok (some u)) : (pump.fetched (.ofServer r)).taken = pump.taken := by
  match r with
  | .ok (some u) => exact absurd rfl (hr u)
  | .ok none | .error _ => rfl

theorem Shoots.later (h : pump.Shoots d n) (hb : pump.Becomes pump')
    (hw : pump'.worker.stopRequested = pump.worker.stopRequested) : pump'.Shoots d n where
  stream := hb.stream.trans h.stream
  source := hb.source ▸ h.source
  sink := hb.sinks ▸ h.sink
  limit := hb.limit.trans h.limit
  willing := hw.trans h.willing

namespace Progress

theorem check (h : pump.Progress d size n base m) (hs : pump.Shoots d n)
    (phase : pump.phase = .checking) : pump.check.Progress d size n base m := by
  simp only [Progress, phase] at h
  simp only [Progress, Pump.check, hs.willing, Bool.false_or, atLimit, hs.limit, Option.any_some,
    decide_eq_true_eq]
  by_cases hn : n.toNat ≤ pump.taken
  · simp only [hn, if_true]
    exact ⟨h.1, Nat.le_antisymm h.2 hn⟩
  · simp only [hn, if_false]
    exact ⟨h.1, Nat.lt_of_not_le hn⟩

/-- The unit that was just fetched is the next photo, and has yet to come to the directory. -/
theorem fetched_unit (h : pump.Progress d size n base m) (hs : pump.Shoots d n)
    (phase : pump.phase = .fetching) (hn : u.sequence = pump.taken)
    (hu : u.payload = pattern u.sequence size) :
    (pump.fetched (.unit u)).Progress d size n base m := by
  simp only [Progress, phase] at h
  have hsinks : ∃ sink rest, pump.sinks = sink :: rest := List.exists_cons_of_ne_nil
    (List.ne_nil_of_mem hs.sink)
  obtain ⟨sink, rest, hsinks⟩ := hsinks
  simp only [Progress, fetched, hsinks, PumpPhase.dispatch]
  exact ⟨⟨by rw [hn], hu⟩, h.2, .inr ⟨by rw [hn]; exact h.1, hsinks ▸ hs.sink⟩⟩

theorem fetched_idle (h : pump.Progress d size n base m) (phase : pump.phase = .fetching)
    {r : Except Fault (Option MediaUnit)} (hr : ∀ u, r ≠ .ok (some u)) :
    (pump.fetched (.ofServer r)).Progress d size n base m := by
  simp only [Progress, phase] at h
  match r with
  | .ok (some u) => exact absurd rfl (hr u)
  | .ok none | .error _ => exact ⟨h.1, Nat.le_of_lt h.2⟩

/-- The photo goes on to the other sinks, and if it was the directory's turn it is there now. -/
theorem offered (h : pump.Progress d size n base m) (phase : pump.phase = .offering u sink rest)
    (taken : Bool) :
    (pump.offered u rest taken).Progress d size n base
      (if sink = d then max m (u.sequence + 1) else m) := by
  simp only [Progress, phase] at h
  obtain ⟨⟨hn, hu⟩, hle, hm⟩ := h
  have hm' : (if sink = d then max m (u.sequence + 1) else m) = max base pump.taken ∨
      (if sink = d then max m (u.sequence + 1) else m) = max base u.sequence ∧ d ∈ rest := by
    split
    · left
      omega
    · rename_i hne
      refine hm.imp_right fun hm => ⟨hm.1, ?_⟩
      exact (List.mem_cons.mp hm.2).resolve_left fun h => hne h.symm
  cases rest with
  | nil => exact ⟨hm'.resolve_right fun h => List.not_mem_nil h.2, hle⟩
  | cons sink' rest => exact ⟨⟨hn, hu⟩, hle, hm'⟩

theorem released (h : pump.Progress d size n base m) (phase : pump.phase = .releasing u)
    (taken : Bool) : (pump.released taken).Progress d size n base m := by
  simp only [Progress, phase] at h
  have hp : (pump.released taken).phase = .checking := rfl
  simp only [Progress, hp, taken_released]
  exact h

end Progress
end Pump

namespace Plant

variable {p q : Plant} {d : SinkId} {size base m : Nat} {n : UInt32} {id : PumpId} {pump : Pump}

/-- The pump is at work, its channel counts with it, and the directory shows what it should. -/
structure Shooting (p : Plant) (d : SinkId) (size : Nat) (n : UInt32) (base : Nat) (pump : Pump)
    (m : Nat) : Prop where
  shoots : pump.Shoots d n
  count : p.server.next? pump.source = some pump.taken
  progress : pump.Progress d size n base m
  shows : p.Shows d size m

theorem Shooting.advanced (hs : p.Shooting d size n base pump m) (hp : p.pump? id = some pump)
    (h : Advanced p id q) :
    ∃ pump' m', q.pump? id = some pump' ∧ q.Shooting d size n base pump' m' := by
  have hshows : (∀ u sink rest, pump.phase ≠ .offering u sink rest) → q.Shows d size m := by
    refine fun hne => hs.shows.advanced h fun pump' u sink rest hp' phase => ?_
    rw [hp] at hp'
    cases hp'
    exact absurd phase (hne u sink rest)
  cases h with
  | stays => exact ⟨pump, m, hp, hs⟩
  | checks pump' hp' phase =>
      rw [hp] at hp'
      cases hp'
      exact ⟨pump.check, m, pump?_setPump_self hp _,
        hs.shoots.later (Pump.check_becomes phase) rfl, hs.count,
        hs.progress.check hs.shoots phase, hshows (by simp [phase])⟩
  | fetches pump' hp' phase answer ha =>
      rw [hp] at hp'
      cases hp'
      have hbecomes := Pump.fetched_becomes phase answer
      have hshoots := hs.shoots.later hbecomes (by rw [Pump.worker_fetched])
      have hshows := hshows (by simp [phase])
      refine ⟨pump.fetched answer, m, pump?_setPump_self hp _, hshoots, ?_, ?_, hshows⟩
      · show (p.server.fetch pump.source).2.next? (pump.fetched answer).source = _
        rw [hbecomes.source, ha]
        cases p.server.fetch_cases pump.source with
        | inl hcase =>
            obtain ⟨hidle, hn⟩ := hcase
            rw [hn, hs.count, Pump.taken_fetched pump hidle]
        | inr hcase =>
            obtain ⟨u, hu, hn, _, hn', _⟩ := hcase
            rw [hs.count] at hn
            rw [hu, hn', ← Option.some.inj hn]
            rfl
      · rw [ha]
        cases p.server.fetch_cases pump.source with
        | inl hcase =>
            obtain ⟨hidle, _⟩ := hcase
            exact hs.progress.fetched_idle phase hidle
        | inr hcase =>
            obtain ⟨u, hu, hn, hpay, _⟩ := hcase
            rw [hu]
            rw [hs.count] at hn
            exact hs.progress.fetched_unit hs.shoots phase (Option.some.inj hn).symm
              (hs.shows.bytes ▸ hpay)
  | offers pump' hp' u sink rest phase taken p' ho =>
      rw [hp] at hp'
      cases hp'
      have hp' : p'.pump? id = some pump := by rwa [pump?, (offer_frame ho).2.1]
      have hbecomes := Pump.offered_becomes phase taken
      have hprog := hs.progress
      simp only [Pump.Progress, phase] at hprog
      obtain ⟨⟨hn, hu⟩, _, hm⟩ := hprog
      have hle : u.sequence ≤ m := by omega
      refine ⟨pump.offered u rest taken, _, pump?_setPump_self hp' _, hs.shoots.later hbecomes rfl,
        ?_, hs.progress.offered phase taken,
        hs.shows.offers_photo hp phase hs.shoots.stream hle hu ho⟩
      show p'.server.next? pump.source = some pump.taken
      rw [(offer_frame ho).1, hs.count]
  | releases pump' hp' u phase taken fault _ =>
      rw [hp] at hp'
      cases hp'
      have hbecomes := Pump.released_becomes phase taken
      have hshoots := hs.shoots.later hbecomes (by rw [Pump.worker_released])
      refine ⟨pump.released taken, m, pump?_setPump_self hp _, hshoots, ?_,
        hs.progress.released phase taken, hshows (by simp [phase])⟩
      show (p.server.perform (.release pump.source u.slot)).2.next? (pump.released taken).source = _
      rw [hbecomes.source, Pump.taken_released, ← hs.count]
      exact Server.next?_perform _ (r := .release pump.source u.slot) trivial _

theorem Shooting.other (hs : p.Shooting d size n base pump m) {k : PumpId}
    (h : Advanced p k q) (hother : ∀ pump', p.pump? k = some pump' → pump'.phase ≠ .ended →
      pump'.stream ≠ .photo ∧ pump'.source ≠ pump.source) :
    q.Shooting d size n base pump m where
  shoots := hs.shoots
  count := by
    rw [← hs.count]
    cases h with
    | stays | checks => rfl
    | fetches pump' hp' phase answer ha =>
        have hne := (hother pump' hp' (by simp [phase])).2
        show (p.server.fetch pump'.source).2.next? _ = _
        cases p.server.fetch_cases pump'.source with
        | inl hcase =>
            obtain ⟨_, hn⟩ := hcase
            exact hn _
        | inr hcase =>
            obtain ⟨_, _, _, _, _, hn⟩ := hcase
            exact hn _ hne.symm
    | offers pump' hp' u sink rest phase taken p' ho =>
        show p'.server.next? _ = _
        rw [(offer_frame ho).1]
    | releases pump' hp' u phase taken fault _ =>
        exact Server.next?_perform _ (r := .release pump'.source u.slot) trivial _
  progress := hs.progress
  shows := hs.shows.advanced h fun pump' u sink rest hp' phase =>
    (hother pump' hp' (by simp [phase])).1

/-- A session of the pump `id`, with no other pump that takes photos. -/
structure Session (p : Plant) (d : SinkId) (size : Nat) (n : UInt32) (base : Nat) (id : PumpId) :
    Prop where
  focused : p.Focused
  alone : ∀ k pump, k ≠ id → p.pump? k = some pump → pump.stream = .photo → pump.hasEnded
  shooting : ∃ pump m, p.pump? id = some pump ∧ p.Shooting d size n base pump m

namespace Session

theorem advance (hs : p.Session d size n base id) (k : PumpId) :
    ∃ pump m, (p.advance k).pump? id = some pump ∧
      (p.advance k).Shooting d size n base pump m := by
  obtain ⟨pump, m, hp, hsh⟩ := hs.shooting
  have h := advanced p k
  by_cases hk : id = k
  · subst hk
    exact hsh.advanced hp h
  · refine ⟨pump, m, by rw [h.pump?_ne hk, hp], hsh.other h fun pump' hp' hrun => ?_⟩
    have hst : pump'.stream ≠ .photo := fun hst =>
      absurd (hs.alone k pump' (Ne.symm hk) hp' hst) (by simpa [Pump.hasEnded] using hrun)
    refine ⟨hst, fun hsrc => hst ?_⟩
    exact hs.focused k pump' hp' (hsrc ▸ hsh.shoots.source)

theorem still (hs : p.Session d size n base id) {c : Change} (hc : ∀ k, c ≠ .move (.advance k))
    (hcalm : c.IsCalm) :
    ∃ pump m, (p.apply c).pump? id = some pump ∧
      (p.apply c).Shooting d size n base pump m := by
  obtain ⟨pump, m, hp, hsh⟩ := hs.shooting
  have hshows := hsh.shows.apply c fun k _ h => absurd h (hc k)
  cases applied p c with
  | advance k => exact absurd rfl (hc k)
  | request r =>
      have hpump : (p.apply (.request r)).pump? id = some pump := by
        rwa [apply, pump?, pumps_serve]
      refine ⟨pump, m, hpump, hsh.shoots, ?_, hsh.progress, hshows⟩
      rw [apply, server_serve, Server.next?_perform _ hcalm.1, hsh.count]
  | start => exact hcalm.1.elim
  | handled _ k pump₁ pump' hp₁ h stop server pumps =>
      have hpump : ∀ k', (p.apply c).pump? k' = (p.setPump k pump').pump? k' := fun k' => by
        rw [pump?, pumps]
        rfl
      by_cases hk : id = k
      · subst hk
        rw [hp] at hp₁
        cases hp₁
        refine ⟨pump', m, by rw [hpump, pump?_setPump_self hp],
          hsh.shoots.later h.becomes (stop hcalm.2), ?_, ?_, hshows⟩
        · rw [server, h.eq]
          exact hsh.count
        · rw [h.eq]
          exact hsh.progress
      · exact ⟨pump, m, by rw [hpump, pump?_setPump_ne p hk, hp], hsh.shoots,
          by rw [server, hsh.count], hsh.progress, hshows⟩
  | idle _ server pumps =>
      exact ⟨pump, m, by rw [pump?, pumps]; exact hp, hsh.shoots, by rw [server, hsh.count],
        hsh.progress, hshows⟩

theorem apply (hs : p.Session d size n base id) {c : Change} (hcalm : c.IsCalm) :
    (p.apply c).Session d size n base id where
  focused := hs.focused.apply fun pump hc => by
    subst hc
    exact hcalm.1.elim
  alone k pump' hk hp' hst := by
    cases pump?_apply p c hp' with
    | inl hcase =>
        obtain ⟨pump, hp, hb⟩ := hcase
        exact hb.ended (hs.alone k pump hk hp (hb.stream ▸ hst))
    | inr heq =>
        subst heq
        exact hcalm.1.elim
  shooting := by
    by_cases hc : ∃ k, c = .move (.advance k)
    · obtain ⟨k, rfl⟩ := hc
      exact hs.advance k
    · exact hs.still (fun k h => hc ⟨k, h⟩) hcalm

/-- A pump that ended in a session has taken all its photos, and the directory shows them. -/
theorem ended (hs : p.Session d size n base id) (hp : p.pump? id = some pump)
    (he : pump.hasEnded) : p.Shows d size (max base n.toNat) ∧ p.Dark := by
  obtain ⟨pump', m, hp', hsh⟩ := hs.shooting
  rw [hp] at hp'
  cases hp'
  have phase : pump.phase = .ended := by simpa [Pump.hasEnded] using he
  have hprog := hsh.progress
  simp only [Pump.Progress, phase] at hprog
  obtain ⟨rfl, htaken⟩ := hprog
  refine ⟨htaken ▸ hsh.shows, fun k pump' hp' hst => ?_⟩
  by_cases hk : k = id
  · subst hk
    rw [hp] at hp'
    cases hp'
    exact he
  · exact hs.alone k pump' hk hp' hst

end Session

theorem Steps.session (h : Steps Change.IsCalm p q) (hp : p.Session d size n base id) :
    q.Session d size n base id :=
  h.keeps (I := fun p => p.Session d size n base id) (fun _ _ hc hs => hs.apply hc) hp

theorem Session.ask (hs : p.Session d size n base id) {r : Request} (hr : r.KeepsCounts) :
    (p.ask r).2.Session d size n base id := by
  have hturn := ((takeTurn_steps p).mono fun _ => Change.IsDrift.calm).session hs
  exact hturn.apply (c := .request r) ⟨hr, fun h => h⟩

/-- A session begins with its pump, on a channel that counts from nought. -/
theorem session_addPump (hp : p.Shows d size base) (hd : p.Dark) (hf : p.Focused)
    (hs : pump.Shoots d n) (phase : pump.phase = .checking) (taken : pump.taken = 0)
    (hcount : p.server.next? pump.source = some 0) :
    (p.addPump pump).2.Session d size n base p.pumps.length where
  focused := hf.apply (c := .start pump) fun pump' hc hk => by
    cases hc
    exact hs.stream
  alone k pump' hk hp' hst := by
    rw [pump?_addPump, if_neg hk] at hp'
    exact hd k pump' hp' hst
  shooting := by
    refine ⟨pump, base, by rw [pump?_addPump, if_pos rfl], hs, by rw [taken]; exact hcount, ?_,
      hp.apply (.start pump) fun _ _ => nofun⟩
    simp [Pump.Progress, phase, taken]

end Plant
end CameraPipeline
