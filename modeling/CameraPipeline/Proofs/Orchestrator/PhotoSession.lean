import CameraPipeline.Proofs.Orchestrator.Run
import CameraPipeline.Proofs.Plant.Capture

/-!
Photo sessions from their start to their stop. A session that starts sets one pump to work on a
channel that counts anew, and it can be stopped only when that pump has taken all its photos.
-/

namespace CameraPipeline

open Plant

section Opening

variable {p q : Plant} {d : SinkId} {size base : Nat}

theorem Plant.openPhoto_eq_ok {make : PumpMaker} {vi jpeg : Handle} {n : UInt32}
    {s : PhotoSession} (ho : p.openPhoto make vi jpeg n = (.ok s, q)) :
    ∃ k k' p₁, p.ask (.startReceiving jpeg (.count n)) = (.ok k, p₁) ∧
      s.pump = p₁.pumps.length ∧
      (((p₁.addPump (make .photo jpeg (some n))).2.settle s.pump).ask
        (.bind ⟨vi, jpeg⟩)) = (.ok k', q) ∧
      s.stack.steps =
        [.request (.unbind ⟨vi, jpeg⟩), .pump s.pump, .request (.stopReceiving k)] := by
  simp only [openPhoto, construct] at ho
  split at ho
  · rename_i hc
    split at hc
    · rename_i hphoto
      cases hc
      cases ho
      obtain ⟨_, site₁, hreceive, hphoto⟩ := Construction.bind_eq_ok hphoto
      obtain ⟨id, site₂, hstart, hphoto⟩ := Construction.bind_eq_ok hphoto
      obtain ⟨_, site₃, hbind, hphoto⟩ := Construction.bind_eq_ok hphoto
      cases hphoto
      obtain ⟨k, hreceive, hstack₁⟩ := Construction.done_eq_ok hreceive
      obtain ⟨k', hbind, hstack₃⟩ := Construction.done_eq_ok hbind
      cases hstart
      refine ⟨k, k', site₁.plant, hreceive, rfl, hbind, ?_⟩
      rw [hstack₃, hstack₁]
      rfl
    · cases hc
  · cases ho

/-- A session opens on a channel that counts anew, with a new pump that nobody has asked to stop,
and keeps that pump on its stack. -/
theorem Plant.openPhoto_session {make : PumpMaker} {vi jpeg : Handle} {n : UInt32}
    {s : PhotoSession} (hshows : p.Shows d size base) (hd : p.Dark) (hf : p.Focused)
    (hs : (make .photo jpeg (some n)).Shoots d n)
    (hsrc : (make .photo jpeg (some n)).source = jpeg)
    (phase : (make .photo jpeg (some n)).phase = .checking)
    (taken : (make .photo jpeg (some n)).taken = 0)
    (ho : p.openPhoto make vi jpeg n = (.ok s, q)) :
    q.Session d size n base s.pump ∧ s.stack.pumps = [s.pump] := by
  obtain ⟨k, k', p₁, hreceive, hid, hbind, hstack⟩ := openPhoto_eq_ok ho
  refine ⟨?_, by rw [Stack.pumps, hstack]; rfl⟩
  have hsteps :
      Steps (Change.Within (· = .startReceiving jpeg (.count n)) fun _ => False) p p₁ := by
    have h := ask_steps p (.startReceiving jpeg (.count n))
    rwa [hreceive] at h
  obtain ⟨hshows, hd⟩ := hsteps.dark (fun _ => False.elim) hshows hd
  have hf := hsteps.focused (fun _ => False.elim) hf
  have hcount : p₁.server.next? jpeg = some 0 := by
    have hans : (p.takeTurn.server.perform (.startReceiving jpeg (.count n))).1 = .ok k := by
      rw [← answer_serve, ← ask_eq, hreceive]
    have hnext := Server.next?_startReceiving hans
    rwa [← server_serve, ← ask_eq, hreceive] at hnext
  have hopened := session_addPump hshows hd hf hs phase taken (by rw [hsrc]; exact hcount)
  have hsettled := ((settle_steps _ s.pump).mono fun _ => Change.IsDrift.calm).session hopened
  have hlinked := hsettled.ask (r := .bind ⟨vi, jpeg⟩) trivial
  rw [hbind] at hlinked
  exact hid ▸ hlinked

end Opening

theorem PhotoSession.isDrained_eq {s : PhotoSession} {p : Plant} {pump : Pump}
    (hs : s.stack.pumps = [s.pump]) (hp : p.pump? s.pump = some pump)
    (hst : pump.stream = .photo) : s.isDrained p = p.waitPump s.pump := by
  have hfind : s.stack.pumpOf? p .photo = some s.pump := by simp [Stack.pumpOf?, hs, hp, hst]
  simp only [isDrained, hfind]

theorem PhotoSession.isDrained_calm (s : PhotoSession) (p : Plant) :
    Plant.Steps Change.IsCalm p (s.isDrained p).2 :=
  s.isDrained_awaits (fun _ => ⟨trivial, fun h => h⟩) p

namespace Orchestrator

open CommandAction

variable {o o' : Orchestrator} {d : SinkId} {size base m : Nat} {n : UInt32}

/-- Photos are fed to the sink `d`, and the owner knows its pumps and channels. -/
structure Ready (o : Orchestrator) (d : SinkId) : Prop where
  kinded : o.Kinded
  feed : (Stream.photo, d) ∈ o.feeds
  honest : o.plant.Honest

/-- No session takes photos, and the sink `d` shows the first `m`. -/
structure Resting (o : Orchestrator) (d : SinkId) (size m : Nat) : Prop extends Ready o d where
  focused : o.plant.Focused
  shows : o.plant.Shows d size m
  dark : o.plant.Dark

/-- A session takes `n` photos, after sessions that left `base` of them. -/
structure Taking (o : Orchestrator) (d : SinkId) (size : Nat) (n : UInt32) (base : Nat) : Prop
    extends Ready o d where
  session : ∃ b s, o.built = some b ∧ b.photo = some s ∧ s.stack.pumps = [s.pump] ∧
    o.plant.Session d size n base s.pump

section Pumps

variable {shooting : Prop} {pump : Pump}

theorem honest_of_made (h : Made o.makePump shooting pump) : pump.Honest := by
  cases h <;> exact (fairMaker_makePump o).honest _ _ _

theorem photo_of_made (h : Made o.makePump shooting pump) (hk : pump.source.kind = .jpeg) :
    pump.stream = .photo := by
  cases h with
  | encoder stream h kind => cases kind.symm.trans hk
  | tap h kind => cases kind.symm.trans hk
  | photo => rfl

theorem not_photo_of_made (h : Made o.makePump False pump) : pump.stream ≠ .photo := by
  cases h with
  | encoder stream h kind coded =>
      intro heq
      subst heq
      cases coded with
      | inl hc => cases hc
      | inr hc => cases hc
  | tap => exact nofun
  | photo h max allowed => exact allowed.elim

theorem makePump_shoots (hf : (Stream.photo, d) ∈ o.feeds) {jpeg : Handle}
    (hk : jpeg.kind = .jpeg) (n : UInt32) : (o.makePump .photo jpeg (some n)).Shoots d n where
  stream := rfl
  source := hk
  sink := List.mem_filterMap.mpr ⟨_, hf, if_pos rfl⟩
  limit := rfl
  willing := rfl

end Pumps

theorem Resting.transitions (hr : o.Resting d size m) (h : Transitions False o o') :
    o'.Resting d size m := by
  obtain ⟨hk, hst⟩ := h.staffed hr.kinded
  obtain ⟨hshows, hdark⟩ := hst.dark (fun _ => not_photo_of_made) hr.shows hr.dark
  exact {
    kinded := hk
    feed := h.frame.2.2 ▸ hr.feed
    honest := hst.honest (fun _ => honest_of_made) hr.honest
    focused := hst.focused (fun _ => photo_of_made) hr.focused
    shows := hshows
    dark := hdark }

theorem startPhoto_eq_ok {changed : Bool} (h : (o.handle (.startPhoto n)).1 = .ok changed) :
    n ≠ 0 ∧ ∃ b jpeg o₁ s plant, o.built = some b ∧ b.handles.jpeg = some jpeg ∧
      clearPhoto o b = .ok () o₁ ∧
      o₁.plant.openPhoto o.makePump b.handles.vi jpeg n = (.ok s, plant) ∧
      (o.handle (.startPhoto n)).2 =
        { o₁ with plant, built := some { b with photo := some s } } := by
  have hrun : startPhoto n o = .ok changed (o.handle (.startPhoto n)).2 := run_of_handle_ok h
  rw [startPhoto_eq] at hrun
  split at hrun
  · cases hrun
  · rename_i b hb
    split at hrun
    · cases hrun
    · split at hrun
      · cases hrun
      · rename_i jpeg hj
        split at hrun
        · cases hrun
        · rename_i hn
          split at hrun
          · cases hrun
          · rename_i o₁ hc
            split at hrun
            · cases hrun
            · rename_i s plant ho
              exact ⟨hn, b, jpeg, o₁, s, plant, hb, hj, hc, ho, (EStateM.Result.ok.inj hrun).2.symm⟩

/-- A session that starts finds the photos of those before it. -/
theorem Resting.startPhoto (hr : o.Resting d size base) {changed : Bool}
    (h : (o.handle (.startPhoto n)).1 = .ok changed) :
    (o.handle (.startPhoto n)).2.Taking d size n base := by
  obtain ⟨_, b, jpeg, o₁, s, plant, hb, hj, hclear, hopen, ho⟩ := startPhoto_eq_ok h
  have hk : jpeg.kind = .jpeg := (hr.kinded b hb).jpeg jpeg hj
  have hr₁ := hr.transitions (transitions_of_clearPhoto o hb hclear)
  have hstaffed := openPhoto_staffed o₁.plant o.makePump b.handles.vi hk n trivial
  rw [hopen] at hstaffed
  obtain ⟨hsession, hstack⟩ := openPhoto_session hr₁.shows hr₁.dark hr₁.focused
    (makePump_shoots hr.feed hk n) rfl rfl rfl hopen
  rw [ho]
  exact {
    kinded := by
      intro _ heq
      cases heq
      exact hr.kinded b hb
    feed := hr₁.feed
    honest := hstaffed.honest (fun _ => honest_of_made) hr₁.honest
    session := ⟨_, s, rfl, rfl, hstack, hsession⟩ }

/-- What a stop leaves: either the session as it was, or nothing of it. -/
theorem stopPhoto_cases {b : Built} {s : PhotoSession} (hb : o.built = some b)
    (hs : b.photo = some s) :
    ((s.isDrained o.plant).1 = false ∧
      (o.handle .stopPhoto).2 = { o with plant := (s.isDrained o.plant).2 }) ∨
    ((s.isDrained o.plant).1 = true ∧
      (o.handle .stopPhoto).2 =
        { o with
          plant := (s.stack.unwind (s.isDrained o.plant).2).2
          built := some { b with photo := none } }) := by
  have hleft : (o.handle .stopPhoto).2 = left (stopPhoto o) := (left_run o .stopPhoto).symm
  rw [hleft, stopPhoto_eq, hb]
  dsimp only
  rw [hs]
  dsimp only
  cases hd : (s.isDrained o.plant).1 with
  | false => exact .inl ⟨rfl, rfl⟩
  | true =>
      refine .inr ⟨rfl, ?_⟩
      rw [if_pos rfl, closePhoto_eq]
      dsimp only
      split <;> rename_i hc <;> split at hc <;> cases hc <;> rfl

theorem Taking.calm (ht : o.Taking d size n base) {plant : Plant}
    (h : Steps Change.IsCalm o.plant plant) : { o with plant }.Taking d size n base := by
  obtain ⟨b, s, hb, hs, hstack, hsession⟩ := ht.session
  exact {
    kinded := ht.kinded
    feed := ht.feed
    honest := h.honest (fun _ hc => hc.1.elim) ht.honest
    session := ⟨b, s, hb, hs, hstack, h.session hsession⟩ }

/-- A stop that comes too early leaves the session; one that ends it finds all its photos. -/
theorem Taking.stopPhoto (ht : o.Taking d size n base) :
    ((o.handle .stopPhoto).2.photoSession?.isSome ∧
      (o.handle .stopPhoto).2.Taking d size n base) ∨
    ((o.handle .stopPhoto).2.photoSession? = none ∧
      (o.handle .stopPhoto).2.Resting d size (max base n.toNat)) := by
  obtain ⟨b, s, hb, hs, hstack, hsession⟩ := ht.session
  have hcalm := s.isDrained_calm o.plant
  cases stopPhoto_cases hb hs with
  | inl hcase =>
      obtain ⟨_, ho⟩ := hcase
      left
      rw [ho]
      exact ⟨by simp [photoSession?, hb, hs], ht.calm hcalm⟩
  | inr hcase =>
      obtain ⟨hdrained, ho⟩ := hcase
      right
      rw [ho]
      refine ⟨rfl, ?_⟩
      -- the pump was seen to end, so the session is complete when its stack is unwound
      obtain ⟨pump, m, hp, hsh⟩ := hsession.shooting
      have hended : pump.hasEnded := by
        rw [PhotoSession.isDrained_eq hstack hp hsh.shoots.stream] at hdrained
        simp only [waitPump, hp, Worker.wait, Bool.or_eq_true] at hdrained
        exact hdrained.elim (ht.honest s.pump pump hp).seenEnd id
      obtain ⟨pump', hp', hb'⟩ := hcalm.continues s.pump pump hp
      have hsession' := hcalm.session hsession
      obtain ⟨hshows, hdark⟩ := hsession'.ended hp' (hb'.ended hended)
      have hunwind := s.stack.unwind_steps (s.isDrained o.plant).2
      obtain ⟨hshows, hdark⟩ := hunwind.dark (fun _ => False.elim) hshows hdark
      exact {
        kinded := by
          intro _ heq
          cases heq
          exact ht.kinded b hb
        feed := ht.feed
        honest := hunwind.honest (fun _ => False.elim)
          (hcalm.honest (fun _ hc => hc.1.elim) ht.honest)
        focused := hunwind.focused (fun _ => False.elim) hsession'.focused
        shows := hshows
        dark := hdark }

end Orchestrator
end CameraPipeline
