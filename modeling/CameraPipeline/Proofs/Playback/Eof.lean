import CameraPipeline.Proofs.Playback.Pass

/-!
What the announced end means. A track that closes its pass sees of the other one only whether it
runs, so the end is announced as well beside a track that was paused, never started or failed. As
long as no read fails and no control comes in between, it is announced when every track has read
its end.
-/

namespace CameraPipeline

namespace Reel

/-- The track does not run, and its loop waits or brings its last packet home. -/
structure Halted (r : Reel) : Prop where
  status : r.lane.status ≠ .running
  phase : r.lane.phase = .idle ∨ r.lane.phase.InFlight

/-- The track has read its end and has not settled yet. -/
def Ending (r : Reel) : Prop := r.Finishing ∨ r.Calling

theorem Done.halted {r : Reel} (h : r.Done) : r.Halted := ⟨h.not_running, .inl h.phase⟩

variable {c : Clip} {track : Track} {r r' : Reel} {otherRuns : Bool} {packet : Option Packet}
  {event : Option PlayerEvent}

theorem Ending.not_idle_or_inFlight (h : r.Ending) :
    ¬(r.lane.phase = .idle ∨ r.lane.phase.InFlight) := by
  obtain hf | hcall := h
  · obtain phase | ⟨phase | phase, -⟩ := hf.phase <;> simp [phase, LoopPhase.InFlight]
  · simp [hcall.phase, LoopPhase.InFlight]

theorem Underway.not_ending (hr : r.Underway) : ¬r.Ending := fun h =>
  h.not_idle_or_inFlight hr.phase

theorem Halted.not_ending (hr : r.Halted) : ¬r.Ending := fun h =>
  h.not_idle_or_inFlight hr.phase

theorem Turn.halted (h : r.Turn c track otherRuns r' packet event) (hr : r.Halted)
    (hfault : ¬r.MeetsFault c track) (hend : ¬r.MeetsEnd c track) :
    event = none ∧ r'.Halted := by
  obtain ⟨hstill, hphase⟩ := hr
  cases h with
  | waits phase => exact ⟨rfl, hstill, .inl phase⟩
  | looks _ status => exact absurd status hstill
  | reads => exact ⟨rfl, hstill, .inr trivial⟩
  | ends phase read => exact absurd ⟨phase, read⟩ hend
  | fails fault phase read => exact absurd ⟨phase, fault, read⟩ hfault
  | places => exact ⟨rfl, hstill, .inr trivial⟩
  | offers => exact ⟨rfl, hstill, .inl rfl⟩
  | rewinds phase | zeroes phase | leaves phase | closes phase | announces phase
  | pauses _ phase | reports _ phase => simp [phase, LoopPhase.InFlight] at hphase

end Reel

namespace Player

def Ending (p : Player) : Prop := ∃ track r, p.reel? track = some r ∧ r.Ending

/-- The act, coming after a run, leaves no doubt about the end: reads do not fail, a track that
reads its end runs beside one that runs or has ended as well, and tracks that have read their end
settle before they are started, paused or moved again. -/
def Plain (p : Player) (run : List Act) : Act → Prop
  | .loop track => ¬(p.after run).MeetsFault track ∧
      ((p.after run).MeetsEnd track → (p.after run).isRunning track = true ∧
        ∀ r, (p.after run).reel? track.other = some r →
          r.lane.status = .running ∨ r.Done ∧ p.HasEnded run track.other)
  | .transition _ _ | .seek _ _ => ¬(p.after run).Ending
  | .place _ _ => True
  | .emit event => event ≠ .eof

/-- Every act that follows the run is plain. -/
def PlainFrom (p : Player) (run : List Act) : List Act → Prop
  | [] => True
  | a :: acts => p.Plain run a ∧ p.PlainFrom (run ++ [a]) acts

/-- Every track runs, halts or is ending, and is on course while one is ending. -/
structure Orderly (ended : Track → Prop) (p : Player) : Prop where
  stage : ∀ track r, p.reel? track = some r → r.Underway ∨ r.Halted ∨ r.Ending
  course : p.Ending → p.OnCourse ended

variable {p q : Player} {ended ended' : Track → Prop} {track : Track} {c : Clip}
  {acts run : List Act} {a : Act}

theorem OnCourse.orderly (h : p.OnCourse ended) : p.Orderly ended where
  stage track r hr := by
    obtain hu | ⟨-, hf | hcall | hd⟩ := h.stage track r hr
    · exact .inl hu
    · exact .inr (.inr (.inl hf))
    · exact .inr (.inr (.inr hcall))
    · exact .inr (.inl hd.halted)
  course _ := h

theorem orderly_of_settled (h : ∀ track r, p.reel? track = some r → r.Underway ∨ r.Halted) :
    p.Orderly ended where
  stage track r hr := (h track r hr).imp_right .inl
  course := fun ⟨track, r, hr, hending⟩ =>
    absurd hending ((h track r hr).elim Reel.Underway.not_ending Reel.Halted.not_ending)

namespace Orderly

theorem settled (h : p.Orderly ended) (hp : ¬p.Ending) {r : Reel} (hr : p.reel? track = some r) :
    r.Underway ∨ r.Halted := by
  obtain hu | hhalt | hending := h.stage track r hr
  · exact .inl hu
  · exact .inr hhalt
  · exact absurd ⟨track, r, hr, hending⟩ hp

theorem loop (h : p.Orderly ended) (hc : p.clip? = some c) (hfault : ¬p.MeetsFault track)
    (hend : p.MeetsEnd track → p.isRunning track = true ∧ ∀ r, p.reel? track.other = some r →
      r.lane.status = .running ∨ r.Done ∧ ended track.other) :
    (p.advance track).Orderly fun k => ended k ∨ k = track ∧ p.MeetsEnd track := by
  by_cases hp : p.Ending
  · exact ((h.course hp).advance hc hfault).orderly
  cases hr : p.reel? track with
  | none =>
      rw [advance_eq_self hr]
      exact orderly_of_settled fun k s hs => h.settled hp hs
  | some r =>
      obtain ⟨r', packet, event, turn, hq⟩ := advance_turn hc hr
      have hread : ¬r.MeetsFault c track := fun hm => hfault ⟨c, r, hc, hr, hm⟩
      have hsettled (hr' : r'.Underway ∨ r'.Halted) :
          (p.advance track).Orderly fun k => ended k ∨ k = track ∧ p.MeetsEnd track :=
        orderly_of_settled fun k s hs => by
          obtain ⟨rfl, rfl⟩ | ⟨rfl, hold⟩ := hq.reel_cases hs
          · exact hr'
          · exact h.settled hp hold
      obtain hu | hhalt := h.settled hp hr
      · obtain hu' | ⟨hm, hf⟩ := (turn.underway hu hread).2
        · exact hsettled (.inl hu')
        · have hmeets : p.MeetsEnd track := ⟨c, r, hc, hr, hm⟩
          refine OnCourse.orderly ⟨fun k s hs => ?_, fun k s s' hs hcall _ => ?_⟩
          · obtain ⟨rfl, rfl⟩ | ⟨rfl, hold⟩ := hq.reel_cases hs
            · exact .inr ⟨.inr ⟨rfl, hmeets⟩, .inl hf⟩
            · obtain hrunning | ⟨hd, he⟩ := (hend hmeets).2 s hold
              · exact .inl ((h.settled hp hold).resolve_right fun hh => hh.status hrunning)
              · exact .inr ⟨.inl he, .inr (.inr hd)⟩
          · obtain ⟨rfl, rfl⟩ | ⟨rfl, hold⟩ := hq.reel_cases hs
            · exact absurd hf.status hcall.not_running
            · exact absurd ⟨_, s, hold, .inr hcall⟩ hp
      · refine hsettled (.inr (turn.halted hhalt hread fun hm => ?_).2)
        obtain ⟨s, hs, hrunning⟩ := exists_of_isRunning (hend ⟨c, r, hc, hr, hm⟩).1
        cases hr.symm.trans hs
        exact hhalt.status hrunning

/-- A control that starts, pauses or moves tracks while none is ending. -/
theorem heeded (h : p.Orderly ended) (hp : ¬p.Ending) (hq : p.Heeded c a q)
    (hphase : ∀ track r, (Reel.heed c track r a).lane.phase = r.lane.phase) :
    q.Orderly ended' :=
  orderly_of_settled fun track r' hr' => by
    rw [hq.reel, Option.map_eq_some_iff] at hr'
    obtain ⟨r, hr, rfl⟩ := hr'
    have hidle : r.lane.phase = .idle ∨ r.lane.phase.InFlight :=
      (h.settled hp hr).elim Reel.Underway.phase Reel.Halted.phase
    rw [← hphase track r] at hidle
    by_cases hrunning : (r.heed c track a).lane.status = .running
    · exact .inl ⟨hrunning, hidle⟩
    · exact .inr ⟨hrunning, hidle⟩

theorem mono (h : p.Orderly ended) (hended : ∀ track, ended track → ended' track) :
    p.Orderly ended' :=
  ⟨h.stage, fun hp => (h.course hp).mono hended⟩

/-- Positions do not matter. -/
theorem placed (h : p.Orderly ended) (hq : ∀ track r', q.reel? track = some r' →
    ∃ r positionMs, p.reel? track = some r ∧
      r' = { r with lane := { r.lane with positionMs } }) : q.Orderly ended where
  stage track r' hr' := by
    obtain ⟨r, positionMs, hr, rfl⟩ := hq track r' hr'
    obtain hu | hhalt | hf | hcall := h.stage track r hr
    · exact .inl ⟨hu.status, hu.phase⟩
    · exact .inr (.inl ⟨hhalt.status, hhalt.phase⟩)
    · exact .inr (.inr (.inl ⟨hf.status, hf.phase⟩))
    · exact .inr (.inr (.inr ⟨hcall.status, hcall.phase, hcall.cursor⟩))
  course := by
    rintro ⟨track, r', hr', hending⟩
    obtain ⟨r, positionMs, hr, rfl⟩ := hq track r' hr'
    have hcourse : p.OnCourse ended := h.course ⟨track, r, hr, hending.imp
      (fun hf => ⟨hf.status, hf.phase⟩) fun hcall => ⟨hcall.status, hcall.phase, hcall.cursor⟩⟩
    constructor
    · intro k s' hs'
      obtain ⟨s, positionMs, hs, rfl⟩ := hq k s' hs'
      obtain hu | ⟨he, hf | hcall | hd⟩ := hcourse.stage k s hs
      · exact .inl ⟨hu.status, hu.phase⟩
      · exact .inr ⟨he, .inl ⟨hf.status, hf.phase⟩⟩
      · exact .inr ⟨he, .inr (.inl ⟨hcall.status, hcall.phase, hcall.cursor⟩)⟩
      · exact .inr ⟨he, .inr (.inr ⟨hd.status, hd.phase, hd.cursor⟩)⟩
    · intro k s' t' hs' hcall ht'
      obtain ⟨s, positionMs, hs, rfl⟩ := hq k s' hs'
      obtain ⟨t, positionMs', ht, rfl⟩ := hq k.other t' ht'
      have hd := hcourse.caller k s t hs ⟨hcall.status, hcall.phase, hcall.cursor⟩ ht
      exact ⟨hd.status, hd.phase, hd.cursor⟩

/-- A plain act keeps the order. -/
theorem act (h : (p.after run).Orderly (p.HasEnded run)) (hc : (p.after run).clip? = some c)
    (ha : p.Plain run a) : (p.after (run ++ [a])).Orderly (p.HasEnded (run ++ [a])) := by
  rw [after_append]
  cases a with
  | loop track =>
      refine (h.loop hc ha.1 ha.2).mono fun k hk => ?_
      obtain hended | ⟨rfl, hmeets⟩ := hk
      · exact hended.concat (by simp)
      · exact hasEnded_of_meets hmeets
  | transition track event =>
      refine h.heeded ha (act_heeded (a := .transition track event) hc (by simp)) fun k r => ?_
      simp only [Reel.heed]
      split <;> rfl
  | seek track positionMs =>
      refine h.heeded ha (act_heeded (a := .seek track positionMs) hc (by simp)) fun k r => ?_
      simp only [Reel.heed]
      split <;> rfl
  | place track positionMs =>
      have hq := act_heeded (a := .place track positionMs) hc (by simp)
      refine (h.placed fun k r' hr' => ?_).mono fun k hk => hk.concat (by simp)
      rw [after_cons, after_nil, hq.reel, Option.map_eq_some_iff] at hr'
      obtain ⟨r, hr, rfl⟩ := hr'
      by_cases hk : track = k
      · exact ⟨r, positionMs, hr, if_pos hk⟩
      · exact ⟨r, r.lane.positionMs, hr, if_neg hk⟩
  | emit event =>
      have hq := act_heeded (a := .emit event) hc (by simp)
      refine (h.placed fun k r' hr' => ?_).mono fun k hk => hk.concat (by simp)
      rw [after_cons, after_nil, hq.reel, Option.map_eq_some_iff] at hr'
      obtain ⟨r, hr, rfl⟩ := hr'
      exact ⟨r, r.lane.positionMs, hr, rfl⟩

theorem after (h : (p.after run).Orderly (p.HasEnded run)) (hc : (p.after run).clip? = some c)
    (hacts : p.PlainFrom run acts) :
    (p.after (run ++ acts)).Orderly (p.HasEnded (run ++ acts)) ∧
      (p.after (run ++ acts)).clip? = some c := by
  induction acts generalizing run with
  | nil => exact ⟨by rwa [List.append_nil], by rwa [List.append_nil]⟩
  | cons a acts ih =>
      rw [List.append_cons]
      refine ih (h.act hc hacts.1) ?_ hacts.2
      rw [after_append]
      exact (act_frame hc a).1

end Orderly

theorem plainFrom_append {acts' : List Act} : p.PlainFrom run (acts ++ acts') ↔
    p.PlainFrom run acts ∧ p.PlainFrom (run ++ acts) acts' := by
  induction acts generalizing run with
  | nil => simp [PlainFrom]
  | cons a acts ih => simp [PlainFrom, ih, and_assoc]

theorem eq_eof_of_emit {e : PlayerEvent} (h : (p.emit e).events = p.events ++ [.eof]) :
    e = .eof := by
  simp only [emit] at h
  split at h
  · simpa using h
  · simp at h

/-- Only the loop of a track that calls the end announces it. -/
theorem announcing_of_eof (hc : p.clip? = some c) (ha : a ≠ .emit .eof)
    (heof : (p.act a).events = p.events ++ [.eof]) :
    ∃ track r, a = .loop track ∧ p.reel? track = some r ∧ r.lane.phase = .announcing := by
  have hstill (h : (p.act a).events = p.events) : False := by simp [h] at heof
  obtain hq | hself | ⟨track, r, r', packet, event, rfl, hr, turn, hq⟩ := act_cases hc a
  · refine (hstill (hq.events fun e he => ?_)).elim
    subst he
    exact ha (congrArg Act.emit (eq_eof_of_emit heof))
  · exact (hstill (congrArg events hself)).elim
  · cases event with
    | none => exact (hstill hq.events).elim
    | some e =>
        cases eq_eof_of_emit (hq.events.symm.trans heof)
        cases turn with
        | announces phase => exact ⟨track, r, rfl, hr, phase⟩

/-- When the end is announced every track has read its end since it was last started, and is paused
at the start of the clip. -/
theorem hasEnded_of_eof {r : Reel} (hc : p.clip? = some c)
    (hstart : ∀ track r, p.reel? track = some r → r.Underway ∨ r.Halted)
    (hacts : p.PlainFrom [] (acts ++ [a]))
    (heof : (p.after (acts ++ [a])).events = (p.after acts).events ++ [.eof])
    (hr : (p.after (acts ++ [a])).reel? track = some r) : p.HasEnded acts track ∧ r.Done := by
  rw [plainFrom_append, List.nil_append] at hacts
  obtain ⟨hacts, ha, -⟩ := hacts
  have hsettled : (p.after []).Orderly (p.HasEnded []) := orderly_of_settled hstart
  obtain ⟨horder, hc⟩ := hsettled.after hc hacts
  rw [List.nil_append] at horder hc
  rw [after_append] at heof hr
  obtain ⟨k, s, rfl, hs, phase⟩ := announcing_of_eof hc (fun h => by subst h; exact ha rfl) heof
  have hcall : s.Calling := by
    obtain hu | hhalt | hf | hcall := horder.stage k s hs
    · simpa [phase, LoopPhase.InFlight] using hu.phase
    · simpa [phase, LoopPhase.InFlight] using hhalt.phase
    · simpa [phase] using hf.phase
    · exact hcall
  have hcourse := horder.course ⟨k, s, hs, .inr hcall⟩
  obtain ⟨s', packet, event, turn, hq⟩ := advance_turn hc hs
  obtain ⟨rfl, rfl⟩ | ⟨rfl, hold⟩ := hq.reel_cases hr
  · refine ⟨?_, (turn.calling hcall).2.2⟩
    obtain hu | ⟨hended, -⟩ := hcourse.stage _ s hs
    · exact absurd hu.status hcall.not_running
    · exact hended
  · have hd := hcourse.caller _ s r hs hcall hold
    refine ⟨?_, hd⟩
    obtain hu | ⟨hended, -⟩ := hcourse.stage _ r hold
    · exact absurd hu.status hd.not_running
    · exact hended

/-- A pass that no control disturbs is plain. -/
theorem plainFrom_turns (hc : (p.after run).clip? = some c) (hread : c.failVideoAt = none)
    (h : (p.after run).OnCourse (p.HasEnded run)) (turns : List Track) :
    p.PlainFrom run (turns.map .loop) := by
  induction turns generalizing run with
  | nil => trivial
  | cons track turns ih =>
      have hfault : ¬(p.after run).MeetsFault track := by
        rintro ⟨c', r, hc', -, hr⟩
        cases hc.symm.trans hc'
        exact Reel.not_meetsFault hread hr
      refine ⟨⟨hfault, ?_⟩, ih ?_ ?_⟩
      · rintro ⟨c', r, -, hr, hphase, -⟩
        have hu : r.Underway := by
          obtain hu | ⟨-, hf | hcall | hd⟩ := h.stage track r hr
          · exact hu
          · simpa [hphase] using hf.phase
          · simpa [hphase] using hcall.phase
          · simpa [hphase] using hd.phase
        refine ⟨by simp [isRunning, hr, hu.status], fun s hs => ?_⟩
        obtain hu' | ⟨hended, hf | hcall | hd⟩ := h.stage _ s hs
        · exact .inl hu'.status
        · exact .inl hf.status
        · have hd := h.caller _ s r hs hcall (by rwa [Track.other_other])
          exact absurd hu.status hd.not_running
        · exact .inr ⟨hd, hended⟩
      · rw [after_append]
        exact (act_frame hc (.loop track)).1
      · rw [after_append]
        refine (h.advance hc hfault).mono fun k hk => ?_
        obtain hended | ⟨rfl, hmeets⟩ := hk
        · exact hended.concat (by simp)
        · exact hasEnded_of_meets hmeets

theorem hasEnded_of_eof_short :
    let acts := (List.replicate 13 Track.video ++ List.replicate 9 Track.audio).map Act.loop
    ((onClip .short .running).after (acts ++ [.loop .audio])).events = [.eof] ∧
      ∀ track, (onClip .short .running).HasEnded acts track := by
  intro acts
  have hunderway : ∀ track r, (onClip .short .running).reel? track = some r → r.Underway := by
    rintro (_ | _) r ⟨⟩ <;> exact ⟨rfl, .inl rfl⟩
  have hcourse : ((onClip .short .running).after []).OnCourse
      ((onClip .short .running).HasEnded []) := .of_underway hunderway
  have hplain : (onClip .short .running).PlainFrom [] (acts ++ [.loop .audio]) :=
    plainFrom_turns (c := .short) rfl rfl hcourse
      (List.replicate 13 Track.video ++ List.replicate 10 Track.audio)
  have heof : ((onClip .short .running).after (acts ++ [.loop .audio])).events =
      ((onClip .short .running).after acts).events ++ [.eof] := by decide +kernel
  refine ⟨by decide +kernel, fun track => ?_⟩
  have hsome : (((onClip .short .running).after (acts ++ [.loop .audio])).reel? track).isSome := by
    cases track <;> decide +kernel
  obtain ⟨r, hr⟩ := Option.isSome_iff_exists.mp hsome
  exact (hasEnded_of_eof (c := .short) rfl (fun _ _ hs => .inl (hunderway _ _ hs)) hplain heof hr).1

/-- The end is announced although the picture broke off after its first frame, which could not be
read. -/
theorem partWay_at_eof :
    let p := onClip (Clip.short.withFailureAt 0) .pause
    let acts := [.transition .video .play, .transition .audio .play, .emit .play] ++
      (List.replicate 4 Track.video ++ List.replicate 9 Track.audio).map Act.loop
    (p.after (acts ++ [.loop .audio])).events = (p.after acts).events ++ [.eof] ∧
      ((p.after (acts ++ [.loop .audio])).reel? .video).any fun r =>
        r.lane.status = .pause ∧ 0 < r.cursor ∧ r.cursor < Clip.short.video.count := by
  decide +kernel

end Player
end CameraPipeline
