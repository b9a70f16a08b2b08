import CameraPipeline.Proofs.Playback.Course
import CameraPipeline.Proofs.Playback.Run

/-!
One pass through a clip. From a state where every track runs and nothing is left of what came
before, the loops alone lead to rest, whatever the order of their steps: each track submits what was
ahead of it, once and in order, and is paused at its start, and the end is announced once, after
every track has read its end.
-/

namespace CameraPipeline

/-- The loop is about to say how an earlier pass has ended. -/
def LoopPhase.Reports : LoopPhase → Prop
  | announcing | failing _ | reporting _ => True
  | _ => False

namespace Timeline

theorem getElem?_packets (t : Timeline) (i : Nat) : t.packets[i]? = t.packet? i := by
  simp only [packets, packet?, List.getElem?_map]
  split
  · rename_i h
    simp [List.getElem?_range h]
  · rename_i h
    rw [List.getElem?_eq_none (by simpa using Nat.le_of_not_lt h)]
    rfl

end Timeline

namespace Reel

variable {c : Clip} {track : Track} {r r' : Reel} {otherRuns : Bool} {packet : Option Packet}
  {event : Option PlayerEvent}

/-- Nothing is left of what came before: the loop has no end and no error to report, and the track
was not moved since its loop rewound it. -/
structure Undisturbed (r : Reel) : Prop where
  silent : ¬r.lane.phase.Reports
  rewound : r.lane.phase = .zeroing ∨ r.lane.phase = .closing → r.cursor = 0
  zeroed : r.lane.phase = .closing → r.lane.positionMs = 0

/-- The packets that the loop has still to submit in this pass, the one in its hands first. Once it
has read the end there are none. -/
def ahead (c : Clip) (track : Track) (r : Reel) : List Packet :=
  match r.lane.phase with
  | .idle | .reading =>
    if r.lane.status = .running then (c.timeline track).packets.drop r.cursor else []
  | .placing packet | .offering packet => packet :: (c.timeline track).packets.drop r.cursor
  | _ => []

/-- How many steps the loop has at most before it rests. -/
def stepsLeft (c : Clip) (track : Track) (r : Reel) : Nat :=
  match r.lane.phase with
  | .idle => if r.lane.status = .running then 4 * (r.ahead c track).length + 6 else 0
  | .reading => 4 * (r.ahead c track).length + 5
  | .placing _ => 4 * (r.ahead c track).length + 4
  | .offering _ => 4 * (r.ahead c track).length + 3
  | .rewinding => 4
  | .zeroing => 3
  | .closing => 2
  | .announcing | .failing _ | .reporting _ => 1

/-- A track that was rewound has its position at the start. -/
def Zeroed (r : Reel) : Prop :=
  r.lane.phase = .closing ∨ r.lane.status = .pause → r.lane.positionMs = 0

/-- The track is on its way through its packets, or finishes this pass and was not moved since it
was rewound. -/
def Passing (r : Reel) : Prop := r.Underway ∨ r.Finishing ∧ r.Zeroed

theorem Underway.zeroed (hr : r.Underway) : r.Zeroed := by
  rintro (hphase | hstatus)
  · simpa [hphase, LoopPhase.InFlight] using hr.phase
  · exact absurd (hr.status.symm.trans hstatus) (by simp)

theorem Passing.zeroed (hr : r.Passing) : r.Zeroed :=
  hr.elim Underway.zeroed And.right

theorem Passing.running (hr : r.Passing) : r.lane.status = .running :=
  hr.elim Underway.status (·.1.status)

theorem Undisturbed.passing (hr : r.Undisturbed) (hrunning : r.lane.status = .running) :
    r.Passing := by
  have hzeroed : r.Zeroed :=
    fun h => h.elim hr.zeroed fun hpause => nomatch hpause.symm.trans hrunning
  cases phase : r.lane.phase with
  | idle => exact .inl ⟨hrunning, .inl phase⟩
  | reading | placing | offering => exact .inl ⟨hrunning, .inr (by rw [phase]; trivial)⟩
  | rewinding => exact .inr ⟨⟨hrunning, .inl phase⟩, hzeroed⟩
  | zeroing => exact .inr ⟨⟨hrunning, .inr ⟨.inl phase, hr.rewound (.inl phase)⟩⟩, hzeroed⟩
  | closing => exact .inr ⟨⟨hrunning, .inr ⟨.inr phase, hr.rewound (.inr phase)⟩⟩, hzeroed⟩
  | announcing | failing | reporting => exact absurd (by rw [phase]; trivial) hr.silent

theorem not_meetsFault (hc : c.failVideoAt = none) : ¬r.MeetsFault c track := by
  rintro ⟨-, fault, hfault⟩
  exact absurd (hc.symm.trans (Clip.failVideoAt_of_readAt hfault)) nofun

theorem drop_of_packet? {t : Timeline} {i : Nat} {packet : Packet} (h : t.packet? i = some packet) :
    t.packets.drop i = packet :: t.packets.drop (i + 1) := by
  rw [← t.getElem?_packets] at h
  obtain ⟨hi, rfl⟩ := List.getElem?_eq_some_iff.mp h
  exact List.drop_eq_getElem_cons hi

theorem drop_of_end {t : Timeline} {i : Nat} (h : t.packet? i = none) : t.packets.drop i = [] := by
  rw [← t.getElem?_packets] at h
  exact List.drop_eq_nil_of_le (List.getElem?_eq_none_iff.mp h)

theorem Finishing.ahead (hr : r.Finishing) : r.ahead c track = [] := by
  obtain phase | ⟨phase | phase, -⟩ := hr.phase <;> simp [Reel.ahead, phase]

theorem Calling.ahead (hr : r.Calling) : r.ahead c track = [] := by
  simp [Reel.ahead, hr.phase]

theorem Done.ahead (hr : r.Done) : r.ahead c track = [] := by
  simp [Reel.ahead, hr.phase, hr.status]

theorem Done.stepsLeft (hr : r.Done) : r.stepsLeft c track = 0 := by
  simp [Reel.stepsLeft, hr.phase, hr.status]

namespace Turn

/-- What is ahead is submitted packet by packet. -/
theorem ahead (h : r.Turn c track otherRuns r' packet event) (hc : c.failVideoAt = none)
    (hr : r.Underway) : packet.toList ++ r'.ahead c track = r.ahead c track := by
  obtain ⟨hrunning, hphase⟩ := hr
  cases h with
  | waits _ status => exact absurd hrunning status
  | looks phase => simp [Reel.ahead, setPhase, phase, hrunning]
  | reads packet phase read =>
      have hpacket := drop_of_packet? (Clip.packet?_of_readAt read)
      simp [Reel.ahead, setPhase, phase, hrunning, hpacket]
  | ends phase read =>
      have hend := drop_of_end (Clip.packet?_of_readAt read)
      simp [Reel.ahead, setPhase, phase, hrunning, hend]
  | fails fault phase read => exact absurd ⟨phase, fault, read⟩ (not_meetsFault hc)
  | places packet phase => simp [Reel.ahead, phase]
  | offers packet phase => simp [Reel.ahead, setPhase, phase, hrunning]
  | rewinds phase | zeroes phase | leaves phase | closes phase | announces phase
  | pauses _ phase | reports _ phase => simp [phase, LoopPhase.InFlight] at hphase

theorem stepsLeft (h : r.Turn c track otherRuns r' packet event) (hc : c.failVideoAt = none)
    (hr : r.Underway) : r'.stepsLeft c track + 1 = r.stepsLeft c track := by
  have hahead := congrArg List.length (h.ahead hc hr)
  obtain ⟨hrunning, hphase⟩ := hr
  cases h with
  | waits _ status => exact absurd hrunning status
  | looks phase | offers _ phase =>
      simp [Reel.stepsLeft, setPhase, phase, hrunning] at hahead ⊢
      omega
  | reads _ phase | places _ phase =>
      simp [Reel.stepsLeft, setPhase, phase] at hahead ⊢
      omega
  | ends phase =>
      have hfinishing : (r.setPhase .rewinding).Finishing := ⟨hrunning, .inl rfl⟩
      have hnone : (r.ahead c track).length = 0 := by simpa [hfinishing.ahead] using hahead.symm
      simp [Reel.stepsLeft, setPhase, phase, hnone]
  | fails fault phase read => exact absurd ⟨phase, fault, read⟩ (not_meetsFault hc)
  | rewinds phase | zeroes phase | leaves phase | closes phase | announces phase
  | pauses _ phase | reports _ phase => simp [phase, LoopPhase.InFlight] at hphase

theorem zeroed (h : r.Turn c track otherRuns r' packet event)
    (hr : r.Underway ∨ r.Finishing ∨ r.Calling ∨ r.Done) (hzero : r.Zeroed) : r'.Zeroed := by
  cases h with
  | waits => exact hzero
  | zeroes => exact fun _ => rfl
  | leaves phase | closes phase => exact fun _ => hzero (.inl phase)
  | looks | reads | ends | fails | offers | rewinds | announces | reports =>
      exact fun hstill => hzero (.inr (hstill.resolve_left nofun))
  | places packet phase =>
      obtain hu | hf | hcall | hd := hr
      · simp [Zeroed, hu.status]
      · simpa [phase] using hf.phase
      · simpa [phase] using hcall.phase
      · simpa [phase] using hd.phase
  | pauses fault phase =>
      obtain hu | hf | hcall | hd := hr
      · simpa [phase, LoopPhase.InFlight] using hu.phase
      · simpa [phase] using hf.phase
      · simpa [phase] using hcall.phase
      · simpa [phase] using hd.phase

theorem finishing_stepsLeft (h : r.Turn c track otherRuns r' packet event) (hr : r.Finishing) :
    r'.stepsLeft c track + 1 ≤ r.stepsLeft c track := by
  obtain ⟨-, hphase⟩ := hr
  cases h with
  | rewinds phase | zeroes phase | leaves phase | closes phase =>
      simp [Reel.stepsLeft, setPhase, phase]
  | waits phase | looks phase | reads _ phase | ends phase | fails _ phase | places _ phase
  | offers _ phase | announces phase | pauses _ phase | reports _ phase => simp [phase] at hphase

/-- A step of a loop on its course: what is ahead is submitted packet by packet, a rewound track
stays at the start, and the loop comes nearer to its rest. -/
theorem pass (h : r.Turn c track otherRuns r' packet event) (hc : c.failVideoAt = none)
    (hr : r.Underway ∨ r.Finishing ∨ r.Calling ∨ r.Done) (hzero : r.Zeroed) :
    packet.toList ++ r'.ahead c track = r.ahead c track ∧ r'.Zeroed ∧
      r'.stepsLeft c track ≤ r.stepsLeft c track - 1 := by
  have hzero' := h.zeroed hr hzero
  obtain hu | hf | hcall | hd := hr
  · have hleft := h.stepsLeft hc hu
    exact ⟨h.ahead hc hu, hzero', by omega⟩
  · obtain ⟨rfl, -, hnext⟩ := h.finishing hf
    have hleft := h.finishing_stepsLeft hf
    refine ⟨?_, hzero', by omega⟩
    obtain hf' | ⟨-, hd⟩ | ⟨-, hcall⟩ := hnext
    · rw [hf.ahead, hf'.ahead, Option.toList_none, List.append_nil]
    · rw [hf.ahead, hd.ahead, Option.toList_none, List.append_nil]
    · rw [hf.ahead, hcall.ahead, Option.toList_none, List.append_nil]
  · obtain ⟨rfl, -, hd⟩ := h.calling hcall
    refine ⟨?_, hzero', by simp [hd.stepsLeft]⟩
    rw [hcall.ahead, hd.ahead, Option.toList_none, List.append_nil]
  · obtain ⟨rfl, -, rfl⟩ := h.done hd
    exact ⟨rfl, hzero', by simp [hd.stepsLeft]⟩

end Turn

/-- A step that changes nothing is that of a loop which waits. -/
theorem Turn.waiting (h : r.Turn c track otherRuns r' packet event) (hself : r' = r) :
    r.lane.phase = .idle ∧ r.lane.status ≠ .running := by
  have hphase := congrArg (·.lane.phase) hself
  cases h with
  | waits phase status => exact ⟨phase, status⟩
  | looks phase | reads _ phase | ends phase | fails _ phase | places _ phase | offers _ phase
  | rewinds phase | zeroes phase | leaves phase | closes phase | announces phase
  | pauses _ phase | reports _ phase => simp [setPhase, phase] at hphase

theorem done_of_stepsLeft (hr : r.Underway ∨ r.Finishing ∨ r.Calling ∨ r.Done)
    (hleft : r.stepsLeft c track = 0) : r.Done := by
  obtain hu | hf | hcall | hd := hr
  · obtain phase | phase := hu.phase
    · simp [stepsLeft, phase, hu.status] at hleft
    · cases hphase : r.lane.phase <;> simp_all [stepsLeft, LoopPhase.InFlight]
  · obtain phase | ⟨phase | phase, -⟩ := hf.phase <;> simp [stepsLeft, phase] at hleft
  · simp [stepsLeft, hcall.phase] at hleft
  · exact hd

end Reel

namespace Player

variable {p q : Player} {acts : List Act} {turns : List Track} {track : Track} {c : Clip}
  {r : Reel}

theorem advance_of_waiting (hr : p.reel? track = some r) (hphase : r.lane.phase = .idle)
    (hstatus : r.lane.status ≠ .running) : p.advance track = p := by
  obtain ⟨l, hl, hlr⟩ := Option.bind_eq_some_iff.mp hr
  simp [advance, hl, (LoadedClip.reel?_eq_some.mp hlr).1, hphase, hstatus]

/-- The loop of the track has nothing to do. -/
def waits (p : Player) (track : Track) : Bool :=
  (p.reel? track).any fun r => r.lane.phase == .idle && r.lane.status != .running

theorem advance_of_waits (h : p.waits track = true) : p.advance track = p := by
  obtain ⟨r, hr, hwaits⟩ := (Option.any_eq_true _ _).mp h
  obtain ⟨hphase, hstatus⟩ := Bool.and_eq_true_iff.mp hwaits
  exact advance_of_waiting hr (beq_iff_eq.mp hphase) (bne_iff_ne.mp hstatus)

theorem exists_of_isRunning (h : p.isRunning track = true) :
    ∃ r, p.reel? track = some r ∧ r.lane.status = .running := by
  simpa [isRunning, Option.any_eq_true] using h

theorem emit_events (hevents : q.events = p.events) (hdepth : q.queueDepth = p.queueDepth)
    (e : PlayerEvent) : (q.emit e).events = (p.emit e).events := by
  simp only [emit, hevents, hdepth]
  split
  · rfl
  · exact hevents

/-- Where the loops have come to after some steps of a pass that began at `p`. -/
structure InPass (p : Player) (c : Clip) (turns : List Track) (q : Player) : Prop where
  reached : p.after (turns.map .loop) = q
  clip : q.clip? = some c
  queueDepth : q.queueDepth = p.queueDepth
  course : q.OnCourse fun track => ∀ r, p.reel? track = some r → r.Underway →
    p.HasEnded (turns.map .loop) track
  track : ∀ track r, p.reel? track = some r → ∃ r', q.reel? track = some r' ∧ r'.Zeroed ∧
    q.offersOf track ++ r'.ahead c track = p.offersOf track ++ r.ahead c track ∧
    r'.stepsLeft c track ≤ r.stepsLeft c track - turns.count track
  missing : ∀ track, p.reel? track = none → q.reel? track = none
  silent : ∀ track r, q.reel? track = some r → ¬r.Done → q.events = p.events
  announced : (∀ track r, q.reel? track = some r → r.Done) → q.events = (p.emit .eof).events

namespace InPass

theorem start (hc : p.clip? = some c) (htrack : ∃ track r, p.reel? track = some r)
    (hpass : ∀ track r, p.reel? track = some r → r.Passing) : p.InPass c [] p where
  reached := rfl
  clip := hc
  queueDepth := rfl
  course := by
    constructor
    · intro track r hr
      obtain hu | ⟨hf, -⟩ := hpass track r hr
      · exact .inl hu
      · refine .inr ⟨fun r' hr' hu => ?_, .inl hf⟩
        cases hr.symm.trans hr'
        exact absurd hu hf.not_underway
    · intro track r r' hr hcall
      exact absurd (hpass track r hr).running hcall.not_running
  track track r hr := ⟨r, hr, (hpass track r hr).zeroed, rfl, Nat.le_refl _⟩
  missing _ := id
  silent _ _ _ _ := rfl
  announced hdone := by
    obtain ⟨track, r, hr⟩ := htrack
    exact absurd (hpass track r hr).running (hdone track r hr).not_running

theorem advance_track (h : p.InPass c turns q) (hread : c.failVideoAt = none) (track k : Track)
    (hr : p.reel? k = some r) :
    ∃ r', (q.advance track).reel? k = some r' ∧ r'.Zeroed ∧
      (q.advance track).offersOf k ++ r'.ahead c k = p.offersOf k ++ r.ahead c k ∧
      r'.stepsLeft c k ≤ r.stepsLeft c k - (turns ++ [track]).count k := by
  obtain ⟨s, hs, hzero, hoffers, hleft⟩ := h.track k r hr
  cases hq : q.reel? track with
  | none =>
      have hk : track ≠ k := fun hk => by simp [hk, hs] at hq
      rw [advance_eq_self hq]
      exact ⟨s, hs, hzero, hoffers, by simpa [hk] using hleft⟩
  | some s' =>
      obtain ⟨s'', packet, event, turn, hturned⟩ := advance_turn h.clip hq
      rw [hturned.offersOf k]
      obtain rfl | rfl := Track.eq_or_eq_other track k
      · cases hs.symm.trans hq
        have hstage := (h.course.stage k s hs).imp_right And.right
        obtain ⟨hahead, hzero', hless⟩ := turn.pass hread hstage hzero
        refine ⟨s'', hturned.reel, hzero', ?_, ?_⟩
        · rw [if_pos rfl, List.append_assoc, hahead, hoffers]
        · rw [List.count_append, List.count_singleton_self]
          omega
      · refine ⟨s, hturned.other.trans hs, hzero, ?_, ?_⟩
        · rw [if_neg track.ne_other, List.append_nil, hoffers]
        · simpa [track.ne_other] using hleft

/-- Until every track is done nothing is announced, then the end is. -/
theorem advance_events (h : p.InPass c turns q) (hread : c.failVideoAt = none) (track : Track) :
    (∀ k r, (q.advance track).reel? k = some r → ¬r.Done → (q.advance track).events = p.events) ∧
      ((∀ k r, (q.advance track).reel? k = some r → r.Done) →
        (q.advance track).events = (p.emit .eof).events) := by
  cases hr : q.reel? track with
  | none =>
      rw [advance_eq_self hr]
      exact ⟨h.silent, h.announced⟩
  | some r =>
      obtain ⟨r', packet, event, turn, hq⟩ := advance_turn h.clip hr
      have hself : ¬r.Done → q.events = p.events := h.silent track r hr
      obtain hu | ⟨-, hf | hcall | hd⟩ := h.course.stage track r hr
      · obtain ⟨rfl, hnext⟩ := turn.underway hu (Reel.not_meetsFault hread)
        have hrunning : r'.lane.status = .running :=
          hnext.elim Reel.Underway.status (·.2.status)
        exact ⟨fun _ _ _ _ => hq.events.trans (hself fun hd => hd.not_running hu.status),
          fun hall => absurd hrunning (hall track r' hq.reel).not_running⟩
      · obtain ⟨-, rfl, hnext⟩ := turn.finishing hf
        refine ⟨fun _ _ _ _ => hq.events.trans (hself fun hd => hd.not_running hf.status),
          fun hall => ?_⟩
        have hd := hall track r' hq.reel
        obtain hf' | ⟨hother, -⟩ | ⟨-, hcall⟩ := hnext
        · exact absurd hf'.status hd.not_running
        · obtain ⟨s, hs, hrunning⟩ := exists_of_isRunning hother
          exact absurd hrunning (hall _ s (hq.other.trans hs)).not_running
        · exact absurd hcall hd.not_calling
      · obtain ⟨-, rfl, hd⟩ := turn.calling hcall
        have hevents : (q.advance track).events = (p.emit .eof).events :=
          hq.events.trans (emit_events (hself fun hd => hd.not_calling hcall) h.queueDepth .eof)
        refine ⟨fun k s hs hstill => absurd ?_ hstill, fun _ => hevents⟩
        obtain ⟨rfl, rfl⟩ | ⟨rfl, hold⟩ := hq.reel_cases hs
        · exact hd
        · exact h.course.caller track r s hr hcall hold
      · obtain ⟨-, rfl, rfl⟩ := turn.done hd
        refine ⟨fun k s hs hstill => hq.events.trans ?_, fun hall => hq.events.trans ?_⟩
        · obtain ⟨rfl, rfl⟩ | ⟨rfl, hold⟩ := hq.reel_cases hs
          · exact absurd hd hstill
          · exact h.silent _ s hold hstill
        · refine h.announced fun k s hs => ?_
          obtain rfl | rfl := Track.eq_or_eq_other track k
          · cases hr.symm.trans hs
            exact hd
          · exact hall _ s (hq.other.trans hs)

theorem advance (h : p.InPass c turns q) (hread : c.failVideoAt = none) (track : Track) :
    p.InPass c (turns ++ [track]) (q.advance track) where
  reached := by rw [List.map_append, after_append, h.reached]; rfl
  clip := (advance_frame h.clip track).1
  queueDepth := (advance_frame h.clip track).2.1.trans h.queueDepth
  course := by
    have hfault : ¬q.MeetsFault track := by
      rintro ⟨c', r, hc', -, hr⟩
      cases h.clip.symm.trans hc'
      exact Reel.not_meetsFault hread hr
    refine (h.course.advance h.clip hfault).mono fun k hk r hr hu => ?_
    rw [List.map_append]
    obtain hended | ⟨rfl, hmeets⟩ := hk
    · exact (hended r hr hu).concat nofun
    · rw [← h.reached] at hmeets
      exact hasEnded_of_meets hmeets
  track k r hr := h.advance_track hread track k hr
  missing k hk := advance_reel?_none h.clip track (h.missing k hk)
  silent := (h.advance_events hread track).1
  announced := (h.advance_events hread track).2

theorem after (h : p.InPass c turns q) (hread : c.failVideoAt = none) (turns' : List Track) :
    p.InPass c (turns ++ turns') (q.after (turns'.map .loop)) := by
  induction turns' generalizing turns q with
  | nil => rwa [List.append_nil]
  | cons track turns' ih =>
      rw [List.append_cons]
      exact ih (h.advance hread track)

/-- When no loop has a step to take any more, every track is done. -/
theorem done_of_still (h : p.InPass c turns q) (hstill : ∀ track, q.advance track = q)
    (hr : q.reel? track = some r) : r.Done := by
  obtain ⟨r', packet, event, turn, hq⟩ := advance_turn h.clip hr
  have hself : q.reel? track = some r' := by
    have hreel := hq.reel
    rwa [hstill track] at hreel
  obtain ⟨phase, status⟩ := turn.waiting (Option.some.inj (hself.symm.trans hr))
  obtain hu | ⟨-, hf | hcall | hd⟩ := h.course.stage track r hr
  · exact absurd hu.status status
  · exact absurd hf.status status
  · exact nomatch phase.symm.trans hcall.phase
  · exact hd

theorem still (h : p.InPass c turns q) {n : Nat}
    (hn : ∀ track r, p.reel? track = some r → r.stepsLeft c track ≤ n)
    (hcount : ∀ track, n ≤ turns.count track) (track : Track) : q.advance track = q := by
  cases hr : p.reel? track with
  | none => exact advance_eq_self (h.missing track hr)
  | some r =>
      obtain ⟨r', hr', -, -, hleft⟩ := h.track track r hr
      have hzero : r'.stepsLeft c track = 0 := by
        have := hn track r hr
        have := hcount track
        omega
      have hd := Reel.done_of_stepsLeft ((h.course.stage track r' hr').imp_right And.right) hzero
      exact advance_of_waiting hr' hd.phase hd.not_running

end InPass

theorem exists_stepsLeft_le (p : Player) (c : Clip) :
    ∃ n, ∀ track r, p.reel? track = some r → r.stepsLeft c track ≤ n := by
  refine ⟨(p.reel? .video).elim 0 (·.stepsLeft c .video) +
    (p.reel? .audio).elim 0 (·.stepsLeft c .audio), fun track r hr => ?_⟩
  cases track with
  | video => rw [hr, Option.elim_some]; exact Nat.le_add_right _ _
  | audio => rw [hr, Option.elim_some]; exact Nat.le_add_left _ _

/-- From a state where every track runs and nothing is left of what came before, the loops lead the
pass to its end, whatever the order of their steps. Until the last track has read its end nothing is
announced. When the loops rest, the end was announced once, every track is paused at its start, and
its decoder was offered the packet that its loop had in hand, if any, and then those from its
cursor to its end, none where its loop had read the end already. The loops rest as soon as each has
taken its share of steps. -/
theorem pass_spec (hc : p.clip? = some c) (hread : c.failVideoAt = none)
    (htrack : ∃ track r, p.reel? track = some r)
    (hrunning : ∀ track r, p.reel? track = some r → r.lane.status = .running)
    (hundisturbed : ∀ track r, p.reel? track = some r → r.Undisturbed) :
    (∀ (turns : List Track) (q : Player), p.after (turns.map .loop) = q →
      (q.events ≠ p.events → ∀ track r, p.reel? track = some r → r.Underway →
        p.HasEnded (turns.map .loop) track) ∧
      ((∀ track, q.advance track = q) →
        q.events = (p.emit .eof).events ∧
        ∀ track r, p.reel? track = some r → ∃ r', q.reel? track = some r' ∧
          r'.lane.status = .pause ∧ r'.cursor = 0 ∧ r'.lane.positionMs = 0 ∧
          q.offersOf track = p.offersOf track ++ r.ahead c track)) ∧
    ∃ n, ∀ (turns : List Track) (q : Player), p.after (turns.map .loop) = q →
      (∀ track, n ≤ turns.count track) → ∀ track, q.advance track = q := by
  have hpass (track : Track) (r : Reel) (hr : p.reel? track = some r) : r.Passing :=
    (hundisturbed track r hr).passing (hrunning track r hr)
  have hrun {turns : List Track} {q : Player} (hq : p.after (turns.map .loop) = q) :
      p.InPass c turns q := by
    have h := (InPass.start hc htrack hpass).after hread turns
    rwa [hq] at h
  refine ⟨fun turns q hq => ⟨fun hevents track r hr hu => ?_, fun hstill => ⟨?_, ?_⟩⟩, ?_⟩
  · obtain ⟨r', hr', -⟩ := (hrun hq).track track r hr
    have hd : r'.Done := Classical.byContradiction fun hd =>
      hevents ((hrun hq).silent track r' hr' hd)
    obtain hu' | ⟨hended, -⟩ := (hrun hq).course.stage track r' hr'
    · exact absurd hu'.status hd.not_running
    · exact hended r hr hu
  · exact (hrun hq).announced fun track r hr => (hrun hq).done_of_still hstill hr
  · intro track r hr
    obtain ⟨r', hr', hzero, hoffers, -⟩ := (hrun hq).track track r hr
    have hd := (hrun hq).done_of_still hstill hr'
    rw [hd.ahead, List.append_nil] at hoffers
    exact ⟨r', hr', hd.status, hd.cursor, hzero (.inr hd.status), hoffers⟩
  · obtain ⟨n, hn⟩ := exists_stepsLeft_le p c
    exact ⟨n, fun turns q hq hcount track => (hrun hq).still hn hcount track⟩

/-- The loop of the picture has its first packet in hand. -/
theorem pass_spec_short :
    let p := (onClip .short .running).after [.loop .video, .loop .video]
    ∃ (turns : List Track) (q : Player), p.after (turns.map .loop) = q ∧ q.events = [.eof] ∧
      q.offersOf .video = [⟨0, true, 256⟩, ⟨100, false, 256⟩] ∧
      q.offersOf .audio = [⟨0, true, 64⟩] := by
  intro p
  obtain ⟨hpass, n, hrest⟩ := pass_spec (p := p) (c := .short) rfl rfl ⟨.video, _, rfl⟩
    (by rintro (_ | _) r ⟨⟩ <;> rfl)
    (by rintro (_ | _) r ⟨⟩ <;> exact ⟨id, by simp, by simp⟩)
  let turns := List.replicate n Track.video ++ List.replicate n Track.audio
  have hcount (track : Track) : n ≤ turns.count track := by
    cases track <;> simp [turns, List.count_replicate]
  obtain ⟨hevents, htracks⟩ := (hpass turns _ rfl).2 (hrest turns _ rfl hcount)
  obtain ⟨_, -, -, -, -, hvideo⟩ := htracks .video _ rfl
  obtain ⟨_, -, -, -, -, haudio⟩ := htracks .audio _ rfl
  exact ⟨turns, _, rfl, hevents, hvideo, haudio⟩

/-- When the loops rest, the end was announced once, every track is paused at its start, and its
decoder was offered the packets from its cursor to its end. -/
def PlaysOut (p : Player) (c : Clip) : Prop :=
  ∀ (turns : List Track) (q : Player), p.after (turns.map .loop) = q →
    (∀ track, q.advance track = q) →
      q.events = (p.emit .eof).events ∧
      ∀ track r, p.reel? track = some r → ∃ r', q.reel? track = some r' ∧
        r'.lane.status = .pause ∧ r'.cursor = 0 ∧ r'.lane.positionMs = 0 ∧
        q.offersOf track = p.offersOf track ++ (c.timeline track).packets.drop r.cursor

theorem PlaysOut.atRest (h : p.PlaysOut c) (turns : List Track)
    (hwaits : ∀ track, (p.after (turns.map .loop)).waits track = true) :
    (p.after (turns.map .loop)).events = (p.emit .eof).events ∧
      ∀ track r, p.reel? track = some r →
        ∃ r', (p.after (turns.map .loop)).reel? track = some r' ∧ r'.cursor = 0 ∧
          (p.after (turns.map .loop)).offersOf track =
            p.offersOf track ++ (c.timeline track).packets.drop r.cursor := by
  obtain ⟨hevents, htracks⟩ := h turns _ rfl fun track => advance_of_waits (hwaits track)
  refine ⟨hevents, fun track r hr => ?_⟩
  obtain ⟨r', hr', -, hcursor, -, hoffers⟩ := htracks track r hr
  exact ⟨r', hr', hcursor, hoffers⟩

/-- The picture is moved to its start while its loop has the first packet in hand. -/
def movedInHand : List SessionEvent :=
  [.call .play, .loop .video, .loop .video, .call (.seek .video 0)]

/-- The clip is played again just before the end of the first time is announced. -/
def playedAtEnd : List SessionEvent :=
  .call .play :: List.replicate 9 (.loop .audio) ++ List.replicate 13 (.loop .video) ++
    [.call .play]

/-- The picture is moved after its loop has rewound it. -/
def movedAtEnd : List SessionEvent :=
  .call .play :: List.replicate 12 (.loop .video) ++ [.call (.seek .video 100)]

/-- It is not enough that every track runs: a packet in hand is submitted on top of those from the
cursor on, an end that is still to be announced comes as a second one, and a track that was moved
is not paused at its start. -/
theorem not_playsOut_of_running :
    bare.control (setFile "clip") = (.ok (), bareLoaded) ∧
      ∀ events ∈ [movedInHand, playedAtEnd, movedAtEnd],
        (∀ track, (bareLoaded.run events).isRunning track = true) ∧
          ¬(bareLoaded.run events).PlaysOut .short := by
  let turns := List.replicate 20 Track.video ++ List.replicate 20 Track.audio
  refine ⟨setFile_bare, List.forall_mem_cons.mpr ⟨⟨?_, fun h => ?_⟩,
    List.forall_mem_cons.mpr ⟨⟨?_, fun h => ?_⟩,
      List.forall_mem_singleton.mpr ⟨?_, fun h => ?_⟩⟩⟩⟩
  · rintro (_ | _) <;> decide +kernel
  · obtain ⟨-, htracks⟩ := h.atRest turns (by rintro (_ | _) <;> decide +kernel)
    obtain ⟨_, -, -, hoffers⟩ := htracks .video _ rfl
    revert hoffers
    decide +kernel
  · rintro (_ | _) <;> decide +kernel
  · obtain ⟨hevents, -⟩ := h.atRest turns (by rintro (_ | _) <;> decide +kernel)
    revert hevents
    decide +kernel
  · rintro (_ | _) <;> decide +kernel
  · obtain ⟨-, htracks⟩ := h.atRest turns (by rintro (_ | _) <;> decide +kernel)
    obtain ⟨r, hr, hcursor, -⟩ := htracks .video _ rfl
    have hmoved := congrArg (Option.map Reel.cursor) hr
    rw [Option.map_some, hcursor] at hmoved
    revert hmoved
    decide +kernel

end Player
end CameraPipeline
