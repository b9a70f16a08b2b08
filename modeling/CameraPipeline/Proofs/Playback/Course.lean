import CameraPipeline.Proofs.Playback.Reel

/-!
The course of a track through its packets: it is on its way until it reads the end, then it
finishes by rewinding and pausing itself, and the one that sees no other track running calls the
end. While tracks keep to this course, a track calls the end only when the other one is done.
-/

namespace CameraPipeline

/-- The loop is between its look at the status and the submission of a packet. -/
def LoopPhase.InFlight : LoopPhase → Prop
  | reading | placing _ | offering _ => True
  | _ => False

namespace Reel

structure Underway (r : Reel) : Prop where
  status : r.lane.status = .running
  phase : r.lane.phase = .idle ∨ r.lane.phase.InFlight

/-- The end was read; the track is rewound and not yet paused. -/
structure Finishing (r : Reel) : Prop where
  status : r.lane.status = .running
  phase : r.lane.phase = .rewinding ∨
    (r.lane.phase = .zeroing ∨ r.lane.phase = .closing) ∧ r.cursor = 0

/-- The track is about to announce the end of the clip. -/
structure Calling (r : Reel) : Prop where
  status : r.lane.status = .pause
  phase : r.lane.phase = .announcing
  cursor : r.cursor = 0

structure Done (r : Reel) : Prop where
  status : r.lane.status = .pause
  phase : r.lane.phase = .idle
  cursor : r.cursor = 0

theorem Calling.not_running {r : Reel} (h : r.Calling) : r.lane.status ≠ .running := by
  rw [h.status]
  nofun

theorem Done.not_running {r : Reel} (h : r.Done) : r.lane.status ≠ .running := by
  rw [h.status]
  nofun

theorem Finishing.not_underway {r : Reel} (h : r.Finishing) : ¬r.Underway := fun hu => by
  obtain phase | ⟨phase | phase, -⟩ := h.phase <;>
    simpa [phase, LoopPhase.InFlight] using hu.phase

theorem Done.not_calling {r : Reel} (h : r.Done) : ¬r.Calling := fun hcall =>
  nomatch h.phase.symm.trans hcall.phase

/-- The next step of the loop reads the end of the packets. -/
def MeetsEnd (c : Clip) (track : Track) (r : Reel) : Prop :=
  r.lane.phase = .reading ∧ c.readAt track r.cursor = .ok none

/-- The next step of the loop reads a packet in vain. -/
def MeetsFault (c : Clip) (track : Track) (r : Reel) : Prop :=
  r.lane.phase = .reading ∧ ∃ fault, c.readAt track r.cursor = .error fault

namespace Turn

variable {c : Clip} {track : Track} {otherRuns : Bool} {r r' : Reel} {packet : Option Packet}
  {event : Option PlayerEvent}

theorem underway (h : r.Turn c track otherRuns r' packet event) (hr : r.Underway)
    (hfault : ¬r.MeetsFault c track) :
    event = none ∧ (r'.Underway ∨ r.MeetsEnd c track ∧ r'.Finishing) := by
  obtain ⟨hrunning, hphase⟩ := hr
  cases h with
  | waits _ status => exact absurd hrunning status
  | looks => exact ⟨rfl, .inl ⟨hrunning, .inr trivial⟩⟩
  | reads => exact ⟨rfl, .inl ⟨hrunning, .inr trivial⟩⟩
  | ends phase read => exact ⟨rfl, .inr ⟨⟨phase, read⟩, hrunning, .inl rfl⟩⟩
  | fails fault phase read => exact absurd ⟨phase, fault, read⟩ hfault
  | places => exact ⟨rfl, .inl ⟨hrunning, .inr trivial⟩⟩
  | offers => exact ⟨rfl, .inl ⟨hrunning, .inl rfl⟩⟩
  | rewinds phase | zeroes phase | leaves phase | closes phase | announces phase
  | pauses _ phase | reports _ phase => simp [phase, LoopPhase.InFlight] at hphase

theorem finishing (h : r.Turn c track otherRuns r' packet event) (hr : r.Finishing) :
    packet = none ∧ event = none ∧
      (r'.Finishing ∨ otherRuns = true ∧ r'.Done ∨ otherRuns = false ∧ r'.Calling) := by
  obtain ⟨hrunning, hphase⟩ := hr
  cases h with
  | rewinds => exact ⟨rfl, rfl, .inl ⟨hrunning, .inr ⟨.inl rfl, rfl⟩⟩⟩
  | zeroes phase =>
      have hcursor : r.cursor = 0 := by simpa [phase] using hphase
      exact ⟨rfl, rfl, .inl ⟨hrunning, .inr ⟨.inr rfl, hcursor⟩⟩⟩
  | leaves phase other =>
      have hcursor : r.cursor = 0 := by simpa [phase] using hphase
      exact ⟨rfl, rfl, .inr (.inl ⟨other, rfl, rfl, hcursor⟩)⟩
  | closes phase other =>
      have hcursor : r.cursor = 0 := by simpa [phase] using hphase
      exact ⟨rfl, rfl, .inr (.inr ⟨other, rfl, rfl, hcursor⟩)⟩
  | waits phase | looks phase | reads _ phase | ends phase | fails _ phase | places _ phase
  | offers _ phase | announces phase | pauses _ phase | reports _ phase => simp [phase] at hphase

theorem calling (h : r.Turn c track otherRuns r' packet event) (hr : r.Calling) :
    packet = none ∧ event = some .eof ∧ r'.Done := by
  obtain ⟨hpause, hphase, hcursor⟩ := hr
  cases h with
  | announces => exact ⟨rfl, rfl, hpause, rfl, hcursor⟩
  | waits phase | looks phase | reads _ phase | ends phase | fails _ phase | places _ phase
  | offers _ phase | rewinds phase | zeroes phase | leaves phase | closes phase
  | pauses _ phase | reports _ phase => simp [phase] at hphase

theorem done (h : r.Turn c track otherRuns r' packet event) (hr : r.Done) :
    packet = none ∧ event = none ∧ r' = r := by
  obtain ⟨hpause, hphase, hcursor⟩ := hr
  cases h with
  | waits => exact ⟨rfl, rfl, rfl⟩
  | looks _ status => simp [status] at hpause
  | reads _ phase | ends phase | fails _ phase | places _ phase | offers _ phase | rewinds phase
  | zeroes phase | leaves phase | closes phase | announces phase | pauses _ phase
  | reports _ phase => simp [phase] at hphase

end Turn
end Reel

namespace Player

def MeetsEnd (p : Player) (track : Track) : Prop :=
  ∃ c r, p.clip? = some c ∧ p.reel? track = some r ∧ r.MeetsEnd c track

def MeetsFault (p : Player) (track : Track) : Prop :=
  ∃ c r, p.clip? = some c ∧ p.reel? track = some r ∧ r.MeetsFault c track

/-- In the run the track read the end of its packets, and it was not started again since. -/
def HasEnded (p : Player) (acts : List Act) (track : Track) : Prop :=
  ∃ before since, acts = before ++ .loop track :: since ∧ (p.after before).MeetsEnd track ∧
    .transition track .play ∉ since

section HasEnded

variable {p : Player} {acts : List Act} {track : Track}

theorem HasEnded.concat {a : Act} (h : p.HasEnded acts track) (ha : a ≠ .transition track .play) :
    p.HasEnded (acts ++ [a]) track := by
  obtain ⟨before, since, rfl, hmeets, hsince⟩ := h
  refine ⟨before, since ++ [a], by simp, hmeets, ?_⟩
  simp [hsince, ha.symm]

theorem hasEnded_of_meets (h : (p.after acts).MeetsEnd track) :
    p.HasEnded (acts ++ [.loop track]) track :=
  ⟨acts, [], rfl, h, List.not_mem_nil⟩

end HasEnded

/-- Every track is on its way or has ended, and if one calls the end the other one is done. -/
structure OnCourse (ended : Track → Prop) (p : Player) : Prop where
  stage : ∀ track r, p.reel? track = some r →
    r.Underway ∨ ended track ∧ (r.Finishing ∨ r.Calling ∨ r.Done)
  caller : ∀ track r r', p.reel? track = some r → r.Calling → p.reel? track.other = some r' →
    r'.Done

theorem Turned.reel_cases {p q : Player} {track k : Track} {r s : Reel} {packet : Option Packet}
    {event : Option PlayerEvent} (h : p.Turned track r packet event q)
    (hs : q.reel? k = some s) :
    k = track ∧ s = r ∨ k = track.other ∧ p.reel? track.other = some s := by
  obtain rfl | rfl := Track.eq_or_eq_other track k
  · exact .inl ⟨rfl, Option.some.inj (hs.symm.trans h.reel)⟩
  · exact .inr ⟨rfl, h.other.symm.trans hs⟩

namespace OnCourse

variable {p : Player} {ended ended' : Track → Prop} {track : Track} {c : Clip} {r : Reel}

theorem of_underway (h : ∀ track r, p.reel? track = some r → r.Underway) : p.OnCourse ended :=
  ⟨fun track r hr => .inl (h track r hr), fun track r _ hr hcall _ =>
    absurd (h track r hr).status hcall.not_running⟩

theorem mono (h : p.OnCourse ended) (hended : ∀ track, ended track → ended' track) :
    p.OnCourse ended' :=
  ⟨fun track r hr => (h.stage track r hr).imp_right fun hs => ⟨hended track hs.1, hs.2⟩, h.caller⟩

/-- A track that closes its course while the other one does not run finds that one done. -/
theorem other_done (h : p.OnCourse ended) (hr : p.reel? track = some r) (hf : r.Finishing)
    (hother : p.isRunning track.other = false) {r' : Reel}
    (hr' : p.reel? track.other = some r') : r'.Done := by
  have hstill : r'.lane.status ≠ .running := by simpa [isRunning, hr'] using hother
  obtain hu | ⟨-, hf' | hcall | hd⟩ := h.stage _ r' hr'
  · exact absurd hu.status hstill
  · exact absurd hf'.status hstill
  · have hd := h.caller _ r' r hr' hcall (by rwa [Track.other_other])
    exact absurd (hf.status.symm.trans hd.status) (by decide)
  · exact hd

/-- A step of a loop keeps the course, as long as no read fails. -/
theorem advance (h : p.OnCourse ended) (hc : p.clip? = some c) (hfault : ¬p.MeetsFault track) :
    (p.advance track).OnCourse fun k => ended k ∨ k = track ∧ p.MeetsEnd track := by
  cases hr : p.reel? track with
  | none =>
      rw [advance_eq_self hr]
      exact h.mono fun _ => .inl
  | some r =>
      obtain ⟨r', packet, event, turn, hq⟩ := advance_turn hc hr
      have hread : ¬r.MeetsFault c track := fun hm => hfault ⟨c, r, hc, hr, hm⟩
      have hstage := h.stage track r hr
      constructor
      · intro k s hs
        obtain ⟨rfl, rfl⟩ | ⟨rfl, hold⟩ := hq.reel_cases hs
        · obtain hu | ⟨he, hf | hcall | hd⟩ := hstage
          · obtain hu' | ⟨hm, hf⟩ := (turn.underway hu hread).2
            · exact .inl hu'
            · exact .inr ⟨.inr ⟨rfl, c, r, hc, hr, hm⟩, .inl hf⟩
          · obtain hf' | ⟨_, hd⟩ | ⟨_, hcall⟩ := (turn.finishing hf).2.2
            · exact .inr ⟨.inl he, .inl hf'⟩
            · exact .inr ⟨.inl he, .inr (.inr hd)⟩
            · exact .inr ⟨.inl he, .inr (.inl hcall)⟩
          · exact .inr ⟨.inl he, .inr (.inr (turn.calling hcall).2.2)⟩
          · rw [(turn.done hd).2.2]
            exact .inr ⟨.inl he, .inr (.inr hd)⟩
        · exact (h.stage _ s hold).imp_right fun hs => ⟨.inl hs.1, hs.2⟩
      · intro k s s' hs hcall hs'
        obtain ⟨rfl, rfl⟩ | ⟨rfl, hold⟩ := hq.reel_cases hs
        · rw [hq.other] at hs'
          obtain hu | ⟨-, hf | hcall' | hd⟩ := hstage
          · obtain hu' | ⟨-, hf⟩ := (turn.underway hu hread).2
            · exact absurd hu'.status hcall.not_running
            · exact absurd hf.status hcall.not_running
          · obtain hf' | ⟨-, hd⟩ | ⟨hother, -⟩ := (turn.finishing hf).2.2
            · exact absurd hf'.status hcall.not_running
            · exact absurd hcall hd.not_calling
            · exact h.other_done hr hf hother hs'
          · exact absurd hcall (turn.calling hcall').2.2.not_calling
          · rw [(turn.done hd).2.2] at hcall
            exact absurd hcall hd.not_calling
        · rw [Track.other_other, hq.reel] at hs'
          cases hs'
          have hd := h.caller _ s r hold hcall (by rwa [Track.other_other])
          rwa [(turn.done hd).2.2]

end OnCourse
end Player
end CameraPipeline
