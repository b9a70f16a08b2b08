import CameraPipeline.Playback.Control

/-!
One step of a track loop. A track with its place in the clip is a reel; a step changes the reel of
its own track only, and of the other track it sees no more than whether it runs. Controls and
loops together are runs of elementary acts.
-/

namespace CameraPipeline

namespace Track

@[simp] theorem other_other (t : Track) : t.other.other = t := by
  cases t <;> rfl

theorem ne_other (t : Track) : t ≠ t.other := by
  cases t <;> nofun

theorem eq_or_eq_other (t k : Track) : k = t ∨ k = t.other := by
  cases t <;> cases k <;> simp [other]

end Track

/-- A track of the loaded clip, and where its next read is. -/
@[ext] structure Reel where
  lane : Lane
  cursor : Nat
  deriving DecidableEq

/-- What a read at an index answers. -/
def Clip.readAt (c : Clip) (track : Track) (i : Nat) : Except DemuxFault (Option Packet) :=
  if track = .video ∧ c.failVideoAt = some i then .error (.corruptPacket i)
  else .ok ((c.timeline track).packet? i)

namespace Clip

variable {c : Clip} {track : Track} {i : Nat}

theorem packet?_of_readAt {answer : Option Packet} (h : c.readAt track i = .ok answer) :
    (c.timeline track).packet? i = answer := by
  simp only [readAt] at h
  split at h
  · cases h
  · exact Except.ok.inj h

theorem failVideoAt_of_readAt {fault : DemuxFault} (h : c.readAt track i = .error fault) :
    c.failVideoAt = some i := by
  simp only [readAt] at h
  split at h
  · rename_i hfail
    exact hfail.2
  · cases h

end Clip

/-- A picture of two frames and sound of one packet. -/
def Clip.short : Clip :=
  (({} : Clip).withVideo .h264 ⟨640, 480⟩ 10 200).withAudio .aac 48000 2 100 100

namespace Reel

def setPhase (r : Reel) (phase : LoopPhase) : Reel := { r with lane := { r.lane with phase } }

/-- The reel after one step of its loop, the packet that was submitted and the event that was
announced. -/
inductive Turn (c : Clip) (track : Track) (otherRuns : Bool) (r : Reel) :
    Reel → Option Packet → Option PlayerEvent → Prop
  | waits (phase : r.lane.phase = .idle) (status : r.lane.status ≠ .running) :
      Turn c track otherRuns r r none none
  | looks (phase : r.lane.phase = .idle) (status : r.lane.status = .running) :
      Turn c track otherRuns r (r.setPhase .reading) none none
  | reads (packet : Packet) (phase : r.lane.phase = .reading)
      (read : c.readAt track r.cursor = .ok (some packet)) :
      Turn c track otherRuns r { r.setPhase (.placing packet) with cursor := r.cursor + 1 }
        none none
  | ends (phase : r.lane.phase = .reading) (read : c.readAt track r.cursor = .ok none) :
      Turn c track otherRuns r (r.setPhase .rewinding) none none
  | fails (fault : DemuxFault) (phase : r.lane.phase = .reading)
      (read : c.readAt track r.cursor = .error fault) :
      Turn c track otherRuns r { r.setPhase (.failing fault) with cursor := r.cursor + 1 }
        none none
  | places (packet : Packet) (phase : r.lane.phase = .placing packet) :
      Turn c track otherRuns r
        { r with lane := { r.lane with positionMs := packet.ptsMs, phase := .offering packet } }
        none none
  | offers (packet : Packet) (phase : r.lane.phase = .offering packet) :
      Turn c track otherRuns r (r.setPhase .idle) (some packet) none
  | rewinds (phase : r.lane.phase = .rewinding) :
      Turn c track otherRuns r { r.setPhase .zeroing with cursor := 0 } none none
  | zeroes (phase : r.lane.phase = .zeroing) :
      Turn c track otherRuns r
        { r with lane := { r.lane with positionMs := 0, phase := .closing } } none none
  | leaves (phase : r.lane.phase = .closing) (other : otherRuns = true) :
      Turn c track otherRuns r
        { r with lane := { r.lane with status := .pause, phase := .idle } } none none
  | closes (phase : r.lane.phase = .closing) (other : otherRuns = false) :
      Turn c track otherRuns r
        { r with lane := { r.lane with status := .pause, phase := .announcing } } none none
  | announces (phase : r.lane.phase = .announcing) :
      Turn c track otherRuns r (r.setPhase .idle) none (some .eof)
  | pauses (fault : DemuxFault) (phase : r.lane.phase = .failing fault) :
      Turn c track otherRuns r
        { r with lane := { r.lane with
            status := (r.lane.status.next .error).getD r.lane.status
            phase := .reporting fault } } none none
  | reports (fault : DemuxFault) (phase : r.lane.phase = .reporting fault) :
      Turn c track otherRuns r (r.setPhase .idle) none (some (.error fault))

/-- A step of the loop leaves the status or pauses the track. -/
theorem Turn.status {c : Clip} {track : Track} {otherRuns : Bool} {r r' : Reel}
    {packet : Option Packet} {event : Option PlayerEvent}
    (h : r.Turn c track otherRuns r' packet event) :
    r'.lane.status = r.lane.status ∨ r'.lane.status = .pause := by
  cases h with
  | leaves | closes => exact .inr rfl
  | pauses =>
      cases r.lane.status with
      | running => exact .inr rfl
      | uninitialized | pause => exact .inl rfl
  | waits | looks | reads | ends | fails | places | offers | rewinds | zeroes | announces
  | reports => exact .inl rfl

end Reel

theorem Timeline.indexFrom_zero (t : Timeline) : t.indexFrom 0 = 0 := by
  have hstep : (0 + t.step - 1) / t.step = 0 := by
    cases hs : t.step with
    | zero => rfl
    | succ n => exact Nat.div_eq_of_lt (by omega)
  rw [indexFrom, hstep, Nat.min_zero]

namespace Demuxer

@[simp] theorem clip_setPos (d : Demuxer) (track : Track) (i : Nat) :
    (d.setPos track i).clip = d.clip := by
  cases track <;> rfl

theorem read_eq (d : Demuxer) (track : Track) :
    d.read track = (d.clip.readAt track (d.pos track),
      match d.clip.readAt track (d.pos track) with
      | .ok none => d
      | _ => d.setPos track (d.pos track + 1)) := by
  by_cases hfail : track = .video ∧ d.clip.failVideoAt = some (d.pos track)
  · simp [read, Clip.readAt, hfail]
  · simp only [read, Clip.readAt, hfail, Bool.and_eq_true, decide_eq_true_eq, if_false]
    split <;> simp [*]

theorem seek_zero (d : Demuxer) (track : Track) : d.seek track 0 = .ok (d.setPos track 0) := by
  simp [seek, Timeline.indexFrom_zero]

end Demuxer

namespace LoadedClip

def reel? (l : LoadedClip) (track : Track) : Option Reel :=
  (l.lane? track).map fun lane => ⟨lane, l.demuxer.pos track⟩

variable {l : LoadedClip} {track : Track}

theorem reel?_eq_some {r : Reel} :
    l.reel? track = some r ↔ l.lane? track = some r.lane ∧ l.demuxer.pos track = r.cursor := by
  cases hlane : l.lane? track with
  | none => simp [reel?, hlane]
  | some lane => simp [reel?, hlane, Reel.ext_iff]

theorem reel?_update (l : LoadedClip) (t track : Track) (f : Lane → Lane) :
    (l.update t f).reel? track = (l.reel? track).map fun r =>
      if t = track then { r with lane := f r.lane } else r := by
  obtain ⟨path, demuxer, stack, video, audio⟩ := l
  cases t <;> cases track <;> cases video <;> cases audio <;> rfl

theorem reel?_setPos (l : LoadedClip) (t track : Track) (i : Nat) :
    { l with demuxer := l.demuxer.setPos t i }.reel? track = (l.reel? track).map fun r =>
      if t = track then { r with cursor := i } else r := by
  obtain ⟨path, demuxer, stack, video, audio⟩ := l
  cases t <;> cases track <;> cases video <;> cases audio <;> rfl

@[simp] theorem demuxer_update (l : LoadedClip) (t : Track) (f : Lane → Lane) :
    (l.update t f).demuxer = l.demuxer := by
  cases t <;> rfl

end LoadedClip

namespace Player

def clip? (p : Player) : Option Clip := p.loaded.map (·.demuxer.clip)

def reel? (p : Player) (track : Track) : Option Reel := p.loaded.bind (·.reel? track)

def isRunning (p : Player) (track : Track) : Bool :=
  (p.reel? track).any (·.lane.status == .running)

/-- The packets of a track that were submitted, in order. -/
def offersOf (p : Player) (track : Track) : List Packet :=
  p.offers.filterMap fun o => if o.1 = track then some o.2 else none

/-- `q` is `p` after a step of the loop of a track. -/
structure Turned (p : Player) (track : Track) (r : Reel) (packet : Option Packet)
    (event : Option PlayerEvent) (q : Player) : Prop where
  reel : q.reel? track = some r
  other : q.reel? track.other = p.reel? track.other
  clip : q.clip? = p.clip?
  offers : q.offers = p.offers ++ packet.toList.map (track, ·)
  events : q.events = (event.elim p p.emit).events
  queueDepth : q.queueDepth = p.queueDepth
  isDestroyed : q.isDestroyed = p.isDestroyed

section Loop

variable {p q : Player} {l l' : LoadedClip} {track : Track} {c : Clip} {r : Reel}

theorem reel?_of_loaded (hl : p.loaded = some l) (track : Track) :
    p.reel? track = l.reel? track := by
  rw [reel?, hl, Option.bind_some]

theorem isRunning_of_loaded (hl : p.loaded = some l) (track : Track) :
    p.isRunning track = l.isRunning track := by
  rw [isRunning, reel?_of_loaded hl, LoadedClip.reel?, LoadedClip.isRunning, LoadedClip.status?]
  cases l.lane? track <;> rfl

theorem advance_eq_self (h : p.reel? track = none) : p.advance track = p := by
  simp only [advance]
  split
  · rfl
  · rename_i l hl
    rw [reel?_of_loaded hl, LoadedClip.reel?, Option.map_eq_none_iff] at h
    simp only [h]

theorem turned_setLoaded (hl : p.loaded = some l) (hreel : l'.reel? track = some r)
    (hother : l'.reel? track.other = l.reel? track.other)
    (hclip : l'.demuxer.clip = l.demuxer.clip) :
    p.Turned track r none none (p.setLoaded l') where
  reel := hreel
  other := hother.trans (reel?_of_loaded hl _).symm
  clip := by simp [clip?, setLoaded, hl, hclip]
  offers := by simp [setLoaded]
  events := rfl
  queueDepth := rfl
  isDestroyed := rfl

theorem Turned.emit (h : p.Turned track r none none q) (e : PlayerEvent) :
    p.Turned track r none (some e) (q.emit e) := by
  have hevents : q.events = p.events := h.events
  have hframe : (q.emit e).loaded = q.loaded ∧ (q.emit e).offers = q.offers ∧
      (q.emit e).queueDepth = q.queueDepth ∧ (q.emit e).isDestroyed = q.isDestroyed := by
    simp only [Player.emit]
    split <;> exact ⟨rfl, rfl, rfl, rfl⟩
  obtain ⟨hloaded, hoffers, hdepth, hdestroyed⟩ := hframe
  refine ⟨?_, ?_, ?_, hoffers.trans h.offers, ?_, hdepth.trans h.queueDepth,
    hdestroyed.trans h.isDestroyed⟩
  · rw [reel?, hloaded]
    exact h.reel
  · rw [reel?, hloaded]
    exact h.other
  · rw [clip?, hloaded]
    exact h.clip
  · simp only [Option.elim_some, Player.emit, h.queueDepth, hevents]
    split
    · rfl
    · exact hevents

theorem Turned.offersOf {packet : Option Packet} {event : Option PlayerEvent} (k : Track)
    (h : p.Turned track r packet event q) :
    q.offersOf k = p.offersOf k ++ if track = k then packet.toList else [] := by
  rw [Player.offersOf, h.offers, List.filterMap_append, ← Player.offersOf]
  cases packet with
  | none => simp
  | some packet => by_cases hk : track = k <;> simp [hk]

/-- All that one step of a loop can come to. -/
theorem advance_turn (hc : p.clip? = some c) (hr : p.reel? track = some r) :
    ∃ r' packet event, r.Turn c track (p.isRunning track.other) r' packet event ∧
      p.Turned track r' packet event (p.advance track) := by
  obtain ⟨l, hl, hclip⟩ := Option.map_eq_some_iff.mp hc
  rw [reel?_of_loaded hl] at hr
  obtain ⟨hlane, hpos⟩ := LoadedClip.reel?_eq_some.mp hr
  have hne := track.ne_other
  have hupdate (f : Lane → Lane) :
      p.Turned track { r with lane := f r.lane } none none (p.setLoaded (l.update track f)) :=
    turned_setLoaded hl (by simp [LoadedClip.reel?_update, hr])
      (by simp [LoadedClip.reel?_update, hne]) (by simp)
  have hphase (phase : LoopPhase) :
      p.Turned track (r.setPhase phase) none none (p.setLoaded (l.setPhase track phase)) :=
    hupdate fun lane => { lane with phase }
  have hmoved (phase : LoopPhase) (i : Nat) :
      p.Turned track { r.setPhase phase with cursor := i } none none
        (p.setLoaded ({ l with demuxer := l.demuxer.setPos track i }.setPhase track phase)) :=
    turned_setLoaded hl
      (by simp [LoadedClip.setPhase, LoadedClip.reel?_update, LoadedClip.reel?_setPos, hr,
        Reel.setPhase])
      (by simp [LoadedClip.setPhase, LoadedClip.reel?_update, LoadedClip.reel?_setPos, hne])
      (by simp [LoadedClip.setPhase])
  simp only [advance, hl, hlane]
  cases phase : r.lane.phase with
  | idle =>
      dsimp only
      split
      · exact ⟨_, _, _, .looks phase ‹_›, hphase _⟩
      · have hself := turned_setLoaded hl hr rfl rfl
        rw [setLoaded, ← hl] at hself
        exact ⟨_, _, _, .waits phase ‹_›, hself⟩
  | reading =>
      simp only [Demuxer.read_eq, hpos, hclip]
      cases read : c.readAt track r.cursor with
      | error fault => exact ⟨_, _, _, .fails fault phase read, hmoved _ _⟩
      | ok answer =>
          cases answer with
          | none => exact ⟨_, _, _, .ends phase read, hphase _⟩
          | some packet => exact ⟨_, _, _, .reads packet phase read, hmoved _ _⟩
  | placing packet =>
      exact ⟨_, _, _, .places packet phase, hupdate fun lane =>
        { lane with positionMs := packet.ptsMs, phase := .offering packet }⟩
  | offering packet =>
      have h := hphase .idle
      exact ⟨_, _, _, .offers packet phase, h.reel, h.other, h.clip, rfl, h.events,
        h.queueDepth, h.isDestroyed⟩
  | rewinding =>
      simp only [Demuxer.seek_zero]
      exact ⟨_, _, _, .rewinds phase, hmoved _ _⟩
  | zeroing =>
      exact ⟨_, _, _, .zeroes phase, hupdate fun lane =>
        { lane with positionMs := 0, phase := .closing }⟩
  | closing =>
      have hpause : (r.lane.status.next .eof).getD .pause = .pause := by
        cases r.lane.status <;> rfl
      have hclose (phase : LoopPhase) :
          p.Turned track { r with lane := { r.lane with status := .pause, phase } } none none
            (p.setLoaded (l.update track fun lane =>
              { lane with status := (lane.status.next .eof).getD .pause, phase })) := by
        have h := hupdate fun lane =>
          { lane with status := (lane.status.next .eof).getD .pause, phase }
        rwa [hpause] at h
      rw [← isRunning_of_loaded hl]
      cases other : p.isRunning track.other with
      | true => exact ⟨_, _, _, .leaves phase rfl, hclose _⟩
      | false => exact ⟨_, _, _, .closes phase rfl, hclose _⟩
  | announcing => exact ⟨_, _, _, .announces phase, (hphase _).emit .eof⟩
  | failing fault =>
      exact ⟨_, _, _, .pauses fault phase, hupdate fun lane =>
        { lane with
          status := (lane.status.next .error).getD lane.status, phase := .reporting fault }⟩
  | reporting fault => exact ⟨_, _, _, .reports fault phase, (hphase _).emit (.error fault)⟩

theorem advance_reel?_none (hc : p.clip? = some c) (track : Track) {k : Track}
    (h : p.reel? k = none) : (p.advance track).reel? k = none := by
  cases hr : p.reel? track with
  | none => rwa [advance_eq_self hr]
  | some r =>
      obtain ⟨r', packet, event, -, hq⟩ := advance_turn hc hr
      obtain rfl | rfl := Track.eq_or_eq_other track k
      · cases hr.symm.trans h
      · exact hq.other.trans h

theorem advance_frame (hc : p.clip? = some c) (track : Track) :
    (p.advance track).clip? = some c ∧ (p.advance track).queueDepth = p.queueDepth ∧
      (p.advance track).isDestroyed = p.isDestroyed := by
  cases hr : p.reel? track with
  | none =>
      rw [advance_eq_self hr]
      exact ⟨hc, rfl, rfl⟩
  | some r =>
      obtain ⟨r', packet, event, -, hq⟩ := advance_turn hc hr
      exact ⟨hq.clip.trans hc, hq.queueDepth, hq.isDestroyed⟩

end Loop

/-- A player on a clip that was loaded with no server to speak of. -/
def onClip (clip : Clip) (status : TrackStatus) : Player where
  plant := { server := { payloadSize := 0 }, drainMillis := 0 }
  loaded := some {
    path := "", demuxer := { clip }, stack := {}
    video := clip.info.video.map fun _ => { decoder := ⟨.vdec, 0⟩, status }
    audio := clip.info.audio.map fun _ => { decoder := ⟨.adec, 0⟩, status } }

/-- The elementary acts: a step of a loop, and what the controls are made of. -/
inductive Act where
  | loop (track : Track)
  | transition (track : Track) (event : TrackEvent)
  | seek (track : Track) (positionMs : Nat)
  | place (track : Track) (positionMs : Nat)
  | emit (event : PlayerEvent)

def act (p : Player) : Act → Player
  | .loop track => p.advance track
  | .transition track event => (p.transition track event).2
  | .seek track positionMs => (p.seekDemuxer track positionMs).2
  | .place track positionMs => p.setPosition track positionMs
  | .emit event => p.emit event

def after (p : Player) (acts : List Act) : Player := acts.foldl act p

@[simp] theorem after_nil (p : Player) : p.after [] = p := rfl

@[simp] theorem after_cons (p : Player) (a : Act) (acts : List Act) :
    p.after (a :: acts) = (p.act a).after acts := rfl

theorem after_append (p : Player) (acts acts' : List Act) :
    p.after (acts ++ acts') = (p.after acts).after acts' :=
  List.foldl_append

end Player

/-- What an act of a control makes of the reel of a track. -/
def Reel.heed (c : Clip) (track : Track) (r : Reel) : Player.Act → Reel
  | .transition t event =>
    if t = track then
      { r with lane := { r.lane with status := (r.lane.status.next event).getD r.lane.status } }
    else r
  | .seek t positionMs =>
    if t = track ∧ positionMs ≤ c.info.durationMs then
      { r with cursor := (c.timeline track).indexFrom positionMs }
    else r
  | .place t positionMs =>
    if t = track then { r with lane := { r.lane with positionMs } } else r
  | .loop _ | .emit _ => r

/-- Only a transition of the track changes its status. -/
theorem Reel.heed_status (c : Clip) (track : Track) (r : Reel) (a : Player.Act) :
    (r.heed c track a).lane.status = r.lane.status ∨
      ∃ event, a = .transition track event ∧
        (r.heed c track a).lane.status = (r.lane.status.next event).getD r.lane.status := by
  cases a with
  | loop | emit => exact .inl rfl
  | transition t event =>
      by_cases ht : t = track
      · subst ht
        exact .inr ⟨event, rfl, by rw [heed, if_pos rfl]⟩
      · exact .inl (by rw [heed, if_neg ht])
  | seek | place =>
      refine .inl ?_
      simp only [heed]
      split <;> rfl

namespace Player

/-- `q` is `p` after an act of a control. -/
structure Heeded (p : Player) (c : Clip) (a : Act) (q : Player) : Prop where
  reel : ∀ track, q.reel? track = (p.reel? track).map (·.heed c track a)
  clip : q.clip? = p.clip?
  offers : q.offers = p.offers
  events : (∀ e, a ≠ .emit e) → q.events = p.events
  queueDepth : q.queueDepth = p.queueDepth
  isDestroyed : q.isDestroyed = p.isDestroyed

section Control

variable {p : Player} {l l' : LoadedClip} {c : Clip} {a : Act}

theorem heeded_setLoaded (hl : p.loaded = some l)
    (hreel : ∀ track, l'.reel? track = (l.reel? track).map (·.heed c track a))
    (hclip : l'.demuxer.clip = l.demuxer.clip) : p.Heeded c a (p.setLoaded l') where
  reel track := by rw [reel?_of_loaded hl, ← hreel track]; rfl
  clip := by simp [clip?, setLoaded, hl, hclip]
  offers := rfl
  events _ := rfl
  queueDepth := rfl
  isDestroyed := rfl

theorem heeded_self (h : ∀ track r, p.reel? track = some r → r.heed c track a = r) :
    p.Heeded c a p where
  reel track := by
    cases hr : p.reel? track with
    | none => rfl
    | some r => rw [Option.map_some, h track r hr]
  clip := rfl
  offers := rfl
  events _ := rfl
  queueDepth := rfl
  isDestroyed := rfl

theorem act_heeded (hc : p.clip? = some c) (ha : ∀ t, a ≠ .loop t) :
    p.Heeded c a (p.act a) := by
  obtain ⟨l, hl, hclip⟩ := Option.map_eq_some_iff.mp hc
  cases a with
  | loop t => exact absurd rfl (ha t)
  | transition t event =>
      have hlane (r : Reel) (hr : l.reel? t = some r) :
          l.status? t = some r.lane.status := by
        rw [LoadedClip.status?, (LoadedClip.reel?_eq_some.mp hr).1, Option.map_some]
      simp only [act, transition, hl]
      split
      · rename_i hnone
        refine heeded_self fun track r hr => if_neg fun ht => ?_
        rw [reel?_of_loaded hl, ← ht] at hr
        rw [hlane r hr] at hnone
        cases hnone
      · rename_i status hstatus
        split
        · rename_i hnext
          refine heeded_self fun track r hr => ?_
          by_cases ht : t = track
          · rw [reel?_of_loaded hl, ← ht] at hr
            cases (hlane r hr).symm.trans hstatus
            simp [Reel.heed, hnext]
          · exact if_neg ht
        · rename_i status' hnext
          refine heeded_setLoaded hl (fun track => ?_) (by simp)
          rw [LoadedClip.reel?_update]
          refine Option.map_congr fun r hr => ?_
          by_cases ht : t = track
          · subst ht
            cases (hlane r hr).symm.trans hstatus
            simp [Reel.heed, hnext]
          · simp [Reel.heed, ht]
  | seek t ms =>
      simp only [act, seekDemuxer, hl, Demuxer.seek, hclip]
      by_cases hms : c.info.durationMs < ms
      · simp only [hms, if_true]
        refine heeded_self fun track r _ => ?_
        simp [Reel.heed, Nat.not_le.mpr hms]
      · simp only [hms, if_false]
        refine heeded_setLoaded hl (fun track => ?_) (by simp)
        rw [LoadedClip.reel?_setPos]
        refine congrFun (congrArg Option.map (funext fun r => ?_)) _
        by_cases ht : t = track
        · subst ht
          simp [Reel.heed, Nat.not_lt.mp hms]
        · simp [Reel.heed, ht]
  | place t ms =>
      simp only [act, setPosition, hl]
      exact heeded_setLoaded hl (fun track => LoadedClip.reel?_update l t track _) (by simp)
  | emit e =>
      simp only [act, emit]
      split
      · refine ⟨fun track => ?_, rfl, rfl, fun hn => absurd rfl (hn e), rfl, rfl⟩
        exact Option.map_id'.symm
      · exact heeded_self fun _ _ _ => rfl

/-- An act is that of a control, the step of a loop, or the step of a track that is not there. -/
theorem act_cases (hc : p.clip? = some c) (a : Act) :
    p.Heeded c a (p.act a) ∨ p.act a = p ∨
      ∃ t r r' packet event, a = .loop t ∧ p.reel? t = some r ∧
        r.Turn c t (p.isRunning t.other) r' packet event ∧
        p.Turned t r' packet event (p.act a) := by
  cases a with
  | loop t =>
      cases hr : p.reel? t with
      | none => exact .inr (.inl (advance_eq_self hr))
      | some r =>
          obtain ⟨r', packet, event, turn, hq⟩ := advance_turn hc hr
          exact .inr (.inr ⟨t, r, r', packet, event, rfl, hr, turn, hq⟩)
  | transition | seek | place | emit => exact .inl (act_heeded hc nofun)

theorem act_frame (hc : p.clip? = some c) (a : Act) :
    (p.act a).clip? = some c ∧ (p.act a).isDestroyed = p.isDestroyed := by
  obtain hq | hself | ⟨t, r, r', packet, event, -, -, -, hq⟩ := act_cases hc a
  · exact ⟨hq.clip.trans hc, hq.isDestroyed⟩
  · rw [hself]
    exact ⟨hc, rfl⟩
  · exact ⟨hq.clip.trans hc, hq.isDestroyed⟩

theorem after_frame (hc : p.clip? = some c) (acts : List Act) :
    (p.after acts).clip? = some c ∧ (p.after acts).isDestroyed = p.isDestroyed := by
  induction acts generalizing p with
  | nil => exact ⟨hc, rfl⟩
  | cons a acts ih =>
      obtain ⟨hclip, hdestroyed⟩ := act_frame hc a
      exact ⟨(ih hclip).1, (ih hclip).2.trans hdestroyed⟩

end Control
end Player
end CameraPipeline
