import CameraPipeline.Proofs.Playback.Course
import CameraPipeline.Proofs.Playback.Session

/-!
Stopping. A track that is paused and then rewound while its loop holds no packet and is not about
to read one stays at its start and submits nothing until it is started or moved, and then begins
with its first packet. A loop that is in between when its track is rewound goes on behind it.
-/

namespace CameraPipeline

theorem TrackStatus.next_ne_running {status : TrackStatus} {event : TrackEvent}
    (hstatus : status ≠ .running) (hevent : event ≠ .play) :
    (status.next event).getD status ≠ .running := by
  cases status <;> cases event <;> first | contradiction | nofun

namespace Reel

def NotRunning (r : Reel) : Prop := r.lane.status ≠ .running

/-- The track rests, its reading and its position at the start where that is asked for. -/
structure Still (rewound placed : Prop) (r : Reel) : Prop where
  status : r.lane.status ≠ .running
  phase : ¬r.lane.phase.InFlight
  cursor : rewound → r.cursor = 0
  position : placed → r.lane.positionMs = 0

/-- The next packet of the track to be submitted is its first one. -/
def Starting (c : Clip) (track : Track) (r : Reel) : Prop :=
  match r.lane.phase with
  | .placing packet | .offering packet => (c.timeline track).packet? 0 = some packet
  | _ => r.cursor = 0

variable {c : Clip} {track : Track} {r r' : Reel} {otherRuns : Bool} {packet : Option Packet}
  {event : Option PlayerEvent} {rewound placed : Prop}

theorem Still.starting (h : r.Still True placed) : r.Starting c track := by
  have hcursor := h.cursor trivial
  have hphase := h.phase
  cases phase : r.lane.phase <;> simp_all [Starting, LoopPhase.InFlight]

namespace Turn

theorem notRunning (h : r.Turn c track otherRuns r' packet event) (hr : r.NotRunning) :
    r'.NotRunning := by
  obtain hsame | hpause := h.status
  · exact fun hrunning => hr (hsame ▸ hrunning)
  · exact fun hrunning => by cases hpause.symm.trans hrunning

theorem still (h : r.Turn c track otherRuns r' packet event) (hr : r.Still rewound placed) :
    packet = none ∧ r'.Still rewound placed := by
  obtain ⟨hstatus, hphase, hcursor, hposition⟩ := hr
  cases h with
  | waits => exact ⟨rfl, hstatus, hphase, hcursor, hposition⟩
  | looks _ status => exact absurd status hstatus
  | reads _ phase | ends phase | fails _ phase | places _ phase | offers _ phase =>
      exact absurd (by rw [phase]; trivial) hphase
  | rewinds => exact ⟨rfl, hstatus, id, fun _ => rfl, hposition⟩
  | zeroes => exact ⟨rfl, hstatus, id, hcursor, fun _ => rfl⟩
  | leaves | closes => exact ⟨rfl, nofun, id, hcursor, hposition⟩
  | announces | reports => exact ⟨rfl, hstatus, id, hcursor, hposition⟩
  | pauses => exact ⟨rfl, TrackStatus.next_ne_running hstatus nofun, id, hcursor, hposition⟩

/-- Until its first packet is submitted the track goes on to start. -/
theorem starting (h : r.Turn c track otherRuns r' packet event) (hr : r.Starting c track)
    (hread : c.failVideoAt ≠ some 0) :
    packet = none ∧ r'.Starting c track ∨
      ∃ first, packet = some first ∧ (c.timeline track).packet? 0 = some first := by
  cases h with
  | waits => exact .inl ⟨rfl, hr⟩
  | looks phase | ends phase | zeroes phase | leaves phase | closes phase | announces phase
  | pauses _ phase | reports _ phase =>
      exact .inl ⟨rfl, by simpa [Starting, setPhase, phase] using hr⟩
  | reads packet phase read =>
      have hcursor : r.cursor = 0 := by simpa [Starting, phase] using hr
      rw [hcursor] at read
      exact .inl ⟨rfl, Clip.packet?_of_readAt read⟩
  | fails fault phase read =>
      have hcursor : r.cursor = 0 := by simpa [Starting, phase] using hr
      rw [hcursor] at read
      exact absurd (Clip.failVideoAt_of_readAt read) hread
  | places packet phase => exact .inl ⟨rfl, by simpa [Starting, phase] using hr⟩
  | offers packet phase => exact .inr ⟨packet, rfl, by simpa [Starting, phase] using hr⟩
  | rewinds => exact .inl ⟨rfl, rfl⟩

end Turn
end Reel

namespace Player

/-- The act starts no track, and moves none but to its start. -/
def Act.Resting : Act → Prop
  | .transition _ event => event ≠ .play
  | .seek _ positionMs | .place _ positionMs => positionMs = 0
  | .loop _ | .emit _ => True

def Holds (p : Player) (track : Track) (I : Reel → Prop) : Prop :=
  ∀ r, p.reel? track = some r → I r

/-- Steps of the loop of the track and resting acts keep what holds of its reel. -/
structure Kept (c : Clip) (track : Track) (I : Reel → Prop) : Prop where
  turn : ∀ {otherRuns r r' packet event}, r.Turn c track otherRuns r' packet event → I r → I r'
  heed : ∀ {r a}, Act.Resting a → I r → I (r.heed c track a)

variable {p q : Player} {c : Clip} {track t : Track} {a : Act} {acts : List Act}
  {rewound placed : Prop} {r : Reel} {I : Reel → Prop} {α : Type}

theorem kept_notRunning : Kept c track Reel.NotRunning where
  turn := Reel.Turn.notRunning
  heed {r a} ha h := by
    obtain hsame | ⟨event, rfl, hnext⟩ := r.heed_status c track a
    · exact fun hrunning => h (hsame ▸ hrunning)
    · rw [Reel.NotRunning, hnext]
      exact TrackStatus.next_ne_running h ha

theorem kept_still : Kept c track (·.Still rewound placed) where
  turn h hr := (h.still hr).2
  heed {r a} ha h := by
    have hstatus : (r.heed c track a).NotRunning := kept_notRunning.heed ha h.status
    cases a with
    | loop | emit => exact h
    | transition =>
        simp only [Reel.heed] at hstatus ⊢
        split
        · rw [if_pos ‹_›] at hstatus
          exact ⟨hstatus, h.phase, h.cursor, h.position⟩
        · exact h
    | seek =>
        cases ha
        simp only [Reel.heed]
        split
        · exact ⟨h.status, h.phase, fun _ => Timeline.indexFrom_zero _, h.position⟩
        · exact h
    | place =>
        cases ha
        simp only [Reel.heed]
        split
        · exact ⟨h.status, h.phase, h.cursor, fun _ => rfl⟩
        · exact h

namespace Holds

theorem act (h : p.Holds track I) (hI : Kept c track I) (hc : p.clip? = some c)
    (ha : a.Resting) : (p.act a).Holds track I := by
  intro r' hr'
  obtain hq | hself | ⟨t, s, s', packet, event, rfl, hs, turn, hq⟩ := act_cases hc a
  · rw [hq.reel, Option.map_eq_some_iff] at hr'
    obtain ⟨r, hr, rfl⟩ := hr'
    exact hI.heed ha (h r hr)
  · rw [hself] at hr'
    exact h r' hr'
  · obtain ⟨rfl, rfl⟩ | ⟨rfl, hold⟩ := hq.reel_cases hr'
    · exact hI.turn turn (h s hs)
    · exact h r' hold

theorem act_clip (hI : Kept c track I) (p : Player) (a : Act) (ha : a.Resting)
    (h : p.clip? = some c ∧ p.Holds track I) :
    (p.act a).clip? = some c ∧ (p.act a).Holds track I :=
  ⟨(act_frame h.1 a).1, h.2.act hI h.1 ha⟩

theorem after (h : p.Holds track I) (hI : Kept c track I) (hc : p.clip? = some c)
    (hacts : ∀ a ∈ acts, a.Resting) : (p.after acts).Holds track I :=
  (after_keeps (act_clip hI) hacts ⟨hc, h⟩).2

theorem takeTurn (h : p.Holds track I) (hI : Kept c track I) (hc : p.clip? = some c) :
    p.takeTurn.Holds track I := by
  obtain ⟨turn, hturn⟩ := takeTurn_eq p
  rw [hturn]
  refine h.after hI hc fun a ha => ?_
  obtain ⟨t, -, rfl⟩ := List.mem_map.mp ha
  trivial

/-- A call that is made of resting acts keeps it. -/
theorem control {x : PlayerAction α} (h : p.Holds track I) (hI : Kept c track I)
    (hc : p.clip? = some c) (hx : x.Does acts) (hacts : ∀ a ∈ acts, a.Resting) :
    (p.control x).2.Holds track I :=
  (hx.keeps (act_clip hI) (fun _ _ h => h) (fun _ => trivial) hacts ⟨hc, h⟩).2

end Holds

theorem takeTurn_frame (hc : p.clip? = some c) :
    p.takeTurn.clip? = some c ∧ p.takeTurn.isDestroyed = p.isDestroyed := by
  obtain ⟨turn, hturn⟩ := takeTurn_eq p
  rw [hturn]
  exact after_frame hc _

theorem control_frame {x : PlayerAction α} (hc : p.clip? = some c) (hx : x.Does acts) :
    (p.control x).2.clip? = some c ∧ (p.control x).2.isDestroyed = p.isDestroyed := by
  obtain ⟨run, turns, hq, -⟩ := hx p
  rw [hq]
  exact after_frame hc run

theorem act_offers (hc : p.clip? = some c) (h : ∀ track, p.Holds track (·.Still rewound placed))
    (a : Act) : (p.act a).offers = p.offers := by
  obtain hq | hself | ⟨t, s, s', packet, event, -, hs, turn, hq⟩ := act_cases hc a
  · exact hq.offers
  · rw [hself]
  · rw [hq.offers, (turn.still (h t s hs)).1, Option.toList_none, List.map_nil, List.append_nil]

theorem after_offers (hc : p.clip? = some c)
    (h : ∀ track, p.Holds track (·.Still rewound placed)) (hacts : ∀ a ∈ acts, a.Resting) :
    (p.after acts).offers = p.offers := by
  induction acts generalizing p with
  | nil => rfl
  | cons a acts ih =>
      have ⟨ha, hacts⟩ := List.forall_mem_cons.mp hacts
      have hrest := ih (act_frame hc a).1 (fun track => (h track).act kept_still hc ha) hacts
      exact hrest.trans (act_offers hc h a)

theorem transition_notRunning (hc : p.clip? = some c) (track : Track) :
    (p.act (.transition track .stop)).Holds track Reel.NotRunning := by
  intro r hr
  rw [(act_heeded (a := .transition track .stop) hc nofun).reel, Option.map_eq_some_iff] at hr
  obtain ⟨r, -, rfl⟩ := hr
  have hstatus : (r.lane.status.next .stop).getD r.lane.status ≠ .running := by
    cases r.lane.status <;> nofun
  simp only [Reel.heed, if_true]
  exact hstatus

theorem seek_still (hc : p.clip? = some c) (h : p.Holds track Reel.NotRunning)
    (hphase : p.Holds track fun r => ¬r.lane.phase.InFlight) :
    (p.act (.seek track 0)).Holds track (·.Still True False) := by
  intro r hr
  rw [(act_heeded (a := .seek track 0) hc nofun).reel, Option.map_eq_some_iff] at hr
  obtain ⟨r, hr, rfl⟩ := hr
  simp only [Reel.heed, Nat.zero_le, and_true, if_true]
  exact ⟨h r hr, hphase r hr, fun _ => Timeline.indexFrom_zero _, False.elim⟩

theorem place_still (hc : p.clip? = some c) (h : p.Holds track (·.Still rewound placed)) :
    (p.act (.place track 0)).Holds track (·.Still rewound True) := by
  intro r hr
  rw [(act_heeded (a := .place track 0) hc nofun).reel, Option.map_eq_some_iff] at hr
  obtain ⟨r, hr, rfl⟩ := hr
  have hs := h r hr
  simp only [Reel.heed, if_true]
  exact ⟨hs.status, hs.phase, hs.cursor, fun _ => rfl⟩

/-- Rewinding catches a paused track whose loop holds no packet and is not about to read one. -/
theorem rewindTrack_still (hc : p.clip? = some c) (h : p.Holds track Reel.NotRunning)
    (hphase : p.takeTurn.Holds track fun r => ¬r.lane.phase.InFlight)
    (hq : p.control (rewindTrack track) = (.ok (), q)) :
    q.Holds track (·.Still True True) := by
  obtain ⟨p', _, ⟨⟩, hq⟩ := exists_of_control_bind hq
  split at hq
  · obtain ⟨⟨⟩, p₁, hseek, ⟨⟩⟩ := exists_of_control_bind hq
    obtain rfl : p₁ = p.takeTurn.act (.seek track 0) :=
      (congrArg Prod.snd (of_control_attemptStep hseek)).symm
    have hc₀ := (takeTurn_frame hc).1
    have hc₁ := (act_frame hc₀ (.seek track 0)).1
    have hs := seek_still hc₀ (h.takeTurn kept_notRunning hc) hphase
    exact place_still (takeTurn_frame hc₁).1 (hs.takeTurn kept_still hc₁)
  · rename_i habsent
    cases hq
    intro r hr
    obtain ⟨l, hl, -⟩ := Option.map_eq_some_iff.mp hc
    rw [reel?_of_loaded hl, LoadedClip.reel?_eq_some] at hr
    simp [status?, hl, LoadedClip.status?, hr.1] at habsent

theorem applyEvent_notRunning (hc : p.clip? = some c)
    (hq : p.control (applyEvent .stop) = (.ok (), q)) (track : Track) :
    q.Holds track Reel.NotRunning := by
  obtain ⟨-, rfl⟩ := of_control_applyEvent hq
  have hc₀ := (takeTurn_frame hc).1
  have hc₁ := (act_frame hc₀ (.transition .video .stop)).1
  have hc₂ := (takeTurn_frame hc₁).1
  cases track with
  | video =>
      have hvideo := (transition_notRunning hc₀ .video).takeTurn kept_notRunning hc₁
      exact hvideo.act (a := .transition .audio .stop) kept_notRunning hc₂ nofun
  | audio => exact transition_notRunning hc₂ .audio

/-- Both tracks rest at their starts when a stop has caught both. -/
theorem stop_still (hc : p.clip? = some c) (hq : p.control stop = (.ok (), q))
    (hvideo : (p.control (applyEvent .stop)).2.takeTurn.Holds .video
      fun r => ¬r.lane.phase.InFlight)
    (haudio : (p.control (do applyEvent .stop; rewindTrack .video)).2.takeTurn.Holds .audio
      fun r => ¬r.lane.phase.InFlight) :
    q.clip? = some c ∧ q.isDestroyed = false ∧ ∀ track, q.Holds track (·.Still True True) := by
  have hframe := control_frame hc PlayerAction.Does.stop
  have halive : p.isDestroyed = false := by
    obtain ⟨_, _, hstop, -⟩ := exists_of_control_bind hq
    exact (of_control_applyEvent hstop).1
  rw [hq] at hframe
  refine ⟨hframe.1, hframe.2.trans halive, fun track => ?_⟩
  obtain ⟨⟨⟩, p₁, hstop, hq⟩ := exists_of_control_bind hq
  obtain ⟨⟨⟩, p₂, hrewind, hq⟩ := exists_of_control_bind hq
  obtain ⟨⟨⟩, p₃, hrewind', hq⟩ := exists_of_control_bind hq
  rw [control_bind, hstop] at haudio
  simp only [hrewind] at haudio
  rw [hstop] at hvideo
  have hc₁ : p₁.clip? = some c := by
    have h := (control_frame hc (PlayerAction.Does.applyEvent .stop)).1
    rwa [hstop] at h
  have hc₂ : p₂.clip? = some c := by
    have h := (control_frame hc₁ (PlayerAction.Does.rewindTrack .video)).1
    rwa [hrewind] at h
  have hc₃ : p₃.clip? = some c := by
    have h := (control_frame hc₂ (PlayerAction.Does.rewindTrack .audio)).1
    rwa [hrewind'] at h
  have hpaused := applyEvent_notRunning hc hstop
  suffices h : p₃.Holds track (·.Still True True) by
    have hemit := h.control kept_still hc₃ (PlayerAction.Does.emitStep .stop)
      (by simp [Act.Resting])
    rwa [hq] at hemit
  cases track with
  | video =>
      have h := (rewindTrack_still hc₁ (hpaused .video) hvideo hrewind).control kept_still hc₂
        (PlayerAction.Does.rewindTrack .audio) (by simp [Act.Resting])
      rwa [hrewind'] at h
  | audio =>
      have h := (hpaused .audio).control kept_notRunning hc₁ (PlayerAction.Does.rewindTrack .video)
        (by simp [Act.Resting])
      rw [hrewind] at h
      exact rewindTrack_still hc₂ h haudio hrewind'

theorem positionMs_of_still (hc : p.clip? = some c) (hd : p.isDestroyed = false)
    (h : ∀ track, p.Holds track (·.Still rewound True)) : p.positionMs = .ok 0 := by
  obtain ⟨l, hl, -⟩ := Option.map_eq_some_iff.mp hc
  have hlane (track : Track) (lane : Lane) (hlane : l.lane? track = some lane) :
      lane.positionMs = 0 :=
    (h track ⟨lane, l.demuxer.pos track⟩ (by
      rw [reel?_of_loaded hl, LoadedClip.reel?, hlane, Option.map_some])).position trivial
  have hposition : l.positionMs = 0 := by
    rw [LoadedClip.positionMs]
    cases hvideo : l.video with
    | some lane => exact hlane .video lane hvideo
    | none =>
        cases haudio : l.audio with
        | some lane => exact hlane .audio lane haudio
        | none => rfl
  rw [positionMs, clip, hd, hl]
  exact congrArg Except.ok hposition

/-- The act moves no track but to its start. -/
def Act.KeepsStart : Act → Prop
  | .seek _ positionMs => positionMs = 0
  | _ => True

theorem heed_starting (h : r.Starting c track) (ha : a.KeepsStart) :
    (r.heed c track a).Starting c track := by
  cases a with
  | loop | emit => exact h
  | transition k event | place k positionMs =>
      simp only [Reel.heed]
      split
      · exact h
      · exact h
  | seek k positionMs =>
      cases ha
      simp only [Reel.heed]
      split
      · cases phase : r.lane.phase <;> simp_all [Reel.Starting, Timeline.indexFrom_zero]
      · exact h

theorem act_offersOf (hc : p.clip? = some c) (a : Act) (track : Track) :
    p.offersOf track <+: (p.act a).offersOf track := by
  obtain hq | hself | ⟨t, s, s', packet, event, -, -, -, hq⟩ := act_cases hc a
  · exact ⟨[], by rw [List.append_nil, offersOf, offersOf, hq.offers]⟩
  · exact ⟨[], by rw [List.append_nil, hself]⟩
  · rw [hq.offersOf track]
    exact List.prefix_append _ _

theorem after_offersOf (hc : p.clip? = some c) (acts : List Act) (track : Track) :
    p.offersOf track <+: (p.after acts).offersOf track := by
  induction acts generalizing p with
  | nil => exact List.prefix_refl _
  | cons a acts ih => exact (act_offersOf hc a track).trans (ih (act_frame hc a).1)

/-- A starting track goes on to start, or submits the first packet of the clip. -/
theorem act_starting (hc : p.clip? = some c) (hread : c.failVideoAt ≠ some 0)
    (h : ∀ r, p.reel? track = some r → r.Starting c track) (ha : a.KeepsStart) :
    (p.act a).offersOf track = p.offersOf track ∧
        (∀ r, (p.act a).reel? track = some r → r.Starting c track) ∨
      ∃ first, (p.act a).offersOf track = p.offersOf track ++ [first] ∧
        (c.timeline track).packet? 0 = some first := by
  obtain hq | hself | ⟨t, s, s', packet, event, rfl, hs, turn, hq⟩ := act_cases hc a
  · refine .inl ⟨by rw [offersOf, offersOf, hq.offers], fun r hr => ?_⟩
    rw [hq.reel, Option.map_eq_some_iff] at hr
    obtain ⟨r, hr, rfl⟩ := hr
    exact heed_starting (h r hr) ha
  · rw [hself]
    exact .inl ⟨rfl, h⟩
  · have hoffers := hq.offersOf track
    obtain rfl | rfl := Track.eq_or_eq_other t track
    · rw [if_pos rfl] at hoffers
      obtain ⟨rfl, hs'⟩ | ⟨first, rfl, hfirst⟩ := turn.starting (h s hs) hread
      · refine .inl ⟨by simpa using hoffers, fun r hr => ?_⟩
        cases hq.reel.symm.trans hr
        exact hs'
      · exact .inr ⟨first, hoffers, hfirst⟩
    · rw [if_neg t.ne_other, List.append_nil] at hoffers
      exact .inl ⟨hoffers, fun r hr => h r (hq.other.symm.trans hr)⟩

theorem after_starting (hc : p.clip? = some c) (hread : c.failVideoAt ≠ some 0)
    (h : ∀ r, p.reel? track = some r → r.Starting c track)
    (hacts : ∀ a ∈ acts, a.KeepsStart) :
    ∃ tail, (p.after acts).offersOf track = p.offersOf track ++ tail ∧
      ∀ packet, tail.head? = some packet → (c.timeline track).packet? 0 = some packet := by
  induction acts generalizing p with
  | nil => exact ⟨[], (List.append_nil _).symm, nofun⟩
  | cons a acts ih =>
      have ⟨ha, hacts⟩ := List.forall_mem_cons.mp hacts
      have hc' := (act_frame hc a).1
      rw [after_cons]
      obtain ⟨hsame, h'⟩ | ⟨first, hoffers, hfirst⟩ := act_starting hc hread h ha
      · rw [← hsame]
        exact ih hc' h' hacts
      · obtain ⟨tail, htail⟩ := after_offersOf hc' acts track
        refine ⟨first :: tail, by rw [← htail, hoffers, List.append_assoc]; rfl, ?_⟩
        rintro packet ⟨⟩
        exact hfirst

/-- After a stop that has caught both tracks the position is 0 and nothing is submitted, until a
track is started or moved; what is submitted first then is the first packet of the track. A track
is caught if its loop is not between its look at the status and the submission of a packet when it
is rewound. -/
theorem stop_spec {rest : List Act} (hc : p.clip? = some c) (hq : p.control stop = (.ok (), q))
    (hvideo : ∀ r, (p.control (applyEvent .stop)).2.takeTurn.reel? .video = some r →
      ¬r.lane.phase.InFlight)
    (haudio : ∀ r, (p.control (do applyEvent .stop; rewindTrack .video)).2.takeTurn.reel? .audio =
      some r → ¬r.lane.phase.InFlight)
    (hrest : ∀ a ∈ rest, a.Resting) :
    (q.after rest).positionMs = .ok 0 ∧ (q.after rest).offers = q.offers ∧
      ∀ again : List Act, (∀ a ∈ again, a.KeepsStart) → c.failVideoAt ≠ some 0 →
        ∀ track, ∃ tail, (q.after (rest ++ again)).offersOf track = q.offersOf track ++ tail ∧
          ∀ packet, tail.head? = some packet → (c.timeline track).packet? 0 = some packet := by
  obtain ⟨hclip, halive, hstill⟩ := stop_still hc hq hvideo haudio
  obtain ⟨hclip', halive'⟩ := after_frame hclip rest
  have hstill' (track : Track) : (q.after rest).Holds track (·.Still True True) :=
    (hstill track).after kept_still hclip hrest
  have hoffers := after_offers hclip hstill hrest
  refine ⟨positionMs_of_still hclip' (halive'.trans halive) hstill', hoffers, ?_⟩
  intro again hagain hread track
  have hsame : (q.after rest).offersOf track = q.offersOf track := by
    rw [offersOf, offersOf, hoffers]
  rw [after_append, ← hsame]
  exact after_starting hclip' hread (fun r hr => (hstill' track r hr).starting) hagain

theorem stop_spec_short :
    let p := (onClip .short .running).after (List.replicate 8 (.loop .video))
    let q := (p.control stop).2
    p.positionMs = .ok 100 ∧ (q.after [.loop .video, .loop .audio]).positionMs = .ok 0 ∧
      (q.after [.loop .video, .loop .audio]).offers = q.offers := by
  intro p q
  have hrest : ∀ a ∈ [Act.loop .video, .loop .audio], a.Resting := by simp [Act.Resting]
  obtain ⟨hposition, hoffers, -⟩ := stop_spec (p := p) (q := q) (c := .short) rfl rfl
    (by rintro r ⟨⟩; exact id) (by rintro r ⟨⟩; exact id) hrest
  exact ⟨rfl, hposition, hoffers⟩

/-- A loop that has read its packet before the stop goes on to store its time and to submit it. -/
theorem submits_after_stop :
    let p := (onClip .short .running).after (List.replicate 6 (.loop .video))
    let q := (p.control stop).2.after [.loop .video, .loop .video]
    (p.control stop).1 = .ok () ∧ (p.control stop).2.positionMs = .ok 0 ∧
      q.positionMs = .ok 100 ∧
      q.offersOf .video = (p.control stop).2.offersOf .video ++ [⟨100, false, 256⟩] :=
  ⟨rfl, rfl, rfl, rfl⟩

end Player
end CameraPipeline
