import CameraPipeline.Proofs.Playback.Possession
import CameraPipeline.Proofs.Playback.Stop

/-!
Controls take hold of every track or of none. While a clip is loaded each of its tracks is paused or
runs, whatever the controls and the loops do, and in both states a track can be played, paused and
stopped. So none of these is refused for one track when the other has followed it already.
-/

namespace CameraPipeline

/-- Is there such a track? -/
def MediaInfo.has (info : MediaInfo) : Track → Bool
  | .video => info.video.isSome
  | .audio => info.audio.isSome

theorem TrackStatus.next_ne_uninitialized {status : TrackStatus} {event : TrackEvent}
    (hstatus : status ≠ .uninitialized) (hevent : event ≠ .remove) :
    (status.next event).getD status ≠ .uninitialized := by
  cases status <;> cases event <;> first | contradiction | nofun

namespace Reel

/-- The track is paused or runs. -/
def Settled (r : Reel) : Prop := r.lane.status ≠ .uninitialized

variable {c : Clip} {track : Track} {r r' : Reel} {otherRuns : Bool} {packet : Option Packet}
  {event : Option PlayerEvent}

theorem Turn.settled (h : r.Turn c track otherRuns r' packet event) (hr : r.Settled) :
    r'.Settled := by
  obtain hsame | hpause := h.status
  · exact fun hgone => hr (hsame ▸ hgone)
  · exact fun hgone => by cases hpause.symm.trans hgone

end Reel

namespace Player

/-- The act takes a track away. -/
def Act.Removes : Act → Prop
  | .transition _ event => event = .remove
  | _ => False

variable {p q : Player} {l : LoadedClip} {c : Clip} {track : Track} {a : Act}
  {acts acts' : List Act} {r : Reel} {path : String} {event : TrackEvent} {α β : Type}

theorem heed_settled (h : r.Settled) (ha : ¬a.Removes) : (r.heed c track a).Settled := by
  obtain hsame | ⟨event, rfl, hnext⟩ := r.heed_status c track a
  · exact fun hgone => h (hsame ▸ hgone)
  · rw [Reel.Settled, hnext]
    exact TrackStatus.next_ne_uninitialized h ha

/-- The clip is loaded with the tracks that it has, and each is paused or runs. -/
structure Ready (p : Player) (c : Clip) : Prop where
  clip : p.clip? = some c
  alive : p.isDestroyed = false
  tracks : ∀ track, (p.reel? track).isSome = c.info.has track
  settled : ∀ track, p.Holds track Reel.Settled

theorem status?_eq (p : Player) (track : Track) :
    p.status? track = (p.reel? track).map (·.lane.status) := by
  rw [status?, reel?, Option.map_bind]
  refine congrArg (p.loaded.bind ·) (funext fun l => ?_)
  rw [LoadedClip.status?, Function.comp_apply, LoadedClip.reel?, Option.map_map]
  rfl

namespace Ready

theorem act (h : p.Ready c) (ha : ¬a.Removes) : (p.act a).Ready c := by
  obtain ⟨hclip, halive⟩ := act_frame h.clip a
  obtain hq | hself | ⟨t, s, s', packet, event, rfl, hs, turn, hq⟩ := act_cases h.clip a
  · refine ⟨hclip, halive.trans h.alive, fun track => ?_, fun track r hr => ?_⟩
    · rw [hq.reel, Option.isSome_map, h.tracks]
    · rw [hq.reel, Option.map_eq_some_iff] at hr
      obtain ⟨r, hr, rfl⟩ := hr
      exact heed_settled (h.settled track r hr) ha
  · rwa [hself]
  · refine ⟨hclip, halive.trans h.alive, fun track => ?_, fun track r hr => ?_⟩
    · obtain rfl | rfl := Track.eq_or_eq_other t track
      · rw [hq.reel, ← h.tracks, hs]
        rfl
      · rw [hq.other, h.tracks]
    · obtain ⟨rfl, rfl⟩ | ⟨rfl, hold⟩ := hq.reel_cases hr
      · exact turn.settled (h.settled track s hs)
      · exact h.settled _ r hold

theorem after (h : p.Ready c) (hacts : ∀ a ∈ acts, ¬a.Removes) : (p.after acts).Ready c :=
  after_keeps (I := (·.Ready c)) (fun _ _ ha hp => hp.act ha) hacts h

theorem withTurns (h : p.Ready c) (turns : List (List Track)) : (p.withTurns turns).Ready c :=
  ⟨h.clip, h.alive, h.tracks, h.settled⟩

theorem takeTurn (h : p.Ready c) : p.takeTurn.Ready c := by
  obtain ⟨turn, hturn⟩ := takeTurn_eq p
  rw [hturn]
  exact (h.after (List.forall_mem_map.mpr fun _ _ => id)).withTurns _

theorem status_ne {status : TrackStatus} (h : p.Ready c) (hs : p.status? track = some status) :
    status ≠ .uninitialized := by
  rw [status?_eq, Option.map_eq_some_iff] at hs
  obtain ⟨r, hr, rfl⟩ := hs
  exact h.settled track r hr

theorem isSome_status? (h : p.Ready c) (track : Track) :
    (p.status? track).isSome = c.info.has track := by
  rw [status?_eq, Option.isSome_map, h.tracks]

/-- A track of the clip is paused or runs, and no other has a status. -/
theorem status? (h : p.Ready c) (track : Track) :
    if c.info.has track then p.status? track = some .pause ∨ p.status? track = some .running
    else p.status? track = none := by
  rw [← h.isSome_status?]
  cases hs : p.status? track with
  | none => rfl
  | some status =>
      have hne := h.status_ne hs
      cases status with
      | uninitialized => exact absurd rfl hne
      | pause => exact .inl rfl
      | running => exact .inr rfl

theorem clip_eq (h : p.Ready c) : ∃ l, p.clip = .ok l := by
  obtain ⟨l, hl, -⟩ := Option.map_eq_some_iff.mp h.clip
  exact ⟨l, by rw [Player.clip, h.alive, hl]⟩

/-- No track refuses an event that is legal in both states. -/
theorem transition_eq (h : p.Ready c)
    (he : ∀ status : TrackStatus, status ≠ .uninitialized → (status.next event).isSome)
    (track : Track) : p.transition track event = (.ok (), p.act (.transition track event)) := by
  refine Prod.ext ?_ rfl
  obtain ⟨l, hl, -⟩ := Option.map_eq_some_iff.mp h.clip
  simp only [transition, hl]
  split
  · rfl
  · rename_i status hs
    have hne : status ≠ .uninitialized := h.status_ne (by rw [Player.status?, hl]; exact hs)
    split
    · rename_i hnext
      have hsome := he status hne
      rw [hnext] at hsome
      cases hsome
    · rfl

end Ready

theorem seekDemuxer_zero (p : Player) (track : Track) :
    p.seekDemuxer track 0 = (.ok (), p.act (.seek track 0)) := by
  refine Prod.ext ?_ rfl
  rw [seekDemuxer]
  split
  · rfl
  · rw [Demuxer.seek_zero]

/-- Steps of the loops take no track away. -/
theorem not_removes_of_filter {run : List Act}
    (h : ∀ a ∈ run.filter Act.IsControl, ¬a.Removes) : ∀ a ∈ run, ¬a.Removes := by
  intro a ha
  cases a with
  | loop => exact id
  | transition | seek | place | emit => exact h _ (List.mem_filter.mpr ⟨ha, rfl⟩)

theorem Follows.ready (h : p.Follows acts q) (hp : p.Ready c) (hacts : ∀ a ∈ acts, ¬a.Removes) :
    q.Ready c := by
  obtain ⟨run, turns, rfl, rfl⟩ := h
  exact (hp.after (not_removes_of_filter hacts)).withTurns turns

end Player

open Player

/-- With the clip loaded the call succeeds and makes all of these acts. -/
def PlayerAction.Makes {α : Type} (x : PlayerAction α) (c : Clip) (acts : List Act) : Prop :=
  ∀ p : Player, p.Ready c → ∃ v q, p.control x = (.ok v, q) ∧ p.Follows acts q

namespace PlayerAction.Makes

variable {α β : Type} {x : PlayerAction α} {c : Clip} {acts acts' : List Act} {event : TrackEvent}

theorem pure (v : α) : (Pure.pure v : PlayerAction α).Makes c [] :=
  fun p _ => ⟨v, p, rfl, .refl p⟩

theorem bind {f : α → PlayerAction β} (hx : x.Makes c acts) (hacts : ∀ a ∈ acts, ¬a.Removes)
    (hf : ∀ v, (f v).Makes c acts') : (x >>= f).Makes c (acts ++ acts') := by
  intro p hp
  obtain ⟨v, q, hq, hfollows⟩ := hx p hp
  obtain ⟨w, q', hq', hfollows'⟩ := hf v q (hfollows.ready hp hacts)
  refine ⟨w, q', ?_, hfollows.trans hfollows'⟩
  rw [control_bind, hq]
  exact hq'

theorem withState {f : Player → PlayerAction β} (hf : ∀ p, p.Ready c → (f p).Makes c acts) :
    (get >>= f).Makes c acts := fun p hp => by
  obtain ⟨v, q, hq, hfollows⟩ := hf p hp p hp
  exact ⟨v, q, by rw [control_bind, control_get]; exact hq, hfollows⟩

theorem step {f : Player → α × Player} {a : Act} (ha : a.IsControl = true)
    (hf : ∀ p, (f p).2 = p.act a) : (PlayerAction.step f).Makes c [a] := fun p _ =>
  ⟨(f p.takeTurn).1, p.takeTurn.act a, Prod.ext rfl (hf p.takeTurn), .step p ha⟩

theorem attemptStep {f : Player → Except PlaybackFault Unit × Player} {a : Act}
    (ha : a.IsControl = true) (hf : ∀ p : Player, p.Ready c → f p = (.ok (), p.act a)) :
    (Player.attemptStep f).Makes c [a] := by
  intro p hp
  have hstep : p.control (PlayerAction.step f) = (.ok (f p.takeTurn).1, (f p.takeTurn).2) := rfl
  rw [hf p.takeTurn hp.takeTurn] at hstep
  refine ⟨(), _, ?_, .step p ha⟩
  rw [Player.attemptStep, control_bind, hstep]
  rfl

theorem applyEvent
    (he : ∀ status : TrackStatus, status ≠ .uninitialized → (status.next event).isSome)
    (hevent : event ≠ .remove) :
    (Player.applyEvent event).Makes c
      [.transition .video event, .transition .audio event] := by
  refine withState fun p hp => ?_
  obtain ⟨l, hl⟩ := hp.clip_eq
  rw [hl]
  exact bind (attemptStep rfl fun p hp => hp.transition_eq he .video) (by simpa [Act.Removes])
    fun _ => attemptStep rfl fun p hp => hp.transition_eq he .audio

theorem emitStep (event : PlayerEvent) : (Player.emitStep event).Makes c [.emit event] :=
  step rfl fun _ => rfl

theorem rewindTrack (track : Track) : (Player.rewindTrack track).Makes c
    (if c.info.has track then [.seek track 0, .place track 0] else []) := by
  refine withState fun p hp => ?_
  rw [hp.isSome_status?]
  split
  · exact bind (attemptStep rfl fun p _ => p.seekDemuxer_zero track) (by simp [Act.Removes])
      fun _ => step rfl fun _ => rfl
  · exact pure ()

end PlayerAction.Makes

namespace PlayerCall

variable {call : PlayerCall} {event : TrackEvent} {target : TrackStatus} {info : MediaInfo}
  {track : Track} {c : Clip}

/-- What a call does to the tracks of the clip, and the status that they get. -/
def steers? : PlayerCall → Option (TrackEvent × TrackStatus)
  | play => some (.play, .running)
  | pause => some (.pause, .pause)
  | stop => some (.stop, .pause)
  | _ => none

def rewinds (info : MediaInfo) (track : Track) : List Act :=
  if info.has track then [.seek track 0, .place track 0] else []

/-- The acts of a call that steers the tracks. -/
def acts (info : MediaInfo) : PlayerCall → List Act
  | play => [.transition .video .play, .transition .audio .play] ++ [.emit .play]
  | pause => [.transition .video .pause, .transition .audio .pause] ++ [.emit .pause]
  | stop => [.transition .video .stop, .transition .audio .stop] ++
      (rewinds info .video ++ (rewinds info .audio ++ [.emit .stop]))
  | _ => []

theorem next_of_steers (h : call.steers? = some (event, target)) {status : TrackStatus}
    (hstatus : status ≠ .uninitialized) : status.next event = some target := by
  cases call with
  | play | pause | stop =>
      cases h
      cases status <;> first | rfl | exact absurd rfl hstatus
  | _ => cases h

theorem transition_mem_acts (h : call.steers? = some (event, target)) (info : MediaInfo)
    (track : Track) : .transition track event ∈ call.acts info := by
  cases call with
  | play | pause | stop =>
      cases h
      cases track <;> simp [acts]
  | _ => cases h

theorem not_removes_of_mem_rewinds {a : Act} (ha : a ∈ rewinds info track) : ¬a.Removes := by
  rw [rewinds] at ha
  split at ha
  · obtain rfl | rfl : a = .seek track 0 ∨ a = .place track 0 := by simpa using ha
    · exact id
    · exact id
  · cases ha

theorem not_removes_of_mem_acts {a : Act} (ha : a ∈ call.acts info) : ¬a.Removes := by
  cases call with
  | play | pause =>
      simp only [acts, List.cons_append, List.nil_append, List.mem_cons, List.not_mem_nil,
        or_false] at ha
      obtain rfl | rfl | rfl := ha <;> nofun
  | stop =>
      simp only [acts, List.mem_append, List.mem_cons, List.not_mem_nil, or_false] at ha
      obtain (rfl | rfl) | ha | ha | rfl := ha
      · nofun
      · nofun
      · exact not_removes_of_mem_rewinds ha
      · exact not_removes_of_mem_rewinds ha
      · exact id
  | _ => cases ha

/-- Where the clip is loaded, a call that steers the tracks makes all of its acts. -/
theorem makes (h : call.steers? = some (event, target)) (c : Clip) :
    call.action.Makes c (call.acts c.info) := by
  have hnext (status : TrackStatus) (hstatus : status ≠ .uninitialized) :
      (status.next event).isSome := by
    rw [next_of_steers h hstatus]
    rfl
  have hrewind (track : Track) (a : Act) (ha : a ∈ rewinds c.info track) : ¬a.Removes :=
    not_removes_of_mem_rewinds ha
  cases call with
  | play | pause =>
      cases h
      exact .bind (.applyEvent hnext nofun) (by simp [Act.Removes]) fun _ => .emitStep _
  | stop =>
      cases h
      exact .bind (.applyEvent hnext nofun) (by simp [Act.Removes]) fun _ =>
        .bind (.rewindTrack .video) (hrewind .video) fun _ =>
          .bind (.rewindTrack .audio) (hrewind .audio) fun _ => .emitStep _
  | _ => cases h

end PlayerCall

namespace Player

variable {p q : Player} {c : Clip} {track : Track} {a : Act} {call : PlayerCall}
  {event : TrackEvent} {target : TrackStatus} {path : String} {events : List SessionEvent}

theorem Ready.status?_transition (h : p.Ready c) (htrack : c.info.has track = true)
    (he : ∀ {status : TrackStatus}, status ≠ .uninitialized → status.next event = some target) :
    (p.act (.transition track event)).status? track = some target := by
  obtain ⟨r, hr⟩ := Option.isSome_iff_exists.mp ((h.tracks track).trans htrack)
  rw [status?_eq, (act_heeded (a := .transition track event) h.clip nofun).reel, hr]
  simp only [Option.map_some, Reel.heed, if_true, he (h.settled track r hr), Option.getD_some]

/-- A call that steers the tracks succeeds, and every track of the clip follows it. -/
theorem Ready.steer (h : p.Ready c) (hcall : call.steers? = some (event, target)) :
    ∃ run turns, p.control call.action = (.ok (), (p.after run).withTurns turns) ∧
      run.filter Act.IsControl = call.acts c.info ∧
      ∀ track, c.info.has track = true →
        ∃ before since, run = before ++ .transition track event :: since ∧
          (p.after (before ++ [.transition track event])).status? track = some target := by
  obtain ⟨⟨⟩, _, hcontrol, run, turns, rfl, hrun⟩ := PlayerCall.makes hcall c p h
  refine ⟨run, turns, hcontrol, hrun, fun track htrack => ?_⟩
  have hmem : .transition track event ∈ run := by
    have hacts := PlayerCall.transition_mem_acts hcall c.info track
    rw [← hrun] at hacts
    exact (List.mem_filter.mp hacts).1
  -- up to the transition nothing has taken the track away, so it is legal
  obtain ⟨before, since, hsplit⟩ := List.append_of_mem hmem
  refine ⟨before, since, hsplit, ?_⟩
  have hrest : ∀ a ∈ run, ¬a.Removes := not_removes_of_filter (hrun ▸ fun _ =>
    PlayerCall.not_removes_of_mem_acts)
  have hbefore : (p.after before).Ready c :=
    h.after fun a ha => hrest a (hsplit ▸ List.mem_append_left _ ha)
  rw [after_append]
  exact hbefore.status?_transition htrack (PlayerCall.next_of_steers hcall)

/-- A loaded clip is ready. -/
def Prepared (p : Player) : Prop := ∀ c, p.clip? = some c → p.Ready c

theorem prepared_of_none (h : p.loaded = none) : p.Prepared := fun c hc => by
  rw [clip?, h] at hc
  cases hc

theorem Ready.prepared (h : p.Ready c) : p.Prepared := fun c' hc' => by
  cases h.clip.symm.trans hc'
  exact h

theorem Stays.clip? (h : p.Stays q) : q.clip? = p.clip? := by
  have hclip := congrArg (Option.map Outline.clip) h.outline
  rwa [Option.map_map, Option.map_map] at hclip

theorem clear_loaded (p : Player) : p.clear.2.loaded = none := by
  rw [clear]
  split
  · assumption
  · rfl

/-- A clip is right after it was loaded. -/
structure Opened (p : Player) (c : Clip) : Prop where
  ready : p.Ready c
  paused : ∀ track, p.Holds track (·.lane.status = .pause)

theorem opened_of_mount {demuxer : Demuxer} (halive : p.isDestroyed = false)
    (h : p.mount path demuxer = (.ok (), q)) : q.Opened demuxer.clip := by
  have hdecoders := (meets_outputs demuxer.clip.info).construct p.plant
  simp only [mount] at h
  cases ho : p.plant.construct (buildOutputs demuxer.clip.info) with
  | mk answer plant =>
      rw [ho] at hdecoders h
      cases answer with
      | error e => cases h
      | ok a =>
          obtain ⟨⟨video, audio⟩, stack⟩ := a
          obtain ⟨-, hvideo, haudio⟩ := hdecoders
          obtain ⟨starts, rfl⟩ := launch_eq_ok h
          have hreel (track : Track) := reel?_of_loaded (p := { p with plant, starts }.setLoaded
            (opened path demuxer stack video audio)) rfl track
          have hpaused (track : Track) (r : Reel)
              (hr : (opened path demuxer stack video audio).reel? track = some r) :
              r.lane.status = .pause := by
            obtain ⟨decoder, hfresh⟩ := freshLane_of_opened (LoadedClip.reel?_eq_some.mp hr).1
            rw [← hfresh]
            rfl
          refine ⟨⟨rfl, halive, fun track => ?_, fun track r hr => ?_⟩, hpaused⟩
          · rw [hreel, LoadedClip.reel?, Option.isSome_map]
            cases track with
            | video => exact (Option.isSome_map ..).trans hvideo
            | audio => exact (Option.isSome_map ..).trans haudio
          · intro hsettled
            cases (hpaused track r hr).symm.trans hsettled

theorem load_cases (halive : p.isDestroyed = false) (hnone : p.loaded = none) (path : String) :
    match p.load path with
    | (.ok _, q) => ∃ c, q.Opened c
    | (.error _, q) => q.loaded = none := by
  split <;> rename_i hload
  · simp only [load] at hload
    split at hload
    · cases hload
    · exact ⟨_, opened_of_mount halive hload⟩
  · exact none_of_load hnone hload

/-- A clip that is loaded is ready, and a load that fails leaves none behind, unless the player is
destroyed. -/
theorem setFile_cases (p : Player) (path : String) :
    match p.control (setFile path) with
    | (.ok _, q) => ∃ c, q.Opened c
    | (.error _, q) => q = p ∨ q.loaded = none := by
  rw [control_setFile]
  by_cases hd : p.isDestroyed = true
  · rw [if_pos hd]
    exact .inl rfl
  · rw [if_neg hd]
    have halive := Bool.eq_false_iff.mpr hd
    have hcleared : (if p.loaded.isSome then p.clear else (.ok (), p)).2.loaded = none ∧
        (if p.loaded.isSome then p.clear else (.ok (), p)).2.isDestroyed = false := by
      split
      · exact ⟨clear_loaded p, (clear_isDestroyed p).trans halive⟩
      · exact ⟨Option.not_isSome_iff_eq_none.mp ‹_›, halive⟩
    -- whatever the removal answers, the clip is gone
    generalize (if p.loaded.isSome then p.clear else (.ok (), p)) = cleared at hcleared ⊢
    obtain ⟨_ | _, p'⟩ := cleared
    · exact .inr hcleared.1
    · have hload := load_cases hcleared.2 hcleared.1 path
      dsimp only
      split at hload
      · rename_i heq
        rw [heq]
        exact hload
      · rename_i heq
        rw [heq]
        exact .inr hload

namespace Prepared

theorem act (h : p.Prepared) (ha : ¬a.Removes) : (p.act a).Prepared := fun c hc => by
  rw [(act_stays p a).clip?] at hc
  exact (h c hc).act ha

theorem of_same (h : p.Prepared) (hloaded : q.loaded = p.loaded)
    (hdestroyed : q.isDestroyed = p.isDestroyed) : q.Prepared := fun c hc => by
  have hreel (track : Track) : q.reel? track = p.reel? track := by rw [reel?, hloaded, reel?]
  have hready := h c (by rwa [clip?, ← hloaded])
  refine ⟨hc, hdestroyed.trans hready.alive, fun track => ?_, fun track r hr => ?_⟩
  · rw [hreel, hready.tracks]
  · exact hready.settled track r (hreel track ▸ hr)

/-- A call that is made of acts. -/
theorem control {x : PlayerAction Unit} {acts : List Act} (h : p.Prepared) (hx : x.Does acts)
    (hacts : ∀ a ∈ acts, ¬a.Removes) : (p.control x).2.Prepared :=
  hx.keeps (fun _ _ ha hp => Prepared.act hp ha) (fun _ _ hp => of_same hp rfl rfl)
    (fun _ => id) hacts h

theorem setFile (h : p.Prepared) (path : String) : (p.control (setFile path)).2.Prepared := by
  have hcases := setFile_cases p path
  split at hcases
  · rename_i heq
    obtain ⟨c, hopened⟩ := hcases
    rw [heq]
    exact hopened.ready.prepared
  · rename_i heq
    rw [heq]
    obtain rfl | hnone := hcases
    · exact h
    · exact prepared_of_none hnone

theorem meet (h : p.Prepared) (e : SessionEvent) : (p.meet e).Prepared := by
  cases e with
  | call c =>
      cases c with
      | setFile path => exact h.setFile path
      | play => exact h.control .play (by simp [Act.Removes])
      | pause => exact h.control .pause (by simp [Act.Removes])
      | stop => exact h.control .stop (by simp [Act.Removes])
      | seek track positionMs => exact h.control (.seek track positionMs) (by simp [Act.Removes])
      | removeFile =>
          refine prepared_of_none ?_
          rw [Player.meet, PlayerCall.action, control_removeFile, clear_loaded]
      | destroy =>
          rw [Player.meet, PlayerCall.action, control_destroy]
          split
          · exact h
          · exact prepared_of_none (clear_loaded p)
  | loop track => exact h.act (a := .loop track) id
  | turns | starts | register | drain | inject => exact h.of_same rfl rfl

end Prepared

theorem run_prepared (hp : p.loaded = none) (events : List SessionEvent) :
    (p.run events).Prepared :=
  run_keeps (P := fun _ => True) (fun _ e _ h => h.meet e) (fun _ _ => trivial)
    (prepared_of_none hp)

theorem steer_of_none (hp : p.loaded = none) (hcall : call.steers? = some (event, target)) :
    ∃ fault, (fault = .noFile ∨ fault = .destroyed) ∧
      p.control call.action = (.error (.playback fault), p) := by
  obtain ⟨fault, hfault, hclip⟩ : ∃ fault, (fault = .noFile ∨ fault = .destroyed) ∧
      p.clip = .error (.playback fault) := by
    rw [clip, hp]
    cases p.isDestroyed with
    | true => exact ⟨_, .inr rfl, rfl⟩
    | false => exact ⟨_, .inl rfl, rfl⟩
  refine ⟨fault, hfault, ?_⟩
  have happly (event : TrackEvent) := control_applyEvent_of_clip hclip event
  cases call with
  | play => rw [PlayerCall.action, play, control_bind, happly]
  | pause => rw [PlayerCall.action, pause, control_bind, happly]
  | stop => rw [PlayerCall.action, stop, control_bind, happly]
  | _ => cases hcall

/-- The loops alone start no track. -/
theorem Opened.status?_after (h : p.Opened c) (turns : List Track) (track : Track) :
    (p.after (turns.map .loop)).status? track =
      if c.info.has track then some .pause else none := by
  have hready : (p.after (turns.map .loop)).Ready c :=
    h.ready.after (List.forall_mem_map.mpr fun _ _ => id)
  have hstopped : (p.after (turns.map .loop)).Holds track Reel.NotRunning :=
    Holds.after (fun r hr => by rw [Reel.NotRunning, h.paused track r hr]; simp) kept_notRunning
      h.ready.clip (List.forall_mem_map.mpr fun _ _ => trivial)
  have hstatus := hready.status? track
  split
  · rename_i htrack
    rw [if_pos htrack] at hstatus
    obtain hpause | hrunning := hstatus
    · exact hpause
    · rw [status?_eq, Option.map_eq_some_iff] at hrunning
      obtain ⟨r, hr, hrunning⟩ := hrunning
      exact absurd hrunning (hstopped r hr)
  · rename_i htrack
    rwa [if_neg htrack] at hstatus

/-- Whatever the calls of a session and the loops have done, and also in the middle of a call, every
track of a loaded clip is paused or runs, and no other track has a status. So playing, pausing and
stopping succeed, and every track of the clip follows each of them; without a clip they change
nothing. A clip that was just loaded has all its tracks paused, until one is played. -/
theorem run_unison (hp : p.loaded = none) (hq : p.run events = q) :
    (∀ l, q.loaded = some l → ∀ acts : List Act, (∀ a ∈ acts, ¬a.Removes) → ∀ track,
      if l.info.has track then
        (q.after acts).status? track = some .pause ∨ (q.after acts).status? track = some .running
      else (q.after acts).status? track = none) ∧
    (∀ (call : PlayerCall) event target, call.steers? = some (event, target) →
      (q.loaded = none → ∃ fault, (fault = .noFile ∨ fault = .destroyed) ∧
        q.control call.action = (.error (.playback fault), q)) ∧
      ∀ l, q.loaded = some l →
        ∃ run turns, q.control call.action = (.ok (), (q.after run).withTurns turns) ∧
          run.filter Act.IsControl = call.acts l.info ∧
          ∀ track, l.info.has track = true →
            ∃ before since, run = before ++ .transition track event :: since ∧
              (q.after (before ++ [.transition track event])).status? track = some target) ∧
    ∀ path q', q.control (setFile path) = (.ok (), q') →
      ∃ l, q'.loaded = some l ∧ ∀ (turns : List Track) track,
        (q'.after (turns.map .loop)).status? track =
          if l.info.has track then some .pause else none := by
  have hprepared : q.Prepared := hq ▸ run_prepared hp events
  have hready (l : LoadedClip) (hl : q.loaded = some l) : q.Ready l.demuxer.clip :=
    hprepared _ (by rw [clip?, hl, Option.map_some])
  refine ⟨fun l hl acts hacts track => ((hready l hl).after hacts).status? track,
    fun call event target hcall => ⟨fun hnone => steer_of_none hnone hcall,
      fun l hl => (hready l hl).steer hcall⟩, fun path q' hload => ?_⟩
  have hcases := setFile_cases q path
  rw [hload] at hcases
  obtain ⟨c, hopened⟩ := hcases
  obtain ⟨l, hl, rfl⟩ := Option.map_eq_some_iff.mp hopened.ready.clip
  exact ⟨l, hl, hopened.status?_after⟩

/-- The sound comes to its end, and pauses, after the picture was stopped and before it is stopped
itself. -/
theorem run_unison_bare :
    let ending : List SessionEvent := [.call .play] ++ List.replicate 5 (.loop .audio) ++
      [.turns [[.audio, .audio], [.audio, .audio]]]
    let q := bare.run (.call (.setFile "clip") :: ending)
    bare.loaded = none ∧ q.status? .audio = some .running ∧
      ∃ run turns, q.control stop = (.ok (), (q.after run).withTurns turns) ∧
        ∀ track, ∃ before since, run = before ++ .transition track .stop :: since ∧
          (q.after (before ++ [.transition track .stop])).status? track = some .pause := by
  intro ending q
  have hload : bare.meet (.call (.setFile "clip")) = bareLoaded := congrArg Prod.snd setFile_bare
  have hq : bareLoaded.run ending = q := by rw [← hload]; rfl
  obtain ⟨-, hsteer, -⟩ := run_unison (p := bare) (q := q) rfl rfl
  obtain ⟨l, hl, hinfo⟩ : ∃ l, q.loaded = some l ∧ l.info = Clip.short.info := by
    rw [← hq]
    exact ⟨_, rfl, rfl⟩
  obtain ⟨run, turns, hcontrol, -, hfollows⟩ := (hsteer .stop .stop .pause rfl).2 l hl
  refine ⟨rfl, by rw [← hq]; rfl, run, turns, hcontrol, fun track => hfollows track ?_⟩
  rw [hinfo]
  cases track <;> rfl

end Player
end CameraPipeline
