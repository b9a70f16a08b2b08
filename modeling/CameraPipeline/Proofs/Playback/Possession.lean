import CameraPipeline.Proofs.Playback.Outputs
import CameraPipeline.Proofs.Playback.Run
import CameraPipeline.Proofs.Server.Reachable

/-!
What a player holds on the server. After every call, whatever failed, these are the decode paths of
its clip, and nothing when it has none. Once destroyed, it stays so and asks the server for nothing.
-/

namespace CameraPipeline

open Plant

/-- What the loops and the controls leave as it is in a loaded clip. -/
structure Outline where
  clip : Clip
  stack : Stack
  video : Option Handle
  audio : Option Handle

def LoadedClip.outline (l : LoadedClip) : Outline :=
  ⟨l.demuxer.clip, l.stack, l.video.map (·.decoder), l.audio.map (·.decoder)⟩

namespace LoadedClip

variable {l : LoadedClip} {track : Track}

theorem outline_update (l : LoadedClip) (track : Track) {f : Lane → Lane}
    (hf : ∀ lane, (f lane).decoder = lane.decoder) : (l.update track f).outline = l.outline := by
  cases track <;> simp [update, outline, Function.comp_def, hf]

theorem outline_setPhase (l : LoadedClip) (track : Track) (phase : LoopPhase) :
    (l.setPhase track phase).outline = l.outline :=
  outline_update l track fun _ => rfl

theorem outline_opened (path : String) (demuxer : Demuxer) (stack : Stack)
    (video audio : Option Handle) :
    (Player.opened path demuxer stack video audio).outline =
      ⟨demuxer.clip, stack, video, audio⟩ := by
  cases video <;> cases audio <;> rfl

theorem outline_demuxer (l : LoadedClip) {demuxer : Demuxer}
    (hclip : demuxer.clip = l.demuxer.clip) : { l with demuxer }.outline = l.outline := by
  simp [outline, hclip]

end LoadedClip

theorem Demuxer.clip_read (d : Demuxer) (track : Track) : (d.read track).2.clip = d.clip := by
  rw [read_eq]
  dsimp only
  split
  · rfl
  · exact clip_setPos d track _

theorem Demuxer.clip_seek {d d' : Demuxer} {track : Track} {positionMs : Nat}
    (h : d.seek track positionMs = .ok d') : d'.clip = d.clip := by
  simp only [seek] at h
  split at h <;> cases h
  exact clip_setPos d track _

namespace Player

variable {p q : Player} {l l' : LoadedClip} {e : SessionEvent} {events : List SessionEvent}

/-- An act asks the server for no more than to take a packet. -/
structure Stays (p q : Player) : Prop where
  outline : q.loaded.map (·.outline) = p.loaded.map (·.outline)
  plant : q.plant = p.plant ∨ ∃ h, q.plant = (p.plant.ask (.submit h)).2
  isDestroyed : q.isDestroyed = p.isDestroyed

namespace Stays

theorem refl (p : Player) : p.Stays p := ⟨rfl, .inl rfl, rfl⟩

theorem setLoaded (hl : p.loaded = some l) (h : l'.outline = l.outline) :
    p.Stays (p.setLoaded l') :=
  ⟨by simp [Player.setLoaded, hl, h], .inl rfl, rfl⟩

theorem emit (h : p.Stays q) (e : PlayerEvent) : p.Stays (q.emit e) := by
  simp only [Player.emit]
  split
  · exact ⟨h.outline, h.plant, h.isDestroyed⟩
  · exact h

end Stays

theorem advance_stays (p : Player) (track : Track) : p.Stays (p.advance track) := by
  simp only [advance]
  split
  · exact .refl p
  · rename_i l hl
    have hphase (phase : LoopPhase) : p.Stays (p.setLoaded (l.setPhase track phase)) :=
      .setLoaded hl (l.outline_setPhase track phase)
    split
    · exact .refl p
    · rename_i lane _
      cases lane.phase with
      | idle =>
          dsimp only
          split
          · exact hphase _
          · exact .refl p
      | reading =>
          refine .setLoaded hl ?_
          rw [LoadedClip.outline_setPhase]
          exact l.outline_demuxer (Demuxer.clip_read _ _)
      | placing | zeroing | closing | failing =>
          exact .setLoaded hl (l.outline_update track fun _ => rfl)
      | offering packet =>
          exact ⟨(hphase .idle).outline, .inr ⟨lane.decoder, rfl⟩, rfl⟩
      | rewinding =>
          dsimp only
          split
          · rename_i hseek
            refine .setLoaded hl ?_
            rw [LoadedClip.outline_setPhase]
            exact l.outline_demuxer (Demuxer.clip_seek hseek)
          · exact hphase _
      | announcing => exact (hphase .idle).emit .eof
      | reporting fault => exact (hphase .idle).emit (.error fault)

theorem act_stays (p : Player) (a : Act) : p.Stays (p.act a) := by
  cases a with
  | loop track => exact advance_stays p track
  | transition track event =>
      simp only [act, transition]
      split
      · exact .refl p
      · rename_i l hl
        split
        · exact .refl p
        · split
          · exact .refl p
          · exact .setLoaded hl (l.outline_update track fun _ => rfl)
  | seek track positionMs =>
      simp only [act, seekDemuxer]
      split
      · exact .refl p
      · rename_i l hl
        split
        · rename_i hseek
          exact .setLoaded hl (l.outline_demuxer (Demuxer.clip_seek hseek))
        · exact .refl p
  | place track positionMs =>
      simp only [act, setPosition]
      split
      · exact .refl p
      · rename_i l hl
        exact .setLoaded hl (l.outline_update track fun _ => rfl)
  | emit event => exact (Stays.refl p).emit event

end Player

/-- No pump was started, and so none was late. -/
def Plant.Unpumped (p : Plant) : Prop := p.pumps = [] ∧ p.Drained

theorem Plant.Unpumped.apply {requests : Request → Prop} {p : Plant} {c : Change}
    (hp : p.Unpumped) (hc : c.Within requests fun _ => False) : (p.apply c).Unpumped := by
  have hnone (id : PumpId) (pump : Pump) : p.pump? id ≠ some pump := by simp [pump?, hp.1]
  have hstill {id : PumpId} {q : Plant} (h : Advanced p id q) : q = p := by
    cases h with
    | stays => rfl
    | checks pump h | fetches pump h | offers pump h | releases pump h =>
        exact absurd h (hnone id pump)
  refine ⟨?_, ?_⟩
  · rw [← List.length_eq_zero_iff, pumps_length_apply p hc, hp.1, List.length_nil]
  · cases applied p c with
    | advance id h => rw [hstill h]; exact hp.2
    | request r =>
        intro e he
        simp only [Plant.apply, serve] at he
        split at he <;> obtain he | he := List.mem_append.mp he
        · exact hp.2 e he
        · rw [List.mem_singleton.mp he]
          rfl
        · exact hp.2 e he
        · rw [List.mem_singleton.mp he]
          rfl
    | start pump => exact hc.elim
    | handled _ id pump pump' h => exact absurd h (hnone _ _)
    | idle _ _ _ _ _ journal =>
        rw [Drained, journal]
        exact hp.2

theorem Plant.Steps.unpumped {requests : Request → Prop} {p q : Plant}
    (h : Steps (Change.Within requests fun _ => False) p q) (hp : p.Unpumped) : q.Unpumped :=
  h.keeps (fun _ _ hc hp => hp.apply hc) hp

/-- The circuit `ground` with the decode paths of the clip, which its stack leads back from. -/
def Outline.On (ground : Circuit) (plant : Plant) : Option Outline → Prop
  | none => Site.At (fun _ => False) ground ground ⟨{}, plant⟩
  | some u => ∃ o : Outputs, o.Fits u.clip.info ∧ (∀ h ∈ o.channels, ¬ground.Live h) ∧
      u.video = o.picture.map (·.1) ∧ u.audio = o.sound.map (·.1) ∧
      Site.At (fun _ => False) ground (o.circuit ground) ⟨u.stack, plant⟩

theorem Outline.On.transport {ground : Circuit} {p q : Plant} {u : Option Outline}
    (h : On ground p u) (hq : ∀ {c s}, Site.At (fun _ => False) ground c ⟨s, p⟩ →
      Site.At (fun _ => False) ground c ⟨s, q⟩) : On ground q u := by
  cases u with
  | none => exact hq h
  | some u =>
      obtain ⟨o, hfits, hnew, hvideo, haudio, site⟩ := h
      exact ⟨o, hfits, hnew, hvideo, haudio, hq site⟩

namespace Player

variable {p q : Player} {l : LoadedClip} {e : SessionEvent} {events : List SessionEvent}
  {ground : Circuit} {path : String}

theorem takeTurn_isDestroyed (p : Player) : p.takeTurn.isDestroyed = p.isDestroyed := by
  obtain ⟨turn, hturn⟩ := takeTurn_eq p
  rw [hturn]
  exact after_keeps (I := fun q => q.isDestroyed = p.isDestroyed) (P := fun _ => True)
    (fun q a _ hq => (act_stays q a).isDestroyed.trans hq) (fun _ _ => trivial) rfl

theorem clear_isDestroyed (p : Player) : p.clear.2.isDestroyed = p.isDestroyed := by
  rw [← takeTurn_isDestroyed p, clear]
  split <;> rfl

/-- The player holds the decode paths of its clip and nothing else. -/
structure Possesses (ground : Circuit) (p : Player) : Prop where
  unpumped : p.plant.Unpumped
  gone : p.isDestroyed = true → p.loaded = none
  on : Outline.On ground p.plant (p.loaded.map (·.outline))

namespace Possesses

theorem of_same (h : p.Possesses ground) (hplant : q.plant = p.plant)
    (hloaded : q.loaded.map (·.outline) = p.loaded.map (·.outline))
    (hdestroyed : q.isDestroyed = p.isDestroyed) : q.Possesses ground where
  unpumped := hplant ▸ h.unpumped
  gone hd := by
    rw [h.gone (hdestroyed ▸ hd), Option.map_none, Option.map_eq_none_iff] at hloaded
    exact hloaded
  on := by
    rw [hplant, hloaded]
    exact h.on

theorem stays (h : p.Possesses ground) (hq : p.Stays q) : q.Possesses ground := by
  obtain hplant | ⟨decoder, hplant⟩ := hq.plant
  · exact h.of_same hplant hq.outline hq.isDestroyed
  · have hasked : Possesses ground { p with plant := (p.plant.ask (.submit decoder)).2 } :=
      ⟨(ask_steps p.plant _).unpumped h.unpumped, h.gone,
        h.on.transport fun site => site.ask (fun _ _ => rfl) rfl⟩
    exact hasked.of_same hplant hq.outline hq.isDestroyed

theorem withTurns (h : p.Possesses ground) (turns : List (List Track)) :
    (p.withTurns turns).Possesses ground :=
  h.of_same rfl rfl rfl

theorem act (h : p.Possesses ground) (a : Act) : (p.act a).Possesses ground :=
  h.stays (act_stays p a)

theorem takeTurn (h : p.Possesses ground) : p.takeTurn.Possesses ground := by
  obtain ⟨turn, hturn⟩ := takeTurn_eq p
  rw [hturn]
  exact (after_keeps (I := Possesses ground) (P := fun _ => True) (fun _ a _ hp => hp.act a)
    (fun _ _ => trivial) h).withTurns _

/-- A call that is made of acts. -/
theorem control {x : PlayerAction Unit} {acts : List Act} (h : p.Possesses ground)
    (hx : x.Does acts) : (p.control x).2.Possesses ground :=
  hx.keeps (P := fun _ => True) (fun _ a _ hp => hp.act a) (fun _ turns hp => hp.withTurns turns)
    (fun _ => trivial) (fun _ _ => trivial) h

/-- Unwinding what was built meets no failure and leaves nothing of it. -/
theorem unwound {stack : Stack} {plant : Plant} {c : Circuit} (hp : plant.Unpumped)
    (site : Site.At (fun _ => False) ground c ⟨stack, plant⟩) :
    (stack.unwind plant).1 = [] ∧ (stack.unwind plant).2.Unpumped ∧
      Site.At (fun _ => False) ground ground ⟨{}, (stack.unwind plant).2⟩ := by
  have hunpumped := (stack.unwind_steps plant).unpumped hp
  obtain ⟨herrors, site'⟩ := site.unwind hunpumped.2
  exact ⟨herrors, hunpumped, site'⟩

/-- Removing the clip succeeds and leaves nothing of it. -/
theorem clear (h : p.Possesses ground) :
    p.clear.1 = .ok () ∧ p.clear.2.loaded = none ∧ p.clear.2.Possesses ground := by
  have hturn := h.takeTurn
  simp only [Player.clear]
  cases hl : p.takeTurn.loaded with
  | none => exact ⟨rfl, hl, hturn⟩
  | some l =>
      have hon := hturn.on
      rw [hl, Option.map_some] at hon
      obtain ⟨o, -, -, -, -, site⟩ := hon
      obtain ⟨herrors, hunpumped, site'⟩ := unwound hturn.unpumped site
      exact ⟨congrArg firstError herrors, rfl, hunpumped, fun _ => rfl, site'⟩

/-- Where a loop does not start, the decode paths are taken away. -/
theorem launch {o : Outputs} {demuxer : Demuxer} {stack : Stack} (hp : p.plant.Unpumped)
    (hnone : p.loaded = none) (halive : p.isDestroyed = false) (hfits : o.Fits demuxer.clip.info)
    (hnew : ∀ h ∈ o.channels, ¬ground.Live h)
    (site : Site.At (fun _ => False) ground (o.circuit ground) ⟨stack, p.plant⟩) (path : String) :
    (p.launch path demuxer stack (o.picture.map (·.1)) (o.sound.map (·.1))).2.Possesses ground := by
  rw [Player.launch]
  split
  · refine ⟨hp, by simp [setLoaded, halive], ?_⟩
    simp only [setLoaded, Option.map_some, LoadedClip.outline_opened]
    exact ⟨o, hfits, hnew, rfl, rfl, site⟩
  · obtain ⟨-, hunpumped, site'⟩ := unwound hp site
    refine ⟨hunpumped, fun _ => hnone, ?_⟩
    simp only [hnone, Option.map_none]
    exact site'

/-- Where the decode paths cannot be built, what was built of them is taken away. -/
theorem mount (h : p.Possesses ground) (hnone : p.loaded = none) (halive : p.isDestroyed = false)
    (path : String) (demuxer : Demuxer) : (p.mount path demuxer).2.Possesses ground := by
  have hon := h.on
  rw [hnone, Option.map_none] at hon
  have hbuilt := (builds_outputs demuxer.clip.info).construct hon
  have hsteps := (meets_outputs demuxer.clip.info).construct p.plant
  simp only [Player.mount]
  cases ho : p.plant.construct (buildOutputs demuxer.clip.info) with
  | mk answer plant =>
      rw [ho] at hbuilt hsteps
      cases answer with
      | error e =>
          have hunpumped := hsteps.1.unpumped h.unpumped
          refine ⟨hunpumped, fun _ => hnone, ?_⟩
          simp only [hnone, Option.map_none]
          exact hbuilt hunpumped.2
      | ok a =>
          obtain ⟨⟨video, audio⟩, stack⟩ := a
          obtain ⟨c, site, o, hfits, hnew, hdecoders, rfl⟩ := hbuilt
          cases hdecoders
          exact launch (p := { p with plant }) (hsteps.1.unpumped h.unpumped) hnone halive hfits
            hnew site path

theorem load (h : p.Possesses ground) (hnone : p.loaded = none) (halive : p.isDestroyed = false)
    (path : String) : (p.load path).2.Possesses ground := by
  simp only [Player.load]
  split
  · exact h
  · exact h.mount hnone halive path _

/-- Loading begins with a player that has no clip any more, unless it is destroyed. -/
theorem setFile_eq (h : p.Possesses ground) (path : String) :
    p.loaded = none ∧ p.control (Player.setFile path) = (.error (.playback .destroyed), p) ∨
      ∃ q : Player, q.Possesses ground ∧ q.loaded = none ∧ q.isDestroyed = false ∧
        p.control (Player.setFile path) = q.load path := by
  rw [control_setFile]
  cases hd : p.isDestroyed with
  | true => exact .inl ⟨h.gone hd, rfl⟩
  | false =>
      right
      cases hl : p.loaded with
      | none => exact ⟨p, h, hl, hd, rfl⟩
      | some l =>
          obtain ⟨hok, hnone, hclear⟩ := h.clear
          refine ⟨p.clear.2, hclear, hnone, (clear_isDestroyed p).trans hd, ?_⟩
          cases hc : p.clear with
          | mk answer q =>
              rw [hc] at hok
              cases hok
              rfl

theorem setFile (h : p.Possesses ground) (path : String) :
    (p.control (Player.setFile path)).2.Possesses ground := by
  obtain ⟨-, hsame⟩ | ⟨q, hq, hnone, halive, hload⟩ := h.setFile_eq path
  · rwa [hsame]
  · rw [hload]
    exact hq.load hnone halive path

theorem destroy (h : p.Possesses ground) : (p.control Player.destroy).2.Possesses ground := by
  rw [control_destroy]
  split
  · exact h
  · obtain ⟨-, hnone, hclear⟩ := h.clear
    exact ⟨hclear.unpumped, fun _ => hnone, hclear.on⟩

theorem meet (h : p.Possesses ground) (he : e.Spares) : (p.meet e).Possesses ground := by
  cases e with
  | call call =>
      cases call with
      | setFile path => exact h.setFile path
      | play => exact h.control .play
      | pause => exact h.control .pause
      | stop => exact h.control .stop
      | seek track positionMs => exact h.control (.seek track positionMs)
      | removeFile =>
          have hclear := h.clear.2.2
          rwa [← control_removeFile] at hclear
      | destroy => exact h.destroy
  | loop track => exact h.act (.loop track)
  | turns | starts | register | drain => exact h.of_same rfl rfl rfl
  | inject rule => exact ⟨h.unpumped, h.gone, h.on.transport fun site => site.inject he⟩

end Possesses

/-- A player that has not done anything yet. On its server there may be channels of others, but no
unit is out and no failure is injected on what gives back. -/
structure Fresh (p : Player) : Prop where
  loaded : p.loaded = none
  alive : p.isDestroyed = false
  pumps : p.plant.pumps = []
  journal : p.plant.journal = []
  reachable : p.plant.server.Reachable
  overlays : ∀ h, p.plant.server.circuit.Overlaid h → p.plant.server.circuit.Live h
  spares : p.plant.server.SparesReturns
  units : p.plant.server.outstanding = 0

theorem fresh_bare : bare.Fresh where
  loaded := rfl
  alive := rfl
  pumps := rfl
  journal := rfl
  reachable := .fresh 4
  overlays _ := by
    rintro ⟨_, _, hk, _⟩
    cases hk
  spares _ hr := absurd hr List.not_mem_nil
  units := rfl

theorem Fresh.possesses (h : p.Fresh) : p.Possesses p.plant.server.circuit := by
  have hconsistent := h.reachable.consistent
  have hpump (id : PumpId) (pump : Pump) : p.plant.pump? id ≠ some pump := by
    simp [pump?, h.pumps]
  have hreturned (k : Handle) (c : Channel) (hc : p.plant.server.channels.get? k = some c) :
      c.outstanding = [] := Server.outstanding_eq_nil h.units hc
  have hbalanced : p.plant.Balanced :=
    ⟨h.spares, fun k c hc => hreturned k c hc ▸ List.nodup_nil, fun k c hc slot hm => by
      rw [hreturned k c hc] at hm
      cases hm⟩
  have hsound : p.plant.Sound :=
    ⟨hconsistent.numbered, fun id pump hp => absurd hp (hpump id pump), hbalanced⟩
  have hdrained : p.plant.Drained := fun e he => by
    rw [h.journal] at he
    cases he
  refine ⟨⟨h.pumps, hdrained⟩, fun _ => h.loaded, ?_⟩
  rw [h.loaded]
  refine ⟨⟨hconsistent.enabled_of_bound, h.overlays⟩, .bare, rfl, hsound, ?_⟩
  rintro id k ⟨pump, hp, -⟩
  exact absurd hp (hpump id pump)

theorem run_possesses (hf : p.Fresh) (he : ∀ e ∈ events, e.Spares) :
    (p.run events).Possesses p.plant.server.circuit :=
  run_keeps (fun _ _ he hp => hp.meet he) he hf.possesses

/-- Beside what was there before, the server holds what the clip of the player calls for. -/
def Holding (before : Server) (p : Player) : Prop :=
  match p.loaded with
  | none => ({} : Outputs).Held before p.plant.server
  | some l => ∃ o : Outputs, o.Fits l.info ∧ l.video.map (·.decoder) = o.picture.map (·.1) ∧
      l.audio.map (·.decoder) = o.sound.map (·.1) ∧ o.Held before p.plant.server

theorem Possesses.holding {before : Server} (h : p.Possesses before.circuit) :
    p.Holding before := by
  have hon := h.on
  rw [Holding]
  cases hl : p.loaded with
  | none =>
      rw [hl, Option.map_none] at hon
      exact .of_circuit hon.circuit (fun _ hm => absurd hm List.not_mem_nil) .nil
  | some l =>
      rw [hl, Option.map_some] at hon
      obtain ⟨o, hfits, hnew, hvideo, haudio, site⟩ := hon
      exact ⟨o, hfits, hvideo, haudio, .of_circuit site.circuit hnew hfits.nodup⟩

section Gone

/-- The player is of no use any more. -/
structure Gone (p : Player) : Prop where
  isDestroyed : p.isDestroyed = true
  loaded : p.loaded = none

theorem takeTurn_of_none (hl : p.loaded = none) : p.takeTurn = p.withTurns p.turns.tail := by
  obtain ⟨turn, hturn⟩ := takeTurn_eq p
  have hstill : p.after (turn.map .loop) = p := by
    refine after_keeps (I := fun q => q = p) (P := fun a => ∃ t, a = .loop t) ?_ ?_ rfl
    · rintro _ _ ⟨t, rfl⟩ rfl
      exact advance_eq_self (by rw [reel?, hl, Option.bind_none])
    · intro a ha
      obtain ⟨t, -, rfl⟩ := List.mem_map.mp ha
      exact ⟨t, rfl⟩
  rw [hturn, hstill]

theorem clear_of_none (hl : p.loaded = none) : p.clear = (.ok (), p.withTurns p.turns.tail) := by
  rw [clear, takeTurn_of_none hl, show (p.withTurns p.turns.tail).loaded = none from hl]

variable (h : p.Gone)

include h

theorem Gone.refuses {c : PlayerCall} (hremove : c ≠ .removeFile) (hdestroy : c ≠ .destroy) :
    p.control c.action = (.error (.playback .destroyed), p) := by
  have hclip : p.clip = .error (.playback .destroyed) := by rw [Player.clip, h.isDestroyed]
  have happly (event : TrackEvent) := control_applyEvent_of_clip hclip event
  cases c with
  | setFile path => rw [PlayerCall.action, control_setFile, if_pos h.isDestroyed]
  | play => rw [PlayerCall.action, play, control_bind, happly]
  | pause => rw [PlayerCall.action, pause, control_bind, happly]
  | stop => rw [PlayerCall.action, stop, control_bind, happly]
  | seek track positionMs =>
      simp only [PlayerCall.action, seek, control_bind, control_get, hclip, control_ofExcept]
  | removeFile => exact absurd rfl hremove
  | destroy => exact absurd rfl hdestroy

/-- No call does more than to use up a turn of the loops. -/
theorem Gone.control (c : PlayerCall) :
    (p.control c.action).2 = p ∨ (p.control c.action).2 = p.withTurns p.turns.tail := by
  by_cases hremove : c = .removeFile
  · subst hremove
    rw [PlayerCall.action, control_removeFile, clear_of_none h.loaded]
    exact .inr rfl
  · by_cases hdestroy : c = .destroy
    · subst hdestroy
      rw [PlayerCall.action, control_destroy, if_pos h.isDestroyed]
      exact .inl rfl
    · rw [h.refuses hremove hdestroy]
      exact .inl rfl

theorem Gone.meet (e : SessionEvent) : (p.meet e).Gone := by
  cases e with
  | call c =>
      obtain hc | hc := h.control c
      · rw [Player.meet, hc]
        exact h
      · rw [Player.meet, hc]
        exact ⟨h.isDestroyed, h.loaded⟩
  | loop track =>
      rw [Player.meet, advance_eq_self (by rw [reel?, h.loaded, Option.bind_none])]
      exact h
  | turns | starts | register | drain | inject => exact ⟨h.isDestroyed, h.loaded⟩

end Gone

theorem Possesses.gone_destroy (h : p.Possesses ground) : (p.control Player.destroy).2.Gone := by
  rw [control_destroy]
  split
  · rename_i hd
    exact ⟨hd, h.gone hd⟩
  · exact ⟨rfl, h.clear.2.1⟩

theorem run_gone (hf : p.Fresh) (he : ∀ e ∈ events, e.Spares) (hd : .call .destroy ∈ events) :
    (p.run events).Gone := by
  obtain ⟨before, since, rfl⟩ := List.append_of_mem hd
  have hbefore : (p.run before).Possesses p.plant.server.circuit :=
    run_possesses hf fun e hm => he e (List.mem_append_left _ hm)
  rw [run_append, run_cons]
  exact run_keeps (I := Gone) (P := fun _ => True) (fun _ e _ hp => hp.meet e) (fun _ _ => trivial)
    hbefore.gone_destroy

theorem none_of_load {e : PipelineError} (hnone : p.loaded = none)
    (h : p.load path = (.error e, q)) : q.loaded = none := by
  simp only [load, mount, launch] at h
  split at h
  · cases h
    exact hnone
  · split at h
    · cases h
      exact hnone
    · split at h <;> cases h
      exact hnone

theorem load_loaded (hnone : p.loaded = none) (path : String) :
    match p.load path with
    | (.ok _, q) => ∃ l, q.loaded = some l ∧ l.path = path
    | (.error _, q) => q.loaded = none := by
  split <;> rename_i hload
  · obtain ⟨_, _, _, _, hl⟩ := loaded_of_load hload
    exact ⟨_, hl, rfl⟩
  · exact none_of_load hnone hload

/-- A clip is loaded or the player has none. -/
theorem Possesses.setFile_loaded (h : p.Possesses ground) (path : String) :
    match p.control (Player.setFile path) with
    | (.ok _, q) => ∃ l, q.loaded = some l ∧ l.path = path
    | (.error _, q) => q.loaded = none := by
  obtain ⟨hnone, hsame⟩ | ⟨q, -, hnone, -, hload⟩ := h.setFile_eq path
  · rw [hsame]
    exact hnone
  · rw [hload]
    exact load_loaded hnone path

/-- After every call of a session the server holds, beside what was there before, the decode paths
of its clip, and nothing if there is none. There is none after a load that failed, whether the clip
could not be opened, a call to the server was refused or a loop was not started, after a removal
and after the session was destroyed. From then on every other call fails and nothing is asked of
the server. -/
theorem run_holding (hf : p.Fresh) (he : ∀ e ∈ events, e.Spares) :
    (p.run events).Holding p.plant.server ∧
      (∀ path, match (p.run events).control (setFile path) with
        | (.ok _, q) => ∃ l, q.loaded = some l ∧ l.path = path
        | (.error _, q) => q.loaded = none) ∧
      (∀ c : PlayerCall, c = .removeFile ∨ c = .destroy →
        ((p.run events).control c.action).1 = .ok () ∧
          ((p.run events).control c.action).2.loaded = none) ∧
      (.call .destroy ∈ events → ∀ c : PlayerCall,
        ((p.run events).control c.action).2.plant = (p.run events).plant ∧
          (c ≠ .removeFile → c ≠ .destroy →
            (p.run events).control c.action = (.error (.playback .destroyed), p.run events))) := by
  have hrun := run_possesses hf he
  refine ⟨hrun.holding, hrun.setFile_loaded, ?_, fun hd c => ?_⟩
  · obtain ⟨hok, hnone, -⟩ := hrun.clear
    rintro c (rfl | rfl)
    · rw [PlayerCall.action, control_removeFile]
      exact ⟨hok, hnone⟩
    · rw [PlayerCall.action, control_destroy]
      split
      · rename_i hd
        exact ⟨rfl, hrun.gone hd⟩
      · exact ⟨hok, hnone⟩
  · have hgone := run_gone hf he hd
    refine ⟨?_, hgone.refuses⟩
    obtain hc | hc := hgone.control c <;> rw [hc]
    rfl

/-- Loads that fail at the start of their second loop and at their second bind, one that succeeds,
and the end of the session. -/
theorem run_holding_bare :
    let refused : List SessionEvent := [.starts [none, some "no memory"]]
    let events : List SessionEvent := refused ++ [.call (.setFile "clip"),
      .inject ⟨.bind, none, 2, by decide⟩, .call (.setFile "clip"), .call (.setFile "clip"),
      .call .play, .loop .video]
    bare.Fresh ∧ (∀ e ∈ events ++ [.call .destroy], e.Spares) ∧
      ((bare.run refused).control (setFile "clip")).1 =
        .error (.spawn "player-audio" "no memory") ∧
      ((bare.run refused).control (setFile "clip")).2.loaded = none ∧
      (bare.run (refused ++ [.call (.setFile "clip")])).Holding bare.plant.server ∧
      (bare.run events).Holding bare.plant.server ∧
      (bare.run (events ++ [.call .destroy])).Holding bare.plant.server ∧
      ((bare.run (events ++ [.call .destroy])).control play).1 =
        .error (.playback .destroyed) := by
  intro refused events
  have he : ∀ e ∈ events ++ [.call .destroy], e.Spares := by
    simp [events, refused, SessionEvent.Spares, Operation.givesBack]
  have hholds (before : List SessionEvent) (hupto : before <+: events ++ [.call .destroy]) :=
    run_holding fresh_bare fun e hm => he e (hupto.subset hm)
  have hmount : (bare.run refused).control (setFile "clip") = _ :=
    setFile_of_open rfl rfl (openClip_register _ _ rfl)
  have hspawn : ((bare.run refused).control (setFile "clip")).1 =
      .error (.spawn "player-audio" "no memory") := by
    rw [hmount]
    decide +kernel
  have hnone := (hholds refused (by simp [events])).2.1 "clip"
  obtain ⟨hrefused, -⟩ := hholds (refused ++ [.call (.setFile "clip")]) (by simp [events])
  obtain ⟨hheld, -⟩ := hholds events (by simp)
  obtain ⟨hempty, -, -, hgone⟩ := run_holding fresh_bare he
  refine ⟨fresh_bare, he, hspawn, ?_, hrefused, hheld, hempty, ?_⟩
  · split at hnone <;> rename_i heq <;> rw [heq] at hspawn ⊢
    · cases hspawn
    · exact hnone
  · exact congrArg Prod.fst ((hgone (by simp) .play).2 (by simp) (by simp))

end Player
end CameraPipeline
