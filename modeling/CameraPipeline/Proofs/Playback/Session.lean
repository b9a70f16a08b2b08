import CameraPipeline.Proofs.Playback.Reel

/-!
The calls of a session. Whatever turns the loops take meanwhile, a call is a run of elementary
acts: its own, in order and up to the one that fails, with steps of the loops before each.
-/

namespace CameraPipeline

namespace Player

variable {p q : Player} {a : Act} {acts acts' : List Act} {α β : Type}

/-- The same player before other turns of the loops. -/
def withTurns (p : Player) (turns : List (List Track)) : Player := { p with turns }

theorem emit_withTurns (p : Player) (e : PlayerEvent) (turns : List (List Track)) :
    (p.withTurns turns).emit e = (p.emit e).withTurns turns := by
  by_cases h : p.events.length < max p.queueDepth 1 <;> simp [emit, withTurns, h]

theorem advance_withTurns (p : Player) (track : Track) (turns : List (List Track)) :
    (p.withTurns turns).advance track = (p.advance track).withTurns turns := by
  simp only [advance, withTurns]
  split
  · rfl
  · rename_i l _
    split
    · rfl
    · rename_i lane _
      cases lane.phase with
      | idle | rewinding => dsimp only; split <;> rfl
      | reading | placing _ | offering _ | zeroing | closing | failing _ => rfl
      | announcing => exact emit_withTurns (p.setLoaded (l.setPhase track .idle)) .eof turns
      | reporting fault =>
          exact emit_withTurns (p.setLoaded (l.setPhase track .idle)) (.error fault) turns

theorem act_withTurns (p : Player) (a : Act) (turns : List (List Track)) :
    (p.withTurns turns).act a = (p.act a).withTurns turns := by
  cases a with
  | loop track => exact advance_withTurns p track turns
  | transition track event =>
      simp only [act, transition, withTurns]
      split
      · rfl
      · split
        · rfl
        · split <;> rfl
  | seek track positionMs =>
      simp only [act, seekDemuxer, withTurns]
      split
      · rfl
      · split <;> rfl
  | place track positionMs =>
      simp only [act, setPosition, withTurns]
      split <;> rfl
  | emit event => exact emit_withTurns p event turns

theorem after_withTurns (p : Player) (acts : List Act) (turns : List (List Track)) :
    (p.withTurns turns).after acts = (p.after acts).withTurns turns := by
  induction acts generalizing p with
  | nil => rfl
  | cons a acts ih => rw [after_cons, act_withTurns, ih, after_cons]

theorem takeTurn_eq (p : Player) :
    ∃ turn : List Track, p.takeTurn = (p.after (turn.map .loop)).withTurns p.turns.tail := by
  obtain ⟨plant, library, queueDepth, events, loaded, isDestroyed, offers, turns⟩ := p
  cases turns with
  | nil => exact ⟨[], rfl⟩
  | cons turn turns =>
      refine ⟨turn, ?_⟩
      rw [← after_withTurns, after, List.foldl_map]
      rfl

/-- Not a step of a loop. -/
def Act.IsControl : Act → Bool
  | .loop _ => false
  | _ => true

theorem control_bind (p : Player) (a : PlayerAction α) (f : α → PlayerAction β) :
    p.control (a >>= f) = match p.control a with
      | (.ok v, q) => q.control (f v)
      | (.error e, q) => (.error e, q) := by
  simp only [control, bind, EStateM.bind]
  cases a p <;> rfl

theorem exists_of_control_bind {a : PlayerAction α} {f : α → PlayerAction β} {v : β}
    (h : p.control (a >>= f) = (.ok v, q)) :
    ∃ u p', p.control a = (.ok u, p') ∧ p'.control (f u) = (.ok v, q) := by
  rw [control_bind] at h
  cases ho : p.control a with
  | mk answer p' =>
      rw [ho] at h
      cases answer with
      | ok u => exact ⟨u, p', rfl, h⟩
      | error e => cases h

theorem of_control_attemptStep {f : Player → Except PlaybackFault Unit × Player}
    (h : p.control (attemptStep f) = (.ok (), q)) : f p.takeTurn = (.ok (), q) := by
  obtain ⟨answer, p', ho, h⟩ := exists_of_control_bind h
  cases ho
  split at h
  · cases h
    rename_i hanswer
    exact Prod.ext hanswer rfl
  · cases h

theorem of_control_ofExcept {answer : Except PipelineError α} {v : α}
    (h : p.control (MonadExcept.ofExcept answer) = (.ok v, q)) : answer = .ok v ∧ p = q := by
  cases answer with
  | ok => cases h; exact ⟨rfl, rfl⟩
  | error => cases h

theorem of_control_applyEvent {event : TrackEvent}
    (h : p.control (applyEvent event) = (.ok (), q)) :
    p.isDestroyed = false ∧
      q = (p.takeTurn.act (.transition .video event)).takeTurn.act (.transition .audio event) := by
  obtain ⟨_, _, ⟨⟩, h⟩ := exists_of_control_bind h
  obtain ⟨l, _, hok, h⟩ := exists_of_control_bind h
  obtain ⟨hclip, rfl⟩ := of_control_ofExcept hok
  obtain ⟨⟨⟩, p₁, hvideo, haudio⟩ := exists_of_control_bind h
  obtain rfl : p₁ = p.takeTurn.act (.transition .video event) :=
    (congrArg Prod.snd (of_control_attemptStep hvideo)).symm
  refine ⟨?_, (congrArg Prod.snd (of_control_attemptStep haudio)).symm⟩
  cases hd : p.isDestroyed with
  | false => rfl
  | true => simp [clip, hd] at hclip

theorem after_keeps {I : Player → Prop} {P : Act → Prop}
    (hI : ∀ p a, P a → I p → I (p.act a)) {acts : List Act} (hacts : ∀ a ∈ acts, P a)
    (hp : I p) : I (p.after acts) := by
  induction acts generalizing p with
  | nil => exact hp
  | cons a acts ih =>
      have ⟨ha, hacts⟩ := List.forall_mem_cons.mp hacts
      exact ih hacts (hI p a ha hp)

/-- `q` comes of `p` by these acts, in order, with steps of the loops between them. -/
def Follows (p : Player) (acts : List Act) (q : Player) : Prop :=
  ∃ run turns, q = (p.after run).withTurns turns ∧ run.filter Act.IsControl = acts

namespace Follows

theorem refl (p : Player) : p.Follows [] p := ⟨[], p.turns, rfl, rfl⟩

theorem trans {q' : Player} (h : p.Follows acts q) (h' : q.Follows acts' q') :
    p.Follows (acts ++ acts') q' := by
  obtain ⟨run, turns, rfl, rfl⟩ := h
  obtain ⟨run', turns', rfl, rfl⟩ := h'
  refine ⟨run ++ run', turns', ?_, List.filter_append ..⟩
  rw [after_withTurns, after_append]
  rfl

/-- A step, after a turn of the loops. -/
theorem step (p : Player) (ha : a.IsControl = true) : p.Follows [a] (p.takeTurn.act a) := by
  obtain ⟨turn, hturn⟩ := takeTurn_eq p
  refine ⟨turn.map .loop ++ [a], p.turns.tail, ?_, ?_⟩
  · rw [hturn, act_withTurns, after_append]
    rfl
  · have hloops : (turn.map Act.loop).filter Act.IsControl = [] := by
      simp [List.filter_eq_nil_iff, Act.IsControl]
    simp [hloops, ha]

end Follows

end Player

open Player

/-- The call is a run of some of these acts, in order, with steps of the loops between them. -/
def PlayerAction.Does {α : Type} (a : PlayerAction α) (acts : List Act) : Prop :=
  ∀ p : Player, ∃ run turns, (p.control a).2 = (p.after run).withTurns turns ∧
    (run.filter Act.IsControl).Sublist acts

namespace PlayerAction.Does

variable {α β : Type} {a : PlayerAction α} {acts acts' : List Act}

theorem mono (h : a.Does acts) (hsub : acts.Sublist acts') : a.Does acts' := fun p =>
  have ⟨run, turns, hq, hrun⟩ := h p
  ⟨run, turns, hq, hrun.trans hsub⟩

/-- What the acts of a call and the steps of the loops keep, the call keeps. -/
theorem keeps {I : Player → Prop} {P : Act → Prop} {p : Player} (h : a.Does acts)
    (hI : ∀ p a, P a → I p → I (p.act a)) (hturns : ∀ p turns, I p → I (p.withTurns turns))
    (hloop : ∀ t, P (.loop t)) (hacts : ∀ a ∈ acts, P a) (hp : I p) : I (p.control a).2 := by
  obtain ⟨run, turns, hq, hrun⟩ := h p
  rw [hq]
  refine hturns _ turns (after_keeps hI (fun a ha => ?_) hp)
  cases a with
  | loop t => exact hloop t
  | transition | seek | place | emit =>
      exact hacts _ (hrun.subset (List.mem_filter.mpr ⟨ha, rfl⟩))

theorem of_still (h : ∀ p : Player, (p.control a).2 = p) : a.Does [] := fun p =>
  ⟨[], p.turns, h p, List.Sublist.refl []⟩

theorem bind {f : α → PlayerAction β} (ha : a.Does acts) (hf : ∀ v, (f v).Does acts') :
    (a >>= f).Does (acts ++ acts') := by
  intro p
  obtain ⟨run, turns, hq, hrun⟩ := ha p
  rw [control_bind]
  cases ho : p.control a with
  | mk answer q =>
      rw [ho] at hq
      cases answer with
      | error e => exact ⟨run, turns, hq, hrun.trans (List.sublist_append_left _ _)⟩
      | ok v =>
          obtain ⟨run', turns', hq', hrun'⟩ := hf v q
          refine ⟨run ++ run', turns', hq'.trans ?_, by simpa using hrun.append hrun'⟩
          obtain rfl : q = (p.after run).withTurns turns := hq
          rw [after_withTurns, after_append]
          rfl

theorem step {f : Player → α × Player} {act : Act} (hact : act.IsControl = true)
    (hf : ∀ p, (f p).2 = p.act act) : (PlayerAction.step f).Does [act] := by
  intro p
  obtain ⟨run, turns, hq, hrun⟩ := Follows.step p hact
  have hstep : (p.control (PlayerAction.step f)).2 = p.takeTurn.act act := hf p.takeTurn
  exact ⟨run, turns, hstep.trans hq, hrun ▸ List.Sublist.refl _⟩

theorem attemptStep {f : Player → Except PlaybackFault Unit × Player} {act : Act}
    (hact : act.IsControl = true) (hf : ∀ p, (f p).2 = p.act act) :
    (Player.attemptStep f).Does [act] := by
  rw [← List.append_nil [act]]
  refine (step hact hf).bind fun answer => ?_
  cases answer with
  | ok => exact of_still fun _ => rfl
  | error => exact of_still fun _ => rfl

theorem ofExcept (answer : Except PipelineError α) :
    (MonadExcept.ofExcept answer : PlayerAction α).Does [] := by
  cases answer with
  | ok => exact of_still fun _ => rfl
  | error => exact of_still fun _ => rfl

theorem withState {f : Player → PlayerAction β} (hf : ∀ p, (f p).Does acts) :
    (get >>= f).Does acts :=
  (of_still (a := get) fun _ => rfl).bind hf

theorem applyEvent (event : TrackEvent) :
    (Player.applyEvent event).Does [.transition .video event, .transition .audio event] :=
  withState fun p => (ofExcept p.clip).bind fun _ =>
    (attemptStep rfl fun _ => rfl).bind fun _ => attemptStep rfl fun _ => rfl

theorem emitStep (event : PlayerEvent) : (Player.emitStep event).Does [.emit event] :=
  step rfl fun _ => rfl

theorem play : Player.play.Does
    [.transition .video .play, .transition .audio .play, .emit .play] :=
  (applyEvent .play).bind fun _ => emitStep .play

theorem pause : Player.pause.Does
    [.transition .video .pause, .transition .audio .pause, .emit .pause] :=
  (applyEvent .pause).bind fun _ => emitStep .pause

theorem seekTrack (track : Track) (positionMs : Nat) :
    (Player.seekTrack track positionMs).Does [.seek track positionMs, .place track positionMs] :=
  (attemptStep rfl fun _ => rfl).bind fun _ => step rfl fun _ => rfl

theorem rewindTrack (track : Track) :
    (Player.rewindTrack track).Does [.seek track 0, .place track 0] := by
  refine withState fun p => ?_
  split
  · exact seekTrack track 0
  · exact (of_still fun _ => rfl).mono (List.nil_sublist _)

theorem stop : Player.stop.Does
    [.transition .video .stop, .transition .audio .stop, .seek .video 0, .place .video 0,
      .seek .audio 0, .place .audio 0, .emit .stop] :=
  (applyEvent .stop).bind fun _ => (rewindTrack .video).bind fun _ =>
    (rewindTrack .audio).bind fun _ => emitStep .stop

theorem seek (track : Track) (positionMs : Nat) :
    (Player.seek track positionMs).Does [.seek track positionMs, .place track positionMs] := by
  refine withState fun p => (ofExcept p.clip).bind fun l => ?_
  split
  · exact (of_still fun _ => rfl).mono (List.nil_sublist _)
  · exact seekTrack track positionMs

end PlayerAction.Does
end CameraPipeline
