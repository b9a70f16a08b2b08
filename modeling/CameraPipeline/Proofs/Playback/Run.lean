import CameraPipeline.Proofs.Playback.Session
import CameraPipeline.Proofs.Server.Permission

/-!
Runs of a player: its calls in any order, and between them whatever the surroundings do. A clip
that was loaded has its reading at the start and its loops at rest.
-/

namespace CameraPipeline

/-- The calls of a playback session. -/
inductive PlayerCall where
  | setFile (path : String)
  | play
  | pause
  | stop
  | seek (track : Track) (positionMs : Nat)
  | removeFile
  | destroy
  deriving DecidableEq, Repr

def PlayerCall.action : PlayerCall → PlayerAction Unit
  | setFile path => Player.setFile path
  | play => Player.play
  | pause => Player.pause
  | stop => Player.stop
  | seek track positionMs => Player.seek track positionMs
  | removeFile => Player.removeFile
  | destroy => Player.destroy

/-- What may happen to a player. -/
inductive SessionEvent where
  | call (c : PlayerCall)
  /-- A step of the loop of a track. -/
  | loop (track : Track)
  /-- What the loops will do between the steps of the next calls. -/
  | turns (ts : List (List Track))
  /-- What the system will answer to the next starts of loops. -/
  | starts (answers : List (Option String))
  | inject (rule : FailureRule)
  | register (path : String) (clip : Clip)
  /-- The owner takes the queued events. -/
  | drain

namespace SessionEvent

/-- No failure is injected on what gives back. -/
def Spares : SessionEvent → Prop
  | inject rule => rule.operation.givesBack = false
  | _ => True

/-- Of the calls there are only plays and pauses. -/
def Plays : SessionEvent → Prop
  | call .play | call .pause => True
  | call _ => False
  | _ => True

end SessionEvent

namespace Player

def meet (p : Player) : SessionEvent → Player
  | .call c => (p.control c.action).2
  | .loop track => p.advance track
  | .turns ts => { p with turns := ts }
  | .starts answers => { p with starts := answers }
  | .inject rule => { p with plant := { p.plant with server := p.plant.server.inject rule } }
  | .register path clip => { p with library := p.library.register path clip }
  | .drain => p.drainEvents.2

/-- The player after a run. -/
def run (p : Player) (events : List SessionEvent) : Player := events.foldl meet p

@[simp] theorem run_nil (p : Player) : p.run [] = p := rfl

@[simp] theorem run_cons (p : Player) (e : SessionEvent) (events : List SessionEvent) :
    p.run (e :: events) = (p.meet e).run events := rfl

theorem run_append (p : Player) (events events' : List SessionEvent) :
    p.run (events ++ events') = (p.run events).run events' :=
  List.foldl_append

variable {p q : Player} {path : String}

theorem run_keeps {I : Player → Prop} {P : SessionEvent → Prop}
    (hI : ∀ p e, P e → I p → I (p.meet e)) {events : List SessionEvent} (he : ∀ e ∈ events, P e)
    (hp : I p) : I (p.run events) := by
  induction events generalizing p with
  | nil => exact hp
  | cons e events ih =>
      have ⟨he, hevents⟩ := List.forall_mem_cons.mp he
      exact ih hevents (hI p e he hp)

/-- The clip right after it was loaded; `video` and `audio` are its decoders. -/
def opened (path : String) (demuxer : Demuxer) (stack : Stack) (video audio : Option Handle) :
    LoadedClip :=
  { path, demuxer, stack, video := video.map freshLane, audio := audio.map freshLane }

/-- Removing the loaded clip, after a turn of the loops. -/
def clear (p : Player) : Except PipelineError Unit × Player :=
  match p.takeTurn.loaded with
  | none => (.ok (), p.takeTurn)
  | some l =>
    let (errors, plant) := l.stack.unwind p.takeTurn.plant
    (firstError errors, { p.takeTurn with loaded := none, plant })

/-- Starting the loops of a clip that has its decode paths. If the system refuses one, the paths are
taken away. -/
def launch (p : Player) (path : String) (demuxer : Demuxer) (stack : Stack)
    (video audio : Option Handle) : Except PipelineError Unit × Player :=
  match startLoops (tracksOf video audio) p.starts with
  | (.ok _, starts) =>
    (.ok (), { p with starts }.setLoaded (opened path demuxer stack video audio))
  | (.error e, starts) => (.error e, { p with plant := (stack.unwind p.plant).2, starts })

/-- Building the decode paths of an opened clip and starting its loops, on a player that has none. -/
def mount (p : Player) (path : String) (demuxer : Demuxer) : Except PipelineError Unit × Player :=
  match p.plant.construct (buildOutputs demuxer.clip.info) with
  | (.error e, plant) => (.error e, { p with plant })
  | (.ok ((video, audio), stack), plant) =>
    { p with plant }.launch path demuxer stack video audio

def load (p : Player) (path : String) : Except PipelineError Unit × Player :=
  match p.library.openClip path with
  | .error fault => (.error (.playback (.demux fault)), p)
  | .ok demuxer => p.mount path demuxer

section Control

variable {α : Type}

theorem control_get (p : Player) : p.control get = (.ok p, p) := rfl

theorem control_set (p q : Player) : p.control (set q) = (.ok ⟨⟩, q) := rfl

theorem control_ofExcept (p : Player) (answer : Except PipelineError α) :
    p.control (MonadExcept.ofExcept answer) = (answer, p) := by
  cases answer <;> rfl

/-- Without a clip no track is steered. -/
theorem control_applyEvent_of_clip {e : PipelineError} (h : p.clip = .error e)
    (event : TrackEvent) : p.control (applyEvent event) = (.error e, p) := by
  simp only [applyEvent, control_bind, control_get, h, control_ofExcept]

end Control

theorem control_removeFile (p : Player) : p.control removeFile = p.clear := by
  have hturn : p.control (PlayerAction.step fun p => ((), p)) = (.ok (), p.takeTurn) := rfl
  simp only [removeFile, control_bind, hturn, control_get, clear]
  cases hl : p.takeTurn.loaded with
  | none => rfl
  | some l => simp only [control_bind, control_set, control_ofExcept]

theorem control_loadFile (p : Player) (path : String) :
    p.control (loadFile path) = p.load path := by
  simp only [loadFile, control_bind, control_get, load]
  cases p.library.openClip path with
  | error fault => rfl
  | ok demuxer =>
      simp only [control_bind, control_set, control_ofExcept, mount, launch]
      rcases p.plant.construct (buildOutputs demuxer.clip.info) with ⟨_ | a, plant⟩
      · rfl
      · obtain ⟨⟨video, audio⟩, stack⟩ := a
        dsimp only
        rcases startLoops (tracksOf video audio) p.starts with ⟨_ | _, starts⟩ <;> rfl

/-- A destroyed player loads nothing; another one removes its clip first. -/
theorem control_setFile (p : Player) (path : String) :
    p.control (setFile path) =
      if p.isDestroyed then (.error (.playback .destroyed), p)
      else match if p.loaded.isSome then p.clear else (.ok (), p) with
        | (.ok _, p) => p.load path
        | (.error e, p) => (.error e, p) := by
  simp only [setFile, control_bind, control_get]
  cases p.isDestroyed with
  | true => rfl
  | false =>
      simp only [Bool.false_eq_true, if_false, control_bind, control_get]
      cases hl : p.loaded.isSome with
      | true =>
          simp only [if_true, control_bind, control_removeFile]
          rcases p.clear with ⟨_ | _, q⟩
          · rfl
          · exact control_loadFile q path
      | false => exact control_loadFile p path

/-- Once destroyed a player is not destroyed again. -/
theorem control_destroy (p : Player) :
    p.control destroy =
      if p.isDestroyed then (.ok (), p)
      else (p.clear.1, { p.clear.2 with isDestroyed := true }) := by
  cases hd : p.isDestroyed with
  | true =>
      simp only [destroy, control_bind, control_get, hd]
      rfl
  | false =>
      have hremove := control_removeFile p
      rw [control] at hremove
      simp only [destroy, control_bind, control_get, hd, Bool.false_eq_true, if_false]
      rw [← hremove]
      cases ho : removeFile p <;> simp only [control, Bind.bind, EStateM.bind, ho] <;> rfl

theorem exists_load_of_setFile (h : p.control (setFile path) = (.ok (), q)) :
    ∃ p' : Player, p'.load path = (.ok (), q) := by
  rw [control_setFile] at h
  split at h
  · cases h
  · split at h
    · exact ⟨_, h⟩
    · cases h

theorem launch_eq_ok {demuxer : Demuxer} {stack : Stack} {video audio : Option Handle}
    (h : p.launch path demuxer stack video audio = (.ok (), q)) :
    ∃ starts, q = { p with starts }.setLoaded (opened path demuxer stack video audio) := by
  rw [launch] at h
  split at h <;> cases h
  exact ⟨_, rfl⟩

theorem loaded_of_load (h : p.load path = (.ok (), q)) :
    ∃ clip stack video audio, q.loaded = some (opened path { clip } stack video audio) := by
  simp only [load, mount, ClipLibrary.openClip] at h
  split at h
  · cases h
  · rename_i demuxer hopen
    split at h
    · cases h
    · rename_i video audio stack plant _
      obtain ⟨starts, rfl⟩ := launch_eq_ok h
      split at hopen
      · cases hopen
      · rename_i clip _
        split at hopen <;> cases hopen
        exact ⟨clip, stack, video, audio, rfl⟩

theorem freshLane_of_opened {demuxer : Demuxer} {stack : Stack} {video audio : Option Handle}
    {track : Track} {lane : Lane}
    (h : (opened path demuxer stack video audio).lane? track = some lane) :
    ∃ decoder, freshLane decoder = lane := by
  cases track with
  | video | audio =>
      obtain ⟨decoder, -, hlane⟩ := Option.map_eq_some_iff.mp h
      exact ⟨decoder, hlane⟩

/-- A clip that was loaded has its reading at the start and its loops at rest. -/
theorem fresh_of_setFile (h : p.control (setFile path) = (.ok (), q)) {track : Track} {r : Reel}
    (hr : q.reel? track = some r) : r.lane.phase = .idle ∧ r.cursor = 0 := by
  obtain ⟨p', hload⟩ := exists_load_of_setFile h
  obtain ⟨clip, stack, video, audio, hl⟩ := loaded_of_load hload
  rw [reel?_of_loaded hl] at hr
  obtain ⟨hlane, hpos⟩ := LoadedClip.reel?_eq_some.mp hr
  obtain ⟨decoder, hfresh⟩ := freshLane_of_opened hlane
  refine ⟨hfresh ▸ rfl, ?_⟩
  cases track with
  | video | audio => exact hpos.symm

/-- A player without a clip loads the one that it can open. -/
theorem setFile_of_open {demuxer : Demuxer} (halive : p.isDestroyed = false)
    (hnone : p.loaded = none) (hopen : p.library.openClip path = .ok demuxer) :
    p.control (setFile path) = p.mount path demuxer := by
  simp [control_setFile, halive, hnone, load, hopen]

theorem openClip_register (l : ClipLibrary) (path : String) {clip : Clip}
    (htrack : (clip.info.video.isNone && clip.info.audio.isNone) = false) :
    (l.register path clip).openClip path = .ok { clip } := by
  simp [ClipLibrary.register, ClipLibrary.openClip, htrack]

/-- A player without a clip, over an empty server, that can open the short clip. -/
def bare : Player where
  plant := { server := { payloadSize := 4 }, drainMillis := 100 }
  library := ({} : ClipLibrary).register "clip" .short

def bareLoaded : Player := (bare.mount "clip" { clip := .short }).2

theorem setFile_bare : bare.control (setFile "clip") = (.ok (), bareLoaded) :=
  (setFile_of_open rfl rfl (openClip_register _ _ rfl)).trans (Prod.ext rfl rfl)

end Player
end CameraPipeline
