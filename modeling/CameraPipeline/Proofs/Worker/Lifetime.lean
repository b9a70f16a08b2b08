import CameraPipeline.Worker

/-!
The life of a worker. Its owner and its thread act in any order, and the thread goes on while the
owner waits. The message that tells the end of the body is received once, and the owner keeps in
mind that it came: what was seen once is seen from then on, a thread is joined once and only when
its body has ended, and a stop that came too early can be tried again.
-/

namespace CameraPipeline

/-- What happens to a worker. The calls that wait say what the thread does meanwhile. -/
inductive WorkerEvent where
  | thread (step : ThreadStep)
  | requestStop
  | isFinished
  | wait (meanwhile : List ThreadStep)
  | stop (millis : Nat) (meanwhile : List ThreadStep)

namespace Worker

/-- What the owner has done or learnt stays so. -/
structure Keeps (w w' : Worker) : Prop where
  name : w'.name = w.name
  asked : w.stopRequested = true → w'.stopRequested = true
  seen : w.seenEnd = true → w'.seenEnd = true
  joined : w.joined = true → w'.joined = true

variable {w w' w'' : Worker}

theorem Keeps.refl (w : Worker) : w.Keeps w := ⟨rfl, id, id, id⟩

theorem Keeps.trans (h : w.Keeps w') (h' : w'.Keeps w'') : w.Keeps w'' where
  name := h'.name.trans h.name
  asked hasked := h'.asked (h.asked hasked)
  seen hseen := h'.seen (h.seen hseen)
  joined hjoined := h'.joined (h.joined hjoined)

theorem keeps_requestStop (w : Worker) : w.Keeps w.requestStop := ⟨rfl, fun _ => rfl, id, id⟩

theorem keeps_wait (w : Worker) (ended : Bool) : w.Keeps (w.wait ended).2 where
  name := rfl
  asked := id
  seen hseen := by simp [wait, hseen]
  joined := id

theorem keeps_stop (w : Worker) (millis : Nat) (ended : Bool) : w.Keeps (w.stop millis ended).2 := by
  have hwait := w.keeps_requestStop.trans (w.requestStop.keeps_wait ended)
  rw [stop]
  split
  · exact .refl w
  · split
    · rename_i w' he
      rw [he] at hwait
      exact hwait.trans ⟨rfl, id, id, fun _ => rfl⟩
    · rename_i w' he
      rwa [he] at hwait

end Worker

namespace WorkerThread

variable {t : WorkerThread}

def HasEnded (t : WorkerThread) : Prop := t.phase ≠ .running

instance (t : WorkerThread) : Decidable t.HasEnded := inferInstanceAs (Decidable (t.phase ≠ .running))

theorem HasEnded.step (h : t.HasEnded) (step : ThreadStep) : (t.step step).HasEnded := by
  cases step with
  | returns | fails => rwa [WorkerThread.step, if_neg h]
  | leaves =>
      rw [WorkerThread.step]
      split
      · simp [HasEnded]
      · exact h

theorem HasEnded.after (h : t.HasEnded) (steps : List ThreadStep) : (t.after steps).HasEnded := by
  induction steps generalizing t with
  | nil => exact h
  | cons step steps ih => exact ih (h.step step)

/-- A join of a thread whose body has ended sees it gone. -/
theorem HasEnded.join (h : t.HasEnded) : t.join.phase = .gone := by
  obtain ⟨phase, hasMessage⟩ := t
  cases phase with
  | running => exact absurd rfl h
  | leaving | gone => rfl

end WorkerThread

namespace SpawnedWorker

def meet (s : SpawnedWorker) : WorkerEvent → SpawnedWorker
  | .thread step => { s with thread := s.thread.step step }
  | .requestStop => s.requestStop
  | .isFinished => s.isFinished.2
  | .wait meanwhile => (s.wait meanwhile).2
  | .stop millis meanwhile => (s.stop millis meanwhile).2

def after (s : SpawnedWorker) (events : List WorkerEvent) : SpawnedWorker := events.foldl meet s

/-- What the owner is told who asks whether the body has ended. -/
def told? (s : SpawnedWorker) : WorkerEvent → Option Bool
  | .isFinished => some s.isFinished.1
  | .wait meanwhile => some (s.wait meanwhile).1
  | .thread _ | .requestStop | .stop .. => none

/-- How often the thread is joined. -/
def joins (s : SpawnedWorker) : List WorkerEvent → Nat
  | [] => 0
  | event :: events =>
    (if s.worker.joined = false ∧ (s.meet event).worker.joined = true then 1 else 0) +
      (s.meet event).joins events

/-- Does a wait find the end of the body in the channel, or nobody at its other end? -/
def hears (s : SpawnedWorker) (meanwhile : List ThreadStep) : Bool :=
  (s.thread.after meanwhile).receive.1 ≠ .nothing

variable {s : SpawnedWorker} {meanwhile : List ThreadStep} {millis : Nat} {event : WorkerEvent}
  {events : List WorkerEvent} {told : Bool}

theorem after_cons (s : SpawnedWorker) (event : WorkerEvent) (events : List WorkerEvent) :
    s.after (event :: events) = (s.meet event).after events := rfl

theorem after_append (s : SpawnedWorker) (events events' : List WorkerEvent) :
    s.after (events ++ events') = (s.after events).after events' := List.foldl_append

/-- The owner's part in a wait is the wait of a worker who is told what the channel gives. -/
theorem worker_wait (s : SpawnedWorker) (meanwhile : List ThreadStep) :
    ((s.wait meanwhile).1, (s.wait meanwhile).2.worker) = s.worker.wait (s.hears meanwhile) := by
  rw [wait]
  split
  · rename_i hseen
    obtain ⟨⟨name, drainMillis, stopRequested, seenEnd, joined⟩, thread⟩ := s
    cases hseen
    rfl
  · rfl

theorem worker_snd_wait (s : SpawnedWorker) (meanwhile : List ThreadStep) :
    (s.wait meanwhile).2.worker = (s.worker.wait (s.hears meanwhile)).2 :=
  congrArg Prod.snd (worker_wait s meanwhile)

theorem worker_stop (s : SpawnedWorker) (millis : Nat) (meanwhile : List ThreadStep) :
    ((s.stop millis meanwhile).1, (s.stop millis meanwhile).2.worker) =
      s.worker.stop millis (s.hears meanwhile) := by
  rw [stop, Worker.stop]
  split
  · rfl
  · have hwait := worker_wait s.requestStop meanwhile
    rw [show s.requestStop.hears meanwhile = s.hears meanwhile from rfl,
      show s.requestStop.worker = s.worker.requestStop from rfl] at hwait
    rw [← hwait]
    obtain ⟨ended, s'⟩ := s.requestStop.wait meanwhile
    cases ended <;> rfl

/-! ### What the owner knows -/

/-- The channel holds the message from the end of the body until the owner receives it, and a joined
thread is gone. -/
structure Sound (s : SpawnedWorker) : Prop where
  message : s.thread.hasMessage = true ↔ s.thread.HasEnded ∧ s.worker.seenEnd = false
  seen : s.worker.seenEnd = true → s.thread.HasEnded
  gone : s.worker.joined = true → s.thread.phase = .gone ∧ s.worker.seenEnd = true

theorem sound_spawn (name : String) (drainMillis : Nat) : (spawn name drainMillis).Sound where
  message := by simp [spawn, WorkerThread.HasEnded]
  seen h := nomatch h
  gone h := nomatch h

theorem Sound.step (h : s.Sound) (step : ThreadStep) :
    Sound { s with thread := s.thread.step step } := by
  obtain ⟨worker, ⟨phase, hasMessage⟩⟩ := s
  obtain ⟨hmessage, hseen, hgone⟩ := h
  cases phase with
  | running =>
      have hunseen : worker.seenEnd = false := Bool.eq_false_iff.mpr fun h => hseen h rfl
      have howned : worker.joined = false := Bool.eq_false_iff.mpr fun h => nomatch (hgone h).1
      cases step with
      | returns | fails =>
          exact ⟨by simp [WorkerThread.step, WorkerThread.HasEnded, hunseen],
            by simp [hunseen], by simp [howned]⟩
      | leaves => exact ⟨hmessage, hseen, hgone⟩
  | leaving =>
      cases step with
      | returns | fails => exact ⟨hmessage, hseen, hgone⟩
      | leaves =>
          refine ⟨?_, fun _ => by simp [WorkerThread.step, WorkerThread.HasEnded],
            fun h => nomatch (hgone h).1⟩
          simpa [WorkerThread.step, WorkerThread.HasEnded] using hmessage
  | gone => cases step <;> exact ⟨hmessage, hseen, hgone⟩

theorem Sound.steps (h : s.Sound) (steps : List ThreadStep) :
    Sound { s with thread := s.thread.after steps } := by
  induction steps generalizing s with
  | nil => exact h
  | cons step steps ih => exact ih (h.step step)

theorem Sound.requestStop (h : s.Sound) : s.requestStop.Sound := ⟨h.message, h.seen, h.gone⟩

/-- While the end has not been seen, the channel has the message just if the body has ended. -/
theorem Sound.receive (h : s.Sound) (hunseen : s.worker.seenEnd = false) :
    s.thread.receive =
      if s.thread.HasEnded then (.message, { s.thread with hasMessage := false })
      else (.nothing, s.thread) := by
  have hmessage := h.message
  rw [and_iff_left hunseen] at hmessage
  rw [WorkerThread.receive]
  split
  · rename_i hsent
    rw [if_pos (hmessage.mp hsent)]
  · rename_i hsent
    have hended := mt hmessage.mpr hsent
    have hphase : s.thread.phase = .running := Decidable.not_not.mp hended
    rw [if_neg hended, hphase]
    rfl

theorem Sound.wait_eq (h : s.Sound) (hunseen : s.worker.seenEnd = false) :
    s.wait meanwhile =
      if (s.thread.after meanwhile).HasEnded then
        (true, ⟨{ s.worker with seenEnd := true },
          { s.thread.after meanwhile with hasMessage := false }⟩)
      else (false, ⟨s.worker, s.thread.after meanwhile⟩) := by
  have hreceive := (h.steps meanwhile).receive hunseen
  obtain ⟨⟨name, drainMillis, stopRequested, seenEnd, joined⟩, thread⟩ := s
  cases hunseen
  simp only [wait, hreceive, Bool.false_eq_true, if_false]
  split <;> rfl

theorem Sound.wait (h : s.Sound) (meanwhile : List ThreadStep) : (s.wait meanwhile).2.Sound := by
  cases hseen : s.worker.seenEnd with
  | true =>
      rw [SpawnedWorker.wait, if_pos hseen]
      exact h
  | false =>
      rw [h.wait_eq hseen]
      split
      · rename_i hended
        exact ⟨by simp, fun _ => hended, fun hjoined => nomatch hseen.symm.trans (h.gone hjoined).2⟩
      · exact h.steps meanwhile

/-- A wait tells the end of the body just if that has come by the time the wait is over. -/
theorem Sound.wait_iff (h : s.Sound) (meanwhile : List ThreadStep) :
    (s.wait meanwhile).1 = true ↔ (s.thread.after meanwhile).HasEnded := by
  cases hseen : s.worker.seenEnd with
  | true =>
      rw [SpawnedWorker.wait, if_pos hseen]
      exact iff_of_true rfl ((h.seen hseen).after meanwhile)
  | false =>
      rw [h.wait_eq hseen]
      split <;> simp [*]

theorem Sound.hasEnded_wait (h : s.Sound) (meanwhile : List ThreadStep) :
    (s.wait meanwhile).2.thread.HasEnded ↔ (s.wait meanwhile).1 = true := by
  cases hseen : s.worker.seenEnd with
  | true =>
      rw [SpawnedWorker.wait, if_pos hseen]
      exact iff_of_true (h.seen hseen) rfl
  | false =>
      rw [h.wait_eq hseen]
      split
      · rename_i hended
        exact iff_of_true hended rfl
      · rename_i hrunning
        exact iff_of_false hrunning nofun

theorem seenEnd_wait (s : SpawnedWorker) (meanwhile : List ThreadStep) :
    (s.wait meanwhile).2.worker.seenEnd = (s.wait meanwhile).1 := by
  have hwait := Prod.mk.inj (worker_wait s meanwhile)
  rw [hwait.1, hwait.2]

theorem Sound.join (h : s.Sound) (hseen : s.worker.seenEnd = true) : s.join.Sound where
  message := (h.step .leaves).message
  seen := (h.step .leaves).seen
  gone _ := ⟨(h.seen hseen).join, hseen⟩

theorem stop_of_joined (h : s.worker.joined = true) (millis : Nat) (meanwhile : List ThreadStep) :
    s.stop millis meanwhile = (.ok (), s) := if_pos h

theorem stop_of_owned (h : s.worker.joined = false) (millis : Nat) (meanwhile : List ThreadStep) :
    s.stop millis meanwhile =
      if (s.requestStop.wait meanwhile).1 then (.ok (), (s.requestStop.wait meanwhile).2.join)
      else (.error ⟨s.worker.name, millis⟩, (s.requestStop.wait meanwhile).2) := by
  have hname := congrArg Worker.name (worker_snd_wait s.requestStop meanwhile)
  rw [SpawnedWorker.stop, if_neg (by simp [h])]
  simp only [show (s.requestStop.wait meanwhile).2.worker.name = s.worker.name from hname]

theorem Sound.stop (h : s.Sound) (millis : Nat) (meanwhile : List ThreadStep) :
    (s.stop millis meanwhile).2.Sound := by
  cases hjoined : s.worker.joined with
  | true => rwa [stop_of_joined hjoined]
  | false =>
      have hwait := h.requestStop.wait meanwhile
      rw [stop_of_owned hjoined]
      split
      · rename_i hended
        exact hwait.join ((seenEnd_wait _ meanwhile).trans hended)
      · exact hwait

theorem Sound.meet (h : s.Sound) (event : WorkerEvent) : (s.meet event).Sound := by
  cases event with
  | thread step => exact h.step step
  | requestStop => exact h.requestStop
  | isFinished => exact h.wait []
  | wait meanwhile => exact h.wait meanwhile
  | stop millis meanwhile => exact h.stop millis meanwhile

theorem Sound.after (h : s.Sound) (events : List WorkerEvent) : (s.after events).Sound := by
  induction events generalizing s with
  | nil => exact h
  | cons event events ih => exact ih (h.meet event)

/-! ### What a stop comes to -/

/-- A stop that finds the body at its end leaves the thread joined and gone; any other one leaves it
owned and asked to stop. -/
theorem Sound.stop_cases (h : s.Sound) (millis : Nat) (meanwhile : List ThreadStep) :
    ((s.thread.after meanwhile).HasEnded ∧ (s.stop millis meanwhile).1 = .ok () ∧
      (s.stop millis meanwhile).2.thread.phase = .gone ∧
      (s.stop millis meanwhile).2.worker.joined = true) ∨
    (¬(s.thread.after meanwhile).HasEnded ∧
      (s.stop millis meanwhile).1 = .error ⟨s.worker.name, millis⟩ ∧
      (s.stop millis meanwhile).2.worker.joined = false ∧
      (s.stop millis meanwhile).2.worker.stopRequested = true) := by
  cases hjoined : s.worker.joined with
  | true =>
      have hgone := (h.gone hjoined).1
      have hended : s.thread.HasEnded := fun hrunning => nomatch hgone.symm.trans hrunning
      rw [stop_of_joined hjoined]
      exact .inl ⟨hended.after meanwhile, rfl, hgone, hjoined⟩
  | false =>
      have hiff := h.requestStop.wait_iff meanwhile
      have hworker := worker_snd_wait s.requestStop meanwhile
      rw [stop_of_owned hjoined]
      split
      · rename_i hended
        have hseen := (seenEnd_wait _ meanwhile).trans hended
        have hgone := ((h.requestStop.wait meanwhile).seen hseen).join
        exact .inl ⟨hiff.mp hended, rfl, hgone, rfl⟩
      · rename_i hnot
        rw [hworker]
        exact .inr ⟨mt hiff.mpr hnot, rfl, hjoined, rfl⟩

theorem told?_of_seen (h : s.worker.seenEnd = true) (event : WorkerEvent) :
    s.told? event ≠ some false := by
  cases event with
  | isFinished => simp [told?, isFinished, SpawnedWorker.wait, h]
  | wait meanwhile => simp [told?, SpawnedWorker.wait, h]
  | thread _ | requestStop | stop _ _ => nofun

theorem seenEnd_of_told (h : s.told? event = some true) :
    (s.meet event).worker.seenEnd = true := by
  cases event with
  | isFinished => exact (seenEnd_wait s []).trans (Option.some.inj h)
  | wait meanwhile => exact (seenEnd_wait s meanwhile).trans (Option.some.inj h)
  | thread _ | requestStop | stop _ _ => cases h

/-- Who asks is told the end of the body just if it has come. -/
theorem Sound.told_iff (h : s.Sound) (htold : s.told? event = some told) :
    told = true ↔ (s.meet event).thread.HasEnded := by
  cases event with
  | isFinished =>
      obtain rfl := Option.some.inj htold
      exact (h.hasEnded_wait []).symm
  | wait meanwhile =>
      obtain rfl := Option.some.inj htold
      exact (h.hasEnded_wait meanwhile).symm
  | thread _ | requestStop | stop _ _ => cases htold

theorem keeps_meet (s : SpawnedWorker) (event : WorkerEvent) :
    s.worker.Keeps (s.meet event).worker := by
  have hwait (meanwhile : List ThreadStep) : s.worker.Keeps (s.wait meanwhile).2.worker := by
    rw [worker_snd_wait]
    exact s.worker.keeps_wait _
  cases event with
  | thread step => exact .refl s.worker
  | requestStop => exact s.worker.keeps_requestStop
  | isFinished => exact hwait []
  | wait meanwhile => exact hwait meanwhile
  | stop millis meanwhile =>
      have hworker : (s.stop millis meanwhile).2.worker = _ :=
        congrArg Prod.snd (worker_stop s millis meanwhile)
      rw [meet, hworker]
      exact s.worker.keeps_stop millis _

theorem keeps_after (s : SpawnedWorker) (events : List WorkerEvent) :
    s.worker.Keeps (s.after events).worker := by
  induction events generalizing s with
  | nil => exact .refl s.worker
  | cons event events ih => exact (s.keeps_meet event).trans (ih _)

/-- A thread is joined once at most. -/
theorem joins_eq (s : SpawnedWorker) (events : List WorkerEvent) :
    s.joins events =
      if s.worker.joined = false ∧ (s.after events).worker.joined = true then 1 else 0 := by
  induction events generalizing s with
  | nil => cases h : s.worker.joined <;> simp [joins, after, h]
  | cons event events ih =>
      have hmeet := (s.keeps_meet event).joined
      have hafter := ((s.meet event).keeps_after events).joined
      rw [joins, ih, after_cons]
      cases h : s.worker.joined <;> cases h' : (s.meet event).worker.joined <;> simp_all

/-- Whatever the owner of a worker and its thread have done, in any order:

- the end of the body is told just if it has come, and once told it is told ever after;
- a stop that succeeds leaves the thread joined and gone, and every later one succeeds at once;
- a stop that does not succeed leaves the thread owned and asked to stop, and a later one, by whose
  end the body has ended, succeeds; in all this the thread is joined once;
- a request to stop is never taken back. -/
theorem after_lives (name : String) (drainMillis : Nat) (events : List WorkerEvent) :
    let s := (spawn name drainMillis).after events
    (∀ event told, s.told? event = some told →
      (told = true ↔ (s.meet event).thread.HasEnded) ∧
      (told = true → ∀ later event', ((s.meet event).after later).told? event' ≠ some false)) ∧
    (∀ millis meanwhile, (s.stop millis meanwhile).1 = .ok () →
      (s.stop millis meanwhile).2.thread.phase = .gone ∧
      (s.stop millis meanwhile).2.worker.joined = true ∧
      ∀ later millis' meanwhile',
        ((s.stop millis meanwhile).2.after later).stop millis' meanwhile' =
          (.ok (), (s.stop millis meanwhile).2.after later)) ∧
    (∀ millis meanwhile fault, (s.stop millis meanwhile).1 = .error fault →
      fault = ⟨name, millis⟩ ∧
      (s.stop millis meanwhile).2.worker.joined = false ∧
      (s.stop millis meanwhile).2.worker.stopRequested = true ∧
      ∀ later millis' meanwhile',
        (((s.stop millis meanwhile).2.after later).thread.after meanwhile').HasEnded →
        (((s.stop millis meanwhile).2.after later).stop millis' meanwhile').1 = .ok () ∧
        (spawn name drainMillis).joins (events ++
          .stop millis meanwhile :: (later ++ [.stop millis' meanwhile'])) = 1) ∧
    (s.worker.stopRequested = true → ∀ later, (s.after later).worker.stopRequested = true) := by
  intro s
  have hsound : s.Sound := (sound_spawn name drainMillis).after events
  have hname : s.worker.name = name := ((spawn name drainMillis).keeps_after events).name
  refine ⟨fun event told htold => ?_, fun millis meanwhile hok => ?_,
    fun millis meanwhile fault herror => ?_, fun hasked later => (s.keeps_after later).asked hasked⟩
  · refine ⟨hsound.told_iff htold, fun hyes later event' => ?_⟩
    have hseen := seenEnd_of_told (hyes ▸ htold)
    exact told?_of_seen (((s.meet event).keeps_after later).seen hseen) event'
  · obtain ⟨-, -, hgone, hjoined⟩ | ⟨-, herror, -⟩ := hsound.stop_cases millis meanwhile
    · exact ⟨hgone, hjoined, fun later millis' meanwhile' =>
        stop_of_joined ((keeps_after _ later).joined hjoined) millis' meanwhile'⟩
    · cases hok.symm.trans herror
  · obtain ⟨-, hok, -⟩ | ⟨-, herror', howned, hasked⟩ := hsound.stop_cases millis meanwhile
    · cases herror.symm.trans hok
    · rw [hname] at herror'
      refine ⟨Except.error.inj (herror.symm.trans herror'), howned, hasked,
        fun later millis' meanwhile' hended => ?_⟩
      have hlater := (hsound.stop millis meanwhile).after later
      obtain ⟨-, hok, -, hjoined⟩ | ⟨hnot, -⟩ := hlater.stop_cases millis' meanwhile'
      · refine ⟨hok, ?_⟩
        rw [joins_eq, after_append, after_cons, after_append]
        exact if_pos ⟨rfl, hjoined⟩
      · exact absurd hended hnot

/-- A body that does not heed the first stop and then fails, which a question learns before the second
stop does. -/
theorem after_lives_stuck :
    let s := (spawn "stuck" 1000).after [.wait []]
    let s' := (s.stop 20 []).2.after [.thread .fails, .isFinished]
    (s.stop 20 []).1 = .error ⟨"stuck", 20⟩ ∧ (s'.stop 0 []).1 = .ok () ∧
    (spawn "stuck" 1000).joins ([.wait []] ++
      .stop 20 [] :: ([.thread .fails, .isFinished] ++ [.stop 0 []])) = 1 ∧
    (s'.stop 0 []).2.thread.phase = .gone ∧
    (s'.stop 0 []).2.stop 5 [] = (.ok (), (s'.stop 0 []).2) := by
  intro s s'
  have hdrain : (s.stop 20 []).1 = .error ⟨"stuck", 20⟩ := rfl
  obtain ⟨-, -, hlate, -⟩ := after_lives "stuck" 1000 [.wait []]
  obtain ⟨-, -, -, hretry⟩ := hlate 20 [] _ hdrain
  obtain ⟨hok, hjoins⟩ := hretry [.thread .fails, .isFinished] 0 [] (by decide)
  obtain ⟨-, hstopped, -⟩ :=
    after_lives "stuck" 1000 [.wait [], .stop 20 [], .thread .fails, .isFinished]
  obtain ⟨hgone, -, hagain⟩ := hstopped 0 [] hok
  exact ⟨hdrain, hok, hjoins, hgone, hagain [] 5 []⟩

end SpawnedWorker
end CameraPipeline
