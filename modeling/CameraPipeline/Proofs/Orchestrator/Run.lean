import CameraPipeline.Proofs.Orchestrator.Standing

/-!
Runs of an orchestrator: commands in any order, and between them whatever the surroundings do, from
writes to the parameter store and injected failures to the steps of the pumps.
-/

namespace CameraPipeline

/-- What may happen to an orchestrator. -/
inductive Event where
  | command (c : Command)
  /-- Others write to the parameter store. -/
  | write (params : Params)
  | inject (rule : FailureRule)
  | move (m : Move)
  /-- What the pumps will do before the next calls. -/
  | turns (ts : List (List Move))
  | register (stream : Stream) (sink : Sink)
  /-- Readers act on the sinks. -/
  | sinks (sinks : List Sink)
  | waitPhoto

/-- Whatever happens that is not a command. -/
def Event.IsOutside : Event → Prop
  | command _ => False
  | _ => True

/-- No failure is injected on what gives back. -/
def Event.Spares : Event → Prop
  | inject rule => rule.operation.givesBack = false
  | _ => True

namespace Orchestrator

def meet (o : Orchestrator) : Event → Orchestrator
  | .command c => (o.handle c).2
  | .write params => { o with params }
  | .inject rule => { o with plant := { o.plant with server := o.plant.server.inject rule } }
  | .move m => { o with plant := o.plant.move m }
  | .turns ts => { o with plant := { o.plant with turns := ts } }
  | .register stream sink =>
    { o with
      plant := (o.plant.addSink sink).2
      feeds := o.feeds ++ [(stream, (o.plant.addSink sink).1)] }
  | .sinks sinks => { o with plant := { o.plant with sinks } }
  | .waitPhoto => o.waitPhoto.2

/-- The orchestrator after a run. -/
def after (o : Orchestrator) (events : List Event) : Orchestrator := events.foldl meet o

/-- An orchestrator that has not done anything yet, over an empty server. -/
structure Fresh (o : Orchestrator) : Prop where
  built : o.built = none
  server : ∃ n, o.plant.server = { payloadSize := n }
  pumps : o.plant.pumps = []
  journal : o.plant.journal = []

/-- An orchestrator over an empty server and an empty store. -/
def bare : Orchestrator where
  plant := { server := { payloadSize := 4 }, drainMillis := 100 }
  params := .empty

theorem fresh_bare : bare.Fresh := ⟨rfl, ⟨4, rfl⟩, rfl, rfl⟩

variable {o : Orchestrator} {e : Event}

theorem after_keeps {I : Orchestrator → Prop} {P : Event → Prop}
    (hI : ∀ o e, P e → I o → I (o.meet e)) {events : List Event} (he : ∀ e ∈ events, P e)
    (ho : I o) : I (o.after events) := by
  induction events generalizing o with
  | nil => exact ho
  | cons e events ih =>
      exact ih (fun e' hm => he e' (.tail _ hm)) (hI o e (he e (.head _)) ho)

theorem waitPhoto_awaits {P : Change → Prop} (hP : ∀ id, P (.await id)) (o : Orchestrator) :
    Plant.Steps P o.plant o.waitPhoto.2.plant ∧ o.waitPhoto.2.built = o.built := by
  simp only [waitPhoto]
  split
  · exact ⟨.refl _, rfl⟩
  · rename_i session _
    exact ⟨session.isDrained_awaits hP o.plant, rfl⟩

theorem waitPhoto_steps (o : Orchestrator) :
    Plant.Steps Change.IsQuiet o.plant o.waitPhoto.2.plant ∧
      o.waitPhoto.2.built = o.built :=
  waitPhoto_awaits (fun _ => trivial) o

theorem state_eq_uninitialized_iff : o.state = .uninitialized ↔ o.built = none := by
  cases hb : o.built <;> simp [state, hb]

theorem built_meet (he : e.IsOutside) : (o.meet e).built = o.built := by
  cases e with
  | command => exact he.elim
  | write | inject | move | turns | register | sinks => rfl
  | waitPhoto => exact (waitPhoto_steps o).2

theorem meet_kinded (e : Event) (hk : o.Kinded) : (o.meet e).Kinded := by
  cases e with
  | command c => exact ((handle_transitions o c).staffed hk).1
  | write | inject | move | turns | register | sinks => exact hk
  | waitPhoto =>
      intro b hb
      exact hk b ((waitPhoto_steps o).2 ▸ hb)

theorem meet_stands (hk : o.Kinded) (he : e.Spares)
    (hs : o.plant.Drained → Stands o.plant o.built) (hd : (o.meet e).plant.Drained) :
    Stands (o.meet e).plant (o.meet e).built := by
  cases e with
  | command c => exact (handle_transitions o c).stands hk hs hd
  | write => exact hs hd
  | inject rule => exact (hs hd).transport fun site => site.inject he
  | move m =>
      have hm : Plant.Steps Change.IsQuiet o.plant (o.plant.move m) := .one (.move m) trivial
      exact (hs (hm.drained hd)).transport fun site => site.quiet hm
  | turns | register | sinks => exact (hs hd).transport fun site => site.of_same rfl rfl
  | waitPhoto =>
      obtain ⟨hw, hb⟩ := waitPhoto_steps o
      exact hb ▸ (hs (hw.drained hd)).transport fun site => site.quiet hw

theorem Fresh.kinded (hf : o.Fresh) : o.Kinded := by
  intro b hb
  rw [hf.built] at hb
  cases hb

theorem Fresh.stands (hf : o.Fresh) : Stands o.plant o.built := by
  obtain ⟨n, hs⟩ := hf.server
  have hpump : ∀ id, o.plant.pump? id = none := fun id => by simp [Plant.pump?, hf.pumps]
  have hc : o.plant.server.circuit = .empty := by
    rw [hs]
    rfl
  have hchannel : ∀ h, o.plant.server.channels.get? h = none := fun h => by
    rw [hs]
    rfl
  have hsound : o.plant.Sound := by
    refine ⟨fun h hl => ?_, fun id pump hp => ?_, ⟨?_, fun h c hg => ?_, fun h c hg => ?_⟩⟩
    · rw [hc] at hl
      cases hl
    · rw [hpump] at hp
      cases hp
    · rw [hs]
      intro rule hr
      cases hr
    · rw [hchannel] at hg
      cases hg
    · rw [hchannel] at hg
      cases hg
  rw [hf.built]
  refine .down ⟨Circuit.wellFormed_empty, .bare, hc, hsound, ?_⟩
  intro id h hex
  obtain ⟨pump, hp, _⟩ := hex
  rw [hpump] at hp
  cases hp

/-- After every run in which all stopped pumps drained, the pipeline stands on its plant. -/
theorem after_stands (hf : o.Fresh) {events : List Event} (he : ∀ e ∈ events, e.Spares)
    (hd : (o.after events).plant.Drained) :
    Stands (o.after events).plant (o.after events).built := by
  refine (after_keeps (I := fun o => o.Kinded ∧ (o.plant.Drained → Stands o.plant o.built))
    (fun o e hspares hi => ?_) he ⟨hf.kinded, fun _ => hf.stands⟩).2 hd
  exact ⟨meet_kinded e hi.1, fun hd => meet_stands hi.1 hspares hi.2 hd⟩

end Orchestrator
end CameraPipeline
