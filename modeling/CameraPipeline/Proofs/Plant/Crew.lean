import CameraPipeline.Proofs.Plant.Climb
import CameraPipeline.Proofs.Plant.Construct
import CameraPipeline.Proofs.Plant.StopOrder

/-!
The pumps of a stack. A construction puts on its stack only pumps that it started itself, takes
nothing away from a channel, and stops no pump before it is undone. Which stages start a pump can
be read off their attributes.
-/

namespace CameraPipeline

open Plant

theorem Request.HasInverse.withdrawn {r : Request} {inverse : Handle → Request}
    (pair : r.HasInverse inverse) : r.withdrawn? = none ∧ ∀ h, (inverse h).withdrawn?.isSome := by
  cases pair <;> exact ⟨rfl, fun _ => rfl⟩

/-- A site at which a stack is laid on a plant that was `p` before: its pumps are new, what it
asks for takes something away, and on the way nothing was taken away and no pump stopped. -/
structure Site.Manned (p : Plant) (site : Site) : Prop where
  pumps : ∀ id, .pump id ∈ site.stack.steps →
    p.pumps.length ≤ id ∧ id < site.plant.pumps.length
  takes : ∀ r, .request r ∈ site.stack.steps → r.withdrawn?.isSome
  grows : p.pumps.length ≤ site.plant.pumps.length
  unstopped : StopsOnly (fun _ => False) p site.plant
  untouched : Notes (¬·.Withdraws) p site.plant

namespace Site.Manned

variable {p : Plant} {site site' : Site}

theorem start (p : Plant) : Manned p { plant := p } :=
  ⟨fun _ hm => absurd hm List.not_mem_nil, fun _ hm => absurd hm List.not_mem_nil,
    Nat.le_refl _, .refl p, .refl p⟩

theorem ask (hs : Manned p site) {r : Request} {inverse : Handle → Request}
    (pair : r.HasInverse inverse) : Manned p ⟨site.stack, (site.plant.ask r).2⟩ := by
  have hsteps := ask_steps site.plant r
  have hlen := hsteps.pumps_length
  refine ⟨fun id hm => hlen ▸ hs.pumps id hm, hs.takes, hlen ▸ hs.grows,
    hs.unstopped.trans (ask_stopsOnly site.plant r), hs.untouched.trans ?_⟩
  exact hsteps.withdraws_none fun _ heq => heq ▸ pair.withdrawn.1

theorem step (hs : Manned p site) (h : Site.Step site site') : Manned p site' := by
  cases h with
  | @asked r inverse h q pair ho =>
      have hq := hs.ask pair
      rw [ho] at hq
      refine ⟨fun id hm => hq.pumps id (Undo.mem_of_pump_mem hm),
        fun r' hm => ?_, hq.grows, hq.unstopped, hq.untouched⟩
      cases List.mem_cons.mp hm with
      | inl heq =>
          cases heq
          exact pair.withdrawn.2 h
      | inr hm => exact hq.takes r' hm
  | @refused r inverse fault q pair ho =>
      have hq := hs.ask pair
      rw [ho] at hq
      exact hq
  | started pump =>
      have hsettle := settle_steps (site.plant.addPump pump).2 (site.plant.addPump pump).1
      have hlen : ((site.plant.addPump pump).2.settle (site.plant.addPump pump).1).pumps.length =
          site.plant.pumps.length + 1 := by
        rw [hsettle.quiet.pumps_length]
        simp [addPump]
      refine ⟨fun id hm => ?_, fun r hm => ?_, ?_, ?_, ?_⟩
      · rw [hlen]
        cases List.mem_cons.mp hm with
        | inl heq =>
            cases heq
            exact ⟨hs.grows, Nat.lt_succ_self _⟩
        | inr hm => exact (hs.pumps id hm).imp_right Nat.lt_succ_of_lt
      · exact hs.takes r (Undo.mem_of_request_mem hm)
      · rw [hlen]
        exact Nat.le_succ_of_le hs.grows
      · exact hs.unstopped.trans ((Notes.one rfl trivial).trans hsettle.stopsOnly)
      · have hone : Notes (¬·.Withdraws) site.plant (site.plant.addPump pump).2 :=
          .one rfl fun hw => hw
        exact hs.untouched.trans (hone.trans (hsettle.quiet.withdraws_none fun _ => False.elim))

theorem climbs (hs : Manned p site) (h : site.Climbs site') : Manned p site' :=
  h.keeps (fun _ _ hstep hs => hs.step hstep) hs

theorem stopsOnly (hs : Manned p site) {ids : PumpId → Prop} :
    StopsOnly ids p site.plant :=
  hs.unstopped.mono fun _ => False.elim

end Site.Manned

/-- Pumps came and went, but those that were there have not been stopped. -/
def Plant.KeepsPumps (p q : Plant) : Prop :=
  p.pumps.length ≤ q.pumps.length ∧ StopsOnly (p.pumps.length ≤ ·) p q

/-- The pumps of the stack are there and have not been stopped. -/
def Stack.Unstopped (s : Stack) (p : Plant) : Prop :=
  ∀ id, .pump id ∈ s.steps → id < p.pumps.length ∧ .stopped id true ∉ p.journal

theorem Stack.Unstopped.later {s : Stack} {p q : Plant} (hs : s.Unstopped p)
    (hlen : p.pumps.length ≤ q.pumps.length)
    (hj : StopsOnly (.pump · ∉ s.steps) p q) : s.Unstopped q :=
  fun id hm => ⟨Nat.lt_of_lt_of_le (hs id hm).1 hlen, fun hstopped =>
    (hj.mem hstopped).elim (hs id hm).2 fun hn => hn hm⟩

/-- What was just started has not been stopped. -/
theorem Site.Manned.unstopped_stack {p : Plant} {site : Site} (hs : Manned p site) (hl : p.Logged) :
    site.stack.Unstopped site.plant := by
  refine fun id hm => ⟨(hs.pumps id hm).2, fun hj => ?_⟩
  have hid := hl.known id true ((hs.unstopped.mem hj).resolve_right fun hf => hf)
  exact Nat.not_lt_of_le (hs.pumps id hm).1 hid

/-- The stack of a session over `base`: its pumps are not those of the base, and it has something
to take away from channels. -/
structure Stack.Attends (s base : Stack) (p : Plant) : Prop where
  pumps : ∀ id, .pump id ∈ s.steps → id < p.pumps.length ∧ .pump id ∉ base.steps
  takes : ∀ r, .request r ∈ s.steps → r.withdrawn?.isSome
  busy : ∃ r, .request r ∈ s.steps

theorem Stack.Attends.later {s base : Stack} {p q : Plant} (hs : s.Attends base p)
    (hlen : p.pumps.length ≤ q.pumps.length) : s.Attends base q :=
  ⟨fun id hm => (hs.pumps id hm).imp_left fun hid => Nat.lt_of_lt_of_le hid hlen, hs.takes,
    hs.busy⟩

/-- Stopped pumps leave the stack of a session, and everything else stays on it. -/
theorem Stack.Attends.stopPumps {s base : Stack} {p : Plant} (hs : s.Attends base p) :
    (s.stopPumps p).2.1.Attends base (s.stopPumps p).2.2 := by
  have hlen : (s.stopPumps p).2.2.pumps.length = p.pumps.length :=
    (stopEach_steps p s.steps).pumps_length
  have hmem (r : Request) : .request r ∈ (s.stopPumps p).2.1.steps ↔ .request r ∈ s.steps :=
    request_mem_stopEach p s.steps r
  refine ⟨fun id hm => hlen ▸ hs.pumps id (pump_mem_of_stopEach hm),
    fun r hm => hs.takes r ((hmem r).mp hm), ?_⟩
  obtain ⟨r, hr⟩ := hs.busy
  exact ⟨r, (hmem r).mpr hr⟩

/-- Pumps that were there before are none of the site's. -/
theorem Site.Manned.apart {p : Plant} {site : Site} {base : Stack} (hs : Manned p site)
    (hbase : base.Unstopped p) :
    ∀ id, .pump id ∈ site.stack.steps → id < site.plant.pumps.length ∧ .pump id ∉ base.steps :=
  fun id hm => ⟨(hs.pumps id hm).2, fun hb =>
    Nat.not_lt_of_le (hs.pumps id hm).1 (hbase id hb).1⟩

namespace Construction

variable {α β : Type} {m : Construction α} {n n' : Prop}

/-- What is on the stack stays there until the construction is undone. -/
theorem Climbs.stays {f : Construction α} (hf : Climbs f) {site : Site} {u : Undo}
    (hu : u ∈ site.stack.steps) : u ∈ (reached (f site)).stack.steps := by
  refine (hf site).keeps (I := fun site => u ∈ site.stack.steps) (fun _ _ hstep hin => ?_) hu
  cases hstep with
  | asked | started => exact .tail _ hin
  | refused => exact hin

theorem Climbs.manned (hm : Climbs m) (p : Plant) : Site.Manned p (reached (m { plant := p })) :=
  (Site.Manned.start p).climbs (hm _)

theorem construct_ok {p q : Plant} {a : α} {s : Stack} (h : p.construct m = (.ok (a, s), q)) :
    m { plant := p } = .ok a ⟨s, q⟩ := by
  simp only [Plant.construct] at h
  split at h <;> cases h
  exact ‹_›

/-- When a construction has failed, only pumps of its own have been stopped. -/
theorem Climbs.undone (hm : Climbs m) {p q : Plant} {e : PipelineError}
    (h : p.construct m = (.error e, q)) : p.KeepsPumps q := by
  have hsite := hm.manned p
  simp only [Plant.construct] at h
  split at h <;> cases h
  rename_i site ho
  rw [ho] at hsite
  refine ⟨(site.stack.unwind_steps site.plant).pumps_length ▸ hsite.grows, ?_⟩
  exact hsite.stopsOnly.trans <| (site.stack.unwind_stopsOnly site.plant).mono
    fun id hid => (hsite.pumps id hid).1

/-- A session has something to undo, unless its channel was refused to receive. -/
theorem Receives.asks (hm : Receives m) (p : Plant) :
    (∃ e q, m { plant := p } = .error e { plant := q }) ∨
      ∃ r, .request r ∈ (reached (m { plant := p })).stack.steps := by
  obtain ⟨h, quota, f, rfl, hf⟩ := hm
  cases ho : p.ask (.startReceiving h quota) with
  | mk answer q =>
      simp only [Bind.bind, EStateM.bind, startReceiving, Construction.ask, ho]
      cases answer with
      | ok k =>
          refine .inr ⟨.stopReceiving k, (hf ()).stays ?_⟩
          exact .head _
      | error fault => exact .inl ⟨_, q, rfl⟩

theorem Receives.opened (hm : Receives m) {p q : Plant} {a : α} {s : Stack}
    (h : p.construct m = (.ok (a, s), q)) :
    Site.Manned p ⟨s, q⟩ ∧ ∃ r, .request r ∈ s.steps := by
  have hok := construct_ok h
  have hsite := hm.climbs.manned p
  have hasks := hm.asks p
  rw [hok] at hsite hasks
  refine ⟨hsite, hasks.resolve_left fun hex => ?_⟩
  obtain ⟨_, _, heq⟩ := hex
  cases heq

/-- Where the steps succeed, they leave a pump on the stack if there was one or `n` holds. -/
def Crews (m : Construction α) (n : Prop) : Prop :=
  ∀ ⦃site site' : Site⦄ ⦃a : α⦄, m site = .ok a site' →
    ((∃ id, .pump id ∈ site'.stack.steps) ↔ (∃ id, .pump id ∈ site.stack.steps) ∨ n)

namespace Crews

theorem of_iff (hm : Crews m n) (hn : n ↔ n') : Crews m n' :=
  fun _ _ _ ho => (hm ho).trans (or_congr_right hn)

theorem pure (a : α) : Crews (Pure.pure a) False := by
  intro _ _ _ ho
  cases ho
  simp

theorem bind {f : α → Construction β} (hm : Crews m n) (hf : ∀ a, Crews (f a) n') :
    Crews (m >>= f) (n ∨ n') := by
  intro site site' b ho
  obtain ⟨a, site₁, hfirst, hrest⟩ := bind_eq_ok ho
  rw [hf a hrest, hm hfirst, or_assoc]

/-- Steps that start no pump make no difference. -/
theorem after {f : α → Construction β} (hm : Crews m False) (hf : ∀ a, Crews (f a) n) :
    Crews (m >>= f) n :=
  (hm.bind hf).of_iff (by simp)

theorem optional {part : Option β} {steps : β → Construction α} (h : ∀ b, Crews (steps b) n) :
    Crews (Build.optional part steps) (part.isSome ∧ n) := by
  cases part with
  | none => exact (pure none).of_iff (by simp)
  | some b => exact ((h b).bind fun a => pure (some a)).of_iff (by simp)

end Crews

theorem crews_ask (r : Request) (inverse : Handle → Request) : Crews (ask r inverse) False := by
  intro _ _ _ ho
  rw [(ask_eq_ok ho).2]
  simp [Stack.push]

theorem crews_done (r : Request) (inverse : Handle → Request) :
    Crews (do let _ ← ask r inverse : Construction Unit) False :=
  .after (crews_ask r inverse) fun _ => .pure ()

theorem crews_createEnabled (kind : ChannelKind) (attr : ChannelAttr) :
    Crews (createEnabled kind attr) False :=
  .after (crews_ask _ _) fun h => .after (crews_done _ _) fun _ => .pure h

theorem crews_start (pump : Pump) : Crews (start pump) True := by
  intro site _ _ ho
  cases ho
  simp only [or_true, iff_true]
  exact ⟨_, .head _⟩

end Construction

namespace Build

open Construction

variable (make : PumpMaker) (attr : PipelineAttr)

theorem crews_display (vi : Handle) (attr : DisplayAttr) : Crews (display vi attr) False :=
  .after (crews_createEnabled _ _) fun _ => .after (crews_done _ _) fun _ =>
    .after (crews_createEnabled _ _) fun _ => .after (crews_done _ _) fun _ => .pure _

theorem crews_subStream (source : Handle) (attr : VencAttr) :
    Crews (subStream make source attr) True :=
  .after (crews_createEnabled _ _) fun _ => .after (crews_done _ _) fun _ =>
    ((crews_start _).bind fun _ => crews_done _ _).of_iff (by simp)

/-- The base has a pump just if there is a network encoder or the raw frames are tapped. -/
theorem crews_base : Crews (base make attr) (attr.sub.isSome ∨ attr.rawTap) := by
  have hnone {β γ : Type} (part : Option β) {steps : β → Construction γ}
      (h : ∀ b, Crews (steps b) False) : Crews (optional part steps) False :=
    (Crews.optional h).of_iff (by simp)
  have hsub (source : Handle) :
      Crews (optional attr.sub (subStream make source)) (attr.sub.isSome : Prop) :=
    (Crews.optional fun a => crews_subStream make source a).of_iff (by simp)
  refine .after (crews_createEnabled _ _) fun vi => ?_
  refine .after (hnone _ fun a => crews_display vi a) fun vpss => ?_
  refine .after (hnone _ fun a => crews_createEnabled _ _) fun main => ?_
  refine .bind (hsub _) fun _ => ?_
  refine .after (hnone _ fun a => crews_createEnabled _ _) fun jpeg => ?_
  dsimp only
  split
  · rename_i htap
    exact ((crews_start _).bind fun _ => .pure _).of_iff (by simp [htap])
  · rename_i htap
    exact (Crews.pure _).of_iff (by simp [htap])

end Build

end CameraPipeline
