import CameraPipeline.Proofs.Plant.Unwind
import CameraPipeline.Orchestrator.Build

/-!
Construction steps. `Builds` says to which circuit the steps lead when they succeed, and that a
failed step leaves a stack for what the steps before it did, so that undoing it leads back.
`Meets` says, without any assumption, what the steps ask for and what they answer.
-/

namespace CameraPipeline

open Plant

/-- From a site at the circuit `c` the steps lead to a site at a circuit that `post` allows, or
fail at some other circuit above the same ground. -/
def Construction.Builds {α : Type} (below : PumpId → Prop) (ground c : Circuit)
    (m : Construction α) (post : α → Circuit → Prop) : Prop :=
  ∀ site : Site, site.At below ground c →
    match m site with
    | .ok a site => ∃ c', site.At below ground c' ∧ post a c'
    | .error _ site => ∃ c', site.At below ground c'

namespace Construction

variable {below : PumpId → Prop} {ground c : Circuit} {α β : Type}

namespace Builds

theorem pure {a : α} {post : α → Circuit → Prop} (h : post a c) :
    Builds below ground c (Pure.pure a) post :=
  fun _ hs => ⟨c, hs, h⟩

theorem bind {m : Construction α} {f : α → Construction β} {mid : α → Circuit → Prop}
    {post : β → Circuit → Prop} (hm : Builds below ground c m mid)
    (hf : ∀ a c', mid a c' → Builds below ground c' (f a) post) :
    Builds below ground c (m >>= f) post := by
  intro site hs
  have h := hm site hs
  simp only [Bind.bind, EStateM.bind]
  cases ho : m site with
  | ok a site' =>
      rw [ho] at h
      obtain ⟨c', hs', hmid⟩ := h
      exact hf a c' hmid site' hs'
  | error e site' =>
      rw [ho] at h
      exact h

theorem mono {m : Construction α} {post post' : α → Circuit → Prop}
    (hm : Builds below ground c m post) (hpost : ∀ a c', post a c' → post' a c') :
    Builds below ground c m post' := by
  intro site hs
  have h := hm site hs
  cases ho : m site with
  | ok a site' =>
      rw [ho] at h
      obtain ⟨c', hs', hp⟩ := h
      exact ⟨c', hs', hpost a c' hp⟩
  | error e site' =>
      rw [ho] at h
      exact h

theorem optional {part : Option α} {steps : α → Construction β}
    {post : Option β → Circuit → Prop} (hnone : part = none → post none c)
    (hsome : ∀ a, part = some a → Builds below ground c (steps a) fun b => post (some b)) :
    Builds below ground c (Build.optional part steps) post := by
  cases part with
  | none => exact pure (hnone rfl)
  | some a => exact bind (hsome a rfl) fun b c' hb => pure hb

end Builds

theorem builds_ask {r : Request} {inverse : Handle → Request} {post : Handle → Circuit → Prop}
    (hr : ∀ h, r ≠ .destroy h)
    (hstep : ∀ (s : Server) h, s.circuit = c → s.Numbered → s.permit r = .ok h →
      post h (c.after h r) ∧ ∀ steps, Laid ground steps c →
        Laid ground (.request (inverse h) :: steps) (c.after h r)) :
    Builds below ground c (ask r inverse) post := by
  intro site hs
  have hsteps := ask_steps site.plant r
  simp only [ask]
  cases ho : site.plant.ask r with
  | mk answer q =>
      rw [ho] at hsteps
      have hsound := hsteps.sound (fun _ => False.elim) hs.sound
      cases answer with
      | ok h =>
          obtain ⟨hp, hc⟩ := ask_ok ho
          have ht := (takeTurn_steps site.plant).quiet
          obtain ⟨hpost, hlaid⟩ := hstep site.plant.takeTurn.server h
            (ht.circuit.trans hs.circuit) (ht.numbered hs.sound.numbered) hp
          refine ⟨c.after h r, ⟨hs.solid, hlaid _ hs.laid, hc.trans (hs.circuit ▸ rfl), hsound,
            fun id k hk => ?_⟩, hpost⟩
          exact (hs.reads id k (hsteps.reads hk)).imp_left fun ⟨hm, hl⟩ =>
            ⟨.tail _ hm, hl.after hr⟩
      | error fault =>
          exact ⟨c, hs.solid, hs.laid, (ask_error ho).trans hs.circuit, hsound,
            fun id k hk => hs.reads id k (hsteps.reads hk)⟩

theorem builds_done {r : Request} {inverse : Handle → Request} {post : Circuit → Prop}
    (h : Builds below ground c (ask r inverse) fun _ => post) :
    Builds below ground c (do let _ ← ask r inverse) fun _ => post :=
  .bind h fun _ _ hc => .pure hc

theorem builds_create (kind : ChannelKind) (attr : ChannelAttr) :
    Builds below ground c (create kind attr) fun h c' =>
      h.kind = kind ∧ c.node? h = none ∧ c' = c.set h (some ⟨attr.overlaid?, false, none⟩) := by
  refine builds_ask (fun _ => nofun) fun s h hs hn hp => ?_
  obtain ⟨rfl, hlive⟩ := Server.permit_create hp
  have hnew := hs ▸ hn.fresh kind
  exact ⟨⟨rfl, hnew, rfl⟩, fun steps hl => .create _ _ hl hnew fun b hb => hs ▸ hlive b hb⟩

theorem builds_enable {h : Handle} (base : Option Handle) (quota : Option Quota)
    (hn : c.node? h = some ⟨base, false, quota⟩) :
    Builds below ground c (enable h) fun _ c' => c' = c.set h (some ⟨base, true, quota⟩) := by
  refine builds_done (builds_ask (fun _ => nofun) fun s k _ _ hp => ?_)
  obtain rfl := Server.eq_of_permit hp rfl
  have hc : c.after k (.enable k) = c.set k (some ⟨base, true, quota⟩) := by
    simp [Circuit.after, Circuit.modify, hn]
  exact ⟨hc, fun steps hl => hc ▸ .enable k base quota hl hn⟩

theorem builds_createEnabled (kind : ChannelKind) (attr : ChannelAttr) :
    Builds below ground c (createEnabled kind attr) fun h c' =>
      h.kind = kind ∧ c.node? h = none ∧ c' = c.set h (some ⟨attr.overlaid?, true, none⟩) := by
  refine .bind (builds_create kind attr) ?_
  intro h _ hpost
  obtain ⟨hk, hn, rfl⟩ := hpost
  refine .bind (builds_enable attr.overlaid? none (by simp)) ?_
  intro _ _ heq
  subst heq
  exact .pure ⟨hk, hn, Circuit.set_set c h _ _⟩

theorem builds_bind (source target : Handle) :
    Builds below ground c (bind source target) fun _ c' =>
      c' = c.setLink ⟨source, target⟩ true := by
  refine builds_done (builds_ask (fun _ => nofun) fun s k hs _ hp => ?_)
  obtain ⟨hsource, htarget, hfree⟩ := Server.permit_bind hp
  subst hs
  exact ⟨rfl, fun steps hl => .bind _ hl hfree hsource htarget⟩

theorem builds_startReceiving {h : Handle} (base : Option Handle) (on : Bool) (quota : Quota)
    (hn : c.node? h = some ⟨base, on, none⟩) :
    Builds below ground c (startReceiving h quota) fun _ c' =>
      c' = c.set h (some ⟨base, on, some quota⟩) := by
  refine builds_done (builds_ask (fun _ => nofun) fun s k _ _ hp => ?_)
  obtain rfl := Server.eq_of_permit hp rfl
  have hc : c.after k (.startReceiving k quota) = c.set k (some ⟨base, on, some quota⟩) := by
    simp [Circuit.after, Circuit.modify, hn]
  exact ⟨hc, fun steps hl => hc ▸ .receive k base on quota hl hn⟩

theorem builds_start {pump : Pump} (hh : pump.Honest) (hl : c.Live pump.source) :
    Builds below ground c (start pump) fun _ c' => c' = c := by
  intro site hs
  have hsettle := (settle_steps (site.plant.addPump pump).2 (site.plant.addPump pump).1).quiet
  refine ⟨c, ?_, rfl⟩
  have hadd : Site.At below ground c
      ⟨site.stack.push (.pump (site.plant.addPump pump).1), (site.plant.addPump pump).2⟩ := by
    have hone : Plant.Steps (fun ch => ch = .start pump) site.plant (site.plant.addPump pump).2 :=
      .one (.start pump) rfl
    refine ⟨hs.solid, .pump _ hs.laid, hs.circuit, hone.sound ?_ hs.sound, ?_⟩
    · intro _ heq
      cases heq
      exact hh
    · intro id k hpost
      obtain ⟨pump', hp', he, hsrc⟩ := hpost
      rw [pump?_addPump] at hp'
      split at hp'
      · rename_i hid
        cases hp'
        exact .inl ⟨hid ▸ .head _, hsrc ▸ hl⟩
      · exact (hs.reads id k ⟨pump', hp', he, hsrc⟩).imp_left fun ⟨hm, hl⟩ => ⟨.tail _ hm, hl⟩
  exact hadd.quiet hsettle

end Construction

/-- A construction ends at a circuit that its steps lead to, or back at the ground. -/
theorem Construction.Builds.construct {α : Type} {below : PumpId → Prop} {ground : Circuit}
    {m : Construction α} {post : α → Circuit → Prop} (hm : Builds below ground ground m post)
    {p : Plant} (hp : Site.At below ground ground ⟨{}, p⟩) :
    match p.construct m with
    | (.ok (a, stack), q) => ∃ c, Site.At below ground c ⟨stack, q⟩ ∧ post a c
    | (.error _, q) => q.Drained → Site.At below ground ground ⟨{}, q⟩ := by
  have h := hm { plant := p } hp
  simp only [Plant.construct]
  cases ho : m { plant := p } with
  | ok a site =>
      rw [ho] at h
      exact h
  | error e site =>
      rw [ho] at h
      obtain ⟨c, hs⟩ := h
      exact fun hd => (hs.unwind hd).2

namespace Construction

variable {site site' : Site}

theorem ask_eq_ok {r : Request} {inverse : Handle → Request} {h : Handle}
    (ho : ask r inverse site = .ok h site') :
    site.plant.ask r = (.ok h, site'.plant) ∧
      site'.stack = site.stack.push (.request (inverse h)) := by
  simp only [ask] at ho
  split at ho
  · cases ho
    exact ⟨‹_›, rfl⟩
  · cases ho

theorem bind_eq_ok {α β : Type} {m : Construction α} {f : α → Construction β} {b : β}
    (ho : (m >>= f) site = .ok b site') :
    ∃ a site₁, m site = .ok a site₁ ∧ f a site₁ = .ok b site' := by
  change EStateM.bind m f site = _ at ho
  simp only [EStateM.bind] at ho
  split at ho
  · exact ⟨_, _, ‹_›, ho⟩
  · cases ho

theorem done_eq_ok {r : Request} {inverse : Handle → Request} {v : Unit}
    (ho : (do let _ ← ask r inverse : Construction Unit) site = .ok v site') :
    ∃ h, site.plant.ask r = (.ok h, site'.plant) ∧
      site'.stack = site.stack.push (.request (inverse h)) := by
  obtain ⟨h, site₁, hask, hpure⟩ := bind_eq_ok ho
  cases hpure
  exact ⟨h, ask_eq_ok hask⟩

end Construction

/-- The steps start only `pumps`, fail only with what the server answers, and answer what `post`
allows. -/
def Construction.Meets {α : Type} (pumps : Pump → Prop) (m : Construction α) (post : α → Prop) :
    Prop :=
  ∀ site : Site,
    match m site with
    | .ok a site' =>
      Plant.Steps (Change.Within (fun _ => True) pumps) site.plant site'.plant ∧ post a
    | .error e site' =>
      Plant.Steps (Change.Within (fun _ => True) pumps) site.plant site'.plant ∧
        ∃ r fault, e = .capability r fault

namespace Construction

variable {pumps : Pump → Prop} {α β : Type}

namespace Meets

theorem pure {a : α} {post : α → Prop} (h : post a) : Meets pumps (Pure.pure a) post :=
  fun site => ⟨.refl site.plant, h⟩

theorem bind {m : Construction α} {f : α → Construction β} {mid : α → Prop} {post : β → Prop}
    (hm : Meets pumps m mid) (hf : ∀ a, mid a → Meets pumps (f a) post) :
    Meets pumps (m >>= f) post := by
  intro site
  have h := hm site
  simp only [Bind.bind, EStateM.bind]
  cases ho : m site with
  | ok a site' =>
      rw [ho] at h
      have h' := hf a h.2 site'
      dsimp only
      cases ho' : f a site' with
      | ok b site'' =>
          rw [ho'] at h'
          exact ⟨h.1.trans h'.1, h'.2⟩
      | error e site'' =>
          rw [ho'] at h'
          exact ⟨h.1.trans h'.1, h'.2⟩
  | error e site' =>
      rw [ho] at h
      exact h

theorem mono {m : Construction α} {post post' : α → Prop} (hm : Meets pumps m post)
    (hpost : ∀ a, post a → post' a) : Meets pumps m post' := by
  intro site
  have h := hm site
  cases ho : m site with
  | ok a site' =>
      rw [ho] at h
      exact ⟨h.1, hpost a h.2⟩
  | error e site' =>
      rw [ho] at h
      exact h

theorem optional {part : Option α} {steps : α → Construction β} {post : Option β → Prop}
    (hnone : post none) (hsome : ∀ a, Meets pumps (steps a) fun b => post (some b)) :
    Meets pumps (Build.optional part steps) post := by
  cases part with
  | none => exact pure hnone
  | some a => exact bind (hsome a) fun b hb => pure hb

/-- A part that may be absent, and of whose answer nothing is asked. -/
theorem maybe {part : Option α} {steps : α → Construction β}
    (h : ∀ a, Meets pumps (steps a) fun _ => True) :
    Meets pumps (Build.optional part steps) fun _ => True :=
  .optional trivial h

end Meets

theorem meets_ask {r : Request} {inverse : Handle → Request} {post : Handle → Prop}
    (hpost : ∀ (s : Server) h, s.permit r = .ok h → post h) :
    Meets pumps (ask r inverse) post := by
  intro site
  have hs : Plant.Steps (Change.Within (fun _ => True) pumps) site.plant (site.plant.ask r).2 :=
    (ask_steps site.plant r).mono fun _ =>
      Change.Within.mono (fun _ _ => trivial) fun _ => False.elim
  simp only [ask]
  cases ho : site.plant.ask r with
  | mk answer q =>
      rw [ho] at hs
      cases answer with
      | ok h => exact ⟨hs, hpost _ h (ask_ok ho).1⟩
      | error fault => exact ⟨hs, r, fault, rfl⟩

theorem meets_create (kind : ChannelKind) (attr : ChannelAttr) :
    Meets pumps (create kind attr) fun h => h.kind = kind :=
  meets_ask fun _ _ hp => (Server.permit_create hp).1 ▸ rfl

theorem meets_done (r : Request) (inverse : Handle → Request) :
    Meets pumps (do let _ ← ask r inverse) fun _ => True := by
  have hask : Meets pumps (ask r inverse) fun _ => True := meets_ask fun _ _ _ => trivial
  exact .bind hask fun _ _ => .pure trivial

theorem meets_createEnabled (kind : ChannelKind) (attr : ChannelAttr) :
    Meets pumps (createEnabled kind attr) fun h => h.kind = kind :=
  .bind (meets_create kind attr) fun _ hk => .bind (meets_done _ _) fun _ _ => .pure hk

theorem meets_bind (source target : Handle) :
    Meets pumps (bind source target) fun _ => True :=
  meets_done _ _

theorem meets_startReceiving (h : Handle) (quota : Quota) :
    Meets pumps (startReceiving h quota) fun _ => True :=
  meets_done _ _

theorem meets_start {pump : Pump} (hp : pumps pump) : Meets pumps (start pump) fun _ => True :=
  fun _ => ⟨.cons (.start pump) hp (settle_steps _ _).quiet.within, trivial⟩

end Construction

theorem Construction.Meets.construct {α : Type} {pumps : Pump → Prop} {m : Construction α}
    {post : α → Prop} (hm : Meets pumps m post) (p : Plant) :
    match p.construct m with
    | (.ok (a, _), q) =>
      Plant.Steps (Change.Within (fun _ => True) pumps) p q ∧ post a
    | (.error e, q) =>
      Plant.Steps (Change.Within (fun _ => True) pumps) p q ∧
        ∃ r fault, e = .capability r fault := by
  have h := hm { plant := p }
  simp only [Plant.construct]
  cases ho : m { plant := p } with
  | ok a site =>
      rw [ho] at h
      exact h
  | error e site =>
      rw [ho] at h
      have hu : Plant.Steps (Change.Within (fun _ => True) pumps) site.plant
          (site.stack.unwind site.plant).2 :=
        (site.stack.unwind_steps site.plant).mono fun _ =>
          Change.Within.mono (fun _ => id) fun _ => False.elim
      exact ⟨h.1.trans hu, h.2⟩

end CameraPipeline
