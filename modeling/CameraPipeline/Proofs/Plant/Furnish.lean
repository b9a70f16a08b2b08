import CameraPipeline.Proofs.Plant.Climb
import CameraPipeline.Proofs.Plant.Construct
import CameraPipeline.Proofs.Server.Attributes

/-!
What constructions add to the channels that are there. New channels have new handles, so neither
the steps of a construction nor undoing them touches the attributes of older channels. `Furnishes`
says which channels a construction that succeeds adds, with what attributes, and that its stack
destroys these and no others.
-/

namespace CameraPipeline

open Plant

/-- The requests of which constructions consist. -/
def Request.Constructs (r : Request) : Prop := ∃ inverse, r.HasInverse inverse

namespace Plant

variable {requests : Request → Prop} {pumps : Pump → Prop} {p q : Plant} {id : PumpId}
  {h k : Handle} {v : ChannelAttr}

theorem Advanced.attrOf (ha : Advanced p id q) (hn : p.server.Numbered)
    (hv : p.server.attrOf h = some v) : q.server.attrOf h = some v := by
  cases ha with
  | stays | checks => exact hv
  | fetches pump => exact (p.server.attrOf_fetch pump.source h).trans hv
  | offers pump _ u sink rest _ taken p' hq =>
      rw [note, Plant.setPump, (offer_frame hq).1]
      exact hv
  | releases pump hp u => exact hn.attrOf_perform (r := .release pump.source u.slot) trivial hv

/-- Attributes outlast all changes in which the owner asks for nothing that touches them. -/
theorem Steps.attrOf (hs : Steps (Change.Within requests pumps) p q)
    (hk : ∀ r, requests r → r.Keeps h) (hn : p.server.Numbered)
    (hv : p.server.attrOf h = some v) : q.server.attrOf h = some v := by
  induction hs with
  | refl _ => exact hv
  | @cons p q c hc _ ih =>
      refine ih (Steps.numbered (.one (P := fun _ => True) c trivial) hn) ?_
      cases applied p c with
      | advance id ha => exact ha.attrOf hn hv
      | request r => exact server_serve p r ▸ hn.attrOf_perform (hk r hc) hv
      | start pump => exact hv
      | handled _ id pump pump' _ _ _ server => exact server ▸ hv
      | idle _ server => exact server ▸ hv

theorem Steps.attrOf_quiet (hs : Steps Change.IsQuiet p q) (hn : p.server.Numbered)
    (hv : p.server.attrOf h = some v) : q.server.attrOf h = some v :=
  hs.attrOf (fun _ => False.elim) hn hv

theorem ask_constructs (p : Plant) {r : Request} {inverse : Handle → Request}
    (pair : r.HasInverse inverse) :
    Steps (Change.Within Request.Constructs fun _ => True) p (p.ask r).2 :=
  (ask_steps p r).mono fun _ =>
    Change.Within.mono (fun _ heq => heq ▸ ⟨inverse, pair⟩) fun _ => False.elim

theorem perform_of_ask {r : Request} {answer : Except Fault Handle}
    (ho : p.ask r = (answer, q)) : p.takeTurn.server.perform r = (answer, q.server) := by
  refine Prod.ext ?_ ?_
  · rw [← answer_serve, ← ask_eq, ho]
  · rw [← server_serve, ← ask_eq, ho]

end Plant

/-- The requests on the stack give back, and the channels that it destroys are `hs`. -/
structure Stack.Owns (s : Stack) (hs : List Handle) : Prop where
  returns : ∀ r, .request r ∈ s.steps → r.operation.givesBack
  destroys : ∀ h, .request (.destroy h) ∈ s.steps ↔ h ∈ hs

namespace Stack.Owns

variable {s : Stack} {hs : List Handle} {p : Plant} {h : Handle} {v : ChannelAttr}

theorem stopPumps (ho : s.Owns hs) (p : Plant) : (s.stopPumps p).2.1.Owns hs where
  returns r hr := ho.returns r ((request_mem_stopEach p s.steps r).mp hr)
  destroys h := (request_mem_stopEach p s.steps _).trans (ho.destroys h)

theorem keeps (ho : s.Owns hs) (hh : h ∉ hs) (r : Request) (hr : .request r ∈ s.steps) :
    r.Keeps h :=
  Request.keeps_of_givesBack (ho.returns r hr) fun heq => hh ((ho.destroys h).mp (heq ▸ hr))

/-- Undoing a stack leaves the attributes of the channels that it does not own. -/
theorem attrOf_unwind (ho : s.Owns hs) (hh : h ∉ hs) (hn : p.server.Numbered)
    (hv : p.server.attrOf h = some v) : (s.unwind p).2.server.attrOf h = some v :=
  (s.unwind_asks p).attrOf (ho.keeps hh) hn hv

end Stack.Owns

namespace Site

variable {site site' : Site} {h : Handle} {v : ChannelAttr}

theorem Step.steps (hs : Step site site') :
    Plant.Steps (Change.Within Request.Constructs fun _ => True) site.plant site'.plant := by
  cases hs with
  | asked pair ho =>
      have ha := ask_constructs site.plant pair
      rwa [ho] at ha
  | refused pair ho =>
      have ha := ask_constructs site.plant pair
      rwa [ho] at ha
  | started pump =>
      exact .cons (.start pump) trivial (settle_steps _ _).quiet.within

theorem Climbs.steps (hs : site.Climbs site') :
    Plant.Steps (Change.Within Request.Constructs fun _ => True) site.plant site'.plant := by
  induction hs with
  | refl => exact .refl _
  | tail _ step ih => exact ih.trans step.steps

theorem Climbs.attrOf (hs : site.Climbs site') (hn : site.plant.server.Numbered)
    (hv : site.plant.server.attrOf h = some v) : site'.plant.server.attrOf h = some v := by
  refine hs.steps.attrOf (fun r hr => ?_) hn hv
  obtain ⟨inverse, pair⟩ := hr
  cases pair <;> trivial

theorem Step.returns (hs : Step site site')
    (hr : ∀ r, .request r ∈ site.stack.steps → r.operation.givesBack) :
    ∀ r, .request r ∈ site'.stack.steps → r.operation.givesBack := by
  intro r hm
  cases hs with
  | @asked _ _ h _ pair =>
      cases List.mem_cons.mp hm with
      | inl heq =>
          cases heq
          exact pair.givesBack h
      | inr hm => exact hr r hm
  | refused => exact hr r hm
  | started => exact hr r (by simpa [Stack.push] using hm)

/-- What is on the stack leaves the channel `h` with its attributes. -/
structure Spares (site : Site) (h : Handle) (v : ChannelAttr) : Prop where
  numbered : site.plant.server.Numbered
  attr : site.plant.server.attrOf h = some v
  keeps : ∀ r, .request r ∈ site.stack.steps → r.Keeps h

/-- A new channel is not an older one. -/
theorem Spares.step (hs : Step site site') (hi : site.Spares h v) : site'.Spares h v := by
  have hn := hs.steps.numbered hi.numbered
  have hv := Climbs.attrOf (.single hs) hi.numbered hi.attr
  cases hs with
  | @asked r inverse k q pair ho =>
      refine ⟨hn, hv, fun r' hr' => ?_⟩
      cases List.mem_cons.mp hr' with
      | inr hr' => exact hi.keeps r' hr'
      | inl heq =>
          cases heq
          cases pair with
          | create kind attr =>
              have ht := (takeTurn_steps site.plant).quiet
              have hfresh := (ht.numbered hi.numbered).fresh kind
              obtain ⟨rfl, _⟩ := Server.permit_create (ask_ok ho).1
              intro heq
              exact Circuit.not_live_iff.mpr hfresh
                (heq ▸ Server.live_of_attrOf (ht.attrOf_quiet hi.numbered hi.attr))
          | enable | bind | receive => trivial
  | refused => exact ⟨hn, hv, hi.keeps⟩
  | started pump =>
      refine ⟨hn, hv, fun r hr => hi.keeps r ?_⟩
      simpa [Stack.push] using hr

end Site

/-- A construction that fails leaves the older channels as they were. -/
theorem Construction.Climbs.attrOf_of_error {α : Type} {m : Construction α} (hm : Climbs m)
    {p q : Plant} {e : PipelineError} (ho : p.construct m = (.error e, q)) {h : Handle}
    {v : ChannelAttr} (hn : p.server.Numbered) (hv : p.server.attrOf h = some v) :
    q.server.attrOf h = some v := by
  have hc := hm.construct p
  rw [ho] at hc
  obtain ⟨site, hclimbs, rfl⟩ := hc
  have hbare : Site.Spares { plant := p } h v := ⟨hn, hv, fun _ hr => by cases hr⟩
  have hs := hclimbs.keeps (fun _ _ => Site.Spares.step) hbare
  exact (site.stack.unwind_asks site.plant).attrOf hs.keeps hs.numbered hs.attr

/-- Between the two sites the channels `new` were added. -/
structure Site.Furnished (site site' : Site) (new : List (Handle × ChannelAttr)) : Prop where
  climbs : site.Climbs site'
  fresh : ∀ h ∈ new.map (·.1), site.plant.server.attrOf h = none
  nodup : (new.map (·.1)).Nodup
  attrs : ∀ h v, (h, v) ∈ new → site'.plant.server.attrOf h = some v
  destroys : ∀ h, .request (.destroy h) ∈ site'.stack.steps ↔
    h ∈ new.map (·.1) ∨ .request (.destroy h) ∈ site.stack.steps

namespace Site.Furnished

variable {site site' site'' : Site} {new new' : List (Handle × ChannelAttr)}

theorem refl (site : Site) : Furnished site site [] where
  climbs := .refl
  fresh _ hk := by cases hk
  nodup := .nil
  attrs _ _ hm := by cases hm
  destroys _ := by simp

/-- One step that leaves as many channels to be destroyed adds none. -/
theorem of_step (hs : Step site site')
    (hd : ∀ h, .request (.destroy h) ∈ site'.stack.steps ↔
      .request (.destroy h) ∈ site.stack.steps) : Furnished site site' [] where
  climbs := .single hs
  fresh _ hk := by cases hk
  nodup := .nil
  attrs _ _ hm := by cases hm
  destroys h := by simp [hd h]

theorem trans (hn : site.plant.server.Numbered) (h : Furnished site site' new)
    (h' : Furnished site' site'' new') : Furnished site site'' (new ++ new') := by
  have hn' := h.climbs.steps.numbered hn
  have hattr : ∀ k ∈ new.map (·.1), site'.plant.server.attrOf k ≠ none := by
    intro k hk
    obtain ⟨⟨k, v⟩, hm, rfl⟩ := List.mem_map.mp hk
    simp [h.attrs k v hm]
  refine ⟨h.climbs.trans h'.climbs, fun k hk => ?_, ?_, fun k v hm => ?_, fun k => ?_⟩
  · rw [List.map_append, List.mem_append] at hk
    cases hk with
    | inl hk => exact h.fresh k hk
    | inr hk =>
        cases hv : site.plant.server.attrOf k with
        | none => rfl
        | some v =>
            have hold := h.climbs.attrOf hn hv
            rw [h'.fresh k hk] at hold
            cases hold
  · rw [List.map_append, List.nodup_append]
    refine ⟨h.nodup, h'.nodup, ?_⟩
    intro k hk k' hk' heq
    subst heq
    exact hattr k hk (h'.fresh k hk')
  · cases List.mem_append.mp hm with
    | inl hm => exact h'.climbs.attrOf hn' (h.attrs k v hm)
    | inr hm => exact h'.attrs k v hm
  · rw [h'.destroys, h.destroys, List.map_append, List.mem_append]
    tauto

end Site.Furnished

/-- If the steps succeed, they added the channels of a list that `post` allows. -/
def Construction.Furnishes {α : Type} (m : Construction α)
    (post : α → List (Handle × ChannelAttr) → Prop) : Prop :=
  ∀ site : Site, site.plant.server.Numbered → ∀ a site', m site = .ok a site' →
    ∃ new, post a new ∧ site.Furnished site' new

namespace Construction

variable {α β : Type}

namespace Furnishes

theorem pure {a : α} {post : α → List (Handle × ChannelAttr) → Prop} (h : post a []) :
    Furnishes (Pure.pure a) post := by
  intro site _ _ _ heq
  cases heq
  exact ⟨[], h, .refl site⟩

theorem bind {m : Construction α} {f : α → Construction β}
    {mid : α → List (Handle × ChannelAttr) → Prop}
    {post : β → List (Handle × ChannelAttr) → Prop} (hm : Furnishes m mid)
    (hf : ∀ a new, mid a new → Furnishes (f a) fun b new' => post b (new ++ new')) :
    Furnishes (m >>= f) post := by
  intro site hn b site'' ho
  obtain ⟨a, site', ho, ho'⟩ := bind_eq_ok ho
  obtain ⟨new, hmid, hs⟩ := hm site hn a site' ho
  obtain ⟨new', hpost, hs'⟩ := hf a new hmid site' (hs.climbs.steps.numbered hn) b site'' ho'
  exact ⟨new ++ new', hpost, hs.trans hn hs'⟩

theorem mono {m : Construction α} {post post' : α → List (Handle × ChannelAttr) → Prop}
    (hm : Furnishes m post)
    (hpost : ∀ a new, (new.map (·.1)).Nodup → post a new → post' a new) :
    Furnishes m post' := by
  intro site hn a site' ho
  obtain ⟨new, hp, hs⟩ := hm site hn a site' ho
  exact ⟨new, hpost a new hs.nodup hp, hs⟩

theorem optional {part : Option α} {steps : α → Construction β}
    {post : Option β → List (Handle × ChannelAttr) → Prop} (hnone : part = none → post none [])
    (hsome : ∀ a, part = some a → Furnishes (steps a) fun b => post (some b)) :
    Furnishes (Build.optional part steps) post := by
  cases part with
  | none => exact pure (hnone rfl)
  | some a =>
      refine bind (hsome a rfl) fun b new hb => pure ?_
      simpa using hb

end Furnishes

/-- Steps that add no channel. -/
abbrev Plain (m : Construction α) : Prop := Furnishes m fun _ new => new = []

/-- Steps without new channels may be left out of account. -/
theorem Furnishes.after {m : Construction α} {f : α → Construction β}
    {post : β → List (Handle × ChannelAttr) → Prop} (hm : Plain m)
    (hf : ∀ a, Furnishes (f a) post) : Furnishes (m >>= f) post := by
  refine .bind hm ?_
  intro a _ heq
  subst heq
  exact hf a

theorem plain_ask {r : Request} {inverse : Handle → Request} (pair : r.HasInverse inverse)
    (hd : ∀ k h, inverse k ≠ .destroy h) : Plain (ask r inverse) := by
  intro site _ h site' ho
  obtain ⟨hask, hstack⟩ := ask_eq_ok ho
  obtain ⟨stack, q⟩ := site'
  cases hstack
  refine ⟨[], rfl, .of_step (.asked pair hask) fun k => ?_⟩
  simp [(hd h k).symm]

theorem plain_done {r : Request} {inverse : Handle → Request} (pair : r.HasInverse inverse)
    (hd : ∀ k h, inverse k ≠ .destroy h) :
    Plain (do let _ ← ask r inverse : Construction Unit) :=
  .after (plain_ask pair hd) fun _ => .pure rfl

theorem plain_enable (h : Handle) : Plain (enable h) := plain_done (.enable h) nofun

theorem plain_bind (source target : Handle) : Plain (bind source target) :=
  plain_done (.bind ⟨source, target⟩) nofun

theorem plain_startReceiving (h : Handle) (quota : Quota) : Plain (startReceiving h quota) :=
  plain_done (.receive h quota) nofun

theorem plain_start (pump : Pump) : Plain (start pump) := by
  intro site _ id site' ho
  cases ho
  refine ⟨[], rfl, .of_step (.started pump) fun k => ?_⟩
  simp [Stack.push]

theorem furnishes_create (kind : ChannelKind) (attr : ChannelAttr) :
    Furnishes (create kind attr) fun h new => h.kind = kind ∧ new = [(h, attr)] := by
  intro site hn h site' ho
  obtain ⟨hask, hstack⟩ := ask_eq_ok ho
  obtain ⟨stack, q⟩ := site'
  cases hstack
  have ht := (takeTurn_steps site.plant).quiet
  obtain ⟨rfl, _⟩ := Server.permit_create (ask_ok hask).1
  refine ⟨_, ⟨rfl, rfl⟩, .single (.asked (.create kind attr) hask), fun k hk => ?_,
    List.nodup_singleton _, fun k v hm => ?_, fun k => ?_⟩
  · cases hv : site.plant.server.attrOf k with
    | none => rfl
    | some v =>
        have hl := Server.live_of_attrOf (ht.attrOf_quiet hn hv)
        rw [List.mem_singleton.mp hk] at hl
        exact absurd hl (Circuit.not_live_iff.mpr ((ht.numbered hn).fresh kind))
  · cases List.mem_singleton.mp hm
    exact Server.attrOf_create (perform_of_ask hask)
  · simp

theorem furnishes_createEnabled (kind : ChannelKind) (attr : ChannelAttr) :
    Furnishes (createEnabled kind attr) fun h new => h.kind = kind ∧ new = [(h, attr)] := by
  refine .bind (furnishes_create kind attr) ?_
  intro h _ hpost
  obtain ⟨hk, rfl⟩ := hpost
  exact .after (plain_enable h) fun _ => .pure ⟨hk, rfl⟩

end Construction

/-- A construction that succeeds leaves the older channels as they were, its own ones with their
attributes, and a stack that owns these. -/
theorem Construction.Furnishes.construct {α : Type} {m : Construction α}
    {post : α → List (Handle × ChannelAttr) → Prop} (hm : Furnishes m post) {p q : Plant} {a : α}
    {s : Stack} (hn : p.server.Numbered) (ho : p.construct m = (.ok (a, s), q)) :
    ∃ new, post a new ∧ s.Owns (new.map (·.1)) ∧
      (∀ h v, (h, v) ∈ new → q.server.attrOf h = some v) ∧
      ∀ h v, p.server.attrOf h = some v → q.server.attrOf h = some v := by
  simp only [Plant.construct] at ho
  split at ho <;> cases ho
  rename_i site hsite
  obtain ⟨new, hpost, hs⟩ := hm { plant := p } hn _ _ hsite
  refine ⟨new, hpost, ⟨?_, fun h => ?_⟩, hs.attrs, fun h v => hs.climbs.attrOf hn⟩
  · exact hs.climbs.keeps (I := fun site => ∀ r, .request r ∈ site.stack.steps →
      r.operation.givesBack) (fun _ _ => Site.Step.returns) fun _ hr => by cases hr
  · rw [hs.destroys]
    simp

end CameraPipeline
