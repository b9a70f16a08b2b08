import CameraPipeline.Proofs.Plant.Climb
import CameraPipeline.Proofs.Plant.Construct
import CameraPipeline.Proofs.Plant.Mindful

/-!
Stacks that tend to the pumps. Every running pump is among the steps of such a stack, and is
stopped before anything is undone, or it reads a channel from which the stack takes nothing.
Constructions lay stacks of this kind, so that undoing them minds the pumps.
-/

namespace CameraPipeline

open Plant

/-- The steps take nothing away from the channel. -/
def SparesChannel (steps : List Undo) (h : Handle) : Prop :=
  ∀ r, .request r ∈ steps → r.withdrawn? ≠ some h

namespace Stack

variable {p q : Plant} {s : Stack}

/-- Every running pump is on the stack, or the stack spares its channel. -/
def Tends (s : Stack) (p : Plant) : Prop :=
  ∀ id h, p.Reads id h → .pump id ∈ s.steps ∨ SparesChannel s.steps h

theorem Tends.of_reads (hs : s.Tends p) (hr : ∀ id h, q.Reads id h → p.Reads id h) : s.Tends q :=
  fun id h hid => hs id h (hr id h hid)

theorem Tends.stopPumps (hs : s.Tends p) (hh : p.Honest) :
    (s.stopPumps p).2.1.Tends (s.stopPumps p).2.2 := by
  intro id h hid
  refine (hs id h ((stopEach_steps p s.steps).reads hid)).imp (fun hm => ?_) fun hspared r hr => ?_
  · exact stopEach_running hh hm hid
  · exact hspared r ((request_mem_stopEach p s.steps r).mp hr)

theorem undoEach_mindful {steps : List Undo}
    (hr : ∀ id h, p.Reads id h → SparesChannel steps h) :
    Runs Mindful p (undoEach p steps).2 := by
  induction steps generalizing p with
  | nil => exact .refl p
  | cons step older ih =>
      have hrest {q : Plant} (hq : ∀ id h, q.Reads id h → p.Reads id h) :
          Runs Mindful q (undoEach q older).2 :=
        ih fun id h hid r hm => hr id h (hq id h hid) r (.tail _ hm)
      cases step with
      | pump id =>
          have hs := dropPump_steps p id
          exact hs.mindful.trans (hrest fun _ _ hid => hs.reads hid)
      | request r =>
          have hs := ask_steps p r
          have hask : Runs Mindful p (p.ask r).2 :=
            ask_mindful fun h hh id hid => hr id h hid r (.head _) hh
          simp only [undoEach]
          split <;> rename_i ho <;> rw [ho] at hs hask <;>
            exact hask.trans (hrest fun _ _ hid => hs.reads hid)

/-- A stack that tends to the pumps is unwound mindfully, as long as all its pumps drain. -/
theorem Tends.unwind (hs : s.Tends p) (hh : p.Honest) (hd : (s.unwind p).2.Drained) :
    Runs Mindful p (s.unwind p).2 := by
  have hundo := undoEach_steps (s.stopPumps p).2.2 (s.stopPumps p).2.1.steps
  obtain ⟨_, hgone⟩ : _ ∧ ∀ id, Undo.pump id ∉ (s.stopPumps p).2.1.steps :=
    stopEach_drained ((stopEach_steps p s.steps).drainsTo (hundo.drained hd))
  refine (stopEach_steps p s.steps).mindful.trans (undoEach_mindful fun id h hid => ?_)
  exact (hs.stopPumps hh id h hid).resolve_left (hgone id)

end Stack

/-- Every running pump is on the stack of the site or reads a channel that is kept, and the stack
takes nothing away from what is kept. -/
structure Site.Tended (kept : Handle → Prop) (site : Site) : Prop where
  readers : ∀ id h, site.plant.Reads id h → .pump id ∈ site.stack.steps ∨ kept h
  spared : ∀ h, kept h → SparesChannel site.stack.steps h

namespace Site.Tended

variable {kept : Handle → Prop} {s : Stack} {p q : Plant}

theorem tends (hs : Tended kept ⟨s, p⟩) : s.Tends p :=
  fun id h hid => (hs.readers id h hid).imp_right (hs.spared h)

theorem of_reads (hs : Tended kept ⟨s, p⟩) (hr : ∀ id h, q.Reads id h → p.Reads id h) :
    Tended kept ⟨s, q⟩ :=
  ⟨fun id h hid => hs.readers id h (hr id h hid), hs.spared⟩

theorem push_request (hs : Tended kept ⟨s, p⟩) {r : Request}
    (hr : ∀ h, r.withdrawn? = some h → ¬kept h) : Tended kept ⟨s.push (.request r), p⟩ where
  readers id h hid := (hs.readers id h hid).imp_left fun hm => .tail _ hm
  spared h hk r' hm := by
    cases List.mem_cons.mp hm with
    | inl heq =>
        cases heq
        exact fun hh => hr h hh hk
    | inr hm => exact hs.spared h hk r' hm

end Site.Tended

/-- The steps mind the pumps and leave a site that is tended, wherever they end; `post` holds of
what they answer. -/
def Construction.Minds {α : Type} (kept : Handle → Prop) (below : PumpId → Prop)
    (ground c : Circuit) (m : Construction α) (post : α → Prop) : Prop :=
  ∀ site : Site, site.At below ground c → site.Tended kept →
    Runs Mindful site.plant (reached (m site)).plant ∧ (reached (m site)).Tended kept ∧
      ∀ a site', m site = .ok a site' → post a

namespace Construction

variable {kept : Handle → Prop} {below : PumpId → Prop} {ground c : Circuit} {α β : Type}

namespace Minds

theorem pure {a : α} {post : α → Prop} (h : post a) :
    Minds kept below ground c (Pure.pure a) post := by
  intro site _ ht
  refine ⟨.refl _, ht, fun _ _ heq => ?_⟩
  cases heq
  exact h

theorem bind {m : Construction α} {f : α → Construction β} {mid : α → Circuit → Prop}
    {known : α → Prop} {post : β → Prop} (hb : Builds below ground c m mid)
    (hm : Minds kept below ground c m known)
    (hf : ∀ a c', mid a c' → known a → Minds kept below ground c' (f a) post) :
    Minds kept below ground c (m >>= f) post := by
  intro site hs ht
  have h := hb site hs
  have h' := hm site hs ht
  simp only [Bind.bind, EStateM.bind]
  cases ho : m site with
  | ok a site' =>
      rw [ho] at h h'
      obtain ⟨c', hs', hmid⟩ := h
      obtain ⟨hrun, ht', hknown⟩ := h'
      obtain ⟨hrun', hrest⟩ := hf a c' hmid (hknown a site' rfl) site' hs' ht'
      exact ⟨hrun.trans hrun', hrest⟩
  | error e site' =>
      rw [ho] at h'
      exact ⟨h'.1, h'.2.1, by simp⟩

theorem map {m : Construction α} {f : α → β} {post : α → Prop} {post' : β → Prop}
    (hm : Minds kept below ground c m post) (hf : ∀ a, post a → post' (f a)) :
    Minds kept below ground c (m >>= fun a => Pure.pure (f a)) post' := by
  intro site hs ht
  have h := hm site hs ht
  simp only [Bind.bind, EStateM.bind]
  cases ho : m site with
  | ok a site' =>
      rw [ho] at h
      obtain ⟨hrun, ht', hpost⟩ := h
      refine ⟨hrun, ht', fun _ _ heq => ?_⟩
      cases heq
      exact hf a (hpost a site' rfl)
  | error e site' =>
      rw [ho] at h
      exact ⟨h.1, h.2.1, by simp⟩

theorem optional {part : Option α} {steps : α → Construction β} {mid : β → Prop}
    {post : Option β → Prop} (hsome : ∀ a, Minds kept below ground c (steps a) mid)
    (hpost : ∀ b, mid b → post (some b)) (hnone : post none) :
    Minds kept below ground c (Build.optional part steps) post := by
  cases part with
  | none => exact pure hnone
  | some a => exact map (hsome a) hpost

/-- A part that may be absent, and of whose answer nothing is asked. -/
theorem maybe {part : Option α} {steps : α → Construction β} {mid : β → Prop}
    (hsome : ∀ a, Minds kept below ground c (steps a) mid) :
    Minds kept below ground c (Build.optional part steps) fun _ => True :=
  optional hsome (fun _ _ => trivial) trivial

end Minds

theorem minds_ask {r : Request} {inverse : Handle → Request} {post : Handle → Prop}
    (hr : r.withdrawn? = none)
    (hpost : ∀ (s : Server) h, s.circuit = c → s.Numbered → (∀ k, ground.Live k → c.Live k) →
      s.permit r = .ok h → post h ∧ ∀ k, (inverse h).withdrawn? = some k → ¬kept k) :
    Minds kept below ground c (ask r inverse) post := by
  intro site hs ht
  have hsteps := ask_steps site.plant r
  have hrun : Runs Mindful site.plant (site.plant.ask r).2 :=
    ask_mindful (by simp [hr])
  have ht' : Site.Tended kept ⟨site.stack, (site.plant.ask r).2⟩ :=
    ht.of_reads fun _ _ hid => hsteps.reads hid
  simp only [ask]
  cases ho : site.plant.ask r with
  | mk answer q =>
      rw [ho] at hrun ht'
      cases answer with
      | error fault => exact ⟨hrun, ht', by simp⟩
      | ok h =>
          have hquiet := (takeTurn_steps site.plant).quiet
          obtain ⟨hh, hkept⟩ := hpost site.plant.takeTurn.server h
            (hquiet.circuit.trans hs.circuit) (hquiet.numbered hs.sound.numbered)
            (fun _ hl => hs.laid.live hl) (ask_ok ho).1
          refine ⟨hrun, ht'.push_request hkept, fun _ _ heq => ?_⟩
          cases heq
          exact hh

theorem minds_done {r : Request} {inverse : Handle → Request} (hr : r.withdrawn? = none)
    (hkept : ∀ (s : Server) h k, s.permit r = .ok h → (inverse h).withdrawn? = some k → ¬kept k) :
    Minds kept below ground c (do let _ ← ask r inverse) fun _ => True := by
  have hask : Minds kept below ground c (ask r inverse) fun _ => True :=
    minds_ask hr fun s h _ _ _ hp => ⟨trivial, fun k => hkept s h k hp⟩
  exact hask.map fun _ _ => trivial

theorem minds_create (hk : ∀ h, kept h → ground.Live h) (kind : ChannelKind)
    (attr : ChannelAttr) : Minds kept below ground c (create kind attr) fun h => ¬kept h := by
  refine minds_ask rfl fun s h hs hn hl hp => ?_
  obtain ⟨rfl, _⟩ := Server.permit_create hp
  have hnew : c.node? ⟨kind, s.nextId kind⟩ = none := hs ▸ hn.fresh kind
  have hfree : ¬kept ⟨kind, s.nextId kind⟩ := fun hkept =>
    Circuit.not_live_iff.mpr hnew (hl _ (hk _ hkept))
  refine ⟨hfree, fun k heq => ?_⟩
  cases heq
  exact hfree

theorem minds_enable {h : Handle} (hh : ¬kept h) :
    Minds kept below ground c (enable h) fun _ => True := by
  refine minds_done rfl fun s h' k hp heq => ?_
  obtain rfl := Server.eq_of_permit hp rfl
  cases heq
  exact hh

theorem minds_createEnabled (hk : ∀ h, kept h → ground.Live h) (kind : ChannelKind)
    (attr : ChannelAttr) :
    Minds kept below ground c (createEnabled kind attr) fun h => ¬kept h := by
  refine .bind (builds_create kind attr) (minds_create hk kind attr) fun h c' _ hh => ?_
  exact (minds_enable hh).map fun _ _ => hh

theorem minds_bind {source target : Handle} (ht : ¬kept target) :
    Minds kept below ground c (bind source target) fun _ => True := by
  refine minds_done rfl fun _ _ k _ heq => ?_
  cases heq
  exact ht

theorem minds_startReceiving {h : Handle} (hh : ¬kept h) (quota : Quota) :
    Minds kept below ground c (startReceiving h quota) fun _ => True := by
  refine minds_done rfl fun s h' k hp heq => ?_
  obtain rfl := Server.eq_of_permit hp rfl
  cases heq
  exact hh

theorem minds_start {pump : Pump} (hh : pump.Honest) (hf : c.Feeds pump.source) :
    Minds kept below ground c (start pump) fun _ => True := by
  intro site hs ht
  have hsettle := (settle_steps (site.plant.addPump pump).2 (site.plant.addPump pump).1).quiet
  refine ⟨.change (.start pump) ⟨hh, hs.circuit ▸ hf⟩ hsettle.mindful, ⟨?_, ?_⟩,
    fun _ _ _ => trivial⟩
  · intro id h hid
    obtain ⟨pump', hp, he, hsrc⟩ := hsettle.reads hid
    rw [pump?_addPump] at hp
    split at hp
    · exact .inl (‹id = _› ▸ .head _)
    · exact (ht.readers id h ⟨pump', hp, he, hsrc⟩).imp_left fun hm => .tail _ hm
  · intro h hk r hm
    exact ht.spared h hk r (Undo.mem_of_request_mem hm)

/-- On a tended ground a construction minds the pumps, also where it fails and is undone. -/
theorem Minds.construct {m : Construction α} {post : α → Prop}
    (hm : Minds kept below ground ground m post) {p : Plant}
    (hp : Site.At below ground ground ⟨{}, p⟩) (hw : p.Wired)
    (hr : ∀ id h, p.Reads id h → kept h) :
    match p.construct m with
    | (.ok (_, stack), q) => Runs Mindful p q ∧ stack.Tends q
    | (.error _, q) => q.Drained → Runs Mindful p q := by
  have h := hm { plant := p } hp ⟨fun id h hid => .inr (hr id h hid), by simp [SparesChannel]⟩
  simp only [Plant.construct]
  cases ho : m { plant := p } with
  | ok a site =>
      rw [ho] at h
      exact ⟨h.1, h.2.1.tends⟩
  | error e site =>
      rw [ho] at h
      exact fun hd => h.1.trans (h.2.1.tends.unwind (h.1.wired hp.sound hw).1.honest hd)

end Construction
end CameraPipeline
