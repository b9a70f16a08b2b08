import Mathlib.Logic.Relation
import CameraPipeline.Orchestrator.Build
import CameraPipeline.Proofs.Server.Permission

/-!
Constructions step by step, without any assumption on what fails. A step asks the server and keeps
the inverse of what it did, is refused, or starts a pump. What every step keeps holds wherever a
construction ends, also where it breaks off.
-/

namespace CameraPipeline

/-- A request of a construction and what undoes it. -/
inductive Request.HasInverse : Request → (Handle → Request) → Prop
  | create (kind : ChannelKind) (attr : ChannelAttr) : HasInverse (.create kind attr) .destroy
  | enable (h : Handle) : HasInverse (.enable h) .disable
  | bind (l : Link) : HasInverse (.bind l) fun _ => .unbind l
  | receive (h : Handle) (quota : Quota) : HasInverse (.startReceiving h quota) .stopReceiving

theorem Request.HasInverse.givesBack {r : Request} {inverse : Handle → Request}
    (pair : r.HasInverse inverse) (h : Handle) : (inverse h).operation.givesBack := by
  cases pair <;> rfl

namespace Site

inductive Step (site : Site) : Site → Prop
  | asked {r : Request} {inverse : Handle → Request} {h : Handle} {q : Plant}
      (pair : r.HasInverse inverse) (ho : site.plant.ask r = (.ok h, q)) :
      Step site ⟨site.stack.push (.request (inverse h)), q⟩
  | refused {r : Request} {inverse : Handle → Request} {fault : Fault} {q : Plant}
      (pair : r.HasInverse inverse) (ho : site.plant.ask r = (.error fault, q)) :
      Step site ⟨site.stack, q⟩
  | started (pump : Pump) :
      Step site ⟨site.stack.push (.pump (site.plant.addPump pump).1),
        (site.plant.addPump pump).2.settle (site.plant.addPump pump).1⟩

abbrev Climbs : Site → Site → Prop := Relation.ReflTransGen Step

theorem Climbs.keeps {I : Site → Prop} {site site' : Site}
    (hI : ∀ site site', Step site site' → I site → I site') (h : site.Climbs site')
    (hs : I site) : I site' := by
  induction h with
  | refl => exact hs
  | tail _ step ih => exact hI _ _ step ih

end Site

namespace Construction

open Relation

variable {α β : Type}

/-- The site that steps leave, whatever they answer. -/
def reached : EStateM.Result PipelineError Site α → Site
  | .ok _ site => site
  | .error _ site => site

/-- From any site the steps lead on by elementary ones. -/
def Climbs (m : Construction α) : Prop := ∀ site : Site, Site.Climbs site (reached (m site))

namespace Climbs

theorem pure (a : α) : Climbs (Pure.pure a : Construction α) := fun _ => .refl

theorem bind {m : Construction α} {f : α → Construction β} (hm : Climbs m)
    (hf : ∀ a, Climbs (f a)) : Climbs (m >>= f) := by
  intro site
  have h := hm site
  simp only [Bind.bind, EStateM.bind]
  cases ho : m site with
  | ok a site' =>
      rw [ho] at h
      exact h.trans (hf a site')
  | error e site' =>
      rw [ho] at h
      exact h

theorem optional {part : Option α} {steps : α → Construction β} (h : ∀ a, Climbs (steps a)) :
    Climbs (Build.optional part steps) := by
  cases part with
  | none => exact pure none
  | some a => exact bind (h a) fun b => pure (some b)

end Climbs

theorem climbs_ask {r : Request} {inverse : Handle → Request} (pair : r.HasInverse inverse) :
    Climbs (ask r inverse) := by
  intro site
  simp only [ask]
  split
  · exact .single (.asked pair ‹_›)
  · exact .single (.refused pair ‹_›)

theorem climbs_done {r : Request} {inverse : Handle → Request} (pair : r.HasInverse inverse) :
    Climbs (do let _ ← ask r inverse : Construction Unit) :=
  .bind (climbs_ask pair) fun _ => .pure ()

theorem climbs_create (kind : ChannelKind) (attr : ChannelAttr) : Climbs (create kind attr) :=
  climbs_ask (.create kind attr)

theorem climbs_createEnabled (kind : ChannelKind) (attr : ChannelAttr) :
    Climbs (createEnabled kind attr) :=
  .bind (climbs_create kind attr) fun h => .bind (climbs_done (.enable h)) fun _ => .pure h

theorem climbs_bind (source target : Handle) : Climbs (bind source target) :=
  climbs_done (.bind ⟨source, target⟩)

theorem climbs_startReceiving (h : Handle) (quota : Quota) : Climbs (startReceiving h quota) :=
  climbs_done (.receive h quota)

theorem climbs_start (pump : Pump) : Climbs (start pump) := fun _ => .single (.started pump)

/-- The stages of the sessions begin with a channel that starts to receive. -/
def Receives (m : Construction α) : Prop :=
  ∃ h quota, ∃ f : Unit → Construction α,
    m = (startReceiving h quota >>= f) ∧ ∀ u, Climbs (f u)

theorem Receives.climbs {m : Construction α} (hm : Receives m) : Climbs m := by
  obtain ⟨h, quota, f, rfl, hf⟩ := hm
  exact .bind (climbs_startReceiving h quota) hf

end Construction

namespace Build

open Construction

variable (make : PumpMaker) (attr : PipelineAttr) (vi : Handle)

theorem climbs_display (attr : DisplayAttr) : Climbs (display vi attr) :=
  .bind (climbs_createEnabled _ _) fun _ => .bind (climbs_bind _ _) fun _ =>
    .bind (climbs_createEnabled _ _) fun _ => .bind (climbs_bind _ _) fun _ => .pure _

theorem climbs_subStream (source : Handle) (attr : VencAttr) :
    Climbs (subStream make source attr) :=
  .bind (climbs_createEnabled _ _) fun _ => .bind (climbs_startReceiving _ _) fun _ =>
    .bind (climbs_start _) fun _ => climbs_bind _ _

theorem climbs_base : Climbs (base make attr) := by
  refine .bind (climbs_createEnabled _ _) fun vi => ?_
  refine .bind (.optional fun a => climbs_display vi a) fun vpss => ?_
  refine .bind (.optional fun a => climbs_createEnabled _ _) fun main => ?_
  refine .bind (.optional fun a => climbs_subStream make _ a) fun _ => ?_
  refine .bind (.optional fun a => climbs_createEnabled _ _) fun jpeg => ?_
  dsimp only
  split
  · exact .bind (climbs_start _) fun _ => .pure _
  · exact .pure _

theorem climbs_linkRecord (venc : Handle) (gdc : Option Handle) :
    Climbs (linkRecord vi venc gdc) := by
  cases gdc with
  | none => exact climbs_bind vi venc
  | some gdc => exact .bind (climbs_bind vi gdc) fun _ => climbs_bind gdc venc

theorem receives_record (venc : Handle) : Receives (record make attr vi venc) := by
  refine ⟨venc, .unlimited, _, rfl, fun _ => ?_⟩
  refine .bind (climbs_start _) fun pump => ?_
  refine .bind (.optional fun a => climbs_createEnabled _ _) fun gdc => ?_
  refine .bind (.optional fun a => climbs_create _ _) fun _ => ?_
  exact .bind (climbs_linkRecord vi venc gdc) fun _ => .pure pump

theorem climbs_record (venc : Handle) : Climbs (record make attr vi venc) :=
  (receives_record make attr vi venc).climbs

theorem receives_photo (jpeg : Handle) (max : UInt32) : Receives (photo make vi jpeg max) :=
  ⟨jpeg, .count max, _, rfl, fun _ => .bind (climbs_start _) fun pump =>
    .bind (climbs_bind _ _) fun _ => .pure pump⟩

theorem climbs_photo (jpeg : Handle) (max : UInt32) : Climbs (photo make vi jpeg max) :=
  (receives_photo make vi jpeg max).climbs

end Build

namespace Plant

variable {p q : Plant} {make : PumpMaker} {attr : PipelineAttr} {vi h : Handle} {max : UInt32}
  {e : PipelineError}

theorem construct_of_openRecord {s : RecordSession}
    (ho : p.openRecord make attr vi h = (.ok s, q)) :
    p.construct (Build.record make attr vi h) = (.ok (s.pump, s.stack), q) := by
  simp only [openRecord] at ho
  split at ho <;> cases ho
  exact ‹_›

theorem construct_of_openRecord_error (ho : p.openRecord make attr vi h = (.error e, q)) :
    p.construct (Build.record make attr vi h) = (.error e, q) := by
  simp only [openRecord] at ho
  split at ho <;> cases ho
  exact ‹_›

theorem construct_of_openPhoto {s : PhotoSession}
    (ho : p.openPhoto make vi h max = (.ok s, q)) :
    p.construct (Build.photo make vi h max) = (.ok (s.pump, s.stack), q) := by
  simp only [openPhoto] at ho
  split at ho <;> cases ho
  exact ‹_›

theorem construct_of_openPhoto_error (ho : p.openPhoto make vi h max = (.error e, q)) :
    p.construct (Build.photo make vi h max) = (.error e, q) := by
  simp only [openPhoto] at ho
  split at ho <;> cases ho
  exact ‹_›

end Plant

/-- A construction ends where its steps lead, or undoes them. -/
theorem Construction.Climbs.construct {α : Type} {m : Construction α} (hm : Climbs m) (p : Plant) :
    match p.construct m with
    | (.ok (_, stack), q) => Site.Climbs { plant := p } ⟨stack, q⟩
    | (.error _, q) =>
      ∃ site : Site, Site.Climbs { plant := p } site ∧ q = (site.stack.unwind site.plant).2 := by
  have h := hm { plant := p }
  simp only [Plant.construct]
  cases ho : m { plant := p } with
  | ok a site =>
      rw [ho] at h
      exact h
  | error e site =>
      rw [ho] at h
      exact ⟨site, h, rfl⟩

end CameraPipeline
