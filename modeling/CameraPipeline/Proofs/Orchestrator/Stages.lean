import CameraPipeline.Proofs.Orchestrator.Layout
import CameraPipeline.Proofs.Plant.Construct

/-!
The stages of a pipeline lead to the circuits of its layout.
-/

namespace CameraPipeline

/-- A maker of pumps that begin at the start and read the channel they are made for. -/
structure FairMaker (make : PumpMaker) : Prop where
  honest : ∀ stream h limit, (make stream h limit).Honest
  source : ∀ stream h limit, (make stream h limit).source = h

namespace Build

open Construction

variable {below : PumpId → Prop} {ground c : Circuit} {make : PumpMaker}

theorem builds_display (vi : Handle) (attr : DisplayAttr) :
    Builds below ground c (display vi attr) fun vpss c' =>
      ∃ vo, vpss.kind = .vpss ∧ vo.kind = .vo ∧ c' = c.addDisplay vi (some (vpss, vo)) := by
  refine .bind (builds_createEnabled .vpss _) ?_
  intro vpss _ hpost
  obtain ⟨hvpss, -, rfl⟩ := hpost
  refine .bind (builds_bind vi vpss) ?_
  intro _ _ heq
  subst heq
  refine .bind (builds_createEnabled .vo _) ?_
  intro vo _ hpost
  obtain ⟨hvo, -, rfl⟩ := hpost
  refine .bind (builds_bind vpss vo) ?_
  intro _ _ heq
  subst heq
  exact .pure ⟨vo, hvpss, hvo, rfl⟩

theorem builds_subStream (hmake : FairMaker make) (source : Handle) (attr : VencAttr) :
    Builds below ground c (subStream make source attr) fun _ c' =>
      ∃ sub, sub.kind = .venc ∧ c.node? sub = none ∧ c' = c.addSub source (some sub) := by
  refine .bind (builds_createEnabled .venc _) ?_
  intro sub _ hpost
  obtain ⟨hsub, hnew, rfl⟩ := hpost
  refine .bind (builds_startReceiving none true .unlimited
    (by simp [ChannelAttr.overlaid?])) ?_
  intro _ _ heq
  subst heq
  refine .bind (builds_start (hmake.honest _ _ _) ?_) ?_
  · rw [hmake.source]
    exact Circuit.live_set.mpr (.inl rfl)
  intro _ _ heq
  subst heq
  refine (builds_bind source sub).mono ?_
  intro _ _ heq
  subst heq
  exact ⟨sub, hsub, hnew, rfl⟩

theorem builds_channel {α : Type} (kind : ChannelKind) (part : Option α) (attr : α → ChannelAttr)
    (ho : ∀ a, (attr a).overlaid? = none) :
    Builds below ground c (optional part fun a => createEnabled kind (attr a)) fun h c' =>
      Layout.Filled kind h part.isSome ∧ (∀ k, h = some k → c.node? k = none) ∧
        c' = c.addSome h := by
  refine .optional (fun hp => ⟨hp ▸ .none _, nofun, rfl⟩) fun a hp => ?_
  refine (builds_createEnabled kind (attr a)).mono ?_
  intro h _ hpost
  obtain ⟨hk, hnew, rfl⟩ := hpost
  refine ⟨hp ▸ .some hk, ?_, ?_⟩
  · intro _ heq
    cases heq
    exact hnew
  · rw [ho]
    rfl

theorem builds_input (attr : PipelineAttr) {vi : Handle} :
    Builds below ground c (optional attr.display (display vi)) fun vpss c' =>
      ∃ d : Option (Handle × Handle), Layout.Filled .vpss (d.map (·.1)) attr.display.isSome ∧
        Layout.Filled .vo (d.map (·.2)) attr.display.isSome ∧ vpss = d.map (·.1) ∧
        c' = c.addDisplay vi d := by
  refine .optional (fun hp => ⟨none, hp ▸ .none _, hp ▸ .none _, rfl, rfl⟩) fun a hp => ?_
  refine (builds_display vi a).mono ?_
  intro vpss _ hpost
  obtain ⟨vo, hvpss, hvo, rfl⟩ := hpost
  exact ⟨some (vpss, vo), hp ▸ .some hvpss, hp ▸ .some hvo, rfl, rfl⟩

theorem builds_network (hmake : FairMaker make) (source : Handle) (attr : PipelineAttr) :
    Builds below ground c (optional attr.sub (subStream make source)) fun _ c' =>
      ∃ sub, Layout.Filled .venc sub attr.sub.isSome ∧ (∀ k, sub = some k → c.node? k = none) ∧
        c' = c.addSub source sub := by
  refine .optional (fun hp => ⟨none, hp ▸ .none _, nofun, rfl⟩) fun a hp => ?_
  refine (builds_subStream hmake source a).mono ?_
  intro _ _ hpost
  obtain ⟨sub, hsub, hnew, rfl⟩ := hpost
  refine ⟨some sub, hp ▸ .some hsub, ?_, rfl⟩
  intro _ heq
  cases heq
  exact hnew

theorem builds_base (hmake : FairMaker make) (attr : PipelineAttr) :
    Builds below .empty .empty (base make attr) fun handles c =>
      ∃ l : Layout, l.Fits attr false ∧ handles = l.handles ∧ c = l.base := by
  refine .bind (builds_createEnabled .vi _) ?_
  intro vi _ hpost
  obtain ⟨hvi, -, rfl⟩ := hpost
  refine .bind (builds_input attr) ?_
  intro _ _ hpost
  obtain ⟨display, hvpss, hvo, rfl, rfl⟩ := hpost
  refine .bind (builds_channel .venc attr.main .venc fun _ => rfl) ?_
  intro main _ hpost
  obtain ⟨hmain, -, rfl⟩ := hpost
  refine .bind (builds_network hmake _ attr) ?_
  intro _ _ hpost
  obtain ⟨sub, hsub, hnew, rfl⟩ := hpost
  refine .bind (builds_channel .jpeg attr.photo .jpeg fun _ => rfl) ?_
  intro jpeg _ hpost
  obtain ⟨hjpeg, -, rfl⟩ := hpost
  have hf : Layout.Fits ⟨vi, display, main, sub, jpeg, none, none⟩ attr false := by
    refine ⟨hvi, hvpss, hvo, hmain, hsub, ?_, hjpeg, .none _, .none _⟩
    intro h heq hs
    subst heq
    have := hnew h hs
    simp [Circuit.addSome, Circuit.add] at this
  have hdone : Builds below .empty (Layout.base ⟨vi, display, main, sub, jpeg, none, none⟩)
      (pure { vi, main, jpeg }) fun handles c =>
        ∃ l : Layout, l.Fits attr false ∧ handles = l.handles ∧ c = l.base :=
    .pure ⟨_, hf, rfl, rfl⟩
  dsimp only
  split
  · refine .bind (builds_start (hmake.honest _ _ _) ?_) ?_
    · rw [hmake.source]
      exact hf.live_base (.head _)
    intro _ _ heq
    subst heq
    exact hdone
  · exact hdone

theorem builds_overlay (main : Handle) (attr : PipelineAttr) :
    Builds below ground c
      (optional attr.osd fun geometry => create .rgn (.rgn ⟨main, geometry⟩)) fun _ c' =>
        ∃ rgn, Layout.Filled .rgn rgn attr.osd.isSome ∧ c' = c.overlay main rgn := by
  refine .optional (fun hp => ⟨none, hp ▸ .none _, rfl⟩) fun geometry hp => ?_
  refine (builds_create .rgn _).mono ?_
  intro rgn _ hpost
  obtain ⟨hrgn, -, rfl⟩ := hpost
  exact ⟨some rgn, hp ▸ .some hrgn, rfl⟩

theorem builds_linkRecord (l : Layout) (main : Handle) :
    Builds below ground c (linkRecord l.vi main l.gdc) fun _ c' => c' = l.linkRecord c main := by
  obtain ⟨vi, display, main', sub, jpeg, gdc, rgn⟩ := l
  cases gdc with
  | none => exact builds_bind vi main
  | some gdc =>
      refine .bind (builds_bind vi gdc) ?_
      intro _ _ heq
      subst heq
      exact builds_bind gdc main

theorem builds_record (hmake : FairMaker make) {attr : PipelineAttr} {l : Layout}
    (hf : l.Fits attr false) {main : Handle} (hm : l.main = some main) :
    Builds below ground l.base (record make attr l.vi main) fun _ c =>
      ∃ gdc rgn, { l with gdc, rgn }.Fits attr true ∧ c = { l with gdc, rgn }.recorded main := by
  refine .bind (builds_startReceiving _ _ .unlimited (hf.node?_main hm)) ?_
  intro _ _ heq
  subst heq
  refine .bind (builds_start (hmake.honest _ _ _) ?_) ?_
  · rw [hmake.source]
    exact Circuit.live_set.mpr (.inl rfl)
  intro pump _ heq
  subst heq
  refine .bind (builds_channel .gdc attr.gdc .gdc fun _ => rfl) ?_
  intro gdc _ hpost
  obtain ⟨hgdc, -, rfl⟩ := hpost
  refine .bind (builds_overlay main attr) ?_
  intro _ _ hpost
  obtain ⟨rgn, hrgn, rfl⟩ := hpost
  have hf' : { l with gdc, rgn }.Fits attr true :=
    ⟨hf.vi, hf.vpss, hf.vo, hf.main, hf.sub, hf.encoders, hf.jpeg, hgdc, hrgn⟩
  refine .bind (builds_linkRecord { l with gdc, rgn } main) ?_
  intro _ _ heq
  subst heq
  exact .pure ⟨gdc, rgn, hf', rfl⟩

theorem builds_photo (hmake : FairMaker make) {attr : PipelineAttr} {l : Layout}
    (hf : l.Fits attr false) {jpeg : Handle} (hj : l.jpeg = some jpeg) (max : UInt32) :
    Builds below ground l.base (photo make l.vi jpeg max) fun _ c => c = l.shot jpeg max := by
  refine .bind (builds_startReceiving _ _ (.count max) (hf.node?_jpeg hj)) ?_
  intro _ _ heq
  subst heq
  refine .bind (builds_start (hmake.honest _ _ _) ?_) ?_
  · rw [hmake.source]
    exact Circuit.live_set.mpr (.inl rfl)
  intro pump _ heq
  subst heq
  refine .bind (builds_bind l.vi jpeg) ?_
  intro _ _ heq
  subst heq
  exact .pure rfl

section Meets

variable {pumps : Pump → Prop}

theorem meets_display (vi : Handle) (attr : DisplayAttr) :
    Meets pumps (display vi attr) fun _ => True :=
  .bind (meets_createEnabled _ _) fun _ _ => .bind (meets_bind _ _) fun _ _ =>
    .bind (meets_createEnabled _ _) fun _ _ => .bind (meets_bind _ _) fun _ _ => .pure trivial

theorem meets_subStream (hsub : ∀ h, h.kind = .venc → pumps (make .sub h none)) (source : Handle)
    (attr : VencAttr) : Meets pumps (subStream make source attr) fun _ => True := by
  refine .bind (meets_createEnabled _ _) fun sub hk => ?_
  refine .bind (meets_startReceiving _ _) fun _ _ => ?_
  exact .bind (meets_start (hsub sub hk)) fun _ _ => meets_bind _ _

theorem meets_channel {α : Type} (kind : ChannelKind) (part : Option α) (attr : α → ChannelAttr) :
    Meets pumps (optional part fun a => createEnabled kind (attr a)) fun h =>
      ∀ k, h = some k → k.kind = kind := by
  refine .optional nofun fun a => (meets_createEnabled kind (attr a)).mono ?_
  intro h hk _ heq
  cases heq
  exact hk

/-- What later commands rely on in the channels that a build answers. -/
structure Kinds (handles : BaseHandles) : Prop where
  vi : handles.vi.kind = .vi
  main : ∀ h, handles.main = some h → h.kind = .venc
  jpeg : ∀ h, handles.jpeg = some h → h.kind = .jpeg

theorem meets_base (hsub : ∀ h, h.kind = .venc → pumps (make .sub h none))
    (htap : ∀ h, h.kind = .vi → pumps (make .rawTap h none)) (attr : PipelineAttr) :
    Meets pumps (base make attr) Kinds := by
  refine .bind (meets_createEnabled _ _) fun vi hvi => ?_
  refine .bind (.maybe fun a => meets_display vi a) fun vpss _ => ?_
  refine .bind (meets_channel .venc attr.main .venc) fun main hmain => ?_
  refine .bind (.maybe fun a => meets_subStream hsub _ a) fun _ _ => ?_
  refine .bind (meets_channel .jpeg attr.photo .jpeg) fun jpeg hjpeg => ?_
  dsimp only
  split
  · exact .bind (meets_start (htap vi hvi)) fun _ _ => .pure ⟨hvi, hmain, hjpeg⟩
  · exact .pure ⟨hvi, hmain, hjpeg⟩

theorem meets_linkRecord (vi venc : Handle) (gdc : Option Handle) :
    Meets pumps (linkRecord vi venc gdc) fun _ => True := by
  cases gdc with
  | none => exact meets_bind _ _
  | some gdc => exact .bind (meets_bind _ _) fun _ _ => meets_bind _ _

theorem meets_record {attr : PipelineAttr} {vi main : Handle} (hp : pumps (make .main main none)) :
    Meets pumps (record make attr vi main) fun _ => True := by
  refine .bind (meets_startReceiving _ _) fun _ _ => ?_
  refine .bind (meets_start hp) fun _ _ => ?_
  refine .bind (meets_channel .gdc attr.gdc .gdc) fun gdc _ => ?_
  refine .bind (.maybe fun a => (meets_create .rgn _).mono fun _ _ => trivial) fun _ _ => ?_
  exact .bind (meets_linkRecord _ _ _) fun _ _ => .pure trivial

theorem meets_photo {vi jpeg : Handle} {max : UInt32} (hp : pumps (make .photo jpeg (some max))) :
    Meets pumps (photo make vi jpeg max) fun _ => True :=
  .bind (meets_startReceiving _ _) fun _ _ => .bind (meets_start hp) fun _ _ =>
    .bind (meets_bind _ _) fun _ _ => .pure trivial

end Meets

end Build
end CameraPipeline
