import CameraPipeline.Proofs.Orchestrator.Census
import CameraPipeline.Proofs.Plant.Furnish

/-!
The equipment of a pipeline: its channels with the attributes that their roles call for. A build,
a recording and a capture furnish it; what is opened or undone beside a channel leaves the channel
as it is, whatever fails on the way.
-/

namespace CameraPipeline

open Plant

namespace Layout

/-- The channel of a role, with the attributes of the role. -/
def furnish {α : Type} (h : Option Handle) (part : Option α) (attr : α → ChannelAttr) :
    List (Handle × ChannelAttr) :=
  match h, part with
  | some h, some a => [(h, attr a)]
  | _, _ => []

/-- What a recording adds on the encoder `main`. -/
def recordAttrs (attr : PipelineAttr) (main : Handle) (gdc rgn : Option Handle) :
    List (Handle × ChannelAttr) :=
  furnish gdc attr.gdc .gdc ++ furnish rgn attr.osd fun geometry => .rgn ⟨main, geometry⟩

variable (l : Layout) (attr : PipelineAttr)

def baseAttrs : List (Handle × ChannelAttr) :=
  [(l.vi, .vi attr.vi)] ++ furnish (l.display.map (·.1)) attr.display (.vpss ·.vpss) ++
    furnish (l.display.map (·.2)) attr.display (.vo ·.vo) ++ furnish l.main attr.main .venc ++
    furnish l.sub attr.sub .venc ++ furnish l.jpeg attr.photo .jpeg

/-- Every channel of the layout with the attributes that its role calls for. -/
def attrs : List (Handle × ChannelAttr) :=
  l.baseAttrs attr ++ l.main.elim [] fun main => recordAttrs attr main l.gdc l.rgn

variable {l attr} {recording : Bool}

theorem keys_furnish {α : Type} {kind : ChannelKind} {h : Option Handle} {part : Option α}
    (hf : Filled kind h part.isSome) (f : α → ChannelAttr) :
    (furnish h part f).map (·.1) = h.toList := by
  have hs := hf.1
  cases h <;> cases part <;> simp_all [furnish]

theorem keys_baseAttrs (hvpss : Filled .vpss (l.display.map (·.1)) attr.display.isSome)
    (hvo : Filled .vo (l.display.map (·.2)) attr.display.isSome)
    (hmain : Filled .venc l.main attr.main.isSome) (hsub : Filled .venc l.sub attr.sub.isSome)
    (hjpeg : Filled .jpeg l.jpeg attr.photo.isSome) :
    (l.baseAttrs attr).map (·.1) = l.baseChannels := by
  simp only [baseAttrs, baseChannels, List.map_append, keys_furnish hvpss, keys_furnish hvo,
    keys_furnish hmain, keys_furnish hsub, keys_furnish hjpeg]
  rfl

theorem encoders_of_nodup (hn : l.baseChannels.Nodup) (h : Handle) (hm : l.main = some h) :
    l.sub ≠ some h := by
  intro hs
  simp [baseChannels, hm, hs, List.nodup_append] at hn

end Layout

namespace Build

open Construction Layout

variable {make : PumpMaker}

theorem furnishes_display (vi : Handle) (attr : DisplayAttr) :
    Furnishes (display vi attr) fun vpss new =>
      ∃ vo, vpss.kind = .vpss ∧ vo.kind = .vo ∧
        new = [(vpss, .vpss attr.vpss), (vo, .vo attr.vo)] := by
  refine .bind (furnishes_createEnabled _ _) ?_
  intro vpss _ hpost
  obtain ⟨hvpss, rfl⟩ := hpost
  refine .after (plain_bind _ _) fun _ => .bind (furnishes_createEnabled _ _) ?_
  intro vo _ hpost
  obtain ⟨hvo, rfl⟩ := hpost
  exact .after (plain_bind _ _) fun _ => .pure ⟨vo, hvpss, hvo, rfl⟩

theorem furnishes_subStream (source : Handle) (attr : VencAttr) :
    Furnishes (subStream make source attr) fun _ new =>
      ∃ sub, sub.kind = .venc ∧ new = [(sub, .venc attr)] := by
  refine .bind (furnishes_createEnabled _ _) ?_
  intro sub _ hpost
  obtain ⟨hsub, rfl⟩ := hpost
  refine .after (plain_startReceiving _ _) fun _ => .after (plain_start _) fun _ => ?_
  refine (plain_bind _ _).mono ?_
  intro _ _ _ heq
  subst heq
  exact ⟨sub, hsub, rfl⟩

theorem furnishes_channel {α : Type} (kind : ChannelKind) (part : Option α)
    (attr : α → ChannelAttr) :
    Furnishes (optional part fun a => createEnabled kind (attr a)) fun h new =>
      Filled kind h part.isSome ∧ new = furnish h part attr := by
  refine .optional (fun hp => ⟨hp ▸ .none _, rfl⟩) fun a hp => ?_
  refine (furnishes_createEnabled kind (attr a)).mono ?_
  intro h _ _ hpost
  obtain ⟨hk, rfl⟩ := hpost
  exact ⟨hp ▸ .some hk, hp ▸ rfl⟩

theorem furnishes_input (attr : PipelineAttr) (vi : Handle) :
    Furnishes (optional attr.display (display vi)) fun vpss new =>
      ∃ d : Option (Handle × Handle), Filled .vpss (d.map (·.1)) attr.display.isSome ∧
        Filled .vo (d.map (·.2)) attr.display.isSome ∧ vpss = d.map (·.1) ∧
        new = furnish (d.map (·.1)) attr.display (.vpss ·.vpss) ++
          furnish (d.map (·.2)) attr.display (.vo ·.vo) := by
  refine .optional (fun hp => ⟨none, hp ▸ .none _, hp ▸ .none _, rfl, rfl⟩) fun a hp => ?_
  refine (furnishes_display vi a).mono ?_
  intro vpss _ _ hpost
  obtain ⟨vo, hvpss, hvo, rfl⟩ := hpost
  exact ⟨some (vpss, vo), hp ▸ .some hvpss, hp ▸ .some hvo, rfl, hp ▸ rfl⟩

theorem furnishes_network (source : Handle) (attr : PipelineAttr) :
    Furnishes (optional attr.sub (subStream make source)) fun _ new =>
      ∃ sub, Filled .venc sub attr.sub.isSome ∧ new = furnish sub attr.sub .venc := by
  refine .optional (fun hp => ⟨none, hp ▸ .none _, rfl⟩) fun a hp => ?_
  refine (furnishes_subStream source a).mono ?_
  intro _ _ _ hpost
  obtain ⟨sub, hsub, rfl⟩ := hpost
  exact ⟨some sub, hp ▸ .some hsub, hp ▸ rfl⟩

theorem furnishes_base (attr : PipelineAttr) :
    Furnishes (base make attr) fun handles new =>
      ∃ l : Layout, l.Fits attr false ∧ handles = l.handles ∧ new = l.baseAttrs attr := by
  have hfilled : Furnishes (base make attr) fun handles new =>
      ∃ l : Layout, (((l.baseAttrs attr).map (·.1)).Nodup → l.Fits attr false) ∧
        handles = l.handles ∧ new = l.baseAttrs attr := by
    refine .bind (furnishes_createEnabled _ _) ?_
    intro vi _ hpost
    obtain ⟨hvi, rfl⟩ := hpost
    refine .bind (furnishes_input attr vi) ?_
    intro _ _ hpost
    obtain ⟨display, hvpss, hvo, rfl, rfl⟩ := hpost
    refine .bind (furnishes_channel .venc attr.main .venc) ?_
    intro main _ hpost
    obtain ⟨hmain, rfl⟩ := hpost
    refine .bind (furnishes_network _ attr) ?_
    intro _ _ hpost
    obtain ⟨sub, hsub, rfl⟩ := hpost
    refine .bind (furnishes_channel .jpeg attr.photo .jpeg) ?_
    intro jpeg _ hpost
    obtain ⟨hjpeg, rfl⟩ := hpost
    have hdone : Furnishes (pure { vi, main, jpeg } : Construction BaseHandles)
        fun handles new => ∃ l : Layout,
          (((l.baseAttrs attr).map (·.1)).Nodup → l.Fits attr false) ∧ handles = l.handles ∧
            [(vi, .vi attr.vi)] ++ (furnish (display.map (·.1)) attr.display (.vpss ·.vpss) ++
              furnish (display.map (·.2)) attr.display (.vo ·.vo) ++
              (furnish main attr.main .venc ++ (furnish sub attr.sub .venc ++
                (furnish jpeg attr.photo .jpeg ++ new)))) = l.baseAttrs attr := by
      refine .pure ⟨⟨vi, display, main, sub, jpeg, none, none⟩, fun hn => ?_, rfl, ?_⟩
      · rw [keys_baseAttrs hvpss hvo hmain hsub hjpeg] at hn
        exact ⟨hvi, hvpss, hvo, hmain, hsub, encoders_of_nodup hn, hjpeg, .none _, .none _⟩
      · simp [baseAttrs]
    dsimp only
    split
    · exact .after (plain_start _) fun _ => hdone
    · exact hdone
  refine hfilled.mono fun handles new hn hpost => ?_
  obtain ⟨l, hf, hhandles, hnew⟩ := hpost
  exact ⟨l, hf (hnew ▸ hn), hhandles, hnew⟩

theorem plain_linkRecord (vi venc : Handle) (gdc : Option Handle) :
    Plain (linkRecord vi venc gdc) := by
  cases gdc with
  | none => exact plain_bind vi venc
  | some gdc => exact .after (plain_bind vi gdc) fun _ => plain_bind gdc venc

theorem furnishes_overlay (venc : Handle) (attr : PipelineAttr) :
    Furnishes (optional attr.osd fun geometry => create .rgn (.rgn ⟨venc, geometry⟩))
      fun rgn new => Filled .rgn rgn attr.osd.isSome ∧
        new = furnish rgn attr.osd fun geometry => .rgn ⟨venc, geometry⟩ := by
  refine .optional (fun hp => ⟨hp ▸ .none _, rfl⟩) fun geometry hp => ?_
  refine (furnishes_create .rgn _).mono ?_
  intro rgn _ _ hpost
  obtain ⟨hrgn, rfl⟩ := hpost
  exact ⟨hp ▸ .some hrgn, hp ▸ rfl⟩

theorem furnishes_record (attr : PipelineAttr) (vi venc : Handle) :
    Furnishes (record make attr vi venc) fun _ new =>
      ∃ gdc rgn, Filled .gdc gdc attr.gdc.isSome ∧ Filled .rgn rgn attr.osd.isSome ∧
        new = recordAttrs attr venc gdc rgn := by
  refine .after (plain_startReceiving _ _) fun _ => .after (plain_start _) fun pump => ?_
  refine .bind (furnishes_channel .gdc attr.gdc .gdc) ?_
  intro gdc _ hpost
  obtain ⟨hgdc, rfl⟩ := hpost
  refine .bind (furnishes_overlay venc attr) ?_
  intro rgn _ hpost
  obtain ⟨hrgn, rfl⟩ := hpost
  refine .after (plain_linkRecord _ _ _) fun _ => .pure ⟨gdc, rgn, hgdc, hrgn, ?_⟩
  rw [List.append_nil, recordAttrs]

theorem plain_photo (vi jpeg : Handle) (max : UInt32) : Plain (photo make vi jpeg max) :=
  .after (plain_startReceiving _ _) fun _ => .after (plain_start _) fun _ =>
    .after (plain_bind _ _) fun _ => .pure rfl

end Build

/-- The layout says which channels the stacks of the pipeline own, and the server has these with
the attributes that their roles call for. -/
structure Layout.Equips (l : Layout) (b : Built) (s : Server) : Prop where
  fits : l.Fits b.attr b.record.isSome
  handles : l.handles = b.handles
  encoder : b.record.isSome → l.main.isSome
  base : b.base.Owns l.baseChannels
  record : ∀ r, b.record = some r → r.stack.Owns (l.gdc.toList ++ l.rgn.toList)
  photo : ∀ r, b.photo = some r → r.stack.Owns []
  attrs : ∀ h v, (h, v) ∈ l.attrs b.attr → s.attrOf h = some v

namespace Layout.Equips

variable {l : Layout} {b : Built} {s t : Server} {p q : Plant}

/-- As long as no session is open the base is all there is. -/
theorem of_base {attr : PipelineAttr} {base : Stack} (hf : l.Fits attr false)
    (howns : base.Owns l.baseChannels)
    (hattrs : ∀ h v, (h, v) ∈ l.baseAttrs attr → s.attrOf h = some v) :
    l.Equips { attr, base, handles := l.handles } s where
  fits := hf
  handles := rfl
  encoder h := by cases h
  base := howns
  record _ h := by cases h
  photo _ h := by cases h
  attrs h v hm := by
    have hgdc : l.gdc = none := by simpa using hf.gdc.1
    have hrgn : l.rgn = none := by simpa using hf.rgn.1
    refine hattrs h v ?_
    cases hmain : l.main <;>
      simpa [Layout.attrs, hmain, hgdc, hrgn, Layout.recordAttrs, Layout.furnish] using hm

theorem keys_attrs (he : l.Equips b s) : (l.attrs b.attr).map (·.1) = l.channels := by
  have hf := he.fits
  have hbase := keys_baseAttrs hf.vpss hf.vo hf.main hf.sub hf.jpeg
  rw [Layout.attrs, List.map_append, hbase, channels, List.append_assoc]
  congr 1
  have hgdc := hf.gdc
  have hrgn := hf.rgn
  cases hr : b.record with
  | none =>
      rw [hr] at hgdc hrgn
      have hg : l.gdc = none := by simpa using hgdc.1
      have hr : l.rgn = none := by simpa using hrgn.1
      cases l.main <;> simp [hg, hr, recordAttrs, furnish]
  | some r =>
      rw [hr] at hgdc hrgn
      obtain ⟨main, hm⟩ := Option.isSome_iff_exists.mp (he.encoder (by simp [hr]))
      simp only [hm, Option.elim_some, recordAttrs, List.map_append]
      rw [keys_furnish hgdc, keys_furnish hrgn]

theorem main (he : l.Equips b s) : l.main = b.handles.main :=
  congrArg BaseHandles.main he.handles

theorem mem_channels (he : l.Equips b s) {h : Handle} {v : ChannelAttr}
    (hm : (h, v) ∈ l.attrs b.attr) : h ∈ l.channels :=
  he.keys_attrs ▸ List.mem_map_of_mem (f := (·.1)) hm

/-- Whatever leaves the channels of the pipeline as they are leaves it equipped. -/
theorem transport (he : l.Equips b s)
    (ht : ∀ h v, h ∈ l.channels → s.attrOf h = some v → t.attrOf h = some v) : l.Equips b t where
  fits := he.fits
  handles := he.handles
  encoder := he.encoder
  base := he.base
  record := he.record
  photo := he.photo
  attrs h v hm := ht h v (he.mem_channels hm) (he.attrs h v hm)

theorem quiet (he : l.Equips b p.server) (hn : p.server.Numbered)
    (hs : Plant.Steps Change.IsQuiet p q) : l.Equips b q.server :=
  he.transport fun _ _ _ => hs.attrOf_quiet hn

/-- No other role is filled by the input. -/
theorem vi_ne (he : l.Equips b s) {h : Handle} {v : ChannelAttr}
    (hm : (h, v) ∈ (l.attrs b.attr).tail) : l.vi ≠ h := by
  intro heq
  have hkeys := he.keys_attrs ▸ he.fits.nodup
  have hcons : ((l.attrs b.attr).map (·.1)) = l.vi :: (l.attrs b.attr).tail.map (·.1) := rfl
  rw [hcons, List.nodup_cons] at hkeys
  exact hkeys.1 (heq ▸ List.mem_map_of_mem (f := (·.1)) hm)

/-- The input takes the attributes that it is given, or keeps those that it has. -/
theorem setInput (he : l.Equips b p.server) (hn : p.server.Numbered) (vi : ViAttr) :
    match p.ask (.setAttr b.handles.vi (.vi vi)) with
    | (.ok _, q) => l.Equips { b with attr := { b.attr with vi } } q.server
    | (.error _, q) => l.Equips b q.server := by
  have ht := (takeTurn_steps p).quiet
  have hsteps := ask_steps p (.setAttr b.handles.vi (.vi vi))
  cases ho : p.ask (.setAttr b.handles.vi (.vi vi)) with
  | mk answer q =>
      rw [ho] at hsteps
      have hp := perform_of_ask ho
      cases answer with
      | error fault =>
          refine he.transport fun h v _ hv => ?_
          rw [Server.attrOf_of_perform_error hp]
          exact ht.attrOf_quiet hn hv
      | ok k =>
          have hf := he.fits
          have hvi : b.handles.vi = l.vi := he.handles ▸ rfl
          refine ⟨⟨hf.vi, hf.vpss, hf.vo, hf.main, hf.sub, hf.encoders, hf.jpeg, hf.gdc, hf.rgn⟩,
            he.handles, he.encoder, he.base, he.record, he.photo, fun h v hm => ?_⟩
          cases List.mem_cons.mp (hm : (h, v) ∈ (l.vi, .vi vi) :: (l.attrs b.attr).tail) with
          | inl heq =>
              cases heq
              exact Server.attrOf_setAttr (hvi ▸ hp)
          | inr hm =>
              refine hsteps.attrOf (fun r hr => ?_) hn (he.attrs h v (List.mem_of_mem_tail hm))
              subst hr
              exact hvi ▸ he.vi_ne hm

theorem stopRecord {r : RecordSession} (he : l.Equips b p.server) (hn : p.server.Numbered)
    (hr : b.record = some r) :
    l.Equips { b with record := some { r with stack := (r.stack.stopPumps p).2.1 } }
      (r.stack.stopPumps p).2.2.server := by
  have hs := he.quiet hn (Stack.stopEach_steps p r.stack.steps)
  have hfits := he.fits
  have hencoder := he.encoder
  rw [hr] at hfits hencoder
  refine ⟨hfits, he.handles, hencoder, he.base, ?_, he.photo, hs.attrs⟩
  intro _ heq
  cases heq
  exact (he.record r hr).stopPumps p

/-- The base of the pipeline without the recording. -/
theorem unrecorded (he : l.Equips b s)
    (ht : ∀ h v, h ∈ l.baseChannels → s.attrOf h = some v → t.attrOf h = some v) :
    { l with gdc := none, rgn := none }.Equips { b with record := none } t := by
  have hf := he.fits
  refine ⟨⟨hf.vi, hf.vpss, hf.vo, hf.main, hf.sub, hf.encoders, hf.jpeg, .none _, .none _⟩,
    he.handles, nofun, he.base, nofun, he.photo, fun h v hm => ?_⟩
  have hm : (h, v) ∈ l.baseAttrs b.attr := by
    cases List.mem_append.mp hm with
    | inl hm => exact hm
    | inr hm =>
        cases hmain : l.main <;> simp [hmain, recordAttrs, furnish] at hm
  have hkeys := keys_baseAttrs hf.vpss hf.vo hf.main hf.sub hf.jpeg
  refine ht h v (hkeys ▸ List.mem_map_of_mem (f := (·.1)) hm) ?_
  exact he.attrs h v (List.mem_append_left _ hm)

/-- Undoing what a recording owns leaves the base. -/
theorem closeRecord {stack : Stack} (he : l.Equips b p.server) (hn : p.server.Numbered)
    (ho : stack.Owns (l.gdc.toList ++ l.rgn.toList)) :
    { l with gdc := none, rgn := none }.Equips { b with record := none }
      (stack.unwind p).2.server := by
  refine he.unrecorded fun h v hb hv => ho.attrOf_unwind (fun hh => ?_) hn hv
  have hnodup := he.fits.nodup
  rw [channels, List.append_assoc, List.nodup_append] at hnodup
  exact hnodup.2.2 h hb h hh rfl

theorem closePhoto {stack : Stack} (he : l.Equips b p.server) (hn : p.server.Numbered)
    (ho : stack.Owns []) : l.Equips { b with photo := none } (stack.unwind p).2.server :=
  have ht := he.transport fun _ _ _ => ho.attrOf_unwind List.not_mem_nil hn
  ⟨he.fits, he.handles, he.encoder, he.base, he.record, nofun, ht.attrs⟩

variable {make : PumpMaker} {e : PipelineError}

theorem openRecord {main : Handle} {r : RecordSession} (he : l.Equips b p.server)
    (hn : p.server.Numbered) (encoder : b.handles.main = some main)
    (ho : p.openRecord make b.attr b.handles.vi main = (.ok r, q)) :
    ∃ gdc rgn, { l with gdc, rgn }.Equips { b with record := some r } q.server := by
  obtain ⟨new, ⟨gdc, rgn, hgdc, hrgn, rfl⟩, howns, hattrs, hold⟩ :=
    (Build.furnishes_record b.attr b.handles.vi main).construct hn (construct_of_openRecord ho)
  have hm : l.main = some main := he.main.trans encoder
  have hf := he.fits
  refine ⟨gdc, rgn, ⟨hf.vi, hf.vpss, hf.vo, hf.main, hf.sub, hf.encoders, hf.jpeg, hgdc, hrgn⟩,
    he.handles, fun _ => by simp [hm], he.base, ?_, he.photo, fun h v hv => ?_⟩
  · intro _ heq
    cases heq
    rwa [recordAttrs, List.map_append, keys_furnish hgdc, keys_furnish hrgn] at howns
  · have hall : Layout.attrs { l with gdc, rgn } b.attr =
        l.baseAttrs b.attr ++ recordAttrs b.attr main gdc rgn :=
      congrArg (fun m : Option Handle => l.baseAttrs b.attr ++
        m.elim [] fun main => recordAttrs b.attr main gdc rgn) hm
    cases List.mem_append.mp (hall ▸ hv) with
    | inl hv => exact hold h v (he.attrs h v (List.mem_append_left _ hv))
    | inr hv => exact hattrs h v hv

theorem openRecord_fails {main : Handle} (he : l.Equips b p.server) (hn : p.server.Numbered)
    (ho : p.openRecord make b.attr b.handles.vi main = (.error e, q)) : l.Equips b q.server :=
  he.transport fun _ _ _ => (Build.climbs_record make b.attr b.handles.vi main).attrOf_of_error
    (construct_of_openRecord_error ho) hn

theorem openPhoto {jpeg : Handle} {count : UInt32} {r : PhotoSession} (he : l.Equips b p.server)
    (hn : p.server.Numbered) (ho : p.openPhoto make b.handles.vi jpeg count = (.ok r, q)) :
    l.Equips { b with photo := some r } q.server := by
  obtain ⟨new, rfl, howns, _, hold⟩ :=
    (Build.plain_photo b.handles.vi jpeg count).construct hn (construct_of_openPhoto ho)
  have ht := he.transport fun h v _ => hold h v
  refine ⟨he.fits, he.handles, he.encoder, he.base, he.record, ?_, ht.attrs⟩
  intro _ heq
  cases heq
  exact howns

theorem openPhoto_fails {jpeg : Handle} {count : UInt32} (he : l.Equips b p.server)
    (hn : p.server.Numbered) (ho : p.openPhoto make b.handles.vi jpeg count = (.error e, q)) :
    l.Equips b q.server :=
  he.transport fun _ _ _ => (Build.climbs_photo make b.handles.vi jpeg count).attrOf_of_error
    (construct_of_openPhoto_error ho) hn

end Layout.Equips

/-- What the pipeline holds, the layout names, and the server has it with the attributes that the
roles call for. -/
structure Layout.Describes (l : Layout) (b : Built) (s : Server) : Prop where
  fits : l.Fits b.attr b.record.isSome
  handles : l.handles = b.handles
  held : ∀ h, .request (.destroy h) ∈ b.steps ↔ h ∈ l.channels
  keys : (l.attrs b.attr).map (·.1) = l.channels
  attrs : ∀ h v, (h, v) ∈ l.attrs b.attr → s.attrOf h = some v

theorem Layout.Equips.describes {l : Layout} {b : Built} {s : Server} (he : l.Equips b s) :
    l.Describes b s := by
  refine ⟨he.fits, he.handles, fun h => ?_, he.keys_attrs, he.attrs⟩
  have hphoto : .request (.destroy h) ∉ b.photo.elim [] fun r : PhotoSession => r.stack.steps := by
    cases hp : b.photo with
    | none => exact List.not_mem_nil
    | some r => exact fun hm => List.not_mem_nil (((he.photo r hp).destroys h).mp hm)
  have hrecord : .request (.destroy h) ∈ (b.record.elim [] fun r => r.stack.steps) ↔
      h ∈ l.gdc.toList ++ l.rgn.toList := by
    cases hr : b.record with
    | some r => exact (he.record r hr).destroys h
    | none =>
        have hgdc := he.fits.gdc.1
        have hrgn := he.fits.rgn.1
        rw [hr] at hgdc hrgn
        simp_all
  simp only [Built.steps, channels, List.mem_append, he.base.destroys, hrecord, hphoto, false_or]
  tauto

/-- A build that succeeds is equipped, and records if it is to and has an encoder for it. -/
theorem Plant.build_equips {p q : Plant} {make : PumpMaker} {attr : PipelineAttr} {b : Built}
    (hn : p.server.Numbered) (ho : p.build make attr = (.ok b, q)) :
    b.attr = attr ∧ b.record.isSome = (attr.main.isSome && attr.recordOnInit) ∧
      ∃ l : Layout, l.Equips b q.server := by
  simp only [build] at ho
  split at ho
  · cases ho
  · rename_i handles base p' hcons
    have hn' : p'.server.Numbered := by
      have hs := (Build.climbs_base make attr).construct p
      rw [hcons] at hs
      exact hs.steps.numbered hn
    obtain ⟨new, ⟨l, hf, rfl, rfl⟩, howns, hattrs, _⟩ :=
      (Build.furnishes_base attr).construct hn hcons
    rw [Layout.keys_baseAttrs hf.vpss hf.vo hf.main hf.sub hf.jpeg] at howns
    have hidle : l.Equips _ p'.server := .of_base hf howns hattrs
    have hmain : l.handles.main.isSome = attr.main.isSome := hf.main.1
    split at ho
    · rename_i venc hvenc hon
      split at ho <;> cases ho
      rename_i session hopen
      obtain ⟨gdc, rgn, he⟩ := hidle.openRecord hn' hvenc hopen
      refine ⟨rfl, ?_, _, he⟩
      rw [← hmain, hvenc, hon]
      rfl
    · rename_i hnone
      cases ho
      refine ⟨rfl, ?_, l, hidle⟩
      rw [← hmain]
      cases hm : l.handles.main with
      | none => rfl
      | some venc =>
          cases hr : attr.recordOnInit with
          | false => rfl
          | true => exact absurd hr (hnone venc hm)

end CameraPipeline
