import CameraPipeline.Proofs.Media.Readout

/-!
The frame rates of the encoders. They are exact: what slow motion and time lapse multiply is
refused where it exceeds 32 bits, and nothing else changes a rate but the limit of the network
stream. Every encoder keeps at least one frame a second and no more than it is given, unless the
sensor gives none.
-/

namespace CameraPipeline

/-- The encoder keeps at least one frame a second, and no more than it is given. -/
structure VencAttr.Sound (e : VencAttr) : Prop where
  positive : 1 ≤ e.dstFps
  bounded : e.dstFps ≤ e.srcFps

theorem VencAttr.sound_iff {e : VencAttr} :
    e.Sound ↔ 1 ≤ e.dstFps.toNat ∧ e.dstFps.toNat ≤ e.srcFps.toNat :=
  ⟨fun h => ⟨UInt32.le_iff_toNat_le.mp h.positive, UInt32.le_iff_toNat_le.mp h.bounded⟩,
    fun h => ⟨UInt32.le_iff_toNat_le.mpr h.1, UInt32.le_iff_toNat_le.mpr h.2⟩⟩

namespace PipelineAttr

open Selection

variable {p : Params} {s : Selection} {buffers : Buffers} {attr : PipelineAttr} {e : VencAttr}
  {mode : Mode} {fps interval : UInt32}

/-- The record encoder and that of the network stream. -/
def encoders (attr : PipelineAttr) : List VencAttr := attr.main.toList ++ attr.sub.toList

theorem toNat_max_one (n : UInt32) : (max n 1).toNat = max n.toNat 1 := by
  change (if n ≤ 1 then 1 else n).toNat = _
  split
  · exact (Nat.max_eq_right ‹n ≤ 1›).symm
  · exact (Nat.max_eq_left (Nat.le_of_not_le ‹¬n ≤ 1›)).symm

theorem toNat_min_thirty (n : UInt32) : (min n 30).toNat = min n.toNat 30 := by
  change (if n ≤ 30 then n else 30).toNat = _
  split
  · exact (Nat.min_eq_left ‹n ≤ 30›).symm
  · exact (Nat.min_eq_right (Nat.le_of_not_le ‹¬n ≤ 30›)).symm

theorem ne_zero_iff_toNat_pos {n : UInt32} : n ≠ 0 ↔ 0 < n.toNat := by
  rw [Nat.pos_iff_ne_zero, ne_eq, ne_eq, ← UInt32.toNat_inj]
  rfl

theorem toNat_mul_of_lt {a b : UInt32} (h : a.toNat * b.toNat < UInt32.size) :
    (a * b).toNat = a.toNat * b.toNat := by
  rw [UInt32.toNat_mul]
  exact Nat.mod_eq_of_lt h

theorem recordRates_timeLapse (h : p.getOr timeLapseIntervalKey 1 = .ok interval) :
    recordRates p .timeLapse fps = if fps.toNat * max interval.toNat 1 < UInt32.size
      then .ok (fps * max interval 1, 1)
      else .error (.invalid timeLapseIntervalKey (ToText.write interval)) := by
  simp only [recordRates, if_true, h, bind, Except.bind, mul?, ← toNat_max_one]
  by_cases hfits : fps.toNat * (max interval 1).toNat < UInt32.size
  · rw [if_pos hfits, if_pos hfits]
    rfl
  · rw [if_neg hfits, if_neg hfits]
    rfl

theorem recordRates_of_ne (h : mode ≠ .timeLapse) : recordRates p mode fps = .ok (fps, fps) := by
  rw [recordRates, if_neg h]
  rfl

theorem recordRates_of_mainAttr (h : mainAttr s p buffers = .ok e) :
    recordRates p s.mode s.sensor.fps = .ok (e.srcFps, e.dstFps) := by
  simp only [mainAttr, bind_eq_ok] at h
  obtain ⟨_, _, ⟨srcFps, dstFps⟩, hrates, _, _, _, _, _, _, _, _, heq⟩ := h
  cases heq
  exact hrates

theorem rates_of_subAttr (h : subAttr s p buffers = .ok e) :
    e.srcFps = s.sensor.fps ∧ e.dstFps = min s.sensor.fps 30 := by
  simp only [subAttr, bind_eq_ok] at h
  obtain ⟨_, _, _, _, _, _, _, _, heq⟩ := h
  cases heq
  exact ⟨rfl, rfl⟩

theorem eq_ok_of_whenOn {α : Type} {on : Bool} {part : Except ParamFault α} {a : α}
    (h : whenOn on part = .ok (some a)) : part = .ok a := by
  cases on with
  | false => cases h
  | true =>
      cases part with
      | error fault => cases h
      | ok v =>
          cases h
          rfl

theorem encoders_of_derive (h : derive s p buffers = .ok attr) :
    attr.selection = s ∧ whenOn (s.mode ≠ .photo) (mainAttr s p buffers) = .ok attr.main ∧
      (∃ on, whenOn on (subAttr s p buffers) = .ok attr.sub) ∧
      attr.recordFps = attr.main.elim 0 (·.dstFps) := by
  simp only [derive_eq, bind_eq_ok] at h
  obtain ⟨_, _, main, hmain, rtsp, _, sub, hsub, _, _, _, _, _, _, _, _, _, _, _, _, heq⟩ := h
  cases heq
  refine ⟨rfl, hmain, ⟨rtsp, hsub⟩, ?_⟩
  cases main <;> rfl

/-- Where the product of time lapse exceeds 32 bits the record encoder has no attributes. -/
theorem mainAttr_of_overflow (hmode : s.mode = .timeLapse)
    (hinterval : p.getOr timeLapseIntervalKey 1 = .ok interval)
    (hover : UInt32.size ≤ s.sensor.fps.toNat * max interval.toNat 1) :
    mainAttr s p buffers = (geometryOr p "video.0" s.sensor.geometry).bind fun _ =>
      .error (.invalid timeLapseIntervalKey (ToText.write interval)) := by
  rw [mainAttr, hmode, recordRates_timeLapse hinterval, if_neg (Nat.not_lt.mpr hover)]
  rfl

/-- The interval is refused, unless a parameter that is read before it is. -/
theorem derive_of_overflow (hmode : s.mode = .timeLapse)
    (hinterval : p.getOr timeLapseIntervalKey 1 = .ok interval)
    (hover : UInt32.size ≤ s.sensor.fps.toNat * max interval.toNat 1) :
    ∃ fault, derive s p buffers = .error fault ∧
      (fault = .invalid timeLapseIntervalKey (ToText.write interval) ∨
        p.getSwitch smartAeKey false = .error fault ∨
        geometryOr p "video.0" s.sensor.geometry = .error fault) := by
  have hon : decide (s.mode ≠ .photo) = true := by rw [hmode]; rfl
  rw [derive_eq, hon, mainAttr_of_overflow hmode hinterval hover]
  cases p.getSwitch smartAeKey false with
  | error fault => exact ⟨fault, rfl, .inr (.inl rfl)⟩
  | ok smartAe =>
      cases geometryOr p "video.0" s.sensor.geometry with
      | error fault => exact ⟨fault, rfl, .inr (.inr rfl)⟩
      | ok geometry => exact ⟨_, rfl, .inl rfl⟩

/-- The ratio is refused, unless a mode that is read before it is. -/
theorem select_of_overflow {base : SensorFormat} {ratio : UInt32}
    (hmode : p.getOr modeKey Mode.video = .ok .slowMotion)
    (habsent : ¬SensorVariant.binning.IsDescribed p) (hbase : Gives p .linear base)
    (hratio : p.getOr slowMotionRatioKey 4 = .ok ratio)
    (hover : UInt32.size ≤ base.fps.toNat * max ratio.toNat 1) :
    ∃ fault, select p = .error (.param fault) ∧
      (fault = .invalid slowMotionRatioKey (ToText.write ratio) ∨
        p.getOr eisKey EisMode.off = .error fault ∨
        p.getOr hdrKey HdrMode.linear = .error fault) := by
  have hchoose : ∀ eis hdr, choose .slowMotion eis hdr p =
      .error (.param (.invalid slowMotionRatioKey (ToText.write ratio))) := by
    intro eis hdr
    have hbinned := binned_eq hbase hratio
    rw [toNat_max_one, if_neg (Nat.not_lt.mpr hover)] at hbinned
    have hsensor := sensorFor_eq p .linear .binning
    rw [sensor?_eq_none_iff.mpr habsent, hbinned] at hsensor
    rw [choose_eq]
    change Selection.assemble .slowMotion .off .linear <$> (sensorFor p .linear .binning >>= _) = _
    rw [hsensor]
    rfl
  simp only [select, hmode]
  cases p.getOr eisKey EisMode.off with
  | error fault => exact ⟨fault, rfl, .inr (.inl rfl)⟩
  | ok eis =>
      cases p.getOr hdrKey HdrMode.linear with
      | error fault => exact ⟨fault, rfl, .inr (.inr rfl)⟩
      | ok hdr => exact ⟨_, hchoose eis hdr, .inl rfl⟩

/-- The rates of a pipeline, each the exact product that it stands for. -/
structure Rated (p : Params) (attr : PipelineAttr) : Prop where
  sound : ∀ e ∈ attr.encoders, e.Sound ↔ attr.selection.sensor.fps ≠ 0
  recorded : attr.recordFps = attr.main.elim 0 (·.dstFps)
  network : ∀ e ∈ attr.sub, e.srcFps = attr.selection.sensor.fps ∧
    e.dstFps = min attr.selection.sensor.fps 30 ∧ e.dstFps ≤ 30
  plain : attr.selection.mode ≠ .timeLapse → ∀ e ∈ attr.main,
    e.srcFps = attr.selection.sensor.fps ∧ e.dstFps = attr.selection.sensor.fps
  lapsed : attr.selection.mode = .timeLapse → ∃ e, ∃ interval : UInt32, attr.main = some e ∧
    p.getOr timeLapseIntervalKey 1 = .ok interval ∧
    e.srcFps.toNat = attr.selection.sensor.fps.toNat * max interval.toNat 1 ∧ e.dstFps = 1
  spedUp : attr.selection.variant = .binning → ¬SensorVariant.binning.IsDescribed p →
    ∃ base, ∃ ratio : UInt32, Gives p .linear base ∧ p.getOr slowMotionRatioKey 4 = .ok ratio ∧
      attr.selection.sensor.fps.toNat = base.fps.toNat * max ratio.toNat 1

theorem sound_of_same (hsrc : e.srcFps = fps) (hdst : e.dstFps = fps) : e.Sound ↔ fps ≠ 0 := by
  rw [VencAttr.sound_iff, ne_zero_iff_toNat_pos, hsrc, hdst]
  omega

theorem sound_of_min (hsrc : e.srcFps = fps) (hdst : e.dstFps = min fps 30) :
    e.Sound ↔ fps ≠ 0 := by
  rw [VencAttr.sound_iff, ne_zero_iff_toNat_pos, hsrc, hdst, toNat_min_thirty]
  omega

theorem sound_of_lapse (hsrc : e.srcFps.toNat = fps.toNat * max interval.toNat 1)
    (hdst : e.dstFps = 1) : e.Sound ↔ fps ≠ 0 := by
  have hdst' : e.dstFps.toNat = 1 := congrArg UInt32.toNat hdst
  have hinterval : 0 < max interval.toNat 1 := by omega
  rw [VencAttr.sound_iff, ne_zero_iff_toNat_pos, hsrc, hdst']
  exact ⟨fun h => Nat.pos_of_mul_pos_right h.2, fun h => ⟨Nat.le_refl 1, Nat.mul_pos h hinterval⟩⟩

theorem lapsed_of_mainAttr (hmode : s.mode = .timeLapse) (h : mainAttr s p buffers = .ok e) :
    ∃ interval : UInt32, p.getOr timeLapseIntervalKey 1 = .ok interval ∧
      e.srcFps.toNat = s.sensor.fps.toNat * max interval.toNat 1 ∧ e.dstFps = 1 := by
  have hrates := recordRates_of_mainAttr h
  rw [hmode] at hrates
  cases hinterval : p.getOr timeLapseIntervalKey (1 : UInt32) with
  | error fault =>
      rw [recordRates, if_pos rfl, hinterval] at hrates
      cases hrates
  | ok interval =>
      rw [recordRates_timeLapse hinterval] at hrates
      split at hrates
      · rename_i hfits
        obtain ⟨hsrc, hdst⟩ := Prod.mk.inj (Except.ok.inj hrates)
        refine ⟨interval, rfl, ?_, hdst.symm⟩
        rw [← toNat_max_one] at hfits ⊢
        rw [← hsrc, toNat_mul_of_lt hfits]
      · cases hrates

theorem spedUp_of_select (h : select p = .ok s) (hvariant : s.variant = .binning)
    (habsent : ¬SensorVariant.binning.IsDescribed p) :
    ∃ base, ∃ ratio : UInt32, Gives p .linear base ∧ p.getOr slowMotionRatioKey 4 = .ok ratio ∧
      s.sensor.fps.toNat = base.fps.toNat * max ratio.toNat 1 := by
  obtain ⟨-, base, hgives, hdraws⟩ := variant_of_select h
  rw [hvariant] at hgives hdraws
  rw [SensorVariant.source_binning habsent] at hgives
  obtain ⟨ratio, hratio, hfits, hsensor⟩ := (draws_binning habsent).mp hdraws
  refine ⟨base, ratio, hgives, hratio, ?_⟩
  rw [hsensor, ← toNat_max_one]
  exact toNat_mul_of_lt hfits

theorem rated_of_plan (h : plan p buffers = .ok attr) : attr.Rated p := by
  obtain ⟨s, hselect, hderive⟩ := plan_eq_ok.mp h
  obtain ⟨rfl, hmain, ⟨rtsp, hsub⟩, hrecorded⟩ := encoders_of_derive hderive
  have hplain : attr.selection.mode ≠ .timeLapse → ∀ e ∈ attr.main,
      e.srcFps = attr.selection.sensor.fps ∧ e.dstFps = attr.selection.sensor.fps := by
    intro hmode e he
    rw [he] at hmain
    have hrates := recordRates_of_mainAttr (eq_ok_of_whenOn hmain)
    rw [recordRates_of_ne hmode] at hrates
    exact (Prod.mk.inj (Except.ok.inj hrates)).imp Eq.symm Eq.symm
  have hlapsed : attr.selection.mode = .timeLapse → ∃ e, ∃ interval : UInt32, attr.main = some e ∧
      p.getOr timeLapseIntervalKey 1 = .ok interval ∧
      e.srcFps.toNat = attr.selection.sensor.fps.toNat * max interval.toNat 1 ∧
      e.dstFps = 1 := by
    intro hmode
    have hsome := isSome_of_whenOn hmain
    obtain ⟨e, he⟩ := Option.isSome_iff_exists.mp (hsome.trans (by rw [hmode]; rfl))
    rw [he] at hmain
    obtain ⟨interval, hrates⟩ := lapsed_of_mainAttr hmode (eq_ok_of_whenOn hmain)
    exact ⟨e, interval, he, hrates⟩
  have hnetwork : ∀ e ∈ attr.sub, e.srcFps = attr.selection.sensor.fps ∧
      e.dstFps = min attr.selection.sensor.fps 30 := by
    intro e he
    rw [he] at hsub
    exact rates_of_subAttr (eq_ok_of_whenOn hsub)
  refine ⟨fun e he => ?_, hrecorded, fun e he => ?_, hplain, hlapsed, spedUp_of_select hselect⟩
  · obtain he | he : e ∈ attr.main ∨ e ∈ attr.sub := by simpa [encoders] using he
    · by_cases hmode : attr.selection.mode = .timeLapse
      · obtain ⟨_, interval, hsome, -, hsrc, hdst⟩ := hlapsed hmode
        cases he.symm.trans hsome
        exact sound_of_lapse hsrc hdst
      · obtain ⟨hsrc, hdst⟩ := hplain hmode e he
        exact sound_of_same hsrc hdst
    · obtain ⟨hsrc, hdst⟩ := hnetwork e he
      exact sound_of_min hsrc hdst
  · obtain ⟨hsrc, hdst⟩ := hnetwork e he
    refine ⟨hsrc, hdst, UInt32.le_iff_toNat_le.mpr ?_⟩
    rw [hdst, toNat_min_thirty]
    exact Nat.min_le_right _ _

/-- The rates of every pipeline that is planned are exact, and its encoders are sound unless the
sensor gives no frames; a product that exceeds 32 bits plans none, for its factor is refused if
nothing before it is. -/
theorem plan_rates (p : Params) (buffers : Buffers) :
    (∀ attr, plan p buffers = .ok attr → attr.Rated p) ∧
    (∀ base, ∀ ratio : UInt32, p.getOr modeKey Mode.video = .ok .slowMotion →
      ¬SensorVariant.binning.IsDescribed p → Gives p .linear base →
      p.getOr slowMotionRatioKey 4 = .ok ratio →
      UInt32.size ≤ base.fps.toNat * max ratio.toNat 1 →
      ∃ fault, select p = .error (.param fault) ∧
        (fault = .invalid slowMotionRatioKey (ToText.write ratio) ∨
          p.getOr eisKey EisMode.off = .error fault ∨
          p.getOr hdrKey HdrMode.linear = .error fault)) ∧
    ∀ s, ∀ interval : UInt32, select p = .ok s → s.mode = .timeLapse →
      p.getOr timeLapseIntervalKey 1 = .ok interval →
      UInt32.size ≤ s.sensor.fps.toNat * max interval.toNat 1 →
      ∃ fault, derive s p buffers = .error fault ∧
        (fault = .invalid timeLapseIntervalKey (ToText.write interval) ∨
          p.getSwitch smartAeKey false = .error fault ∨
          geometryOr p "video.0" s.sensor.geometry = .error fault) :=
  ⟨fun _ => rated_of_plan, fun _ _ => select_of_overflow, fun _ _ _ => derive_of_overflow⟩

/-- A frame every five seconds, next to the network stream. -/
def everyFive : Params := .ofList [("video.source:mode", "time_lapse"),
  ("video.source:time_lapse_interval", "5"), ("video.source:enable_rtsp", "1")]

/-- A sensor whose rate cannot be sped up any further. -/
def tooFast : Params := .ofList [("video.source:mode", "slow_motion"),
  ("sensor.linear:width", "640"), ("sensor.linear:height", "480"),
  ("sensor.linear:fps", "4294967295")]

theorem plan_rates_everyFive :
    (∃ attr main sub, plan everyFive {} = .ok attr ∧ attr.main = some main ∧
      attr.sub = some sub ∧ main.Sound ∧ sub.Sound ∧ main.srcFps.toNat = 30 * 5 ∧
      main.dstFps = 1 ∧ attr.recordFps = 1 ∧ sub.dstFps = 30) ∧
    select tooFast = .error (.param (.invalid slowMotionRatioKey "4")) := by
  constructor
  · obtain ⟨hrated, -⟩ := plan_rates everyFive {}
    obtain ⟨attr, hattr⟩ : ∃ attr, plan everyFive {} = .ok attr := ⟨_, rfl⟩
    have hr := hrated attr hattr
    cases hattr
    refine ⟨_, _, _, rfl, rfl, rfl, (hr.sound _ (.head _)).mpr (by decide),
      (hr.sound _ (.tail _ (.head _))).mpr (by decide), ?_, ?_, hr.recorded, ?_⟩
    · obtain ⟨e, interval, he, hi, hsrc, -⟩ := hr.lapsed rfl
      cases he
      cases hi
      exact hsrc
    · obtain ⟨e, interval, he, -, -, hdst⟩ := hr.lapsed rfl
      cases he
      exact hdst
    · exact (hr.network _ rfl).2.1
  · obtain ⟨-, hover, -⟩ := plan_rates tooFast {}
    obtain ⟨fault, hselect, hfault⟩ := hover ⟨⟨640, 480⟩, 4294967295, 10⟩ 4 rfl nofun
      (.described fun field => by cases field <;> rfl) rfl (by decide)
    obtain rfl | heis | hhdr := hfault
    · exact hselect
    · cases heis
    · cases hhdr

/-- A sensor that gives no frames leaves time lapse with one that nothing is the source of. -/
theorem still_sensor :
    let p : Params := .ofList [("video.source:mode", "time_lapse"), ("sensor.linear:width", "640"),
      ("sensor.linear:height", "480"), ("sensor.linear:fps", "0")]
    ∃ attr main, plan p {} = .ok attr ∧ attr.main = some main ∧ main.srcFps = 0 ∧
      main.dstFps = 1 ∧ ¬main.Sound :=
  ⟨_, _, rfl, rfl, rfl, rfl, fun h => absurd h.bounded (by decide)⟩

end PipelineAttr
end CameraPipeline
