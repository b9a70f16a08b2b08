import CameraPipeline.Proofs.Media.Plan

/-!
Which of the three modes has the last word. Slow motion overrides stabilization and HDR, time lapse
overrides HDR, and stabilization decides on the warp stage and on nothing else: what is read from
the store, and with what result, does not depend on it. A choice is stable, since what is in effect
asks for itself.
-/

namespace CameraPipeline

namespace Selection

/-- The choice with stabilization on. -/
def steadied (s : Selection) : Selection := { s with eis := .normalSteady }

/-- What a choice reads from the store: the format of the readout and the name of the sensor. -/
def readout (mode : Mode) (hdr : HdrMode) (p : Params) :
    Except ConfigError (SensorFormat × String) := do
  let sensor ← sensorFor p hdr (variantOf mode hdr)
  let name ← p.getOr "sensor.0:name" "sensor"
  return (sensor, name)

/-- The choice that the modes in effect and the readout make up. -/
def assemble (mode : Mode) (eis : EisMode) (hdr : HdrMode) (read : SensorFormat × String) :
    Selection where
  mode := mode
  eis := eis
  hdr := hdr
  variant := variantOf mode hdr
  sensor := read.1
  iqProfile := read.2 ++ "_" ++ (variantOf mode hdr).suffix
  aiqMode := if hdr = .staggered then .hdr2 else .normal

section Effective

variable {mode : Mode} (eis : EisMode) (hdr : HdrMode)

theorem effective_of_ne_slowMotion (h : mode ≠ .slowMotion) :
    effective mode eis hdr = (eis, (effective mode .off hdr).2) := by
  cases mode with
  | slowMotion => exact absurd rfl h
  | video | photo | timeLapse => rfl

/-- What is in effect is in effect when it is asked for. -/
theorem effective_effective (mode : Mode) :
    effective mode (effective mode eis hdr).1 (effective mode eis hdr).2 =
      effective mode eis hdr := by
  cases mode <;> rfl

end Effective

variable {mode : Mode} {eis : EisMode} {hdr : HdrMode} {p : Params} {s : Selection}

/-- The modes in effect are looked at first; only then the store is read, for them alone. -/
theorem choose_eq (mode : Mode) (eis : EisMode) (hdr : HdrMode) (p : Params) :
    choose mode eis hdr p =
      if (effective mode eis hdr).1.isSupported then
        assemble mode (effective mode eis hdr).1 (effective mode eis hdr).2 <$>
          readout mode (effective mode eis hdr).2 p
      else .error (.unsupportedEis (effective mode eis hdr).1) := by
  simp only [choose, readout]
  generalize effective mode eis hdr = inEffect
  obtain ⟨eis', hdr'⟩ := inEffect
  cases eis'.isSupported with
  | false => rfl
  | true =>
      cases sensorFor p hdr' (variantOf mode hdr') with
      | error e => rfl
      | ok sensor => cases p.getOr "sensor.0:name" "sensor" <;> rfl

/-- A choice depends on stabilization and HDR only through what is in effect. -/
theorem choose_congr {eis' : EisMode} {hdr' : HdrMode}
    (h : effective mode eis hdr = effective mode eis' hdr') (p : Params) :
    choose mode eis hdr p = choose mode eis' hdr' p := by
  rw [choose_eq, choose_eq, h]

theorem choose_eq_ok (h : choose mode eis hdr p = .ok s) :
    s.mode = mode ∧ (s.eis, s.hdr) = effective mode eis hdr := by
  rw [choose_eq] at h
  split at h
  · cases hr : readout mode (effective mode eis hdr).2 p with
    | error e =>
        rw [hr] at h
        cases h
    | ok read =>
        rw [hr] at h
        cases h
        exact ⟨rfl, rfl⟩
  · cases h

/-- What is in effect is chosen again. -/
theorem choose_of_choose (h : choose mode eis hdr p = .ok s) :
    choose s.mode s.eis s.hdr p = .ok s := by
  obtain ⟨rfl, heffective⟩ := choose_eq_ok h
  have hagain := effective_effective eis hdr s.mode
  rw [← heffective] at hagain
  exact (choose_congr (hagain.trans heffective) p).trans h

/-- Stabilization makes no difference to a choice but to say that it is on. -/
theorem choose_steady (h : mode ≠ .slowMotion) (hdr : HdrMode) (p : Params) :
    choose mode .normalSteady hdr p = steadied <$> choose mode .off hdr p := by
  rw [choose_eq, choose_eq, effective_of_ne_slowMotion .normalSteady hdr h,
    effective_of_ne_slowMotion .off hdr h]
  simp only [EisMode.isSupported, if_true]
  cases readout mode (effective mode .off hdr).2 p <;> rfl

theorem eis_of_choose_off (h : choose mode .off hdr p = .ok s) : s.eis = .off := by
  have heffective := (choose_eq_ok h).2
  cases mode <;> exact congrArg Prod.fst heffective

end Selection

namespace PipelineAttr

/-- The attributes with stabilization on: every record encoder has a warp stage in front of it. -/
def steadied (attr : PipelineAttr) (buffers : Buffers) : PipelineAttr :=
  { attr with
    selection := attr.selection.steadied
    gdc := attr.main.map fun venc => ⟨venc.geometry, buffers.gdc⟩ }

theorem assemble_steadied (s : Selection) (buffers : Buffers) (smartAe : Bool)
    (main sub : Option VencAttr) (photo : Option JpegAttr) (display : Option DisplayAttr)
    (osd : Option Geometry) (rawTap recordOnInit : Bool) :
    assemble s.steadied buffers smartAe main sub photo display osd rawTap recordOnInit =
      (assemble s buffers smartAe main sub photo display osd rawTap recordOnInit).steadied
        buffers := by
  cases main <;> rfl

/-- Stabilization makes no difference to the attributes but for the warp stage: every parameter is
read as without it. -/
theorem derive_steadied (s : Selection) (p : Params) (buffers : Buffers) :
    derive s.steadied p buffers = (·.steadied buffers) <$> derive s p buffers := by
  rw [derive_eq, derive_eq]
  simp only [map_bind, map_pure, assemble_steadied]
  rfl

theorem gdc_of_derive {s : Selection} {p : Params} {buffers : Buffers} {attr : PipelineAttr}
    (hs : s.eis = .off) (h : derive s p buffers = .ok attr) : attr.gdc = none := by
  simp only [derive_eq, bind_eq_ok] at h
  obtain ⟨_, _, main, _, _, _, _, _, _, _, _, _, _, _, _, _, _, _, _, _, heq⟩ := h
  cases heq
  cases main <;> simp [assemble, Selection.usesGdc, hs]

end PipelineAttr

namespace Selection

/-- In slow motion a choice depends neither on stabilization nor on HDR, and in time lapse not on
HDR. In every mode but slow motion stabilization fails no choice and no derivation, cures none and
changes no error; where they succeed, it shows in what is said of it and in the warp stage alone.
And what is in effect is chosen again. -/
theorem choose_precedence (p : Params) (buffers : Buffers) :
    (∀ eis eis' hdr hdr',
      choose .slowMotion eis hdr p = choose .slowMotion eis' hdr' p) ∧
    (∀ eis hdr hdr', choose .timeLapse eis hdr p = choose .timeLapse eis hdr' p) ∧
    (∀ mode hdr, mode ≠ .slowMotion →
      choose mode .normalSteady hdr p = steadied <$> choose mode .off hdr p ∧
      ∀ s, choose mode .off hdr p = .ok s →
        PipelineAttr.derive s.steadied p buffers =
          (·.steadied buffers) <$> PipelineAttr.derive s p buffers ∧
        ∀ attr, PipelineAttr.derive s p buffers = .ok attr → attr.gdc = none) ∧
    ∀ mode eis hdr s, choose mode eis hdr p = .ok s → choose s.mode s.eis s.hdr p = .ok s := by
  refine ⟨fun _ _ _ _ => choose_congr rfl p, fun _ _ _ => choose_congr rfl p,
    fun mode hdr h => ⟨choose_steady h hdr p, fun s hs => ?_⟩,
    fun _ _ _ _ => choose_of_choose⟩
  exact ⟨PipelineAttr.derive_steadied s p buffers,
    fun _ => PipelineAttr.gdc_of_derive (eis_of_choose_off hs)⟩

/-- A sensor with dual gain, and an encoder that is smaller than it. -/
def dualGain : Params := .ofList [("sensor.dag_hdr:width", "1920"),
  ("sensor.dag_hdr:height", "1080"), ("video.0:width", "1280"), ("video.0:height", "720")]

/-- Stabilization puts a warp stage in front of the encoder; HDR without a readout is refused with
it as without. -/
theorem choose_precedence_dualGain :
    (∃ s attr, choose .video .off .dag dualGain = .ok s ∧
      choose .video .normalSteady .dag dualGain = .ok s.steadied ∧
      PipelineAttr.derive s dualGain {} = .ok attr ∧ attr.gdc = none ∧
      PipelineAttr.derive s.steadied dualGain {} = .ok (attr.steadied {}) ∧
      (attr.steadied {}).gdc = some ⟨⟨1280, 720⟩, 3⟩) ∧
    choose .photo .normalSteady .staggered dualGain =
      .error (.unconfiguredHdr .staggered .staggeredHdr) := by
  obtain ⟨-, -, hsteady, -⟩ := choose_precedence dualGain {}
  obtain ⟨hchoose, hderive⟩ := hsteady .video .dag nofun
  obtain ⟨s, hs⟩ : ∃ s, choose .video .off .dag dualGain = .ok s := ⟨_, rfl⟩
  obtain ⟨attr, hattr⟩ : ∃ attr, PipelineAttr.derive s dualGain {} = .ok attr := by
    cases hs
    exact ⟨_, rfl⟩
  obtain ⟨hsteadied, hgdc⟩ := hderive s hs
  refine ⟨⟨s, attr, hs, hchoose.trans (by rw [hs]; rfl), hattr, hgdc attr hattr,
    hsteadied.trans (by rw [hattr]; rfl), ?_⟩, (hsteady .photo .staggered nofun).1.trans rfl⟩
  cases hs
  cases hattr
  rfl

end Selection
end CameraPipeline
