import CameraPipeline.Proofs.Media.Precedence

/-!
Where the format of a choice comes from. A sensor section counts as described when it gives a
width. Then each of its entries stands in the format as it is written, the size has to be whole,
and an entry that cannot be read fails the choice. A section without a width is passed over,
whatever else it gives.
-/

namespace CameraPipeline

/-- The entries of a sensor section. -/
inductive SensorField where
  | width | height | fps | bits
  deriving DecidableEq

namespace SensorField

def name : SensorField → String
  | width => "width"
  | height => "height"
  | fps => "fps"
  | bits => "bits"

/-- What stands for an entry that is not given; the size has to be given. -/
def default? : SensorField → Option UInt32
  | width | height => none
  | fps => some 30
  | bits => some 10

end SensorField

namespace SensorFormat

def value (f : SensorFormat) : SensorField → UInt32
  | .width => f.geometry.width
  | .height => f.geometry.height
  | .fps => f.fps
  | .bits => f.bits

/-- Half the width and height, sped up. -/
def binned (f : SensorFormat) (speed : UInt32) : SensorFormat :=
  ⟨⟨f.geometry.width / 2, f.geometry.height / 2⟩, f.fps * speed, f.bits⟩

end SensorFormat

namespace SensorVariant

variable {v : SensorVariant} {p : Params} {field : SensorField} {f : SensorFormat}
  {fault : ParamFault} {raw : String}

/-- What is written under an entry of the section. -/
def text? (v : SensorVariant) (p : Params) (field : SensorField) : Option String :=
  p.get? (v.key field.name)

/-- The section gives a width. -/
def IsDescribed (v : SensorVariant) (p : Params) : Prop := (v.text? p .width).isSome

instance : Decidable (v.IsDescribed p) := inferInstanceAs (Decidable (_ = true))

/-- Reads an entry of the section. -/
def read (v : SensorVariant) (p : Params) (field : SensorField) : Except ParamFault UInt32 :=
  match field.default? with
  | some default => p.getOr (v.key field.name) default
  | none => p.require (v.key field.name)

theorem read_of_text (h : v.text? p field = some raw) :
    v.read p field = Params.parse (v.key field.name) raw := by
  rw [text?] at h
  rw [read]
  split <;> simp only [Params.getOr, Params.require, h]

theorem read_of_no_text (hfield : field.default? = none) (h : v.text? p field = none) :
    v.read p field = .error (.missing (v.key field.name)) := by
  rw [text?] at h
  simp only [read, hfield, Params.require, h]

theorem isDescribed_of_read {n : UInt32} (h : v.read p .width = .ok n) : v.IsDescribed p := by
  rw [IsDescribed]
  cases htext : v.text? p .width with
  | some raw => rfl
  | none =>
      rw [read_of_no_text rfl htext] at h
      cases h

/-- The readout whose section gives the format: the linear one stands in for a binned one that is
not described. -/
def source (v : SensorVariant) (p : Params) : SensorVariant :=
  if v = .binning ∧ ¬v.IsDescribed p then .linear else v

theorem source_binning (h : ¬binning.IsDescribed p) : binning.source p = .linear := by
  rw [source, if_pos ⟨rfl, h⟩]

theorem source_of_isDescribed (h : v.IsDescribed p) : v.source p = v := by
  rw [source, if_neg fun hv => hv.2 h]

theorem source_of_ne (h : v ≠ .binning) : v.source p = v := by
  rw [source, if_neg fun hv => h hv.1]

end SensorVariant

namespace Selection

open SensorVariant

variable {p : Params} {v : SensorVariant} {hdr : HdrMode} {base f : SensorFormat}
  {ratio : UInt32} {s : Selection}

/-- The format that a section comes to. Only the linear one need not be described. -/
inductive Gives (p : Params) : SensorVariant → SensorFormat → Prop
  | described {v : SensorVariant} {base : SensorFormat}
      (entries : ∀ field, v.read p field = .ok (base.value field)) : Gives p v base
  | default (absent : ¬SensorVariant.linear.IsDescribed p) : Gives p .linear defaultLinear

/-- What becomes of the format of the section that stands for a readout. -/
inductive Draws (p : Params) (v : SensorVariant) (base : SensorFormat) : SensorFormat → Prop
  | whole (own : v.source p = v) : Draws p v base base
  | binned (ratio : UInt32) (absent : v = .binning ∧ ¬v.IsDescribed p)
      (read : p.getOr slowMotionRatioKey 4 = .ok ratio)
      (fits : base.fps.toNat * (max ratio 1).toNat < UInt32.size) :
      Draws p v base (base.binned (max ratio 1))

theorem sensor?_eq (p : Params) (v : SensorVariant) :
    sensor? p v = if v.IsDescribed p then do
      let width ← v.read p .width
      let height ← v.read p .height
      let fps ← v.read p .fps
      let bits ← v.read p .bits
      return some ⟨⟨width, height⟩, fps, bits⟩
    else .ok none := by
  by_cases h : v.IsDescribed p
  · have hsome : (p.get? (v.key "width")).isNone = false := Option.isNone_eq_false_iff.mpr h
    rw [if_pos h, sensor?, hsome]
    rfl
  · have hnone : (p.get? (v.key "width")).isNone = true := by
      simpa [IsDescribed, text?, SensorField.name] using h
    rw [if_neg h, sensor?, hnone]
    rfl

theorem sensor?_eq_none_iff : sensor? p v = .ok none ↔ ¬v.IsDescribed p := by
  rw [sensor?_eq]
  by_cases h : v.IsDescribed p
  · simp [h, PipelineAttr.bind_eq_ok, pure, Except.pure]
  · simp [h]

theorem sensor?_eq_some_iff :
    sensor? p v = .ok (some f) ↔ ∀ field, v.read p field = .ok (f.value field) := by
  rw [sensor?_eq]
  constructor
  · intro h
    split at h
    · simp only [PipelineAttr.bind_eq_ok] at h
      obtain ⟨width, hwidth, height, hheight, fps, hfps, bits, hbits, heq⟩ := h
      cases heq
      intro field
      cases field <;> assumption
    · cases h
  · intro h
    rw [if_pos (isDescribed_of_read (h .width)), h .width, h .height, h .fps, h .bits]
    rfl

theorem gives_of_isDescribed (h : v.IsDescribed p) :
    Gives p v base ↔ ∀ field, v.read p field = .ok (base.value field) := by
  refine ⟨fun hgives => ?_, .described⟩
  cases hgives with
  | described entries => exact entries
  | default absent => exact absurd h absent

theorem gives_of_not_isDescribed (h : ¬v.IsDescribed p) :
    Gives p v base ↔ v = .linear ∧ base = defaultLinear := by
  constructor
  · intro hgives
    cases hgives with
    | described entries => exact absurd (isDescribed_of_read (entries .width)) h
    | default absent => exact ⟨rfl, rfl⟩
  · rintro ⟨rfl, rfl⟩
    exact .default h

theorem gives_linear_iff : Gives p .linear base ↔
    ∃ f, sensor? p .linear = .ok f ∧ f.getD defaultLinear = base := by
  constructor
  · intro h
    cases h with
    | described entries => exact ⟨some base, sensor?_eq_some_iff.mpr entries, rfl⟩
    | default absent => exact ⟨none, sensor?_eq_none_iff.mpr absent, rfl⟩
  · rintro ⟨f, hf, rfl⟩
    cases f with
    | none => exact .default (sensor?_eq_none_iff.mp hf)
    | some f => exact .described (sensor?_eq_some_iff.mp hf)

/-- The binned format is drawn from the linear one, unless the rate gets too high. -/
theorem binned_eq (hbase : Gives p .linear base)
    (hratio : p.getOr slowMotionRatioKey 4 = .ok ratio) :
    binned p = if base.fps.toNat * (max ratio 1).toNat < UInt32.size
      then .ok (base.binned (max ratio 1))
      else .error (.invalid slowMotionRatioKey (ToText.write ratio)) := by
  obtain ⟨f, hf, rfl⟩ := gives_linear_iff.mp hbase
  simp only [binned, hf, hratio, bind, Except.bind, mul?]
  by_cases hfits : (f.getD defaultLinear).fps.toNat * (max ratio 1).toNat < UInt32.size
  · rw [if_pos hfits, if_pos hfits]
    rfl
  · rw [if_neg hfits, if_neg hfits]
    rfl

theorem binned_eq_ok_iff : binned p = .ok f ↔ ∃ base ratio, Gives p .linear base ∧
    p.getOr slowMotionRatioKey 4 = .ok ratio ∧
    base.fps.toNat * (max ratio 1).toNat < UInt32.size ∧ f = base.binned (max ratio 1) := by
  constructor
  · intro h
    obtain ⟨linear, hlinear, h'⟩ := PipelineAttr.bind_eq_ok.mp h
    obtain ⟨ratio, hratio, -⟩ := PipelineAttr.bind_eq_ok.mp h'
    have hbase := gives_linear_iff.mpr ⟨linear, hlinear, rfl⟩
    rw [binned_eq hbase hratio] at h
    split at h
    · cases h
      exact ⟨_, ratio, hbase, hratio, ‹_›, rfl⟩
    · cases h
  · rintro ⟨base, ratio, hbase, hratio, hfits, rfl⟩
    rw [binned_eq hbase hratio, if_pos hfits]

theorem sensorFor_eq (p : Params) (hdr : HdrMode) (v : SensorVariant) :
    sensorFor p hdr v = match sensor? p v, v with
      | .error fault, _ => .error (.param fault)
      | .ok (some f), _ => .ok f
      | .ok none, .linear => .ok defaultLinear
      | .ok none, .binning => (binned p).mapError .param
      | .ok none, v => .error (.unconfiguredHdr hdr v) := by
  rw [sensorFor]
  cases sensor? p v with
  | error fault => rfl
  | ok f =>
      cases f with
      | some f => cases v <;> rfl
      | none =>
          cases v with
          | linear | dagHdr | staggeredHdr => rfl
          | binning => cases binned p <;> rfl

theorem sensorFor_of_isDescribed (h : v.IsDescribed p) :
    sensorFor p hdr v = .ok f ↔ sensor? p v = .ok (some f) := by
  rw [sensorFor_eq]
  cases hsensor : sensor? p v with
  | error fault => simp
  | ok found =>
      cases found with
      | none => exact absurd h (sensor?_eq_none_iff.mp hsensor)
      | some f' => simp

theorem draws_of_source (h : v.source p = v) : Draws p v base f ↔ base = f := by
  constructor
  · intro hdraws
    cases hdraws with
    | whole => rfl
    | binned _ absent =>
        obtain ⟨rfl, habsent⟩ := absent
        rw [source_binning habsent] at h
        cases h
  · rintro rfl
    exact .whole h

theorem draws_binning (h : ¬binning.IsDescribed p) : Draws p .binning base f ↔
    ∃ ratio, p.getOr slowMotionRatioKey 4 = .ok ratio ∧
      base.fps.toNat * (max ratio 1).toNat < UInt32.size ∧ f = base.binned (max ratio 1) := by
  constructor
  · intro hdraws
    cases hdraws with
    | whole own =>
        rw [source_binning h] at own
        cases own
    | binned ratio _ read fits => exact ⟨ratio, read, fits, rfl⟩
  · rintro ⟨ratio, read, fits, rfl⟩
    exact .binned ratio ⟨rfl, h⟩ read fits

/-- The format of a readout is what its section comes to, or is drawn from it. -/
theorem sensorFor_eq_ok_iff : sensorFor p hdr v = .ok f ↔
    ∃ base, Gives p (v.source p) base ∧ Draws p v base f := by
  by_cases hv : v.IsDescribed p
  · have hsource := source_of_isDescribed hv
    simp only [sensorFor_of_isDescribed hv, sensor?_eq_some_iff, hsource, draws_of_source hsource,
      exists_eq_right, gives_of_isDescribed hv]
  · rw [sensorFor_eq, sensor?_eq_none_iff.mpr hv]
    cases v with
    | linear =>
        have hsource := source_of_ne (p := p) (v := .linear) nofun
        simp only [hsource, draws_of_source hsource, gives_of_not_isDescribed hv, exists_eq_right,
          true_and, Except.ok.injEq]
        exact eq_comm
    | dagHdr | staggeredHdr =>
        simp only [source_of_ne, gives_of_not_isDescribed hv, reduceCtorEq, false_and, exists_false,
          ne_eq, not_false_eq_true]
    | binning =>
        simp only [source_binning hv, draws_binning hv, PipelineAttr.mapError_eq_ok_iff, binned_eq_ok_iff,
          exists_and_left]

/-- The readout that the modes in the parameters ask for. -/
def variant? (p : Params) : Except ParamFault SensorVariant := do
  let mode ← p.getOr modeKey Mode.video
  let hdr ← p.getOr hdrKey HdrMode.linear
  return variantOf mode (effective mode .off hdr).2

theorem select_eq_ok_iff : select p = .ok s ↔ ∃ mode eis hdr,
    p.getOr modeKey Mode.video = .ok mode ∧ p.getOr eisKey EisMode.off = .ok eis ∧
      p.getOr hdrKey HdrMode.linear = .ok hdr ∧ choose mode eis hdr p = .ok s := by
  have hlift {α : Type} (m : Except ParamFault α) (a : α) :
      (liftM m : Except ConfigError α) = .ok a ↔ m = .ok a := PipelineAttr.mapError_eq_ok_iff
  simp only [select, PipelineAttr.bind_eq_ok, hlift, exists_and_left]

theorem sensorFor_of_choose {mode : Mode} {eis : EisMode} (h : choose mode eis hdr p = .ok s) :
    s.variant = variantOf mode (effective mode eis hdr).2 ∧
      sensorFor p (effective mode eis hdr).2 s.variant = .ok s.sensor := by
  rw [choose_eq] at h
  split at h
  · cases hread : readout mode (effective mode eis hdr).2 p with
    | error e =>
        rw [hread] at h
        cases h
    | ok read =>
        rw [hread] at h
        cases h
        obtain ⟨sensor, hsensor, hname⟩ := PipelineAttr.bind_eq_ok.mp hread
        obtain ⟨name, -, heq⟩ := PipelineAttr.bind_eq_ok.mp hname
        cases heq
        exact ⟨rfl, hsensor⟩
  · cases h

theorem variant_of_select (h : select p = .ok s) :
    variant? p = .ok s.variant ∧
      ∃ base, Gives p (s.variant.source p) base ∧ Draws p s.variant base s.sensor := by
  obtain ⟨mode, eis, hdr, hmode, -, hhdr, hchoose⟩ := select_eq_ok_iff.mp h
  obtain ⟨hvariant, hsensor⟩ := sensorFor_of_choose hchoose
  have heffective : (effective mode eis hdr).2 = (effective mode .off hdr).2 := by
    cases mode <;> rfl
  refine ⟨?_, sensorFor_eq_ok_iff.mp hsensor⟩
  rw [variant?, hmode, hhdr, hvariant, heffective]
  rfl

/-- A choice has the format that a sensor section comes to, the binned one drawn from the linear
one where it is not described. If the section is described, whatever stands in it stands in the
format, and an entry that cannot be read, or a height that is missing, fails the choice. If it is
not, the choice has the default linear format whatever else the section gives, or fails where
another readout is asked for. -/
theorem select_readout (p : Params) :
    (∀ s, select p = .ok s → ∃ base, Draws p s.variant base s.sensor ∧
      ((s.variant.source p).IsDescribed p → ∀ field raw,
        (s.variant.source p).text? p field = some raw →
          Params.parse ((s.variant.source p).key field.name) raw = .ok (base.value field)) ∧
      (¬(s.variant.source p).IsDescribed p →
        s.variant.source p = .linear ∧ base = defaultLinear)) ∧
    ∀ v, variant? p = .ok v →
      (if (v.source p).IsDescribed p then
        (∃ field raw fault, (v.source p).text? p field = some raw ∧
          Params.parse (α := UInt32) ((v.source p).key field.name) raw = .error fault) ∨
        (v.source p).text? p .height = none
      else v.source p ≠ .linear) → ∃ e, select p = .error e := by
  constructor
  · intro s hs
    obtain ⟨-, base, hgives, hdraws⟩ := variant_of_select hs
    refine ⟨base, hdraws, fun hv field raw htext => ?_, fun hv => ?_⟩
    · rw [← read_of_text htext]
      exact (gives_of_isDescribed hv).mp hgives field
    · exact (gives_of_not_isDescribed hv).mp hgives
  · intro v hv hbad
    cases hselect : select p with
    | error e => exact ⟨e, rfl⟩
    | ok s =>
        exfalso
        obtain ⟨hvariant, base, hgives, -⟩ := variant_of_select hselect
        cases hv.symm.trans hvariant
        split at hbad
        · rename_i hdescribed
          have hread := (gives_of_isDescribed hdescribed).mp hgives
          obtain ⟨field, raw, fault, htext, hparse⟩ | hheight := hbad
          · cases (hread field).symm.trans ((read_of_text htext).trans hparse)
          · cases (hread .height).symm.trans (read_of_no_text rfl hheight)
        · rename_i hdescribed
          exact hbad ((gives_of_not_isDescribed hdescribed).mp hgives).1

/-- A linear sensor that reads more bits at another size, in slow motion. -/
def spedUp : Params := .ofList [("video.source:mode", "slow_motion"),
  ("sensor.linear:width", "1920"), ("sensor.linear:height", "1080"), ("sensor.linear:bits", "12")]

/-- A linear sensor whose bits cannot be read. -/
def garbled : Params := .ofList [("sensor.linear:width", "1920"),
  ("sensor.linear:height", "1080"), ("sensor.linear:bits", "ten")]

theorem select_readout_spedUp :
    (∃ s base, select spedUp = .ok s ∧ s.sensor = ⟨⟨960, 540⟩, 120, 12⟩ ∧
      Draws spedUp .binning base s.sensor ∧ base.value .width = 1920 ∧ base.value .bits = 12) ∧
    ∃ e, select garbled = .error e := by
  constructor
  · obtain ⟨hformat, -⟩ := select_readout spedUp
    obtain ⟨s, hs⟩ : ∃ s, select spedUp = .ok s := ⟨_, rfl⟩
    obtain ⟨base, hdraws, hgiven, -⟩ := hformat s hs
    cases hs
    have hwidth := hgiven rfl .width "1920" rfl
    have hbits := hgiven rfl .bits "12" rfl
    exact ⟨_, base, rfl, rfl, hdraws, (Except.ok.inj hwidth).symm, (Except.ok.inj hbits).symm⟩
  · obtain ⟨-, hfails⟩ := select_readout garbled
    have hdescribed : (linear.source garbled).IsDescribed garbled := rfl
    refine hfails .linear rfl ?_
    rw [if_pos hdescribed]
    exact .inl ⟨.bits, "ten", _, rfl, rfl⟩

/-- Without a width the rate that the linear section gives is passed over. -/
theorem rate_passed_over :
    let p : Params := .ofList [("sensor.linear:fps", "25")]
    ∃ s, select p = .ok s ∧ s.variant.source p = .linear ∧
      SensorVariant.linear.text? p .fps = some "25" ∧
      Params.parse (SensorVariant.linear.key "fps") "25" = .ok (25 : UInt32) ∧
      s.sensor.value .fps = 30 :=
  ⟨_, rfl, rfl, rfl, rfl, rfl⟩

end Selection
end CameraPipeline
