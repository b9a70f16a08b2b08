import CameraPipeline.Media.PipelineAttr

/-!
What a plan depends on. Neither the choices that a build writes back nor the two switches that
commands write while a pipeline stands feed into the rest of a plan, so stores that differ in them
alone ask for the same pipeline but for what the switches say.
-/

namespace CameraPipeline

/-- The keys under which a build records its choices. -/
def Selection.written : List String :=
  ["isp.0:force_iq_name", "isp.0:aiq_mode", "video.source:effective_eis", "isp.0:effective_hdr"]

theorem Selection.get?_writeBack (s : Selection) (p : Params) {key : String}
    (hk : key ∉ written) : (s.writeBack p).get? key = p.get? key := by
  simp only [written, List.mem_cons, List.not_mem_nil, or_false, not_or] at hk
  obtain ⟨hiq, haiq, heis, hhdr⟩ := hk
  simp only [writeBack, Params.setValue]
  rw [Table.get?_insert_of_ne _ _ hhdr, Table.get?_insert_of_ne _ _ heis,
    Table.get?_insert_of_ne _ _ haiq, Table.get?_insert_of_ne _ _ hiq]

namespace Params

/-- The keys that are written while a pipeline stands. -/
def live : List String :=
  Selection.written ++ [PipelineAttr.smartAeKey, PipelineAttr.enableRecordKey]

/-- The stores differ at most in what is written while a pipeline stands. -/
def Agree (p q : Params) : Prop := ∀ key, key ∉ live → q.get? key = p.get? key

variable {α : Type} [FromText α] {p q : Params} {key : String}

theorem agree_insert (p : Params) {value : String} (hk : key ∈ live) :
    p.Agree (p.insert key value) :=
  fun _ hk' => Table.get?_insert_of_ne _ _ fun heq => hk' (heq ▸ hk)

theorem agree_writeBack (p : Params) (s : Selection) : p.Agree (s.writeBack p) :=
  fun _ hk => s.get?_writeBack p fun hw => hk (List.mem_append_left _ hw)

theorem getSwitch_congr (h : q.get? key = p.get? key) (default : Bool) :
    q.getSwitch key default = p.getSwitch key default := by
  simp only [Params.getSwitch, h]

theorem getSwitch_insert_self (p : Params) (key : String) (on default : Bool) :
    getSwitch (p.insert key (switchText on)) key default = .ok on := by
  have hs : switch? (switchText on) = some on := by cases on <;> rfl
  simp only [getSwitch, Table.get?_insert_self, hs]

namespace Agree

variable (h : p.Agree q)

include h

theorem getOr (hk : key ∉ live) (default : α) : q.getOr key default = p.getOr key default := by
  simp only [Params.getOr, h key hk]

theorem require (hk : key ∉ live) : q.require (α := α) key = p.require key := by
  simp only [Params.require, h key hk]

theorem getSwitch (hk : key ∉ live) (default : Bool) :
    q.getSwitch key default = p.getSwitch key default :=
  getSwitch_congr (h key hk) default

end Agree
end Params

namespace Selection

variable {p q : Params} (h : p.Agree q)

include h

theorem sensor?_congr (variant : SensorVariant) : sensor? q variant = sensor? p variant := by
  have hk : ∀ field ∈ ["width", "height", "fps", "bits"], variant.key field ∉ Params.live := by
    cases variant <;> decide
  simp only [sensor?, h _ (hk "width" (by decide)), h.require (hk "width" (by decide)),
    h.require (hk "height" (by decide)), h.getOr (hk "fps" (by decide)),
    h.getOr (hk "bits" (by decide))]

theorem binned_congr : binned q = binned p := by
  simp (disch := decide) only [binned, sensor?_congr h, h.getOr]

theorem select_congr : select q = select p := by
  simp (disch := decide) only [select, choose, sensorFor, binned_congr h, sensor?_congr h, h.getOr]

end Selection

namespace PipelineAttr

/-- Records on build, where there is something to record. -/
def recordOnInit? (mode : Mode) (p : Params) : Except ParamFault Bool :=
  if mode = .photo then pure false else p.getSwitch enableRecordKey true

def osd? (main : Option VencAttr) (p : Params) : Except ParamFault (Option Geometry) :=
  match main with
  | some venc => do
    let on ← p.getSwitch osdEnableKey false
    pure (if on then some venc.geometry else none)
  | none => pure none

variable {s : Selection} {p q : Params} {buffers : Buffers} {attr : PipelineAttr}

theorem bind_eq_ok {ε α β : Type} {m : Except ε α} {f : α → Except ε β} {b : β} :
    m >>= f = .ok b ↔ ∃ a, m = .ok a ∧ f a = .ok b := by
  cases m <;> simp [bind, Except.bind]

theorem mapError_eq_ok_iff {ε ε' α : Type} {m : Except ε α} {g : ε → ε'} {a : α} :
    m.mapError g = .ok a ↔ m = .ok a := by
  cases m with
  | error e => constructor <;> intro h <;> cases h
  | ok v =>
      change Except.ok v = .ok a ↔ _
      rw [Except.ok.injEq, Except.ok.injEq]

/-- The attributes that the parts make up. -/
def assemble (s : Selection) (buffers : Buffers) (smartAe : Bool) (main sub : Option VencAttr)
    (photo : Option JpegAttr) (display : Option DisplayAttr) (osd : Option Geometry)
    (rawTap recordOnInit : Bool) : PipelineAttr where
  selection := s
  vi := ⟨s.sensor.geometry, s.sensor.fps, .nv12, buffers.vi, smartAe⟩
  main := main
  gdc := main.bind fun venc => if s.usesGdc then some ⟨venc.geometry, buffers.gdc⟩ else none
  sub := sub
  photo := photo
  display := display
  osd := osd
  rawTap := rawTap
  recordOnInit := recordOnInit
  recordFps := (main.map (·.dstFps)).getD 0

theorem derive_eq (s : Selection) (p : Params) (buffers : Buffers) :
    derive s p buffers = do
      let smartAe ← p.getSwitch smartAeKey false
      let main ← whenOn (s.mode ≠ .photo) (mainAttr s p buffers)
      let rtsp ← p.getSwitch enableRtspKey false
      let sub ← whenOn rtsp (subAttr s p buffers)
      let photo ← whenOn (s.mode = .photo) (photoAttr s p)
      let shown ← p.getSwitch enableDisplayKey false
      let display ← whenOn shown (displayAttr s p)
      let osd ← osd? main p
      let rawTap ← p.getSwitch enableRawTapKey false
      let recordOnInit ← recordOnInit? s.mode p
      return assemble s buffers smartAe main sub photo display osd rawTap recordOnInit := by
  simp only [derive]
  refine bind_congr fun smartAe => bind_congr fun main => bind_congr fun rtsp =>
    bind_congr fun sub => bind_congr fun photo => bind_congr fun shown =>
    bind_congr fun display => ?_
  cases main <;> simp only [osd?, recordOnInit?, assemble] <;> split <;> simp

theorem isSome_of_whenOn {α : Type} {on : Bool} {part : Except ParamFault α} {a : Option α}
    (h : whenOn on part = .ok a) : a.isSome = on := by
  cases on with
  | false =>
      cases h
      rfl
  | true =>
      cases part with
      | error fault => cases h
      | ok v =>
          cases h
          rfl

/-- What the switches say stands in the attributes, and every mode but photo has its encoder. -/
theorem switches_of_derive (h : derive s p buffers = .ok attr) :
    p.getSwitch smartAeKey false = .ok attr.vi.smartAe ∧
      recordOnInit? s.mode p = .ok attr.recordOnInit ∧ attr.selection = s ∧
      (attr.main.isSome ↔ s.mode ≠ .photo) := by
  simp only [derive_eq, bind_eq_ok] at h
  obtain ⟨smartAe, hsmartAe, main, hmain, _, _, _, _, _, _, _, _, _, _, _, _, _, _,
    recordOnInit, hrecord, heq⟩ := h
  cases heq
  refine ⟨hsmartAe, hrecord, rfl, ?_⟩
  simpa [assemble] using congrArg (· = true) (isSome_of_whenOn hmain)

theorem photo_of_derive (h : derive s p buffers = .ok attr) :
    attr.photo.isSome ↔ s.mode = .photo := by
  simp only [derive_eq, bind_eq_ok] at h
  obtain ⟨_, _, _, _, _, _, _, _, photo, hphoto, _, _, _, _, _, _, _, _, _, _, heq⟩ := h
  cases heq
  simpa [assemble] using congrArg (· = true) (isSome_of_whenOn hphoto)

section Agree

variable (h : p.Agree q)

include h

theorem mainAttr_congr (s : Selection) (buffers : Buffers) :
    mainAttr s q buffers = mainAttr s p buffers := by
  simp (disch := decide) only [mainAttr, geometryOr, recordRates, h.getOr, h.getSwitch]

theorem subAttr_congr (s : Selection) (buffers : Buffers) :
    subAttr s q buffers = subAttr s p buffers := by
  simp (disch := decide) only [subAttr, geometryOr, h.getOr]

theorem photoAttr_congr (s : Selection) : photoAttr s q = photoAttr s p := by
  simp (disch := decide) only [photoAttr, geometryOr, h.getOr]

theorem displayAttr_congr (s : Selection) : displayAttr s q = displayAttr s p := by
  simp (disch := decide) only [displayAttr, geometryOr, h.getOr]

theorem osd?_congr (main : Option VencAttr) : osd? main q = osd? main p := by
  simp (disch := decide) only [osd?, h.getSwitch]

/-- A store that agrees asks for the same attributes, but for its own two switches. -/
theorem derive_of_agree (hd : derive s p buffers = .ok attr) {smartAe recordOnInit : Bool}
    (hs : q.getSwitch smartAeKey false = .ok smartAe)
    (hr : recordOnInit? s.mode q = .ok recordOnInit) :
    derive s q buffers = .ok { attr with vi := { attr.vi with smartAe }, recordOnInit } := by
  simp only [derive_eq, bind_eq_ok] at hd
  obtain ⟨_, _, main, hmain, rtsp, hrtsp, sub, hsub, photo, hphoto, shown, hshown, display,
    hdisplay, osd, hosd, rawTap, hrawTap, _, _, heq⟩ := hd
  cases heq
  simp (disch := decide) only [derive_eq, bind_eq_ok, mainAttr_congr h, subAttr_congr h,
    photoAttr_congr h, displayAttr_congr h, osd?_congr h, h.getSwitch]
  exact ⟨_, hs, _, hmain, _, hrtsp, _, hsub, _, hphoto, _, hshown, _, hdisplay, _, hosd, _,
    hrawTap, _, hr, rfl⟩

end Agree

theorem plan_eq_ok : plan p buffers = .ok attr ↔
    ∃ s, Selection.select p = .ok s ∧ derive s p buffers = .ok attr := by
  simp only [plan, bind_eq_ok]
  exact exists_congr fun s => and_congr_right fun _ => mapError_eq_ok_iff

theorem plan_of_agree (h : p.Agree q) (hp : plan p buffers = .ok attr)
    {smartAe recordOnInit : Bool} (hs : q.getSwitch smartAeKey false = .ok smartAe)
    (hr : recordOnInit? attr.selection.mode q = .ok recordOnInit) :
    plan q buffers = .ok { attr with vi := { attr.vi with smartAe }, recordOnInit } := by
  obtain ⟨s, hsel, hd⟩ := plan_eq_ok.mp hp
  rw [(switches_of_derive hd).2.2.1] at hr
  exact plan_eq_ok.mpr ⟨s, (Selection.select_congr h).trans hsel, derive_of_agree h hd hs hr⟩

theorem switches_of_plan (hp : plan p buffers = .ok attr) :
    p.getSwitch smartAeKey false = .ok attr.vi.smartAe ∧
      recordOnInit? attr.selection.mode p = .ok attr.recordOnInit ∧
      (attr.main.isSome ↔ attr.selection.mode ≠ .photo) := by
  obtain ⟨s, _, hd⟩ := plan_eq_ok.mp hp
  obtain ⟨hs, hr, rfl, hm⟩ := switches_of_derive hd
  exact ⟨hs, hr, hm⟩

/-- A plan has an encoder for recordings or one for photos, not both. -/
theorem encoders_of_plan (hp : plan p buffers = .ok attr) :
    attr.main = none ∨ attr.photo = none := by
  obtain ⟨s, _, hd⟩ := plan_eq_ok.mp hp
  obtain ⟨_, _, rfl, hm⟩ := switches_of_derive hd
  have hj := photo_of_derive hd
  by_cases hmode : attr.selection.mode = .photo
  · exact .inl (by simpa [hmode] using hm)
  · exact .inr (by simpa [hmode] using hj)

theorem recordOnInit?_congr (h : q.get? enableRecordKey = p.get? enableRecordKey)
    (mode : Mode) : recordOnInit? mode q = recordOnInit? mode p := by
  simp only [recordOnInit?, Params.getSwitch_congr h]

/-- Where a plan records, there is an encoder for it. -/
theorem main_and_recordOnInit (hp : plan p buffers = .ok attr) :
    (attr.main.isSome && attr.recordOnInit) = attr.recordOnInit := by
  obtain ⟨_, hr, hm⟩ := switches_of_plan hp
  cases hon : attr.recordOnInit with
  | false => simp
  | true =>
      rw [hon] at hr
      have hmode : attr.selection.mode ≠ .photo := by
        intro hmode
        rw [recordOnInit?, if_pos hmode] at hr
        cases hr
      simp [hm.mpr hmode]

/-- What a build writes back does not feed into the next plan. -/
theorem plan_writeBack (hp : plan p buffers = .ok attr) (s : Selection) :
    plan (s.writeBack p) buffers = .ok attr := by
  obtain ⟨hs, hr, _⟩ := switches_of_plan hp
  have hkey : (s.writeBack p).get? smartAeKey = p.get? smartAeKey :=
    s.get?_writeBack p (by decide)
  have hsmartAe := Params.getSwitch_congr hkey false
  have hrecord := recordOnInit?_congr (s.get?_writeBack p (by decide)) attr.selection.mode
  exact plan_of_agree (p.agree_writeBack s) hp (hsmartAe.trans hs) (hrecord.trans hr)

theorem smartAeKey_ne : smartAeKey ≠ enableRecordKey := by
  decide

/-- The live switch of the input is what a plan from the new store says. -/
theorem plan_insert_smartAe (hp : plan p buffers = .ok attr) (on : Bool) :
    plan (p.insert smartAeKey (Params.switchText on)) buffers =
      .ok { attr with vi := { attr.vi with smartAe := on } } := by
  obtain ⟨_, hr, _⟩ := switches_of_plan hp
  have hrecord := recordOnInit?_congr
    (Table.get?_insert_of_ne p (Params.switchText on) smartAeKey_ne.symm) attr.selection.mode
  exact plan_of_agree (p.agree_insert (by decide)) hp (p.getSwitch_insert_self _ on _)
    (hrecord.trans hr)

/-- The switch of the recording counts wherever there is a record encoder. -/
theorem plan_insert_enableRecord (hp : plan p buffers = .ok attr) (on : Bool) :
    plan (p.insert enableRecordKey (Params.switchText on)) buffers =
      .ok { attr with recordOnInit := attr.main.isSome && on } := by
  obtain ⟨hs, _, hm⟩ := switches_of_plan hp
  have hsmartAe := Params.getSwitch_congr
    (Table.get?_insert_of_ne p (Params.switchText on) smartAeKey_ne) false
  refine plan_of_agree (p.agree_insert (by decide)) hp (hsmartAe.trans hs) ?_
  by_cases hmode : attr.selection.mode = .photo
  · have hnone : attr.main.isSome = false := Bool.eq_false_iff.mpr fun h => hm.mp h hmode
    rw [recordOnInit?, if_pos hmode, hnone]
    rfl
  · rw [hm.mpr hmode, recordOnInit?, if_neg hmode, Params.getSwitch_insert_self]
    rfl

end PipelineAttr
end CameraPipeline
