import CameraPipeline.Media.Mode
import CameraPipeline.Proofs.Text.Numeral

/-!
Parameters with types. What is written for a value is read as that value, with any blanks around it
and, where a type has words, in any case; a text that writes no value of the type is refused as it
stands.
-/

namespace CameraPipeline

open Text

/-- The types that parameters are read as. -/
inductive ParamType where
  | u8 | u32 | u64 | i32 | i64 | bool | mode | eisMode | hdrMode
  deriving DecidableEq

/-- The integers of a type: whether there are negative ones, the least and the greatest. -/
structure IntegerRange where
  signed : Bool
  least : Int
  greatest : Int

namespace ParamType

abbrev Value : ParamType → Type
  | u8 => UInt8
  | u32 => UInt32
  | u64 => UInt64
  | i32 => Int32
  | i64 => Int64
  | bool => Bool
  | mode => Mode
  | eisMode => EisMode
  | hdrMode => HdrMode

instance : (t : ParamType) → FromText t.Value
  | u8 => inferInstanceAs (FromText UInt8)
  | u32 => inferInstanceAs (FromText UInt32)
  | u64 => inferInstanceAs (FromText UInt64)
  | i32 => inferInstanceAs (FromText Int32)
  | i64 => inferInstanceAs (FromText Int64)
  | bool => inferInstanceAs (FromText Bool)
  | mode => inferInstanceAs (FromText Mode)
  | eisMode => inferInstanceAs (FromText EisMode)
  | hdrMode => inferInstanceAs (FromText HdrMode)

instance : (t : ParamType) → ToText t.Value
  | u8 => inferInstanceAs (ToText UInt8)
  | u32 => inferInstanceAs (ToText UInt32)
  | u64 => inferInstanceAs (ToText UInt64)
  | i32 => inferInstanceAs (ToText Int32)
  | i64 => inferInstanceAs (ToText Int64)
  | bool => inferInstanceAs (ToText Bool)
  | mode => inferInstanceAs (ToText Mode)
  | eisMode => inferInstanceAs (ToText EisMode)
  | hdrMode => inferInstanceAs (ToText HdrMode)

def range? : ParamType → Option IntegerRange
  | u8 => some ⟨false, 0, 255⟩
  | u32 => some ⟨false, 0, 4294967295⟩
  | u64 => some ⟨false, 0, 18446744073709551615⟩
  | i32 => some ⟨true, -2147483648, 2147483647⟩
  | i64 => some ⟨true, -9223372036854775808, 9223372036854775807⟩
  | bool | mode | eisMode | hdrMode => none

/-- Are the values words in any case? -/
def ignoresCase : ParamType → Bool
  | mode | eisMode | hdrMode => true
  | u8 | u32 | u64 | i32 | i64 | bool => false

/-- The grammar of a type: do the characters, with no blanks around them, stand for the value? -/
def Spells : (t : ParamType) → List Char → t.Value → Prop
  | u8, cs, v => Numeral false cs (UInt8.toNat v)
  | u32, cs, v => Numeral false cs (UInt32.toNat v)
  | u64, cs, v => Numeral false cs (UInt64.toNat v)
  | i32, cs, v => Numeral true cs (Int32.toInt v)
  | i64, cs, v => Numeral true cs (Int64.toInt v)
  | bool, cs, v => cs = (if v then "true" else "false").toList
  | mode, cs, v => cs.map Char.toLower = (Mode.name v).toList
  | eisMode, cs, v => cs.map Char.toLower = (EisMode.name v).toList
  | hdrMode, cs, v => cs.map Char.toLower = (HdrMode.name v).toList

/-- The text stands for the value. -/
def Reads (t : ParamType) (text : String) (v : t.Value) : Prop :=
  ∃ cs, Surrounds text cs ∧ t.Spells cs v

/-- The text is what is written for the value, with blanks around it, and in any case if the type
ignores that. -/
def Restyled (t : ParamType) (text : String) (v : t.Value) : Prop :=
  ∃ cs, Surrounds text cs ∧ (cs = (ToText.write v).toList ∨
    t.ignoresCase = true ∧ cs.map Char.toLower = (ToText.write v).toList)

end ParamType

/-! ### Readers of one type -/

section Readers

variable {α : Type} {s : String} {v : α}

theorem map_natural?_eq_some_iff {size : Nat} {ofNat : Nat → α} {toNat : α → Nat}
    (hlt : ∀ v, toNat v < size) (hof : ∀ v, ofNat (toNat v) = v)
    (hto : ∀ n < size, toNat (ofNat n) = n) :
    (natural? size s).map ofNat = some v ↔ Numeral false s.toList (toNat v) := by
  rw [Option.map_eq_some_iff]
  constructor
  · intro hex
    obtain ⟨n, hn, rfl⟩ := hex
    obtain ⟨hnumeral, hn⟩ := natural?_eq_some_iff.mp hn
    rwa [hto n hn]
  · intro h
    exact ⟨toNat v, natural?_eq_some_iff.mpr ⟨h, hlt v⟩, hof v⟩

theorem map_integer?_eq_some_iff {lo hi : Int} {ofInt : Int → α} {toInt : α → Int}
    (hrange : ∀ v, lo ≤ toInt v ∧ toInt v ≤ hi) (hof : ∀ v, ofInt (toInt v) = v)
    (hto : ∀ n, lo ≤ n → n ≤ hi → toInt (ofInt n) = n) :
    (integer? lo hi s).map ofInt = some v ↔ Numeral true s.toList (toInt v) := by
  rw [Option.map_eq_some_iff]
  constructor
  · intro hex
    obtain ⟨n, hn, rfl⟩ := hex
    obtain ⟨hnumeral, hlo, hhi⟩ := integer?_eq_some_iff.mp hn
    rwa [hto n hlo hhi]
  · intro h
    exact ⟨toInt v, integer?_eq_some_iff.mpr ⟨h, hrange v⟩, hof v⟩

/-- A word is found just if the trimmed text is the word, whatever the case. -/
theorem toOption_findWord_eq_some_iff {all : List α} {name : α → String} (hall : ∀ v, v ∈ all)
    (hname : ∀ v w, name v = name w → v = w) {what : String} (hs : trim s = s) :
    (findWord what all name s).toOption = some v ↔
      s.toList.map Char.toLower = (name v).toList := by
  have hword : lowerAscii s = name v ↔ s.toList.map Char.toLower = (name v).toList := by
    rw [lowerAscii, ← String.toList_inj, String.toList_ofList]
  rw [findWord, hs, ← hword]
  cases hfind : all.find? (name · == lowerAscii s) with
  | none =>
      have hnone := List.find?_eq_none.mp hfind v (hall v)
      simp only [beq_iff_eq] at hnone
      exact iff_of_false nofun (Ne.symm hnone)
  | some w =>
      have hw : name w = lowerAscii s := by simpa using List.find?_some hfind
      rw [← hw]
      exact ⟨fun h => congrArg name (Option.some.inj h), fun h => congrArg some (hname w v h)⟩

end Readers

theorem Mode.name_injective (v w : Mode) (h : v.name = w.name) : v = w := by
  cases v <;> cases w <;> first | rfl | exact absurd h (by decide)

theorem EisMode.name_injective (v w : EisMode) (h : v.name = w.name) : v = w := by
  cases v <;> cases w <;> first | rfl | exact absurd h (by decide)

theorem HdrMode.name_injective (v w : HdrMode) (h : v.name = w.name) : v = w := by
  cases v <;> cases w <;> first | rfl | exact absurd h (by decide)

namespace ParamType

variable {t : ParamType} {s text : String} {cs : List Char} {v : t.Value} {r : IntegerRange}

/-- A trimmed text is read as the value that it spells, and as no other. -/
theorem read?_eq_some_iff (hs : trim s = s) :
    FromText.read? s = some v ↔ t.Spells s.toList v := by
  cases t with
  | u8 =>
      exact map_natural?_eq_some_iff UInt8.toNat_lt_size (fun _ => UInt8.ofNat_toNat)
        fun _ => UInt8.toNat_ofNat_of_lt'
  | u32 =>
      exact map_natural?_eq_some_iff UInt32.toNat_lt_size (fun _ => UInt32.ofNat_toNat)
        fun _ => UInt32.toNat_ofNat_of_lt'
  | u64 =>
      exact map_natural?_eq_some_iff UInt64.toNat_lt_size (fun _ => UInt64.ofNat_toNat)
        fun _ => UInt64.toNat_ofNat_of_lt'
  | i32 =>
      exact map_integer?_eq_some_iff (fun v => ⟨Int32.minValue_le_toInt v, Int32.toInt_le v⟩)
        Int32.ofInt_toInt fun n hlo hhi => by
          rw [Int32.toInt_minValue] at hlo
          rw [Int32.toInt_maxValue] at hhi
          exact Int32.toInt_ofInt_of_le hlo (by omega)
  | i64 =>
      exact map_integer?_eq_some_iff (fun v => ⟨Int64.minValue_le_toInt v, Int64.toInt_le v⟩)
        Int64.ofInt_toInt fun n hlo hhi => by
          rw [Int64.toInt_minValue] at hlo
          rw [Int64.toInt_maxValue] at hhi
          exact Int64.toInt_ofInt_of_le hlo (by omega)
  | bool =>
      rw [Spells, String.toList_inj]
      change FromText.read? (α := Bool) s = some v ↔ _
      simp only [FromText.read?]
      split
      · cases v <;> simp
      · cases v <;> simp
      · rename_i htrue hfalse
        cases v with
        | true => exact iff_of_false nofun htrue
        | false => exact iff_of_false nofun hfalse
  | mode =>
      exact toOption_findWord_eq_some_iff (by intro v; cases v <;> decide) Mode.name_injective hs
  | eisMode =>
      exact toOption_findWord_eq_some_iff (by intro v; cases v <;> decide) EisMode.name_injective hs
  | hdrMode =>
      exact toOption_findWord_eq_some_iff (by intro v; cases v <;> decide) HdrMode.name_injective hs

/-- Nothing that spells a value has a blank in it. -/
theorem Spells.solid (h : t.Spells cs v) : Solid cs := by
  cases t with
  | u8 | u32 | u64 | i32 | i64 => exact Numeral.solid h
  | bool =>
      rw [Spells] at h
      subst h
      cases v <;> decide
  | mode | eisMode | hdrMode => exact solid_of_toLower (by cases v <;> decide) h

theorem spells_write (t : ParamType) (v : t.Value) : t.Spells (ToText.write v).toList v := by
  cases t with
  | u8 | u32 | u64 => exact numeral_ofNat false _
  | i32 | i64 => exact numeral_ofInt _
  | bool => rfl
  | mode | eisMode | hdrMode => cases v <;> rfl

theorem spells_of_ignoresCase (ht : t.ignoresCase = true)
    (h : cs.map Char.toLower = (ToText.write v).toList) : t.Spells cs v := by
  cases t with
  | u8 | u32 | u64 | i32 | i64 | bool => cases ht
  | mode | eisMode | hdrMode => exact h

theorem Restyled.reads (h : t.Restyled text v) : t.Reads text v := by
  obtain ⟨cs, hcs, rfl | ⟨ht, hlower⟩⟩ := h
  · exact ⟨_, hcs, t.spells_write v⟩
  · exact ⟨cs, hcs, spells_of_ignoresCase ht hlower⟩

/-- What spells a value of a type of integers is a numeral of an integer in its range. -/
theorem Spells.in_range (h : t.Spells cs v) (hr : t.range? = some r) :
    ∃ n, Numeral r.signed cs n ∧ r.least ≤ n ∧ n ≤ r.greatest := by
  cases t with
  | u8 =>
      cases hr
      have hlt : UInt8.toNat v < 256 := UInt8.toNat_lt_size v
      exact ⟨_, h, Int.natCast_nonneg _, by simp only; omega⟩
  | u32 =>
      cases hr
      have hlt : UInt32.toNat v < 4294967296 := UInt32.toNat_lt_size v
      exact ⟨_, h, Int.natCast_nonneg _, by simp only; omega⟩
  | u64 =>
      cases hr
      have hlt : UInt64.toNat v < 18446744073709551616 := UInt64.toNat_lt_size v
      exact ⟨_, h, Int.natCast_nonneg _, by simp only; omega⟩
  | i32 =>
      cases hr
      exact ⟨_, h, Int32.le_toInt v, Int32.toInt_le v⟩
  | i64 =>
      cases hr
      exact ⟨_, h, Int64.le_toInt v, Int64.toInt_le v⟩
  | bool | mode | eisMode | hdrMode => cases hr

end ParamType

namespace Params

/-- The words for a switch. -/
def switchWords : Bool → List String
  | true => ["1", "true", "on", "yes"]
  | false => ["0", "false", "off", "no"]

/-- The text stands for the switch. -/
def Switches (text : String) (on : Bool) : Prop :=
  ∃ cs, Surrounds text cs ∧ ∃ word ∈ switchWords on, cs.map Char.toLower = word.toList

/-- Both ways to read a parameter give this answer, one of them whatever the default. -/
def Answers (p : Params) (key : String) (t : ParamType) (answer : Except ParamFault t.Value) :
    Prop :=
  p.require key = answer ∧ ∀ default, p.getOr key default = answer

/-- A key is read from both stores with the same answers, as every type and as a switch. -/
def ReadsAlike (p q : Params) (key : String) : Prop :=
  (∀ t : ParamType, p.require (α := t.Value) key = q.require key ∧
    ∀ default : t.Value, p.getOr key default = q.getOr key default) ∧
  ∀ default, p.getSwitch key default = q.getSwitch key default

variable {t : ParamType} {p q : Params} {key raw : String} {v : t.Value} {on : Bool}

theorem parse_eq_ok_iff : parse key raw = .ok v ↔ t.Reads raw v := by
  have htrim : trim (trim raw) = trim raw := by
    rw [trim_eq_self_iff, trim, String.toList_ofList, trimList_trimList]
  have hread := ParamType.read?_eq_some_iff (v := v) htrim
  have hreads : t.Spells (trim raw).toList v ↔ t.Reads raw v := by
    constructor
    · intro h
      exact ⟨_, surrounds_trim raw, h⟩
    · intro h
      obtain ⟨cs, hcs, hspells⟩ := h
      rwa [trim_of_surrounds hcs hspells.solid, String.toList_ofList]
  rw [← hreads, ← hread, parse]
  cases FromText.read? (α := t.Value) (trim raw) <;> simp

theorem parse_of_not_reads (h : ∀ v, ¬t.Reads raw v) :
    parse (α := t.Value) key raw = .error (.invalid key raw) := by
  rw [parse]
  cases hread : FromText.read? (α := t.Value) (trim raw) with
  | none => rfl
  | some v =>
      have hok : parse key raw = .ok v := by rw [parse, hread]
      exact absurd (parse_eq_ok_iff.mp hok) (h v)

theorem answers_insert (p : Params) (key raw : String) (t : ParamType) :
    Answers (p.insert key raw) key t (parse key raw) := by
  have hget := Table.get?_insert_self p key raw
  exact ⟨by rw [require, hget], fun default => by rw [getOr, hget]⟩

theorem Answers.unique {answer answer' : Except ParamFault t.Value} (h : p.Answers key t answer)
    (h' : p.Answers key t answer') : answer = answer' :=
  h.1.symm.trans h'.1

theorem readsAlike_of_get? (h : p.get? key = q.get? key) : p.ReadsAlike q key :=
  ⟨fun t => ⟨by rw [require, require, h], fun default => by rw [getOr, getOr, h]⟩,
    fun default => by rw [getSwitch, getSwitch, h]⟩

theorem readsAlike_insert {other : String} (h : other ≠ key) :
    ReadsAlike (p.insert key raw) p other :=
  readsAlike_of_get? (Table.get?_insert_of_ne p raw h)

/-! ### Switches -/

theorem switch?_eq_some_iff : switch? raw = some on ↔ Switches raw on := by
  have hwords {word : String} (hmem : word ∈ switchWords on) : Solid word.toList := by
    revert word
    cases on <;> decide
  have hmatch : switch? raw = some on ↔ lowerAscii (trim raw) ∈ switchWords on := by
    rw [switch?]
    split <;> cases on <;> simp_all [switchWords]
  rw [hmatch]
  constructor
  · intro h
    refine ⟨_, surrounds_trim raw, _, h, ?_⟩
    rw [lowerAscii, String.toList_ofList]
  · intro h
    obtain ⟨cs, hcs, word, hword, hlower⟩ := h
    rwa [trim_of_surrounds hcs (solid_of_toLower (hwords hword) hlower), lowerAscii,
      String.toList_ofList, hlower, String.ofList_toList]

theorem getSwitch_insert (p : Params) (key raw : String) (default : Bool) :
    getSwitch (p.insert key raw) key default =
      (switch? raw).elim (.error (.invalid key raw)) .ok := by
  simp only [getSwitch, Table.get?_insert_self]
  cases switch? raw <;> rfl

/-! ### Writing and reading back -/

/-- What is written for a value of a type is read as the value, whatever blanks are put around it
and, for words, in whatever case, and nothing else changes. A text is read as a value just if it
stands for it in the grammar of the type, and is refused as it stands if it does so for none, such
as a numeral out of the type's range. -/
structure RoundTrips (p : Params) (key : String) (t : ParamType) : Prop where
  written : ∀ v : t.Value, (p.setValue key v).Answers key t (.ok v) ∧
    ∀ other, other ≠ key → (p.setValue key v).ReadsAlike p other
  restyled : ∀ (v : t.Value) (text : String), t.Restyled text v →
    Answers (p.insert key text) key t (.ok v) ∧
      ∀ other, other ≠ key → ReadsAlike (p.insert key text) p other
  read : ∀ (v : t.Value) (text : String),
    Answers (p.insert key text) key t (.ok v) ↔ t.Reads text v
  refused : ∀ text, (∀ v, ¬t.Reads text v) →
    Answers (p.insert key text) key t (.error (.invalid key text))
  outOfRange : ∀ r text cs n, t.range? = some r → Surrounds text cs → Numeral r.signed cs n →
    n < r.least ∨ r.greatest < n → Answers (p.insert key text) key t (.error (.invalid key text))

/-- The same of a switch, for which there are several words. -/
structure SwitchRoundTrips (p : Params) (key : String) : Prop where
  written : ∀ on default, (p.setValue key on).getSwitch key default = .ok on
  restyled : ∀ (on : Bool) (text : String) (cs : List Char), Surrounds text cs →
    cs.map Char.toLower = (ToText.write on).toList →
    (∀ default, getSwitch (p.insert key text) key default = .ok on) ∧
      ∀ other, other ≠ key → ReadsAlike (p.insert key text) p other
  read : ∀ on text default,
    getSwitch (p.insert key text) key default = .ok on ↔ Switches text on
  refused : ∀ text, (∀ on, ¬Switches text on) →
    ∀ default, getSwitch (p.insert key text) key default = .error (.invalid key text)

theorem answers_of_reads (h : t.Reads raw v) (p : Params) (key : String) :
    Answers (p.insert key raw) key t (.ok v) :=
  parse_eq_ok_iff.mpr h ▸ answers_insert p key raw t

theorem answers_of_not_reads (h : ∀ v, ¬t.Reads raw v) (p : Params) (key : String) :
    Answers (p.insert key raw) key t (.error (.invalid key raw)) :=
  parse_of_not_reads h ▸ answers_insert p key raw t

theorem roundTrips (p : Params) (key : String) (t : ParamType) : p.RoundTrips key t where
  written v := by
    have hreads : t.Reads (ToText.write v) v := ⟨_, surrounds_self _, t.spells_write v⟩
    exact ⟨answers_of_reads hreads p key, fun other => readsAlike_insert⟩
  restyled v text h := ⟨answers_of_reads h.reads p key, fun other => readsAlike_insert⟩
  read v text := by
    constructor
    · intro h
      exact parse_eq_ok_iff.mp ((answers_insert p key text t).unique h)
    · intro h
      exact answers_of_reads h p key
  refused text h := answers_of_not_reads h p key
  outOfRange r text cs n hr hcs hn hout := by
    refine answers_of_not_reads (fun v h => ?_) p key
    obtain ⟨cs', hcs', hspells⟩ := h
    have hlist := (trim_of_surrounds hcs hn.solid).symm.trans (trim_of_surrounds hcs' hspells.solid)
    obtain rfl : cs = cs' := String.ofList_inj.mp hlist
    obtain ⟨n', hn', hleast, hgreatest⟩ := hspells.in_range hr
    obtain rfl := hn.unique hn'
    omega

theorem getSwitch_eq_ok_iff {default : Bool} :
    getSwitch (p.insert key raw) key default = .ok on ↔ Switches raw on := by
  rw [getSwitch_insert, ← switch?_eq_some_iff]
  cases switch? raw <;> simp

theorem switchRoundTrips (p : Params) (key : String) : p.SwitchRoundTrips key where
  written on default := by
    refine getSwitch_eq_ok_iff.mpr ⟨_, surrounds_self _, ToText.write on, ?_, ?_⟩
    · cases on <;> decide
    · cases on <;> decide
  restyled on text cs hcs hlower := by
    have hswitches : Switches text on := by
      refine ⟨cs, hcs, ToText.write on, ?_, hlower⟩
      cases on <;> decide
    exact ⟨fun default => getSwitch_eq_ok_iff.mpr hswitches, fun other => readsAlike_insert⟩
  read on text default := getSwitch_eq_ok_iff
  refused text h default := by
    rw [getSwitch_insert]
    cases hread : switch? text with
    | none => rfl
    | some on => exact absurd (switch?_eq_some_iff.mp hread) (h on)

/-- In every store, under every key and for every type, writing a value and reading are inverse to
each other, up to blanks and the case of words, and what stands for no value is refused. -/
theorem typed_roundTrip (p : Params) (key : String) :
    (∀ t : ParamType, p.RoundTrips key t) ∧ p.SwitchRoundTrips key :=
  ⟨fun t => roundTrips p key t, switchRoundTrips p key⟩

/-- An offset and a mode among blanks, a number one beyond its type and a switch in capitals. -/
theorem typed_roundTrip_styled :
    let stored (text : String) : Params := Table.empty.insert "video.0:offset" text
    (stored " \t-5\u00a0").Answers "video.0:offset" .i32 (.ok (-5 : Int32)) ∧
      (stored "Slow_MOTION ").Answers "video.0:offset" .mode (.ok Mode.slowMotion) ∧
      (stored "+256").Answers "video.0:offset" .u8 (.error (.invalid "video.0:offset" "+256")) ∧
      ∀ default, (stored " TRUE\n").getSwitch "video.0:offset" default = .ok true := by
  obtain ⟨htyped, hswitch⟩ := typed_roundTrip Table.empty "video.0:offset"
  refine ⟨?_, ?_, ?_, ?_⟩
  · exact (htyped .i32).restyled (-5 : Int32) " \t-5\u00a0"
      ⟨"-5".toList, ⟨" \t".toList, "\u00a0".toList, by decide, by decide, by decide⟩,
        .inl (by decide)⟩ |>.1
  · exact (htyped .mode).restyled Mode.slowMotion "Slow_MOTION "
      ⟨"Slow_MOTION".toList, ⟨[], [' '], by decide, by decide, by decide⟩,
        .inr ⟨rfl, by decide⟩⟩ |>.1
  · have hdigits : IsDigits "256".toList := ⟨by decide, List.all_eq_true.mp rfl⟩
    exact (htyped .u8).outOfRange _ "+256" _ 256 rfl (surrounds_self _) (.plus hdigits)
      (.inr (by decide))
  · exact (hswitch.restyled true " TRUE\n" "TRUE".toList
      ⟨[' '], ['\n'], by decide, by decide, by decide⟩ (by decide)).1

end Params
end CameraPipeline
