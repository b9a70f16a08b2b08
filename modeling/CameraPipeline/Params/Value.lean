import CameraPipeline.Params.Store
import CameraPipeline.Text.Blank
import CameraPipeline.Text.Case
import CameraPipeline.Text.Numeral

/-!
Typed reading and writing of parameters. A parameter is trimmed before it is read; a report of a
bad one shows the text as it stands in the store.
-/

namespace CameraPipeline

/-- Types whose values are read from a trimmed text. -/
class FromText (α : Type) where
  read? : String → Option α

/-- Types whose values are stored as text. -/
class ToText (α : Type) where
  write : α → String

section Instances

open Text

instance : FromText String := ⟨some⟩
instance : ToText String := ⟨id⟩

instance : FromText UInt8 := ⟨fun s => (natural? UInt8.size s).map UInt8.ofNat⟩
instance : FromText UInt32 := ⟨fun s => (natural? UInt32.size s).map UInt32.ofNat⟩
instance : FromText UInt64 := ⟨fun s => (natural? UInt64.size s).map UInt64.ofNat⟩
instance : FromText Int32 :=
  ⟨fun s => (integer? Int32.minValue.toInt Int32.maxValue.toInt s).map Int32.ofInt⟩
instance : FromText Int64 :=
  ⟨fun s => (integer? Int64.minValue.toInt Int64.maxValue.toInt s).map Int64.ofInt⟩

instance : ToText UInt8 := ⟨fun n => ofNat n.toNat⟩
instance : ToText UInt32 := ⟨fun n => ofNat n.toNat⟩
instance : ToText UInt64 := ⟨fun n => ofNat n.toNat⟩
instance : ToText Int32 := ⟨fun n => ofInt n.toInt⟩
instance : ToText Int64 := ⟨fun n => ofInt n.toInt⟩

instance : FromText Bool where
  read?
    | "true" => some true
    | "false" => some false
    | _ => none

instance : ToText Bool := ⟨fun b => if b then "true" else "false"⟩

end Instances

/-- What can be wrong with one parameter. -/
inductive ParamFault where
  | missing (key : String)
  | invalid (key value : String)
  deriving DecidableEq, Repr

def ParamFault.name : ParamFault → String
  | .missing _ => "Missing"
  | .invalid _ _ => "Invalid"

def ParamFault.message : ParamFault → String
  | .missing key => s!"required parameter '{key}' is missing"
  | .invalid key value => s!"parameter '{key}' has invalid value '{value}'"

namespace Params

variable {α : Type}

def parse [FromText α] (key raw : String) : Except ParamFault α :=
  match FromText.read? (Text.trim raw) with
  | some v => .ok v
  | none => .error (.invalid key raw)

/-- The value of `key`, or `default` where there is none. -/
def getOr [FromText α] (p : Params) (key : String) (default : α) : Except ParamFault α :=
  match p.get? key with
  | some raw => parse key raw
  | none => .ok default

def require [FromText α] (p : Params) (key : String) : Except ParamFault α :=
  match p.get? key with
  | some raw => parse key raw
  | none => .error (.missing key)

/-- The switch that a trimmed text in any case stands for. -/
def switch? (text : String) : Option Bool :=
  match Text.lowerAscii (Text.trim text) with
  | "1" | "true" | "on" | "yes" => some true
  | "0" | "false" | "off" | "no" => some false
  | _ => none

/-- The switch under `key`, or `default` where there is none. -/
def getSwitch (p : Params) (key : String) (default : Bool) : Except ParamFault Bool :=
  match p.get? key with
  | none => .ok default
  | some raw =>
    match switch? raw with
    | some b => .ok b
    | none => .error (.invalid key raw)

def setValue [ToText α] (p : Params) (key : String) (v : α) : Params :=
  p.insert key (ToText.write v)

/-- The text that the setters store for a switch. -/
def switchText (on : Bool) : String := if on then "1" else "0"

end Params
end CameraPipeline
