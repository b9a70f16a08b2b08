import CameraPipeline.Number.FloatText
import CameraPipeline.Settings.Path
import CameraPipeline.Text.Case

/-!
Settings from environment variables. A variable counts if its name, in lower case, begins with a
given word; two underscores in the rest of the name lead from a table into one below it. What a
value is shows in its text.
-/

namespace CameraPipeline.Environment

/-- A switch, else an integer, else a number with a point or an exponent, else a text. -/
def scalarOf (value : String) : Scalar :=
  match Text.lowerAscii value with
  | "true" => .switch true
  | "false" => .switch false
  | _ =>
    match Text.integer? Int64.minValue.toInt Int64.maxValue.toInt value with
    | some n => .integer n
    | none =>
      match FloatText.read? value with
      | some x => .decimal x
      | none => .text value

/-- Writes a point for every two underscores. -/
def joinParts : List Char → List Char
  | '_' :: '_' :: r => '.' :: joinParts r
  | c :: r => c :: joinParts r
  | [] => []

/-- The setting that a variable names, `none` if its name does not begin with `start`. -/
def settingName? (start name : String) : Option String :=
  let cs := (Text.lowercase name).toList
  if start.toList.isPrefixOf cs then some (.ofList (joinParts (cs.drop start.length))) else none

/-- Puts the settings of the variables into a tree. -/
def apply (start : String) (bindings : List (String × String)) (t : Tree) : Tree :=
  bindings.foldl (fun t (name, value) =>
    match settingName? start name with
    | some setting => t.putAt (.leaf (scalarOf value)) (Path.ofName setting)
    | none => t) t

end CameraPipeline.Environment
