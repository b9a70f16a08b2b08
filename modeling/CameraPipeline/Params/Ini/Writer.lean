import CameraPipeline.Params.Store

/-!
Parameters as ini text: sections in the order of their names, and the keys of each in order.
Nothing is escaped or quoted. A key without a section or a name is left out.
-/

namespace CameraPipeline.Ini

/-- The parameters of each section. -/
def sections (p : Params) : Table String (List (String × String)) :=
  p.entries.foldl (fun t e =>
    match Params.splitKey e.1 with
    | some (sectionName, name) =>
      t.insert sectionName ((t.get? sectionName).getD [] ++ [(name, e.2)])
    | none => t) .empty

def writeEntry (name value : String) : List Char :=
  name.toList ++ [' ', '=', ' '] ++ value.toList ++ ['\n']

def writeSection (name : String) (entries : List (String × String)) : List Char :=
  '[' :: name.toList ++ [']', '\n'] ++ entries.flatMap (fun e => writeEntry e.1 e.2) ++ ['\n']

end CameraPipeline.Ini

namespace CameraPipeline

def Params.iniText (p : Params) : String :=
  String.ofList ((Ini.sections p).entries.flatMap fun e => Ini.writeSection e.1 e.2)

end CameraPipeline
