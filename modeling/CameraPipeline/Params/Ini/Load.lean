import CameraPipeline.Params.Ini.Reader
import CameraPipeline.Params.Store
import CameraPipeline.Settings.Path

/-!
Parameters from ini texts. Of several sections of one name the last counts, and of several values
of one key in a section. The name of a section is a path into nested tables, so `[a.b]` lies in
`[a]`; the names of the tables down to a value, joined by points again, are its section.
-/

namespace CameraPipeline.Ini

/-- What has been read of a text: the section at hand, and what stands under the names of sections
and of the keys before them. -/
structure Outline where
  current : Option String := none
  top : Table String Tree := .empty

namespace Outline

def add (o : Outline) : Item → Outline
  | .heading name => ⟨some name, o.top.insert name .empty⟩
  | .entry key value =>
    let leaf : Tree := .leaf (.text value)
    match o.current with
    | none => { o with top := o.top.insert key leaf }
    | some name =>
      { o with top := o.top.insert name (((o.top.get? name).getD .empty).setChild key leaf) }

def tree (o : Outline) : Tree := Tree.empty.putPaths o.top.entries

end Outline

/-- The parameters in the tables below a section. A list is no parameter. -/
def sectionEntries (sectionName : String) :
    List (String × Tree) → Option (List (String × String))
  | [] => some []
  | (name, .leaf (.text value)) :: rest => do
    return (sectionName ++ ":" ++ name, value) :: (← sectionEntries sectionName rest)
  | (name, .table entries) :: rest => do
    return (← sectionEntries (sectionName ++ "." ++ name) entries) ++
      (← sectionEntries sectionName rest)
  | _ :: _ => none

/-- The parameters in a tree. Only tables are sections; what else stands at the top is passed
over. -/
def entriesOf : List (String × Tree) → Option (List (String × String))
  | [] => some []
  | (name, .table entries) :: rest => do
    return (← sectionEntries name entries) ++ (← entriesOf rest)
  | _ :: rest => entriesOf rest

end CameraPipeline.Ini

namespace CameraPipeline

/-- The parameters of an ini text; `none` if it is malformed. -/
def Params.ofIni? (text : String) : Option Params := do
  let outline := (← Ini.items? text).foldl Ini.Outline.add {}
  return Table.ofList (← Ini.entriesOf outline.tree.entries)

end CameraPipeline
