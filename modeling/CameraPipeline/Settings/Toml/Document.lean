import CameraPipeline.Settings.Toml.DateTable
import CameraPipeline.Settings.Toml.Outline

/-!
TOML texts as settings. A text is a row of lines with keys, followed by tables that each have a
heading.
-/

namespace CameraPipeline.Toml

open Scan

def item (value : Scan Tree) : Scan (List String × Tree) := do
  let name ← key
  char '='
  spaces
  return (name, ← value)

/-- A list over any number of lines; a comma may follow the last item. -/
def array (value : Scan Tree) : Scan Tree := do
  char '['
  let items ← attempt (sepBy1 (do gap; let v ← value; gap; return v) ',')
  if items.isSome then
    let _ ← attempt (char ',')
  gap
  char ']'
  return .list (items.getD [])

def inlineTable (value : Scan Tree) : Scan Tree := do
  char '{'
  let items ← attempt (sepBy1 (do let i ← item value; spaces; return i) ',')
  spaces
  char '}'
  match Outline.defineAll [] (items.getD []) with
  | some entries => return entries.tree
  | none => failure

/-- A value in which lists and tables lie less than `depth` deep. -/
def value : Nat → Scan Tree
  | 0 => failure
  | depth + 1 => do
    match ← peek? with
    | some '[' => if depth = 0 then failure else array (value depth)
    | some '{' => if depth = 0 then failure else inlineTable (value depth)
    | _ => scalar

/-- A line with a key, or without anything that counts. -/
def line : Scan (Option (List String × Tree)) :=
  (do lineRest; return none) <|> do
    let i ← item (value depthLimit)
    lineRest
    return some i

/-- A row of lines with keys. The last line may lack its break, and then it is not empty. -/
def lines : Scan (List (List String × Tree)) := do
  let rows ← many (do
    spaces
    match ← peek? with
    | none | some '[' => failure
    | some _ => line)
  spaces
  return rows.filterMap id

structure Heading where
  path : List String
  /-- The heading adds a table to a list of tables. -/
  isListed : Bool

def heading : Scan Heading := do
  let h ← (do word "[["; let path ← key; word "]]"; return ⟨path, true⟩) <|>
    (do char '['; let path ← key; char ']'; return ⟨path, false⟩)
  lineRest
  return h

/-- The lines before the first heading, and the headings with the lines below them. -/
def document : Scan (List (List String × Tree) × List (Heading × List (List String × Tree))) := do
  let _ ← attempt (char '\ufeff')
  let top ← lines
  let sections ← many (do
    let h ← heading
    return (h, ← lines))
  atEnd
  return (top, sections)

/-- Reads a TOML text; `none` if it is no TOML, or defines something twice, or is no table. -/
def read? (text : String) : Option Tree := do
  let ((top, sections), _) ← document text.toList
  let entries ← Outline.defineAll [] top
  let entries ← sections.foldlM (fun (entries : Outline) (h, items) =>
    if h.isListed then entries.addToTables h.path items else entries.addTable h.path items) entries
  match ← resolveDates entries.tree with
  | .table entries => return .table entries
  | _ => none

end CameraPipeline.Toml
