import CameraPipeline.Settings.Tree

/-!
The tables of a TOML text while it is being read. Nothing may be defined twice, so a table
remembers how it came about: by a heading of its own, as a part of the path to something else, or
through a key with points. Entries are kept in the order in which they were defined.
-/

namespace CameraPipeline.Toml

/-- How a table came about. -/
inductive Origin where
  | heading
  | path
  | dottedKey
  deriving DecidableEq, Repr

inductive Node where
  | value (v : Tree)
  | table (origin : Origin) (entries : List (String × Node))
  /-- A list of tables, of which only the last can still grow. -/
  | tables (former : List Tree) (last : List (String × Node))

abbrev Outline := List (String × Node)

mutual

def Node.tree : Node → Tree
  | .value v => v
  | .table _ entries => .table (treesOf entries)
  | .tables former last => .list (former ++ [.table (treesOf last)])

def treesOf : List (String × Node) → List (String × Tree)
  | [] => []
  | (name, node) :: rest => (name, node.tree) :: treesOf rest

end

/-- The settings of an outline, in the order of their definition. -/
def Outline.tree (entries : Outline) : Tree := .table (treesOf entries)

namespace Outline

/-- Puts a node in the place of the one under its name; a new name comes last. -/
def set (name : String) (node : Node) : Outline → Outline
  | [] => [(name, node)]
  | (name', node') :: rest =>
    if name' = name then (name, node) :: rest else (name', node') :: set name node rest

/-- Puts a node at the end, whatever stands under its name. -/
def setLast (name : String) (node : Node) (entries : Outline) : Outline :=
  entries.filter (·.1 != name) ++ [(name, node)]

/-- Changes the table at the end of a path by `f`, which is told how that table came about. Tables
on the way that are not there are made, as tables of the given origin. A key with points does not
lead into tables that have a heading. -/
def change (origin : Origin) (f : Origin → Outline → Option Outline) :
    Origin → List String → Outline → Option Outline
  | here, [], entries => f here entries
  | _, name :: path, entries => do
    let node ← match Table.lookup name entries with
      | none => .table origin <$> change origin f origin path []
      | some (.value _) => none
      | some (.tables former last) => .tables former <$> change origin f .heading path last
      | some (.table origin' inner) =>
        if origin = .dottedKey && origin' = .heading then none
        else .table origin' <$> change origin f origin' path inner
    return set name node entries

/-- Defines the key with the given parts. Its table either is the one at hand, or belongs to keys
with points only. -/
def define (entries : Outline) (key : List String) (v : Tree) : Option Outline :=
  let above := key.dropLast
  change .dottedKey (fun origin entries =>
      match key.getLast? with
      | none => none
      | some name =>
        if (origin == .dottedKey) == above.isEmpty || (Table.lookup name entries).isSome then none
        else some (set name (.value v) entries))
    .heading above entries

def defineAll (entries : Outline) (items : List (List String × Tree)) : Option Outline :=
  items.foldlM (fun entries item => entries.define item.1 item.2) entries

/-- Adds a table with a heading. A part of the path to a former heading gets its heading now, and
counts as defined here. -/
def addTable (entries : Outline) (key : List String) (items : List (List String × Tree)) :
    Option Outline := do
  let name ← key.getLast?
  change .path (fun _ entries => do
      let inner ← match Table.lookup name entries with
        | none => some []
        | some (.table .path inner) => some inner
        | some _ => none
      return setLast name (.table .heading (← defineAll inner items)) entries)
    .heading key.dropLast entries

/-- Adds a table to a list of tables. -/
def addToTables (entries : Outline) (key : List String) (items : List (List String × Tree)) :
    Option Outline := do
  let name ← key.getLast?
  change .path (fun _ entries => do
      let former ← match Table.lookup name entries with
        | none => some []
        | some (.tables former last) => some (former ++ [Outline.tree last])
        | some _ => none
      return set name (.tables former (← defineAll [] items)) entries)
    .heading key.dropLast entries

end Outline
end CameraPipeline.Toml
