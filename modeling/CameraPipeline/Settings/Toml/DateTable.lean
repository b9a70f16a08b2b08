import CameraPipeline.Settings.Toml.Lexeme

/-!
Dates as tables. A table in which the reserved name is defined first stands for the date that is
spelled there, and nothing else in it counts.
-/

namespace CameraPipeline.Toml

/-- What is defined under the reserved name, if that is the first entry. -/
def dateEntry? : List (String × Tree) → Option Tree
  | [] => none
  | (name, value) :: _ => if name = dateName then some value else none

/-- The date that a text spells from its first character to its last. -/
def dateOf? : Tree → Option Tree
  | .leaf (.text s) =>
    match spelledDate s.toList with
    | some (_, []) => some (.leaf (.text s))
    | _ => none
  | _ => none

mutual

/-- Puts dates in the place of the tables that stand for them, and the entries of all other tables
in the order of their names. -/
def resolveDates : Tree → Option Tree
  | .nothing => some .nothing
  | .leaf s => some (.leaf s)
  | .list items => .list <$> resolveItems items
  | .table entries =>
    match dateEntry? entries with
    | some value => dateOf? value
    | none => .table <$> resolveEntries entries

def resolveItems : List Tree → Option (List Tree)
  | [] => some []
  | t :: rest => do return (← resolveDates t) :: (← resolveItems rest)

def resolveEntries : List (String × Tree) → Option (List (String × Tree))
  | [] => some []
  | (name, t) :: rest => do
    let t ← resolveDates t
    return Table.insertEntry name t (← resolveEntries rest)

end

end CameraPipeline.Toml
