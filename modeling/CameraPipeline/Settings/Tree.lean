import CameraPipeline.Table
import CameraPipeline.Text.Lowercase

/-!
Settings as nested tables and lists of scalars. Names are kept in lower case. A table that is put
where a table stands joins it; everything else replaces what stands there.
-/

namespace CameraPipeline

inductive Scalar where
  | switch (on : Bool)
  | integer (n : Int)
  | decimal (x : Float)
  | text (s : String)

inductive Tree where
  /-- An item of a list that was never given. -/
  | nothing
  | leaf (s : Scalar)
  | list (items : List Tree)
  | table (entries : List (String × Tree))

namespace Tree

def empty : Tree := table []

/-- The entries of a table; a tree that is none has no entries. -/
def entries : Tree → List (String × Tree)
  | table entries => entries
  | nothing | leaf _ | list _ => []

/-- The items of a list; a tree that is none has no items. -/
def items : Tree → List Tree
  | list items => items
  | nothing | leaf _ | table _ => []

/-- What stands under a name that is in lower case. -/
def child? (t : Tree) (name : String) : Option Tree := Table.lookup name t.entries

/-- Puts `value` under `name` in place of what stands there. -/
def setChild (t : Tree) (name : String) (value : Tree) : Tree :=
  table (Table.insertEntry (Text.lowercase name) value t.entries)

def childOrEmpty (t : Tree) (name : String) : Tree :=
  (t.child? (Text.lowercase name)).getD empty

/-- The place of an item that is counted from the front, or back from the end. -/
def place (t : Tree) (i : Int) : Nat :=
  if 0 ≤ i then i.toNat else t.items.length - i.natAbs

def item (t : Tree) (i : Int) : Tree := t.items.getD (t.place i) nothing

/-- Puts `value` at the place of an item. The list is made long enough. -/
def setItem (t : Tree) (i : Int) (value : Tree) : Tree :=
  let missing := List.replicate (t.place i + 1 - t.items.length) nothing
  list ((t.items ++ missing).set (t.place i) value)

mutual

/-- Puts a value under `name`. -/
def put (t : Tree) (name : String) : Tree → Tree
  | table entries => t.setChild name (putAll (t.childOrEmpty name) entries)
  | nothing => t.setChild name nothing
  | leaf s => t.setChild name (leaf s)
  | list items => t.setChild name (list items)

def putAll (t : Tree) : List (String × Tree) → Tree
  | [] => t
  | (name, value) :: rest => putAll (put t name value) rest

end

end Tree
end CameraPipeline
