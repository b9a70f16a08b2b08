import CameraPipeline.Settings.Tree
import CameraPipeline.Text.Numeral

/-!
Places in nested tables and lists, and the names that stand for them. A name such as `a.b[0]` is a
path: parts of ASCII letters, digits, blanks, `_` and `-`, with a point before every part but the
first, and subscripts in brackets. A name of any other form is one part as it is.
-/

namespace CameraPipeline

inductive Step where
  | name (s : String)
  | item (i : Int)
  deriving DecidableEq, Repr

abbrev Path := List Step

/-- Puts a value at the end of a path. Tables and lists that are not there are made, in place of
whatever else is there. -/
def Tree.putAt (t : Tree) (value : Tree) : Path → Tree
  | [] => value
  | [.name s] => t.put s value
  | .name s :: path => t.setChild s ((t.childOrEmpty s).putAt value path)
  | .item i :: path => t.setItem i ((t.item i).putAt value path)

namespace Path

def isPartChar (c : Char) : Bool := c.isAlphanum || c == ' ' || c == '_' || c == '-'

def isSpacing (c : Char) : Bool := c == ' ' || c == '\t'

/-- Reads a whole number without a plus sign, perhaps with spacing around it. -/
def subscript? (cs : List Char) : Option Int :=
  let cs := ((cs.dropWhile isSpacing).reverse.dropWhile isSpacing).reverse
  if cs.head? = some '+' then none
  else Text.integer? Int64.minValue.toInt Int64.maxValue.toInt (String.ofList cs)

/-- Reads a row of subscripts and of parts after points. -/
def steps? : List Char → Option (List Step)
  | [] => some []
  | c :: r =>
    if c = '.' then do
      let part := r.takeWhile isPartChar
      let path ← steps? (r.dropWhile isPartChar)
      if part.isEmpty then none else return .name (String.ofList part) :: path
    else if c = '[' then do
      let i ← subscript? (r.takeWhile (· != ']'))
      let path ← steps? (r.dropWhile (· != ']')).tail
      if (r.dropWhile (· != ']')).isEmpty then none else return .item i :: path
    else none
termination_by cs => cs.length
decreasing_by
  · have := (List.dropWhile_suffix (l := r) isPartChar).length_le
    simp only [List.length_cons]
    omega
  · have := (List.dropWhile_suffix (l := r) (· != ']')).length_le
    simp only [List.length_cons, List.length_tail]
    omega

/-- The path that a name stands for. -/
def ofName (name : String) : Path := (steps? ('.' :: name.toList)).getD [.name name]

end Path

/-- Puts values at the places that their names stand for, one after the other. -/
def Tree.putPaths (t : Tree) (values : List (String × Tree)) : Tree :=
  values.foldl (fun t v => t.putAt v.2 (Path.ofName v.1)) t

end CameraPipeline
