import CameraPipeline.Text.Lowercase.Casing
import CameraPipeline.Text.Lowercase.Mapping

/-!
The lower-case form of a text. Every character has its own lower-case form, but a capital sigma
that ends a word becomes a final sigma, and the capital I with a dot becomes two characters.
-/

namespace CameraPipeline.Text

/-- Is the first character that is not passed over a cased one? -/
def meetsCased (cs : List Char) : Bool :=
  match cs.dropWhile isCaseIgnorable with
  | c :: _ => isCased c
  | [] => false

/-- The lower-case form of `c` between `before`, nearest first, and `after`. -/
def lowerBetween (before : List Char) (c : Char) (after : List Char) : List Char :=
  if c = 'Σ' then [if meetsCased before && !meetsCased after then 'ς' else 'σ']
  else if c = 'İ' then ['i', '\u0307']
  else [lowerChar c]

def lowerFrom (before : List Char) : List Char → List Char
  | [] => []
  | c :: after => lowerBetween before c after ++ lowerFrom (c :: before) after

def lowercase (s : String) : String := String.ofList (lowerFrom [] s.toList)

example : ["ÉtÉ", "ΣΑΣ", "Σ.", "İ"].map lowercase = ["été", "σας", "σ.", "i\u0307"] := by
  decide +kernel

end CameraPipeline.Text
