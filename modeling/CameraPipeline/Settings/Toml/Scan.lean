/-!
Scanning a text from its front. A scan takes what it accepts off the front of the text, or fails
and takes nothing.
-/

namespace CameraPipeline.Toml

abbrev Scan := StateT (List Char) Option

namespace Scan

variable {α : Type}

/-- The next character, which stays where it is. -/
def peek? : Scan (Option Char) := fun cs => some (cs.head?, cs)

def satisfy (p : Char → Bool) : Scan Char
  | c :: r => if p c then some (c, r) else none
  | [] => none

def char (c : Char) : Scan Unit := do
  let _ ← satisfy (· == c)

def word (s : String) : Scan Unit := fun cs =>
  if s.toList.isPrefixOf cs then some ((), cs.drop s.length) else none

def takeWhile (p : Char → Bool) : Scan (List Char) := fun cs =>
  some (cs.takeWhile p, cs.dropWhile p)

def atEnd : Scan Unit
  | [] => some ((), [])
  | _ :: _ => none

def attempt (p : Scan α) : Scan (Option α) := fun cs =>
  match p cs with
  | some (v, r) => some (some v, r)
  | none => some (none, cs)

/-- Repeats a scan until it fails, at most `n` times. -/
def upTo (p : Scan α) : Nat → Scan (List α)
  | 0 => pure []
  | n + 1 => do
    match ← attempt p with
    | none => return []
    | some v => return v :: (← upTo p n)

/-- Repeats a scan that takes at least one character until it fails. -/
def many (p : Scan α) : Scan (List α) := fun cs => upTo p cs.length cs

/-- One or more times `p`, with a character between them. -/
def sepBy1 (p : Scan α) (separator : Char) : Scan (List α) := do
  let first ← p
  let rest ← many (do char separator; p)
  return first :: rest

/-- The characters that a scan takes. -/
def taken (p : Scan α) : Scan (List Char) := fun cs => do
  let (_, r) ← p cs
  return (cs.take (cs.length - r.length), r)

end Scan

open Scan

def isSpace (c : Char) : Bool := c == ' ' || c == '\t'

/-- Every character but control characters; the tab is allowed. -/
def isPrintable (c : Char) : Bool := c == '\t' || (0x20 ≤ c.toNat && c.toNat != 0x7f)

def spaces : Scan Unit := do
  let _ ← takeWhile isSpace

def newline : Scan Unit := word "\n" <|> word "\r\n"

def lineEnd : Scan Unit := newline <|> atEnd

def comment : Scan Unit := do
  char '#'
  let _ ← takeWhile isPrintable

/-- The rest of a line after all that counts. -/
def lineRest : Scan Unit := do
  spaces
  let _ ← attempt comment
  lineEnd

/-- Spaces, line breaks and comments, as they may stand between the items of a list. -/
def gap : Scan Unit := do
  let _ ← many ((do let _ ← satisfy isSpace) <|> newline <|> (do comment; newline))

end CameraPipeline.Toml
