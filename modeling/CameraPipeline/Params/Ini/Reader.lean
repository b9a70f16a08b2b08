import CameraPipeline.Text.Blank
import CameraPipeline.Text.Numeral

/-!
Reading ini texts, one character at a time. A text is a row of section headings in brackets and of
keys with values; comments take whole lines, from their first character. In headings, keys and
values a backslash gives the next character another meaning. A value may begin with a quoted part.
-/

namespace CameraPipeline.Ini

inductive Item where
  | heading (name : String)
  | entry (key value : String)
  deriving DecidableEq, Repr

inductive Purpose where
  | heading
  | key
  /-- The quoted part of a value, up to the same mark. -/
  | quoted (key : String) (mark : Char)
  /-- A value up to the end of its line, after a quoted part. -/
  | value (key : String) (quoted : List Char)
  deriving DecidableEq, Repr

/-- How far an escape has been read. -/
inductive Escape where
  | none
  | backslash
  | code (digits : List Char)
  deriving DecidableEq, Repr

/-- Where the reader stands. What has been read of a text is kept with its last character first. -/
inductive Mode where
  | between
  | comment
  | beforeValue (key : String)
  | text (purpose : Purpose) (read : List Char) (escape : Escape)
  deriving DecidableEq, Repr

structure Reader where
  /-- The last item is first. -/
  items : List Item := []
  isLineStart : Bool := true
  mode : Mode := .between
  deriving DecidableEq, Repr

def isLineBreak (c : Char) : Bool := c == '\n' || c == '\r'

def isSeparator (c : Char) : Bool := c == '=' || c == ':'

def Purpose.endsAt : Purpose → Char → Bool
  | heading, c => c == ']'
  | key, c => isSeparator c
  | quoted _ mark, c => c == mark
  | value _ _, c => isLineBreak c

/-- The character that a backslash and `c` stand for. -/
def unescape (c : Char) : Char :=
  match c with
  | '0' => '\x00'
  | 'a' => '\x07'
  | 'b' => '\x08'
  | 't' => '\t'
  | 'r' => '\r'
  | 'n' => '\n'
  | c => c

/-- The character with the given code in hexadecimal digits; a plus sign may stand before them. -/
def charOfCode? (digits : List Char) : Option Char := do
  let digits := match digits with
    | '+' :: digits => digits
    | digits => digits
  let n ← digits.foldlM (fun n c => do return 16 * n + (← Text.hexDigit? c)) 0
  if n.isValidChar then return Char.ofNat n else none

/-- Reads one character of a text that it does not end. -/
def readText (purpose : Purpose) (read : List Char) (escape : Escape) (c : Char) : Option Mode :=
  match escape with
  | .none =>
    if c = '\\' then some (.text purpose read .backslash)
    else some (.text purpose (c :: read) .none)
  | .backslash =>
    if c = '\n' then some (.text purpose read .none)
    else if c = 'x' then some (.text purpose read (.code []))
    else some (.text purpose (unescape c :: read) .none)
  | .code digits =>
    if digits.length < 3 then some (.text purpose read (.code (digits ++ [c])))
    else (charOfCode? (digits ++ [c])).map fun c => .text purpose (c :: read) .none

def trimmed (read : List Char) : String := String.ofList (Text.trimList read.reverse)

namespace Reader

def add (r : Reader) (item : Item) : Reader := { r with items := item :: r.items }

/-- Goes on after a text that is complete; a key must not be empty. -/
def finishText (r : Reader) (read : List Char) : Purpose → Option Reader
  | .heading => some { r.add (.heading (trimmed read)) with mode := .between }
  | .key => if trimmed read = "" then none else some { r with mode := .beforeValue (trimmed read) }
  | .quoted key _ => some { r with mode := .text (.value key read) [] .none }
  | .value key quoted =>
    some { r.add (.entry key (trimmed (read ++ quoted))) with mode := .between }

def enter (r : Reader) (mode : Mode) : Reader := { r with mode }

def readChar (r : Reader) (c : Char) : Option Reader :=
  match r.mode with
  | .between =>
    if Text.isBlank c then some r
    else if c = ';' || c = '#' then if r.isLineStart then some (r.enter .comment) else none
    else if c = '[' then some (r.enter (.text .heading [] .none))
    else if isSeparator c then none
    else (readText .key [] .none c).map r.enter
  | .comment => some (if c = '\n' then r.enter .between else r)
  | .beforeValue key =>
    if isLineBreak c then some ((r.add (.entry key "")).enter .between)
    else if Text.isBlank c then some r
    else if c = '"' || c = '\'' then some (r.enter (.text (.quoted key c) [] .none))
    else (readText (.value key []) [] .none c).map r.enter
  | .text purpose read escape =>
    if escape = .none && purpose.endsAt c then r.finishText read purpose
    else (readText purpose read escape c).map r.enter

def step (r : Reader) (c : Char) : Option Reader :=
  (r.readChar c).map ({ · with isLineStart := c == '\n' })

def run (r : Reader) (cs : List Char) : Option Reader := cs.foldlM step r

/-- The items, if the text may end here: only the last value needs no line break. -/
def finish (r : Reader) : Option (List Item) :=
  match r.mode with
  | .between | .comment => some r.items.reverse
  | .beforeValue key => some (r.add (.entry key "")).items.reverse
  | .text (.value key quoted) read .none =>
    some (r.add (.entry key (trimmed (read ++ quoted)))).items.reverse
  | .text _ _ _ => none

theorem run_append (r : Reader) (cs ds : List Char) :
    r.run (cs ++ ds) = (r.run cs).bind (·.run ds) := by
  simp [run, List.foldlM_append]

end Reader

/-- The items of an ini text; `none` if it is malformed. -/
def items? (text : String) : Option (List Item) :=
  (Reader.run {} text.toList).bind (·.finish)

example : items? "[s]\nk = \"a; b\" \\x0063 ; d\n# e\n" =
    some [.heading "s", .entry "k" "a; b c ; d"] := by
  decide +kernel

end CameraPipeline.Ini
