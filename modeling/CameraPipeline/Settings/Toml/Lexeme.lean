import CameraPipeline.Number.FloatText
import CameraPipeline.Settings.Toml.Scan
import CameraPipeline.Settings.Tree

/-!
The smallest parts of a TOML text: strings, keys, numbers, and dates. What a date says is checked,
and its text is kept, in a table with a reserved name.
-/

namespace CameraPipeline.Toml

open Scan

/-- The character with the code that some hexadecimal digits give. -/
def charOfHex? (digits : List Char) : Option Char := do
  let n ← digits.foldlM (fun n c => do return 16 * n + (← Text.hexDigit? c)) 0
  if n.isValidChar then return Char.ofNat n else none

def hexChar (count : Nat) : Scan Char := fun cs => do
  if cs.length < count then none
  else return (← charOfHex? (cs.take count), cs.drop count)

/-- What follows a backslash. -/
def escaped : Scan Char := do
  match ← satisfy fun _ => true with
  | 'b' => return '\x08'
  | 't' => return '\t'
  | 'n' => return '\n'
  | 'f' => return '\x0c'
  | 'r' => return '\r'
  | '"' => return '"'
  | '\\' => return '\\'
  | 'u' => hexChar 4
  | 'U' => hexChar 8
  | _ => failure

/-- A character of a string in quotation marks. -/
def basicChar : Scan Char :=
  satisfy (fun c => isPrintable c && c != '"' && c != '\\') <|> (do char '\\'; escaped)

def literalChar : Scan Char := satisfy fun c => isPrintable c && c != '\''

def basicString : Scan (List Char) := do
  char '"'
  let cs ← many basicChar
  char '"'
  return cs

def literalString : Scan (List Char) := do
  char '\''
  let cs ← many literalChar
  char '\''
  return cs

/-- A backslash at the end of a line, with all the blanks that follow. -/
def lineFold : Scan (List Char) := do
  char '\\'
  spaces
  newline
  let _ ← many ((do let _ ← satisfy isSpace) <|> newline)
  return []

/-- One or two marks; three of them would end the string. -/
def innerMarks (mark : Char) : Scan (List Char) := do
  let marks ← takeWhile (· == mark)
  if marks.length = 1 || marks.length = 2 then return marks else failure

/-- The three marks that end a string, after up to two that belong to it. -/
def closingMarks (mark : Char) : Scan (List Char) := do
  let marks ← takeWhile (· == mark)
  if 3 ≤ marks.length && marks.length ≤ 5 then return marks.drop 3 else failure

/-- A string over several lines; a line break right after the opening marks does not count. -/
def longString (mark : Char) (piece : Scan (List Char)) : Scan (List Char) := do
  word (String.ofList [mark, mark, mark])
  let _ ← attempt newline
  let pieces ← many (piece <|> (do newline; return ['\n']) <|> innerMarks mark)
  return pieces.flatten ++ (← closingMarks mark)

def longBasicString : Scan (List Char) :=
  longString '"' ((do return [← basicChar]) <|> lineFold)

def longLiteralString : Scan (List Char) := longString '\'' (do return [← literalChar])

def string : Scan String := do
  return .ofList (← longBasicString <|> longLiteralString <|> basicString <|> literalString)

def isBareKeyChar (c : Char) : Bool := c.isAlphanum || c == '_' || c == '-'

def bareKey : Scan (List Char) := do
  let cs ← takeWhile isBareKeyChar
  if cs.isEmpty then failure else return cs

/-- No key has this many parts, and no list or table lies this deep. -/
def depthLimit : Nat := 80

def key : Scan (List String) := do
  let part : Scan String := do
    spaces
    let cs ← basicString <|> literalString <|> bareKey
    spaces
    return .ofList cs
  let parts ← sepBy1 part '.'
  if parts.length < depthLimit then return parts else failure

/-- Digits, between any two of which one `_` may stand. -/
def digitRun (isDigit : Char → Bool) : Scan (List Char) := do
  let first ← satisfy isDigit
  let rest ← many (satisfy isDigit <|> (do char '_'; satisfy isDigit))
  return first :: rest

/-- Is there a minus sign? A plus sign may stand in its place. -/
def sign : Scan Bool := do
  match ← attempt (satisfy fun c => c == '+' || c == '-') with
  | some c => return c == '-'
  | none => return false

/-- A sign and digits without a leading zero. -/
def wholeNumber : Scan (Bool × List Char) := do
  let isNegative ← sign
  let digits ← (do return [← satisfy (· == '0')]) <|> digitRun Char.isDigit
  return (isNegative, digits)

/-- The value of digits of a base. -/
def digitsValue (base : Nat) (digits : List Char) : Nat :=
  digits.foldl (fun n c => base * n + (Text.hexDigit? c).getD 0) 0

/-- An integer has to fit into 64 bits. -/
def fitting (n : Int) : Scan Scalar :=
  if Int64.minValue.toInt ≤ n && n ≤ Int64.maxValue.toInt then return .integer n else failure

def basedInteger (mark : String) (base : Nat) : Scan Scalar := do
  word mark
  let isDigit (c : Char) : Bool := (Text.hexDigit? c).any (· < base)
  fitting (digitsValue base (← digitRun isDigit))

def decimalInteger : Scan Scalar := do
  let (isNegative, digits) ← wholeNumber
  let n : Int := digitsValue 10 digits
  fitting (if isNegative then -n else n)

def integer : Scan Scalar :=
  basedInteger "0x" 16 <|> basedInteger "0o" 8 <|> basedInteger "0b" 2 <|> decimalInteger

def fractionPart : Scan (List Char) := do
  char '.'
  digitRun Char.isDigit

def exponentPart : Scan Int := do
  let _ ← satisfy fun c => c == 'e' || c == 'E'
  let isNegative ← sign
  let n : Int := digitsValue 10 (← digitRun Char.isDigit)
  return if isNegative then -n else n

/-- A number with a fraction or an exponent. Positive numbers too great to be finite are refused. -/
def fractional : Scan Scalar := do
  let (isNegative, whole) ← wholeNumber
  let fraction ← attempt fractionPart
  let exponent ← attempt exponentPart
  if fraction.isNone && exponent.isNone then failure
  let bits := (FloatText.decimal whole (fraction.getD []) (exponent.getD 0)).nearest
  if bits = Binary64.infinity && !isNegative then failure
  return .decimal (Binary64.float isNegative bits)

/-- Infinity, or what is not a number. -/
def special : Scan Scalar := do
  let isNegative ← sign
  let bits ← (do word "inf"; return Binary64.infinity) <|> (do word "nan"; return Binary64.nan)
  return .decimal (Binary64.float isNegative bits)

/-- A number of exactly `count` digits, from `lo` up to and including `hi`. -/
def fixedNumber (count lo hi : Nat) : Scan Nat := fun cs => do
  let n ← Text.digits? (cs.take count)
  if (cs.take count).length = count && lo ≤ n && n ≤ hi then return (n, cs.drop count) else none

def isLeapYear (year : Nat) : Bool := year % 4 == 0 && (year % 100 != 0 || year % 400 == 0)

def daysIn (year month : Nat) : Nat :=
  if month = 2 then if isLeapYear year then 29 else 28
  else if month ∈ [4, 6, 9, 11] then 30
  else 31

def date : Scan Unit := do
  let year ← fixedNumber 4 0 9999
  char '-'
  let month ← fixedNumber 2 1 12
  char '-'
  let _ ← fixedNumber 2 1 (daysIn year month)

/-- A time of day; the last second of a day may be a leap second. -/
def time (lastHour : Nat) : Scan Unit := do
  let _ ← fixedNumber 2 0 lastHour
  char ':'
  let _ ← fixedNumber 2 0 59
  char ':'
  let _ ← fixedNumber 2 0 60
  let _ ← attempt (do char '.'; let _ ← satisfy Char.isDigit; takeWhile Char.isDigit)

def offset : Scan Unit :=
  (do let _ ← satisfy fun c => c == 'Z' || c == 'z') <|> do
    let _ ← satisfy fun c => c == '+' || c == '-'
    let _ ← fixedNumber 2 0 23
    char ':'
    let _ ← fixedNumber 2 0 59

/-- A distance from universal time of no more than a day, the minutes in any number. -/
def wideOffset : Scan Unit :=
  (do let _ ← satisfy fun c => c == 'Z' || c == 'z') <|> do
    let _ ← satisfy fun c => c == '+' || c == '-'
    let hours ← fixedNumber 2 0 99
    char ':'
    let minutes ← fixedNumber 2 0 99
    if 24 * 60 < 60 * hours + minutes then failure

def moment (lastHour : Nat) (offset : Scan Unit) : Scan Unit :=
  (do
    date
    let _ ← attempt do
      let _ ← satisfy fun c => c == 'T' || c == 't' || c == ' '
      time lastHour
      attempt offset) <|> time lastHour

/-- The name reserved for dates. -/
def dateName : String := "$__toml_private_datetime"

def dateTime : Scan Tree := do
  return .table [(dateName, .leaf (.text (.ofList (← taken (moment 23 offset)))))]

/-- A date that is spelled in a string. It may name the end of a day as hour 24. -/
def spelledDate : Scan Unit := moment 24 wideOffset

def switch : Scan Scalar :=
  (do word "true"; return .switch true) <|> (do word "false"; return .switch false)

def scalar : Scan Tree :=
  (do return .leaf (.text (← string))) <|> .leaf <$> switch <|> dateTime <|>
    .leaf <$> (fractional <|> special <|> integer)

end CameraPipeline.Toml
