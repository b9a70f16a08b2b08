import CameraPipeline.Number.Decimal
import CameraPipeline.Text.Case

/-!
Floating-point numbers as text. They are read with an optional sign, from digits with or without a
point and an exponent, or from a word. They are written with the fewest digits that read back, and
without an exponent.
-/

namespace CameraPipeline.FloatText

/-- The decimal with the given digits before and after its point, times a power of ten. -/
def decimal (whole fraction : List Char) (exponent : Int) : Decimal :=
  ⟨(whole ++ fraction).foldl (fun n c => 10 * n + (c.toNat - '0'.toNat)) 0,
    exponent - Int.ofNat fraction.length⟩

def signed? : List Char → Option Int
  | '+' :: cs => (Text.digits? cs).map Int.ofNat
  | '-' :: cs => (Text.digits? cs).map fun n => -Int.ofNat n
  | cs => (Text.digits? cs).map Int.ofNat

/-- Reads digits, a point and digits, and an exponent. There has to be a digit before the
exponent. -/
def unsigned? (cs : List Char) : Option Decimal :=
  let whole := cs.takeWhile Char.isDigit
  let (fraction, rest) := match cs.dropWhile Char.isDigit with
    | '.' :: r => (r.takeWhile Char.isDigit, r.dropWhile Char.isDigit)
    | r => ([], r)
  if whole.isEmpty && fraction.isEmpty then none
  else
    match rest with
    | [] => some (decimal whole fraction 0)
    | c :: r => if c = 'e' || c = 'E' then (signed? r).map (decimal whole fraction) else none

/-- Reads the pattern of a number without a sign, from digits or a word. -/
def bits? (cs : List Char) : Option Nat :=
  match Text.lowerAscii (String.ofList cs) with
  | "inf" | "infinity" => some Binary64.infinity
  | "nan" => some Binary64.nan
  | _ => (unsigned? cs).map (·.nearest)

def read? (s : String) : Option Float :=
  match s.toList with
  | '+' :: cs => (bits? cs).map (Binary64.float false)
  | '-' :: cs => (bits? cs).map (Binary64.float true)
  | cs => (bits? cs).map (Binary64.float false)

def ofInt (n : Int) : Float := Binary64.float (n < 0) (Decimal.nearest ⟨n.natAbs, 0⟩)

def write (x : Float) : String :=
  let bits := Binary64.bitsOf x
  if Binary64.infinity < bits then "NaN"
  else
    (if Binary64.isNegative x then "-" else "") ++
      if bits = Binary64.infinity then "inf" else (Decimal.shortest bits).text

end CameraPipeline.FloatText
