/-!
Integers as text: how they are read and how they are written.

A numeral is an optional sign and one or more ASCII digits, with nothing around them. A minus
sign belongs to signed types only. A value out of the type's range is no numeral of that type.
-/

namespace CameraPipeline.Text

/-- The value of a digit string, `none` if it is empty or holds anything else. -/
def digits? (cs : List Char) : Option Nat :=
  if cs.isEmpty || !cs.all Char.isDigit then none
  else some (cs.foldl (fun n c => 10 * n + (c.toNat - '0'.toNat)) 0)

/-- Reads a natural number below `bound`. -/
def natural? (bound : Nat) (s : String) : Option Nat :=
  let value := match s.toList with
    | '+' :: cs => digits? cs
    | cs => digits? cs
  value.filter (· < bound)

/-- Reads an integer from `lo` up to and including `hi`. -/
def integer? (lo hi : Int) (s : String) : Option Int :=
  let value : Option Int := match s.toList with
    | '+' :: cs => (digits? cs).map Int.ofNat
    | '-' :: cs => (digits? cs).map fun n => -Int.ofNat n
    | cs => (digits? cs).map Int.ofNat
  value.filter fun n => lo ≤ n && n ≤ hi

/-- The decimal text of a natural number, without leading zeros. -/
def ofNat (n : Nat) : String := String.ofList (Nat.toDigits 10 n)

/-- The decimal text of an integer; only negative numbers have a sign. -/
def ofInt : Int → String
  | .ofNat n => ofNat n
  | .negSucc n => "-" ++ ofNat (n + 1)

def hex (n : Nat) : String := String.ofList (Nat.toDigits 16 n)

/-- The text `s`, filled up from the left with `c` to `width` characters. -/
def padLeft (width : Nat) (c : Char) (s : String) : String :=
  String.ofList (List.replicate (width - s.length) c ++ s.toList)

/-- The value of a hexadecimal digit, in either case. -/
def hexDigit? (c : Char) : Option Nat :=
  if c.isDigit then some (c.toNat - '0'.toNat)
  else if 'a' ≤ c && c ≤ 'f' then some (c.toNat - 'a'.toNat + 10)
  else if 'A' ≤ c && c ≤ 'F' then some (c.toNat - 'A'.toNat + 10)
  else none

/-- The digits of a fraction of `width` places without the zeros at its end. -/
def fraction (width n : Nat) : String :=
  String.ofList ((padLeft width '0' (ofNat n)).toList.reverse.dropWhile (· == '0')).reverse

/-- A span of whole milliseconds in its largest unit: `60ms`, `1s`, `1.5s`. -/
def span (millis : Nat) : String :=
  if millis = 0 then "0ns"
  else if millis < 1000 then ofNat millis ++ "ms"
  else if millis % 1000 = 0 then ofNat (millis / 1000) ++ "s"
  else ofNat (millis / 1000) ++ "." ++ fraction 3 (millis % 1000) ++ "s"

example : span 0 = "0ns" ∧ span 60 = "60ms" ∧ span 1000 = "1s" ∧ span 1050 = "1.05s" := by
  decide +kernel

end CameraPipeline.Text
