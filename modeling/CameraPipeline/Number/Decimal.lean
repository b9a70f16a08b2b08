import CameraPipeline.Number.Binary64
import CameraPipeline.Text.Numeral

/-!
Decimals, and the shortest one that reads back as a given floating-point number. For each count of
digits, from one to seventeen, the two decimals around the number are tried; the first count with
one that reads back wins, and of two the nearer.
-/

namespace CameraPipeline

/-- The decimal `digits · 10 ^ exponent`. -/
structure Decimal where
  digits : Nat
  exponent : Int
  deriving DecidableEq, Repr

/-- The number of decimal digits; zero has one. -/
def digitCount (n : Nat) : Nat := (Nat.toDigits 10 n).length

namespace Decimal

def ratio (d : Decimal) : Ratio := .scaled d.digits 10 d.exponent

/-- The floating-point pattern nearest to a decimal. Far outside the range of the finite patterns
the decimal is not worked out. -/
def nearest (d : Decimal) : Nat :=
  let top := d.exponent + Int.ofNat (digitCount d.digits)
  if d.digits = 0 || top < -330 then 0
  else if 330 < top then Binary64.infinity
  else Binary64.nearest d.ratio

/-- The number `e` with `10 ^ (e - 1) ≤ r < 10 ^ e`, for a positive ratio. -/
def magnitude (r : Ratio) : Int :=
  if r.den ≤ r.num then Int.ofNat (digitCount r.floor)
  else 1 - Int.ofNat (digitCount ((r.den - 1) / r.num))

/-- The decimals of `n` digits around a positive ratio, the nearer first. -/
def neighbours (r : Ratio) (n : Nat) : List Decimal :=
  let exponent := magnitude r - Int.ofNat n
  let s := r.divPow 10 exponent
  let below : Decimal := ⟨s.floor, exponent⟩
  let above : Decimal := ⟨s.floor + 1, exponent⟩
  if s.isNearFloor then [below, above] else [above, below]

/-- The shortest decimal that reads back as a finite pattern. -/
def shortest (bits : Nat) : Decimal :=
  if bits = 0 then ⟨0, 0⟩
  else
    ((List.range 17).findSome? fun n =>
      (neighbours (Binary64.ratio bits) (n + 1)).find? (·.nearest == bits)).getD ⟨0, 0⟩

/-- A decimal in positional notation; a point stands only before a part that is not zero. -/
def text (d : Decimal) : String :=
  match d.exponent with
  | .ofNat e => Text.ofNat (d.digits * Nat.pow 10 e)
  | .negSucc e =>
    let unit := Nat.pow 10 (e + 1)
    let whole := Text.ofNat (d.digits / unit)
    match Text.fraction (e + 1) (d.digits % unit) with
    | "" => whole
    | fraction => whole ++ "." ++ fraction

example : shortest 0x3fb999999999999a = ⟨1, -1⟩ ∧ shortest 0x3ff0000000000000 = ⟨1, 0⟩ ∧
    shortest 1 = ⟨5, -324⟩ ∧ (shortest 0x7fefffffffffffff).digits = 17976931348623157 := by
  decide +kernel

example : text ⟨1, -1⟩ = "0.1" ∧ text ⟨25, 3⟩ = "25000" ∧ text ⟨1050, -3⟩ = "1.05" ∧
    text ⟨10, -1⟩ = "1" := by
  decide +kernel

end Decimal
end CameraPipeline
