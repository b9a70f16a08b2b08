import CameraPipeline.Number.Ratio

/-!
Floating-point numbers of 64 bits as ratios, in exact arithmetic: which ratio a bit pattern stands
for, and which pattern is nearest to a ratio.

Without its sign, a finite pattern `e · 2 ^ 52 + m` with `m < 2 ^ 52` stands for
`(2 ^ 52 + m) · 2 ^ (e - 1075)`, or for `m · 2 ^ (-1074)` where `e` is zero. The patterns are in the
order of the numbers, and the pattern after the last finite one is infinity.
-/

namespace CameraPipeline.Binary64

/-- The lower 52 bits of a pattern range below `2 ^ 52`. -/
def fractionSize : Nat := 0x10000000000000

/-- The upmost bit of a pattern, set for negative numbers. -/
def signBit : Nat := 0x8000000000000000

def infinity : Nat := 0x7ff0000000000000

def nan : Nat := 0x7ff8000000000000

/-- The ratio that a finite pattern stands for. -/
def ratio (bits : Nat) : Ratio :=
  let e := bits / fractionSize
  let m := bits % fractionSize
  if e = 0 then .scaled m 2 (-1074) else .scaled (fractionSize + m) 2 (Int.ofNat e - 1075)

/-- The power of two that spaces the floating-point numbers around a positive ratio. -/
def spacing (r : Ratio) : Int :=
  let estimate : Int := Int.ofNat r.num.log2 - Int.ofNat r.den.log2 - 53
  let isEnough := (r.divPow 2 estimate).floor < 2 * fractionSize
  max (-1074) (if isEnough then estimate else estimate + 1)

/-- The pattern nearest to a ratio; a half goes to the even pattern. Ratios too great for a finite
pattern go to infinity. -/
def nearest (r : Ratio) : Nat :=
  if r.num = 0 then 0
  else min infinity ((spacing r + 1074).toNat * fractionSize + (r.divPow 2 (spacing r)).round)

/-- The number with the given sign and pattern. -/
def float (isNegative : Bool) (bits : Nat) : Float :=
  .ofBits (UInt64.ofNat (if isNegative then signBit + bits else bits))

def bitsOf (x : Float) : Nat := x.toBits.toNat % signBit

def isNegative (x : Float) : Bool := signBit ≤ x.toBits.toNat

example : nearest ⟨1, 10⟩ = 0x3fb999999999999a ∧ nearest ⟨1, 1⟩ = 0x3ff0000000000000 ∧
    nearest (.scaled 5 10 (-324)) = 1 ∧ nearest (.scaled 2 10 (-324)) = 0 ∧
    nearest (.scaled 1 10 309) = infinity := by
  decide +kernel

end CameraPipeline.Binary64
