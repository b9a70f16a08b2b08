/-!
Ratios of natural numbers, and rounding them.
-/

namespace CameraPipeline

/-- A ratio of natural numbers; the lower one is meant to be positive. -/
structure Ratio where
  num : Nat
  den : Nat
  deriving DecidableEq, Repr

namespace Ratio

/-- The ratio `n · base ^ e`. -/
def scaled (n base : Nat) (e : Int) : Ratio :=
  match e with
  | .ofNat e => ⟨n * base.pow e, 1⟩
  | .negSucc e => ⟨n, base.pow (e + 1)⟩

def divPow (r : Ratio) (base : Nat) (e : Int) : Ratio :=
  let s := scaled 1 base (-e)
  ⟨r.num * s.num, r.den * s.den⟩

def floor (r : Ratio) : Nat := r.num / r.den

/-- Is what lies above the floor less than a half? -/
def isNearFloor (r : Ratio) : Bool := 2 * (r.num % r.den) < r.den

/-- The nearest whole number; a half goes to the even neighbour. -/
def round (r : Ratio) : Nat :=
  if r.isNearFloor then r.floor
  else if 2 * (r.num % r.den) = r.den then r.floor + r.floor % 2
  else r.floor + 1

example : (⟨7, 2⟩ : Ratio).round = 4 ∧ (⟨5, 2⟩ : Ratio).round = 2 ∧ (⟨8, 3⟩ : Ratio).round = 3 := by
  decide

end Ratio
end CameraPipeline
