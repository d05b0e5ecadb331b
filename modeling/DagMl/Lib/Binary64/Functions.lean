import Mathlib
import DagMl.Lib.Binary64

/-!
# Functions on binary64

The square root, correctly rounded, and the roundings to whole numbers.
-/

namespace Binary64

/-- `x.sqrt()`. The root of `a` units is that of `a * 2^1074`, and a bit below it
says whether the root is exact. -/
def sqrt (x : Binary64) : Binary64 :=
  if x.isNan then nan
  else if x.isZero then x
  else if x.neg then nan
  else if !x.isFinite then x
  else
    let a := x.absUnits * 2 ^ 1074
    let root := Nat.sqrt a
    ofUnits false (2 * root + if root * root = a then 0 else 1) 2

example : sqrt (ofNat 9) = ofNat 3 := by decide +kernel
example : sqrt (ofNat 2) = ⟨0x3ff6a09e667f3bcd⟩ := by decide +kernel

/-- `x.round()`: to the nearest whole number, half away from zero. -/
def round (x : Binary64) : Binary64 :=
  if !x.isFinite then x
  else ofUnits x.neg ((2 * x.absUnits + 2 ^ 1074) / 2 ^ 1075 * 2 ^ 1074) 1

/-- `x as i64`: towards zero, saturating. -/
def toI64 (x : Binary64) : Int :=
  if x.isNan then 0
  else
    let whole : Nat := if x.isFinite then x.absUnits / 2 ^ 1074 else 2 ^ 63
    if x.neg then if whole ≤ 2 ^ 63 then -(whole : Int) else -2 ^ 63
    else if whole < 2 ^ 63 then whole else 2 ^ 63 - 1

end Binary64
