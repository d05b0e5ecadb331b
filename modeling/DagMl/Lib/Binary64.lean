import Mathlib

/-!
# IEEE 754 binary64

A binary64 value is its 64 bits. Every finite value is a whole number of
`2^-1074` units, so rounding and arithmetic are done on integers: the exact
result, in units, goes through one round-to-nearest-even function. Orders
compare integer keys read off the bits.
-/

/-- The powers of ten among the tolerances are read through this instance. -/
instance atLeastTwo_ten : Nat.AtLeastTwo 10 := ⟨by decide⟩

structure Binary64 where
  bits : UInt64
  deriving DecidableEq

namespace Binary64

theorem ext {x y : Binary64} (h : x.bits = y.bits) : x = y := by
  cases x; cases y; simp_all

/-- The sign bit. -/
def neg (x : Binary64) : Bool := 2 ^ 63 ≤ x.bits.toNat

/-- Exponent and fraction bits, without the sign. -/
def magnitude (x : Binary64) : Nat := x.bits.toNat % 2 ^ 63

def exponent (x : Binary64) : Nat := x.magnitude / 2 ^ 52

def fraction (x : Binary64) : Nat := x.magnitude % 2 ^ 52

def isFinite (x : Binary64) : Bool := x.exponent < 2047

def isNan (x : Binary64) : Bool := 2047 * 2 ^ 52 < x.magnitude

def isZero (x : Binary64) : Bool := x.magnitude = 0

def make (neg : Bool) (magnitude : Nat) : Binary64 :=
  ⟨UInt64.ofNat ((if neg then 2 ^ 63 else 0) + magnitude)⟩

def zero : Binary64 := make false 0
def negZero : Binary64 := make true 0
def infinity (neg : Bool) : Binary64 := make neg (2047 * 2 ^ 52)
def nan : Binary64 := make false (2047 * 2 ^ 52 + 2 ^ 51)

-- ---------------------------------------------------------------------------
-- Rounding
-- ---------------------------------------------------------------------------

/-- `a / b` to the nearest integer, ties to even. -/
def roundHalfEven (a b : Nat) : Nat :=
  if 2 * (a % b) < b then a / b
  else if b < 2 * (a % b) then a / b + 1
  else a / b + a / b % 2

/-- The binary64 nearest to `a / b` units. The quantum is `2^k` units, with
`k` the excess of the quotient's bit length over 53; a carry out of the
significand lands on the next exponent by the layout of the bits. -/
def ofUnits (neg : Bool) (a b : Nat) : Binary64 :=
  let k := Nat.log2 (a / b) - 52
  make neg (min (k * 2 ^ 52 + roundHalfEven a (b * 2 ^ k)) (2047 * 2 ^ 52))

/-- The binary64 nearest to `± digits * 10^exponent`. -/
def ofDecimal (neg : Bool) (digits : Nat) (exponent : Int) : Binary64 :=
  match exponent with
  | .ofNat e => ofUnits neg (digits * 10 ^ e * 2 ^ 1074) 1
  | .negSucc e => ofUnits neg (digits * 2 ^ 1074) (10 ^ (e + 1))

example : ofDecimal false 5 (-324) = ⟨1⟩ := by decide +kernel
example : ofDecimal false 22250738585072009 (-324) = ⟨0x000fffffffffffff⟩ := by decide +kernel
example : ofDecimal false 17976931348623157 292 = ⟨0x7fefffffffffffff⟩ := by decide +kernel

/-- `n as f64`. -/
def ofNat (n : Nat) : Binary64 := ofUnits false (n * 2 ^ 1074) 1

/-- `n as f64` of a signed integer. -/
def ofInt (n : Int) : Binary64 := ofUnits (decide (n < 0)) (n.natAbs * 2 ^ 1074) 1

-- ---------------------------------------------------------------------------
-- Arithmetic
-- ---------------------------------------------------------------------------

/-- The magnitude of a finite value in units. -/
def absUnits (x : Binary64) : Nat :=
  if x.exponent = 0 then x.fraction else (2 ^ 52 + x.fraction) * 2 ^ (x.exponent - 1)

def units (x : Binary64) : Int := if x.neg then -(x.absUnits : Int) else x.absUnits

def add (x y : Binary64) : Binary64 :=
  if x.isNan || y.isNan then nan
  else if !x.isFinite then if !y.isFinite && x.neg != y.neg then nan else x
  else if !y.isFinite then y
  else
    let sum := x.units + y.units
    if sum = 0 then make (x.neg && y.neg) 0 else ofUnits (decide (sum < 0)) sum.natAbs 1

def negate (x : Binary64) : Binary64 := make (!x.neg) x.magnitude

def sub (x y : Binary64) : Binary64 := x.add y.negate

def abs (x : Binary64) : Binary64 := make false x.magnitude

def mul (x y : Binary64) : Binary64 :=
  let sign := x.neg != y.neg
  if x.isNan || y.isNan then nan
  else if !x.isFinite || !y.isFinite then
    if x.isZero || y.isZero then nan else infinity sign
  else ofUnits sign (x.absUnits * y.absUnits) (2 ^ 1074)

def div (x y : Binary64) : Binary64 :=
  let sign := x.neg != y.neg
  if x.isNan || y.isNan then nan
  else if !x.isFinite then if !y.isFinite then nan else infinity sign
  else if !y.isFinite then make sign 0
  else if y.isZero then if x.isZero then nan else infinity sign
  else ofUnits sign (x.absUnits * 2 ^ 1074) y.absUnits

/-- `iter().sum::<f64>()`, whose neutral element is `-0.0`. -/
def sum (xs : List Binary64) : Binary64 := xs.foldl add negZero

/-- `x.floor() as usize`, for the finite non-negative values it is used on. -/
def floorToNat (x : Binary64) : Nat := x.absUnits / 2 ^ 1074

/-- `x.fract() == 0.0`, false off the finite values. -/
def isIntegral (x : Binary64) : Bool := x.isFinite && x.absUnits % 2 ^ 1074 = 0

-- ---------------------------------------------------------------------------
-- Orders
-- ---------------------------------------------------------------------------

/-- Numeric order on the values that are not NaN; both zeros have key 0. -/
def key (x : Binary64) : Int := if x.neg then -(x.magnitude : Int) else x.magnitude

/-- `x == y`. -/
def eq (x y : Binary64) : Bool := !x.isNan && !y.isNan && x.key = y.key

/-- `x < y`. -/
def lt (x y : Binary64) : Bool := !x.isNan && !y.isNan && x.key < y.key

/-- `x <= y`. -/
def le (x y : Binary64) : Bool := !x.isNan && !y.isNan && x.key ≤ y.key

/-- The signed integer `f64::total_cmp` compares: the magnitude bits are
flipped under a set sign bit. -/
def totalKey (x : Binary64) : Int := if x.neg then -(x.magnitude : Int) - 1 else x.magnitude

def totalCmp (x y : Binary64) : Ordering := compare x.totalKey y.totalKey

/-- `x.max(y)`: a NaN loses to the other operand. -/
def max (x y : Binary64) : Binary64 := if x.isNan then y else if x.lt y then y else x

theorem isNan_of_isFinite {x : Binary64} (h : x.isFinite = true) : x.isNan = false := by
  have h : x.magnitude / 2 ^ 52 < 2047 := of_decide_eq_true h
  simp only [isNan, decide_eq_false_iff_not]
  omega

theorem eq_self_of_isFinite {x : Binary64} (h : x.isFinite = true) : x.eq x = true := by
  simp [eq, isNan_of_isFinite h]

theorem lt_iff {x y : Binary64} (hx : x.isFinite = true) (hy : y.isFinite = true) :
    x.lt y = true ↔ x.key < y.key := by
  simp [lt, isNan_of_isFinite hx, isNan_of_isFinite hy]

theorem le_iff {x y : Binary64} (hx : x.isFinite = true) (hy : y.isFinite = true) :
    x.le y = true ↔ x.key ≤ y.key := by
  simp [le, isNan_of_isFinite hx, isNan_of_isFinite hy]

theorem bits_eq (x : Binary64) :
    x.bits.toNat = (if x.neg then 2 ^ 63 else 0) + x.magnitude := by
  have h := x.bits.toNat_lt
  unfold neg magnitude
  split <;> simp_all <;> omega

theorem eq_of_neg_magnitude {x y : Binary64} (hn : x.neg = y.neg)
    (hm : x.magnitude = y.magnitude) : x = y := by
  apply ext
  apply UInt64.toNat_inj.mp
  rw [bits_eq, bits_eq, hn, hm]

theorem totalKey_inj {x y : Binary64} : x.totalKey = y.totalKey ↔ x = y := by
  constructor
  · intro h
    apply eq_of_neg_magnitude
    · unfold totalKey at h
      cases hx : x.neg <;> cases hy : y.neg <;> simp_all <;> omega
    · unfold totalKey at h
      split at h <;> split at h <;> omega
  · rintro rfl; rfl

theorem magnitude_make (b : Bool) {m : Nat} (h : m < 2 ^ 63) : (make b m).magnitude = m := by
  unfold make magnitude
  cases b <;> simp [UInt64.toNat_ofNat'] <;> omega

theorem neg_make (b : Bool) {m : Nat} (h : m < 2 ^ 63) : (make b m).neg = b := by
  unfold make neg
  cases b <;> simp [UInt64.toNat_ofNat'] <;> omega

end Binary64
