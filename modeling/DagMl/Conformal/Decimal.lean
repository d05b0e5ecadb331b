import Mathlib
import DagMl.Conformal.Basic
import DagMl.Lib.Binary64.Rounding

/-!
# Exact decimals

The decimal a float is printed as, read back by hand as a list of digits, and
the arithmetic on such lists that interval endpoints need. Every result is the
exact number, so rounding happens once.
-/

namespace DagMl

open Checked

/-- `checked_*` on an `i32`. -/
def checkedI32 (n : Int) : ConformalResult Int :=
  if -2 ^ 31 ≤ n ∧ n < 2 ^ 31 then .ok n else .error .decimalConversion

theorem checkedI32_ok : checkedI32 n = .ok m ↔ (-2 ^ 31 ≤ n ∧ n < 2 ^ 31) ∧ n = m := by
  unfold checkedI32
  split <;> simp_all

-- ---------------------------------------------------------------------------
-- Number texts
-- ---------------------------------------------------------------------------

def digitOf (c : Char) : Nat := c.toNat - '0'.toNat

/-- `text.parse::<i32>()`. -/
def parseI32 (text : List Char) : ConformalResult Int := do
  let negative := text.head? = some '-'
  let digits := if negative ∨ text.head? = some '+' then text.tail else text
  refuseIf (digits = [] ∨ ¬digits.all Char.isDigit) .decimalConversion
  let n := digits.foldl (fun n c => 10 * n + digitOf c) 0
  checkedI32 (if negative then -n else n)

/-- The text up to `e` or `E`, and the exponent after it. -/
def splitExponent (rendered : List Char) : ConformalResult (List Char × Int) :=
  let isMark := fun c : Char => c = 'e' || c = 'E'
  let mantissa := rendered.takeWhile (!isMark ·)
  match rendered.dropWhile (!isMark ·) with
  | [] => .ok (mantissa, 0)
  | _ :: exponent => do
    let exponent ← parseI32 exponent
    pure (mantissa, exponent)

/-- The digits of a mantissa, and how many of them follow the point. -/
def readMantissa (afterDecimal : Bool) : List Char → Option (List Nat × Nat)
  | [] => some ([], 0)
  | c :: cs =>
    if c = '.' ∧ afterDecimal = false then readMantissa true cs
    else if c.isDigit then
      (readMantissa afterDecimal cs).map fun r =>
        (digitOf c :: r.1, if afterDecimal then r.2 + 1 else r.2)
    else none

/-- `digits * 10^exponent` with a sign; the most significant digit is first. -/
structure ExactDecimal where
  negative : Bool
  digits : List Nat
  exponent : Int
  deriving DecidableEq

/-- The number a digit list denotes. -/
def digitsValue (digits : List Nat) : Nat := Nat.ofDigits 10 digits.reverse

namespace ExactDecimal

def zero (negative : Bool) : ExactDecimal := ⟨negative, [0], 0⟩

def isZero (self : ExactDecimal) : Bool := self.digits = [0]

/-- The exact value. -/
def value (self : ExactDecimal) : ℚ :=
  Binary64.decimal self.negative (digitsValue self.digits) self.exponent

end ExactDecimal

/-- A number text, read as the exact decimal it denotes. -/
def readLiteral (text : List Char) : Option ExactDecimal :=
  let negative := text.head? = some '-'
  match splitExponent (if negative then text.tail else text) with
  | .error _ => none
  | .ok (mantissa, exponent) => (readMantissa false mantissa).map fun r =>
    ⟨negative, r.1, exponent - r.2⟩

/-- `f64::to_string`: the text of a finite value reads back to it. -/
structure FloatText where
  text : Binary64 → List Char
  reads : ∀ x, x.isFinite = true → ∃ d, readLiteral (text x) = some d ∧
    Binary64.ofDecimal d.negative (digitsValue d.digits) d.exponent = x

-- ---------------------------------------------------------------------------
-- Exact arithmetic
-- ---------------------------------------------------------------------------

namespace ExactDecimal

/-- Drops trailing zeros, kept here at the front of the reversed digits. -/
def popZeros : List Nat → Int → ConformalResult (List Nat × Int)
  | digit :: next :: rest, exponent =>
    if digit = 0 then do
      let exponent ← checkedI32 (exponent + 1)
      popZeros (next :: rest) exponent
    else .ok (digit :: next :: rest, exponent)
  | reversed, exponent => .ok (reversed, exponent)

def normalize (self : ExactDecimal) : ConformalResult ExactDecimal := do
  let (reversed, exponent) ← popZeros self.digits.reverse self.exponent
  pure { self with digits := reversed.reverse, exponent }

/-- What the loop over the mantissa threads. -/
structure DigitScan where
  digits : List Nat := []
  fractionalDigits : Int := 0
  afterDecimal : Bool := false

def scanDigit (scan : DigitScan) (c : Char) : ConformalResult DigitScan :=
  if c = '.' ∧ scan.afterDecimal = false then .ok { scan with afterDecimal := true }
  else if c.isDigit then do
    let fractionalDigits ←
      checkedI32 (if scan.afterDecimal then scan.fractionalDigits + 1 else scan.fractionalDigits)
    pure { scan with digits := scan.digits ++ [digitOf c], fractionalDigits }
  else .error .decimalConversion

def ofFloat (floats : FloatText) (value : Binary64) : ConformalResult ExactDecimal := do
  refuseIf (value.isFinite = false) .decimalConversion
  let rendered := floats.text value
  let negative := rendered.head? = some '-'
  let unsigned := if negative then rendered.tail else rendered
  let (mantissa, scientificExponent) ← splitExponent unsigned
  let scan ← loop scanDigit {} mantissa
  refuseIf (scan.digits = []) .decimalConversion
  let digits := scan.digits.dropWhile (· = 0)
  if digits = [] then pure (.zero negative)
  else do
    let exponent ← checkedI32 (scientificExponent - scan.fractionalDigits)
    normalize { negative, digits, exponent }

def alignedDigits (self : ExactDecimal) (commonExponent : Int) : ConformalResult (List Nat) := do
  let trailingZeros ← checkedI32 (self.exponent - commonExponent)
  refuseIf (trailingZeros < 0) .decimalConversion
  pure (self.digits ++ List.replicate trailingZeros.toNat 0)

/-- `digitCount` turns of the adder on reversed digits; an exhausted operand gives zeros. -/
def addReversed : Nat → List Nat → List Nat → Nat → List Nat
  | 0, _, _, carry => if carry ≠ 0 then [carry] else []
  | digitCount + 1, left, right, carry =>
    let sum := left.headD 0 + right.headD 0 + carry
    sum % 10 :: addReversed digitCount left.tail right.tail (sum / 10)

def addMagnitudes (left right : List Nat) : List Nat :=
  (addReversed (max left.length right.length) left.reverse right.reverse 0).reverse

/-- The subtractor on reversed digits, over the digits of the larger operand. -/
def subtractReversed : List Nat → List Nat → Int → ConformalResult (List Nat)
  | [], _, borrow => if borrow ≠ 0 then .error .decimalConversion else .ok []
  | digit :: larger, smaller, borrow => do
    let difference : Int := digit - smaller.headD 0 - borrow
    let digit := if difference < 0 then difference + 10 else difference
    refuseIf (¬(0 ≤ digit ∧ digit < 2 ^ 8)) .decimalConversion
    let rest ← subtractReversed larger smaller.tail (if difference < 0 then 1 else 0)
    pure (digit.toNat :: rest)

/-- Leading zeros go, but for a last one. -/
def dropLeadingZeros (digits : List Nat) : List Nat :=
  if digits.all (· = 0) then digits.drop (digits.length - 1) else digits.dropWhile (· = 0)

def subtractMagnitudes (larger smaller : List Nat) : ConformalResult (List Nat) := do
  let reversed ← subtractReversed larger.reverse smaller.reverse 0
  pure (dropLeadingZeros reversed.reverse)

def magnitudeOrder (left right : List Nat) : Ordering :=
  (compare left.length right.length).then (compare left right)

def add (left right : ExactDecimal) (subtractRight : Bool) : ConformalResult ExactDecimal :=
  if left.isZero && right.isZero then .ok (.zero false)
  else if right.isZero then .ok left
  else if left.isZero then .ok { right with negative := right.negative ^^ subtractRight }
  else do
    let commonExponent := min left.exponent right.exponent
    let leftDigits ← left.alignedDigits commonExponent
    let rightDigits ← right.alignedDigits commonExponent
    let rightNegative := right.negative ^^ subtractRight
    if left.negative = rightNegative then
      normalize ⟨left.negative, addMagnitudes leftDigits rightDigits, commonExponent⟩
    else
      match magnitudeOrder leftDigits rightDigits with
      | .gt => do
        let digits ← subtractMagnitudes leftDigits rightDigits
        normalize ⟨left.negative, digits, commonExponent⟩
      | .lt => do
        let digits ← subtractMagnitudes rightDigits leftDigits
        normalize ⟨rightNegative, digits, commonExponent⟩
      | .eq => .ok (.zero false)

/-- The text `d.ddd` with its scientific exponent, parsed as the nearest float. -/
def toFloat (self : ExactDecimal) (operation : String) : ConformalResult Binary64 :=
  if self.isZero then .ok (.make self.negative 0)
  else do
    let last ← checkedI32 (self.digits.length - 1)
    let _ ← checkedI32 (self.exponent + last)
    checkedFinite (.ofDecimal self.negative (digitsValue self.digits) self.exponent) operation

end ExactDecimal

namespace FloatText

variable (floats : FloatText)

def decimalConformalEndpoints (point radius : Binary64) : ConformalResult (Binary64 × Binary64) := do
  let pointDecimal ← ExactDecimal.ofFloat floats point
  let radiusDecimal ← ExactDecimal.ofFloat floats radius
  let lower ← pointDecimal.add radiusDecimal true
  let upper ← pointDecimal.add radiusDecimal false
  let lower := if lower.isZero then { lower with negative := point.isZero && point.neg } else lower
  let upper := if upper.isZero then { upper with negative := false } else upper
  let lower ← lower.toFloat "finite conformal lower endpoint"
  let upper ← upper.toFloat "finite conformal upper endpoint"
  pure (lower, upper)

def decimalIntervalCloses (point radius lower upper : Binary64) : ConformalResult Bool := do
  let (expectedLower, expectedUpper) ← floats.decimalConformalEndpoints point radius
  let matchesCanonicalEndpoints := lower = expectedLower && upper = expectedUpper
  let nonZeroRadiusCollapsed := !radius.isZero && lower = upper
  pure (matchesCanonicalEndpoints && !nonZeroRadiusCollapsed)

end FloatText

-- ---------------------------------------------------------------------------
-- Digits
-- ---------------------------------------------------------------------------

theorem ofDigits_headD (l : List Nat) :
    Nat.ofDigits 10 l = l.headD 0 + 10 * Nat.ofDigits 10 l.tail := by
  cases l with
  | nil => rfl
  | cons d ds => exact Nat.ofDigits_cons

@[simp] theorem digitsValue_concat (ds : List Nat) (d : Nat) :
    digitsValue (ds ++ [d]) = 10 * digitsValue ds + d := by
  rw [digitsValue, List.reverse_concat, Nat.ofDigits_cons, digitsValue, Nat.add_comm]

@[simp] theorem digitsValue_zero_cons (ds : List Nat) : digitsValue (0 :: ds) = digitsValue ds := by
  rw [digitsValue, List.reverse_cons, Nat.ofDigits_append, digitsValue]
  simp

theorem digitsValue_cons (d : Nat) (ds : List Nat) :
    digitsValue (d :: ds) = d * 10 ^ ds.length + digitsValue ds := by
  rw [digitsValue, List.reverse_cons, Nat.ofDigits_append, List.length_reverse, digitsValue]
  simp only [Nat.ofDigits_singleton]
  ring

theorem digitsValue_append_zeros (ds : List Nat) (k : Nat) :
    digitsValue (ds ++ List.replicate k 0) = digitsValue ds * 10 ^ k := by
  induction k with
  | zero => simp
  | succ k ih =>
    rw [List.replicate_succ', ← List.append_assoc, digitsValue_concat, ih, pow_succ]
    ring

theorem digitsValue_dropWhile (ds : List Nat) :
    digitsValue (ds.dropWhile (· = 0)) = digitsValue ds := by
  induction ds with
  | nil => rfl
  | cons d ds ih =>
    by_cases hd : d = 0
    · simpa [hd] using ih
    · simp [hd]

theorem digitsValue_of_all_zero {ds : List Nat} (h : ∀ d ∈ ds, d = 0) : digitsValue ds = 0 := by
  induction ds with
  | nil => rfl
  | cons d ds ih =>
    rw [List.forall_mem_cons] at h
    rw [h.1, digitsValue_zero_cons, ih h.2]

namespace ExactDecimal

theorem digitsValue_dropLeadingZeros (ds : List Nat) :
    digitsValue (dropLeadingZeros ds) = digitsValue ds := by
  unfold dropLeadingZeros
  split
  · rename_i h
    have hzero : ∀ d ∈ ds, d = 0 := by simpa using h
    rw [digitsValue_of_all_zero hzero,
      digitsValue_of_all_zero fun d hd => hzero d (List.mem_of_mem_drop hd)]
  · exact digitsValue_dropWhile ds

theorem addReversed_value {n : Nat} {left right : List Nat} {carry : Nat} (hl : left.length ≤ n)
    (hr : right.length ≤ n) : Nat.ofDigits 10 (addReversed n left right carry) =
      Nat.ofDigits 10 left + Nat.ofDigits 10 right + carry := by
  induction n generalizing left right carry with
  | zero =>
    rw [List.length_eq_zero_iff.mp (Nat.le_zero.mp hl), List.length_eq_zero_iff.mp (Nat.le_zero.mp hr)]
    by_cases hc : carry = 0 <;> simp [addReversed, hc]
  | succ n ih =>
    have htail {l : List Nat} (h : l.length ≤ n + 1) : l.tail.length ≤ n := by
      rw [List.length_tail]
      omega
    rw [addReversed, Nat.ofDigits_cons, ih (htail hl) (htail hr), ofDigits_headD left,
      ofDigits_headD right]
    omega

theorem addMagnitudes_value (left right : List Nat) :
    digitsValue (addMagnitudes left right) = digitsValue left + digitsValue right := by
  rw [digitsValue, addMagnitudes, List.reverse_reverse, addReversed_value (by simp) (by simp)]
  rfl

theorem subtractReversed_value {larger smaller : List Nat} {borrow : Int}
    (hlength : smaller.length ≤ larger.length)
    (h : subtractReversed larger smaller borrow = .ok ds) :
    ((Nat.ofDigits 10 ds : Nat) : Int) =
      (Nat.ofDigits 10 larger : Nat) - (Nat.ofDigits 10 smaller : Nat) - borrow := by
  induction larger generalizing smaller borrow ds with
  | nil =>
    have hnil : smaller = [] := by simpa using hlength
    unfold subtractReversed at h
    split at h
    · cases h
    · rename_i hb
      cases h
      simp [hnil, not_not.mp hb]
  | cons digit larger ih =>
    simp only [subtractReversed, bind_ok, refuseIf_ok, not_not, pure_ok] at h
    obtain ⟨_, hdigit, rest, hrest, rfl⟩ := h
    have htail : smaller.tail.length ≤ larger.length := by
      rw [List.length_tail, List.length_cons] at *
      omega
    have hvalue := ih htail hrest
    rw [Nat.ofDigits_cons, Nat.ofDigits_cons, ofDigits_headD smaller]
    generalize Nat.ofDigits 10 rest = r at *
    generalize Nat.ofDigits 10 larger = l at *
    generalize Nat.ofDigits 10 smaller.tail = s at *
    split at hdigit <;> rename_i hneg <;> simp only [hneg, if_true, if_false] at hvalue ⊢ <;> omega

theorem subtractMagnitudes_value {larger smaller : List Nat} (hlength : smaller.length ≤ larger.length)
    (h : subtractMagnitudes larger smaller = .ok ds) :
    (digitsValue ds : Int) = digitsValue larger - digitsValue smaller := by
  simp only [subtractMagnitudes, bind_ok, pure_ok] at h
  obtain ⟨reversed, hr, rfl⟩ := h
  have hvalue := subtractReversed_value (by simpa using hlength) hr
  rw [digitsValue_dropLeadingZeros, digitsValue, List.reverse_reverse, hvalue]
  simp [digitsValue]

-- ---------------------------------------------------------------------------
-- Exact values
-- ---------------------------------------------------------------------------

theorem popZeros_value {reversed reversed' : List Nat} {e e' : Int}
    (h : popZeros reversed e = .ok (reversed', e')) :
    ((Nat.ofDigits 10 reversed' : Nat) : ℚ) * 10 ^ e' =
      (Nat.ofDigits 10 reversed : Nat) * 10 ^ e := by
  induction reversed generalizing e with
  | nil =>
    cases h
    rfl
  | cons digit rest ih =>
    cases rest with
    | nil =>
      cases h
      rfl
    | cons next rest =>
      unfold popZeros at h
      split at h
      · rename_i hzero
        simp only [bind_ok, checkedI32_ok] at h
        obtain ⟨_, ⟨-, rfl⟩, h⟩ := h
        rw [ih h, hzero, @Nat.ofDigits_cons 10 0]
        push_cast
        rw [zpow_add₀ (by norm_num)]
        ring
      · cases h
        rfl

theorem normalize_value {d d' : ExactDecimal} (h : d.normalize = .ok d') : d'.value = d.value := by
  simp only [normalize, bind_ok, pure_ok] at h
  obtain ⟨⟨reversed, e⟩, hpop, rfl⟩ := h
  have hvalue := popZeros_value hpop
  simp only [value, Binary64.decimal, digitsValue, List.reverse_reverse, hvalue]

theorem value_of_isZero {d : ExactDecimal} (h : d.isZero = true) : d.value = 0 := by
  have hdigits : d.digits = [0] := of_decide_eq_true h
  simp [value, Binary64.decimal, digitsValue, hdigits]

@[simp] theorem value_zero (negative : Bool) : (zero negative).value = 0 := value_of_isZero rfl

theorem alignedDigits_value {d : ExactDecimal} {common : Int} (h : d.alignedDigits common = .ok ds) :
    (digitsValue ds : ℚ) * 10 ^ common = digitsValue d.digits * 10 ^ d.exponent := by
  simp only [alignedDigits, bind_ok, checkedI32_ok, refuseIf_ok, not_lt, pure_ok] at h
  obtain ⟨zeros, ⟨-, rfl⟩, _, hpos, rfl⟩ := h
  rw [digitsValue_append_zeros]
  push_cast
  rw [mul_assoc, ← zpow_natCast, Int.toNat_of_nonneg hpos, ← zpow_add₀ (by norm_num),
    Int.sub_add_cancel]

/-- `-1` for a negative sign. -/
def sign (negative : Bool) : ℚ := if negative then -1 else 1

theorem value_eq (d : ExactDecimal) :
    d.value = sign d.negative * (digitsValue d.digits * 10 ^ d.exponent) := rfl

theorem sign_xor (a b : Bool) : sign (a ^^ b) = sign a * sign b := by
  cases a <;> cases b <;> simp [sign]

theorem sign_not (a : Bool) : sign (!a) = -sign a := by
  cases a <;> simp [sign]

theorem magnitudeOrder_eq {left right : List Nat} (h : magnitudeOrder left right = .eq) :
    left = right := by
  rw [magnitudeOrder, Ordering.then_eq_eq] at h
  exact Std.LawfulEqCmp.compare_eq_iff_eq.mp h.2

theorem length_le_of_magnitudeOrder {left right : List Nat} (h : magnitudeOrder left right = .gt) :
    right.length ≤ left.length := by
  by_contra hlt
  have hcompare : compare left.length right.length = .lt := compare_lt_iff_lt.mpr (not_le.mp hlt)
  rw [magnitudeOrder, hcompare] at h
  cases h

theorem length_le_of_magnitudeOrder' {left right : List Nat} (h : magnitudeOrder left right = .lt) :
    left.length ≤ right.length := by
  by_contra hlt
  have hcompare : compare left.length right.length = .gt := compare_gt_iff_gt.mpr (not_le.mp hlt)
  rw [magnitudeOrder, hcompare] at h
  cases h

/-- Decimal addition is exact. -/
theorem add_value {left right d : ExactDecimal} {subtractRight : Bool}
    (h : left.add right subtractRight = .ok d) :
    d.value = left.value + sign subtractRight * right.value := by
  unfold add at h
  split at h
  · rename_i hz
    rw [Bool.and_eq_true] at hz
    cases h
    simp [value_of_isZero hz.1, value_of_isZero hz.2]
  split at h
  · rename_i hz
    cases h
    simp [value_of_isZero hz]
  split at h
  · rename_i hz
    cases h
    rw [value_of_isZero hz, value_eq, value_eq, sign_xor]
    ring
  simp only [bind_ok] at h
  obtain ⟨leftDigits, hl, rightDigits, hr, h⟩ := h
  have hleft := alignedDigits_value hl
  have hright := alignedDigits_value hr
  rw [value_eq left, value_eq right, ← hleft, ← hright]
  split at h
  · rename_i hsign
    rw [normalize_value h, value_eq]
    simp only [addMagnitudes_value]
    push_cast
    rw [hsign, sign_xor]
    ring
  · rename_i hsign
    have hopposite : left.negative = !(right.negative ^^ subtractRight) := Bool.eq_not.mpr hsign
    split at h
    · rename_i horder
      simp only [bind_ok] at h
      obtain ⟨ds, hds, h⟩ := h
      have hvalue := subtractMagnitudes_value (length_le_of_magnitudeOrder horder) hds
      have hvalue : (digitsValue ds : ℚ) = digitsValue leftDigits - digitsValue rightDigits := by
        exact_mod_cast hvalue
      rw [normalize_value h, value_eq]
      simp only [hvalue, hopposite, sign_not, sign_xor]
      ring
    · rename_i horder
      simp only [bind_ok] at h
      obtain ⟨ds, hds, h⟩ := h
      have hvalue := subtractMagnitudes_value (length_le_of_magnitudeOrder' horder) hds
      have hvalue : (digitsValue ds : ℚ) = digitsValue rightDigits - digitsValue leftDigits := by
        exact_mod_cast hvalue
      rw [normalize_value h, value_eq]
      simp only [hvalue, hopposite, sign_not, sign_xor]
      ring
    · rename_i horder
      cases h
      rw [magnitudeOrder_eq horder, hopposite, sign_not, sign_xor, value_zero]
      ring

end ExactDecimal

-- ---------------------------------------------------------------------------
-- Reading
-- ---------------------------------------------------------------------------

theorem scanDigit_loop {scan scan' : ExactDecimal.DigitScan}
    (h : loop ExactDecimal.scanDigit scan cs = .ok scan') :
    ∃ r, readMantissa scan.afterDecimal cs = some r ∧ scan'.digits = scan.digits ++ r.1 ∧
      scan'.fractionalDigits = scan.fractionalDigits + r.2 := by
  induction cs generalizing scan with
  | nil =>
    cases h
    exact ⟨([], 0), rfl, by simp, by simp⟩
  | cons c cs ih =>
    obtain ⟨next, hstep, hrest⟩ := loop_cons.mp h
    obtain ⟨r, hr, hdigits, hfraction⟩ := ih hrest
    unfold ExactDecimal.scanDigit at hstep
    unfold readMantissa
    split at hstep
    · rename_i hpoint
      cases hstep
      exact ⟨r, by rw [if_pos hpoint]; exact hr, hdigits, hfraction⟩
    · rename_i hpoint
      rw [if_neg hpoint]
      split at hstep
      · rename_i hdigit
        simp only [bind_ok, checkedI32_ok, pure_ok] at hstep
        obtain ⟨_, ⟨-, rfl⟩, rfl⟩ := hstep
        refine ⟨_, by rw [if_pos hdigit, hr]; rfl, by simp [hdigits], ?_⟩
        rw [hfraction]
        cases scan.afterDecimal <;> simp
        ring
      · cases hstep

namespace FloatText

variable {floats : FloatText}

/-- The decimal a finite float is printed as. -/
def decimalOf (floats : FloatText) (x : Binary64) : ℚ :=
  ((readLiteral (floats.text x)).map ExactDecimal.value).getD 0

theorem decimalOf_reads (floats : FloatText) {x : Binary64} (h : x.isFinite = true) :
    ∃ neg n e, floats.decimalOf x = Binary64.decimal neg n e ∧ Binary64.ofDecimal neg n e = x := by
  obtain ⟨d, hd, hx⟩ := floats.reads x h
  exact ⟨d.negative, digitsValue d.digits, d.exponent, by simp [decimalOf, hd, ExactDecimal.value], hx⟩

/-- Texts are ordered as the floats they denote. -/
theorem key_le_of_decimalOf_le {x y : Binary64} (hx : x.isFinite = true) (hy : y.isFinite = true)
    (h : floats.decimalOf x ≤ floats.decimalOf y) : x.key ≤ y.key := by
  obtain ⟨neg, m, e, hm, rfl⟩ := floats.decimalOf_reads hx
  obtain ⟨neg', n, f, hn, rfl⟩ := floats.decimalOf_reads hy
  rw [hm, hn] at h
  exact Binary64.key_ofDecimal_mono h

theorem decimalOf_lt {x y : Binary64} (hx : x.isFinite = true) (hy : y.isFinite = true)
    (h : x.key < y.key) : floats.decimalOf x < floats.decimalOf y := by
  by_contra hle
  exact absurd (key_le_of_decimalOf_le hy hx (not_lt.mp hle)) (not_le.mpr h)

/-- A value with a clear sign bit is printed without a sign. -/
theorem decimalOf_nonneg (floats : FloatText) {x : Binary64} (hx : x.isFinite = true)
    (h : x.neg = false) :
    0 ≤ floats.decimalOf x := by
  obtain ⟨neg, n, e, hn, rfl⟩ := floats.decimalOf_reads hx
  rw [Binary64.neg_ofDecimal] at h
  rw [hn, h, Binary64.decimal]
  simp only [Bool.false_eq_true, if_false, one_mul]
  positivity

/-- A larger float of clear sign has a larger text. -/
theorem decimalOf_mono (floats : FloatText) {x y : Binary64} (hx : x.isFinite = true)
    (hy : y.isFinite = true) (hxn : x.neg = false) (hyn : y.neg = false) (h : x.key ≤ y.key) :
    floats.decimalOf x ≤ floats.decimalOf y := by
  rcases lt_or_eq_of_le h with h | h
  · exact (decimalOf_lt hx hy h).le
  · have hxy : x = y := by
      apply Binary64.eq_of_neg_magnitude (hxn.trans hyn.symm)
      simpa [Binary64.key, hxn, hyn] using h
    rw [hxy]

theorem ofFloat_value {x : Binary64} {d : ExactDecimal} (h : ExactDecimal.ofFloat floats x = .ok d) :
    x.isFinite = true ∧ d.value = floats.decimalOf x := by
  simp only [ExactDecimal.ofFloat, bind_ok, refuseIf_ok, Bool.not_eq_false] at h
  obtain ⟨_, hfinite, ⟨mantissa, e⟩, hsplit, scan, hscan, _, -, h⟩ := h
  refine ⟨hfinite, ?_⟩
  obtain ⟨r, hr, hdigits, hfraction⟩ := scanDigit_loop hscan
  have hread : floats.decimalOf x =
      (⟨(floats.text x).head? = some '-', r.1, e - r.2⟩ : ExactDecimal).value := by
    simp [decimalOf, readLiteral, hsplit, hr]
  rw [List.nil_append] at hdigits
  rw [zero_add] at hfraction
  rw [hread]
  split at h
  · rename_i hnil
    have hzero : digitsValue r.1 = 0 := by
      rw [← digitsValue_dropWhile, ← hdigits, hnil]
      rfl
    cases h
    rw [ExactDecimal.value_zero, ExactDecimal.value, Binary64.decimal, hzero, Nat.cast_zero,
      zero_mul, mul_zero]
  · simp only [bind_ok, checkedI32_ok] at h
    obtain ⟨_, ⟨-, rfl⟩, h⟩ := h
    rw [ExactDecimal.normalize_value h, hdigits, hfraction]
    simp only [ExactDecimal.value, digitsValue_dropWhile]

-- ---------------------------------------------------------------------------
-- Rounded results
-- ---------------------------------------------------------------------------

/-- A finite float that is numerically the nearest to `q`. -/
structure Rounds (q : ℚ) (x : Binary64) : Prop where
  finite : x.isFinite = true
  nearest : ∃ neg n e, Binary64.decimal neg n e = q ∧ x.key = (Binary64.ofDecimal neg n e).key

theorem Rounds.mono {p q : ℚ} {x y : Binary64} (hx : Rounds p x) (hy : Rounds q y) (h : p ≤ q) :
    x.key ≤ y.key := by
  obtain ⟨neg, m, e, rfl, hm⟩ := hx.nearest
  obtain ⟨neg', n, f, rfl, hn⟩ := hy.nearest
  rw [hm, hn]
  exact Binary64.key_ofDecimal_mono h

theorem rounds_decimalOf (floats : FloatText) {x : Binary64} (h : x.isFinite = true) :
    Rounds (floats.decimalOf x) x := by
  obtain ⟨neg, n, e, hn, hx⟩ := floats.decimalOf_reads h
  exact ⟨h, neg, n, e, hn.symm, by rw [hx]⟩

theorem toFloat_rounds {d : ExactDecimal} {x : Binary64} (h : d.toFloat operation = .ok x) :
    Rounds d.value x := by
  unfold ExactDecimal.toFloat at h
  split at h
  · rename_i hzero
    cases h
    have hdigits : digitsValue d.digits = 0 := by
      rw [show d.digits = [0] from of_decide_eq_true hzero]
      rfl
    refine ⟨?_, d.negative, 0, d.exponent, by rw [ExactDecimal.value, hdigits], ?_⟩
    · cases d.negative <;> decide
    · have hmag : (Binary64.ofDecimal d.negative 0 d.exponent).magnitude = 0 :=
        Binary64.magnitude_ofDecimal_zero _ (by simp)
      simp [Binary64.key, hmag, Binary64.magnitude_make]
  · simp only [bind_ok, checkedFinite_ok] at h
    obtain ⟨_, -, _, -, hfinite, rfl⟩ := h
    exact ⟨hfinite, d.negative, digitsValue d.digits, d.exponent, rfl, rfl⟩

/-- Endpoints are the exact difference and sum, each rounded once. -/
theorem decimalConformalEndpoints_rounds {point radius lower upper : Binary64}
    (h : floats.decimalConformalEndpoints point radius = .ok (lower, upper)) :
    Rounds (floats.decimalOf point - floats.decimalOf radius) lower ∧
      Rounds (floats.decimalOf point + floats.decimalOf radius) upper := by
  simp only [decimalConformalEndpoints, bind_ok, pure_ok, Prod.mk.injEq] at h
  obtain ⟨p, hp, r, hr, l, hl, u, hu, lower', hlower, upper', hupper, rfl, rfl⟩ := h
  have hsigned (d : ExactDecimal) (b : Bool) :
      (if d.isZero then { d with negative := b } else d).value = d.value := by
    split
    · rename_i hz
      rw [ExactDecimal.value_of_isZero hz, ExactDecimal.value_of_isZero]
      exact hz
    · rfl
  have hpoint := (ofFloat_value hp).2
  have hradius := (ofFloat_value hr).2
  have hlower := toFloat_rounds hlower
  have hupper := toFloat_rounds hupper
  rw [hsigned, ExactDecimal.add_value hl, hpoint, hradius] at hlower
  rw [hsigned, ExactDecimal.add_value hu, hpoint, hradius] at hupper
  constructor
  · convert hlower using 1
    simp [ExactDecimal.sign, sub_eq_add_neg]
  · convert hupper using 1
    simp [ExactDecimal.sign]

end FloatText

end DagMl
