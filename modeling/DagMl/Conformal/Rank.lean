import Mathlib
import DagMl.Conformal.Decimal

/-!
# The finite-sample rank

`ceil((n + 1) * coverage)` from the decimal the coverage is printed as, in
integer arithmetic.
-/

namespace DagMl

open Checked

namespace FloatText

variable (floats : FloatText)

/-- `coefficient / 10^scale`. -/
structure ShortestDecimal where
  coefficient : Nat
  scale : Nat

def maxShortestDecimalCoefficient : Nat := 99999999999999999
def maxU128PowerOfTen : Nat := 38

/-- What the loop over the mantissa threads. -/
structure MantissaScan where
  coefficient : Nat := 0
  fractionalDigits : Int := 0
  afterDecimal : Bool := false
  sawDigit : Bool := false

def scanByte (scan : MantissaScan) (c : Char) : ConformalResult MantissaScan :=
  if c = '.' ∧ scan.afterDecimal = false then .ok { scan with afterDecimal := true }
  else if c.isDigit then do
    let coefficient := 10 * scan.coefficient + digitOf c
    refuseIf (2 ^ 128 ≤ coefficient) .decimalConversion
    let fractionalDigits ←
      checkedI32 (if scan.afterDecimal then scan.fractionalDigits + 1 else scan.fractionalDigits)
    pure { scan with coefficient, fractionalDigits, sawDigit := true }
  else .error .decimalConversion

def shortestDecimal (value : Binary64) : ConformalResult ShortestDecimal := do
  let (mantissa, exponent) ← splitExponent (floats.text value)
  let scan ← loop scanByte {} mantissa
  refuseIf (scan.sawDigit = false ∨ scan.coefficient = 0 ∨
    maxShortestDecimalCoefficient < scan.coefficient) .decimalConversion
  let scale ← checkedI32 (scan.fractionalDigits - exponent)
  refuseIf (scale ≤ 0) .decimalConversion
  pure ⟨scan.coefficient, scale.toNat⟩

def maxConformalSampleCount : Nat := 2 ^ 64 - 2

def finiteSampleConformalRank (sampleCount : Nat) (coverage : Binary64) : ConformalResult Nat := do
  refuseIf (sampleCount = 0 ∨ maxConformalSampleCount < sampleCount)
    (.invalidSampleCount sampleCount)
  validateConformalCoverages [coverage]
  let decimal ← floats.shortestDecimal coverage
  let scaled := (sampleCount + 1) * decimal.coefficient
  refuseIf (2 ^ 128 ≤ scaled) (.arithmeticOverflow "finite-sample rank numerator")
  let rank :=
    if maxU128PowerOfTen < decimal.scale then 1
    else
      let denominator := 10 ^ decimal.scale
      scaled / denominator + if scaled % denominator ≠ 0 then 1 else 0
  refuseIf (2 ^ 64 ≤ rank) (.arithmeticOverflow "finite-sample rank result")
  pure rank

end FloatText

theorem scanByte_loop {scan scan' : FloatText.MantissaScan}
    (h : loop FloatText.scanByte scan cs = .ok scan') :
    ∃ r, readMantissa scan.afterDecimal cs = some r ∧
      scan'.coefficient = scan.coefficient * 10 ^ r.1.length + digitsValue r.1 ∧
      scan'.fractionalDigits = scan.fractionalDigits + r.2 := by
  induction cs generalizing scan with
  | nil =>
    cases h
    exact ⟨([], 0), rfl, by simp [digitsValue], by simp⟩
  | cons c cs ih =>
    obtain ⟨next, hstep, hrest⟩ := loop_cons.mp h
    obtain ⟨r, hr, hcoefficient, hfraction⟩ := ih hrest
    unfold FloatText.scanByte at hstep
    unfold readMantissa
    split at hstep
    · rename_i hpoint
      cases hstep
      exact ⟨r, by rw [if_pos hpoint]; exact hr, hcoefficient, hfraction⟩
    · rename_i hpoint
      rw [if_neg hpoint]
      split at hstep
      · rename_i hdigit
        simp only [bind_ok, refuseIf_ok, checkedI32_ok, pure_ok] at hstep
        obtain ⟨_, -, _, ⟨-, rfl⟩, rfl⟩ := hstep
        refine ⟨_, by rw [if_pos hdigit, hr]; rfl, ?_, ?_⟩
        · rw [hcoefficient, digitsValue_cons, List.length_cons, pow_succ]
          ring
        · rw [hfraction]
          cases scan.afterDecimal <;> simp
          ring
      · cases hstep

namespace FloatText

variable {floats : FloatText}

theorem shortestDecimal_value {x : Binary64} {s : ShortestDecimal}
    (h : floats.shortestDecimal x = .ok s) :
    floats.decimalOf x = s.coefficient / 10 ^ s.scale ∧
      0 < s.coefficient ∧ s.coefficient ≤ maxShortestDecimalCoefficient := by
  simp only [shortestDecimal, bind_ok, refuseIf_ok, checkedI32_ok, pure_ok, not_or, not_lt,
    not_le] at h
  obtain ⟨⟨mantissa, e⟩, hsplit, scan, hscan, _, ⟨-, hpos, hmax⟩, _, ⟨-, rfl⟩, _, hscale, rfl⟩ := h
  obtain ⟨r, hr, hcoefficient, hfraction⟩ := scanByte_loop hscan
  refine ⟨?_, Nat.pos_of_ne_zero hpos, hmax⟩
  -- a sign would stand in the mantissa, where the scan refuses it
  have hunsigned : (floats.text x).head? ≠ some '-' := by
    intro hsign
    obtain ⟨rest, hrest⟩ := List.head?_eq_some_iff.mp hsign
    have hmantissa : ∃ tail, mantissa = '-' :: tail := by
      rw [hrest] at hsplit
      unfold splitExponent at hsplit
      simp only [List.takeWhile_cons] at hsplit
      split at hsplit
      · cases hsplit
        exact ⟨_, rfl⟩
      · simp only [bind_ok, pure_ok, Prod.mk.injEq] at hsplit
        obtain ⟨_, -, rfl, -⟩ := hsplit
        exact ⟨_, rfl⟩
    obtain ⟨tail, rfl⟩ := hmantissa
    cases hr
  have hread : floats.decimalOf x = (⟨false, r.1, e - r.2⟩ : ExactDecimal).value := by
    simp [decimalOf, readLiteral, hunsigned, hsplit, hr]
  simp only [zero_mul, zero_add] at hcoefficient hfraction
  rw [hread, ExactDecimal.value, Binary64.decimal, ← hcoefficient, hfraction]
  simp only [Bool.false_eq_true, if_false, one_mul]
  rw [div_eq_mul_inv, ← zpow_natCast, ← zpow_neg, Int.toNat_of_nonneg (by omega), neg_sub]

/-- A coverage below one has a text below one. -/
theorem decimalOf_lt_one (floats : FloatText) {x : Binary64} (h : ValidCoverage x) : floats.decimalOf x < 1 := by
  obtain ⟨hfinite, -, hone⟩ := validCoverage_iff.mp h
  by_contra hle
  obtain ⟨neg, n, e, hn, rfl⟩ := floats.decimalOf_reads hfinite
  have hdecimal : Binary64.decimal false 1 0 ≤ Binary64.decimal neg n e := by
    rw [← hn]
    simpa [Binary64.decimal] using not_lt.mp hle
  have hkey := Binary64.key_ofDecimal_mono hdecimal
  have heq : Binary64.ofDecimal false 1 0 = Binary64.ofNat 1 := by decide +kernel
  rw [heq] at hkey
  omega

theorem decimalOf_pos (floats : FloatText) {x : Binary64} (h : ValidCoverage x) : 0 < floats.decimalOf x := by
  obtain ⟨hfinite, hzero, -⟩ := validCoverage_iff.mp h
  by_contra hle
  obtain ⟨neg, n, e, hn, rfl⟩ := floats.decimalOf_reads hfinite
  have hdecimal : Binary64.decimal neg n e ≤ Binary64.decimal false 0 0 := by
    rw [← hn]
    simpa [Binary64.decimal] using not_lt.mp hle
  have hkey := Binary64.key_ofDecimal_mono hdecimal
  have heq : (Binary64.ofDecimal false 0 0).key = 0 := by decide +kernel
  omega

theorem ceil_div (a b : Nat) (hb : 0 < b) :
    ((a / b + (if a % b ≠ 0 then 1 else 0) : Nat) : Int) = ⌈(a : ℚ) / b⌉ := by
  have hdiv := Nat.div_add_mod a b
  have hmod := Nat.mod_lt a hb
  have hpos : (0 : ℚ) < b := by exact_mod_cast hb
  symm
  rw [Int.ceil_eq_iff, lt_div_iff₀ hpos, div_le_iff₀ hpos]
  generalize a / b = q at *
  generalize a % b = r at *
  subst hdiv
  have hr : (r : ℚ) < b := by exact_mod_cast hmod
  split
  · rename_i hne
    have hone : (1 : ℚ) ≤ r := by exact_mod_cast Nat.one_le_iff_ne_zero.mpr hne
    push_cast
    constructor
    · linarith
    · linarith
  · rename_i heq
    rw [not_not.mp heq]
    push_cast
    constructor
    · linarith
    · linarith

/-- The rank is `⌈(n + 1) * coverage⌉`, with the coverage as printed. -/
theorem finiteSampleConformalRank_ceil {n rank : Nat} {coverage : Binary64}
    (h : floats.finiteSampleConformalRank n coverage = .ok rank) :
    (rank : Int) = ⌈((n : ℚ) + 1) * floats.decimalOf coverage⌉ := by
  simp only [finiteSampleConformalRank, bind_ok, refuseIf_ok, pure_ok, not_or, not_lt] at h
  obtain ⟨_, ⟨-, hn⟩, _, -, s, hs, _, -, _, -, rfl⟩ := h
  obtain ⟨hvalue, hpos, hmax⟩ := shortestDecimal_value hs
  have hscaled : ((n : ℚ) + 1) * floats.decimalOf coverage =
      ((n + 1) * s.coefficient : Nat) / (10 ^ s.scale : Nat) := by
    rw [hvalue]
    push_cast
    ring
  rw [hscaled]
  split
  · rename_i hscale
    -- the numerator has at most 37 digits, so it lies within the first unit
    have hnumerator : (n + 1) * s.coefficient < 10 ^ s.scale := by
      calc (n + 1) * s.coefficient
          ≤ (maxConformalSampleCount + 1) * maxShortestDecimalCoefficient :=
            Nat.mul_le_mul (Nat.add_le_add_right hn 1) hmax
        _ < 10 ^ 38 := by decide
        _ ≤ 10 ^ s.scale := Nat.pow_le_pow_right (by decide) hscale.le
    have hpositive : 0 < (n + 1) * s.coefficient := Nat.mul_pos (Nat.succ_pos n) hpos
    rw [← ceil_div _ _ (Nat.pow_pos (by decide)), Nat.div_eq_of_lt hnumerator,
      Nat.mod_eq_of_lt hnumerator, if_pos hpositive.ne']
  · exact ceil_div _ _ (Nat.pow_pos (by decide))

theorem finiteSampleConformalRank_valid {n rank : Nat} {coverage : Binary64}
    (h : floats.finiteSampleConformalRank n coverage = .ok rank) : ValidCoverage coverage := by
  simp only [finiteSampleConformalRank, bind_ok] at h
  obtain ⟨_, -, _, hcoverage, -⟩ := h
  exact (validateConformalCoverages_ok.mp hcoverage).2.1 coverage (by simp)

theorem one_le_rank {n rank : Nat} {coverage : Binary64}
    (h : floats.finiteSampleConformalRank n coverage = .ok rank) : 1 ≤ rank := by
  have hpos := floats.decimalOf_pos (finiteSampleConformalRank_valid h)
  have hceil := finiteSampleConformalRank_ceil h
  have : (0 : Int) < rank := by
    rw [hceil, Int.ceil_pos]
    positivity
  omega

theorem rank_le {n rank : Nat} {coverage : Binary64}
    (h : floats.finiteSampleConformalRank n coverage = .ok rank) : rank ≤ n + 1 := by
  have hlt := floats.decimalOf_lt_one (finiteSampleConformalRank_valid h)
  have hceil := finiteSampleConformalRank_ceil h
  have : (rank : Int) ≤ (n : Int) + 1 := by
    rw [hceil, Int.ceil_le]
    push_cast
    nlinarith
  omega

theorem rank_mono {n rank rank' : Nat} {coverage coverage' : Binary64}
    (h : floats.finiteSampleConformalRank n coverage = .ok rank)
    (h' : floats.finiteSampleConformalRank n coverage' = .ok rank')
    (hle : floats.decimalOf coverage ≤ floats.decimalOf coverage') : rank ≤ rank' := by
  have hmono : (rank : Int) ≤ rank' := by
    rw [finiteSampleConformalRank_ceil h, finiteSampleConformalRank_ceil h']
    exact Int.ceil_le_ceil (mul_le_mul_of_nonneg_left hle (by positivity))
  exact_mod_cast hmono

end FloatText

end DagMl
