import Mathlib
import DagMl.Lib.Binary64

/-!
# Rounding is monotone

Round to nearest, ties to even, first on quotients and then across the
exponents of binary64. A smaller exact value never rounds above a larger one,
and a value that binary64 holds rounds to itself.
-/

namespace Binary64

/-- The nearest integer is within a half, and even when two are as near. -/
theorem roundHalfEven_spec {a b : Nat} (hb : 0 < b) :
    (2 * a < (2 * roundHalfEven a b + 1) * b ∨
      2 * a = (2 * roundHalfEven a b + 1) * b ∧ roundHalfEven a b % 2 = 0) ∧
    (2 * roundHalfEven a b * b < 2 * a + b ∨
      2 * roundHalfEven a b * b = 2 * a + b ∧ roundHalfEven a b % 2 = 0) := by
  have hdiv := Nat.div_add_mod a b
  have hmod := Nat.mod_lt a hb
  unfold roundHalfEven
  generalize a / b = q at *
  generalize a % b = r at *
  subst hdiv
  split
  · constructor
    · left; nlinarith
    · left; nlinarith
  · split
    · constructor
      · left; nlinarith
      · left; nlinarith
    · have hhalf : 2 * r = b := by omega
      rcases Nat.mod_two_eq_zero_or_one q with hq | hq
      · rw [hq]
        constructor
        · right; constructor
          · nlinarith
          · omega
        · left; nlinarith
      · rw [hq]
        constructor
        · left; nlinarith
        · right; constructor
          · nlinarith
          · omega

theorem roundHalfEven_mono {a b c d : Nat} (hb : 0 < b) (hd : 0 < d) (h : a * d ≤ c * b) :
    roundHalfEven a b ≤ roundHalfEven c d := by
  obtain ⟨-, hlower⟩ := @roundHalfEven_spec a b hb
  obtain ⟨hupper, -⟩ := @roundHalfEven_spec c d hd
  generalize roundHalfEven a b = m at *
  generalize roundHalfEven c d = m' at *
  by_contra hlt
  have hsucc : m' + 1 ≤ m := by omega
  have hpos : 0 < b * d := Nat.mul_pos hb hd
  have hle : 2 * m * b ≤ 2 * a + b := by rcases hlower with hl | hl <;> omega
  have hge : 2 * c ≤ (2 * m' + 1) * d := by rcases hupper with hu | hu <;> omega
  -- only a tie on both sides leaves room, and ties go to even integers
  have hmul : 2 * m * (b * d) ≤ (2 * m' + 2) * (b * d) := by nlinarith
  have hm : m = m' + 1 := by
    have := Nat.le_of_mul_le_mul_right hmul hpos
    omega
  subst hm
  have hlow : m' % 2 = 0 := by
    rcases hupper with hu | ⟨-, hu⟩
    · nlinarith
    · exact hu
  have hhigh : (m' + 1) % 2 = 0 := by
    rcases hlower with hl | ⟨-, hl⟩
    · nlinarith
    · exact hl
  omega

@[simp] theorem roundHalfEven_mul_self (n : Nat) {b : Nat} (hb : 0 < b) :
    roundHalfEven (n * b) b = n := by
  have hmod : n * b % b = 0 := Nat.mul_mod_left n b
  simp [roundHalfEven, hmod, hb]

@[simp] theorem roundHalfEven_one (n : Nat) : roundHalfEven n 1 = n := by
  simp [roundHalfEven, Nat.mod_one]

-- ---------------------------------------------------------------------------
-- Across exponents
-- ---------------------------------------------------------------------------

/-- The magnitude bits of `a / b` units, before overflow. -/
def roundedMagnitude (a b : Nat) : Nat :=
  let k := Nat.log2 (a / b) - 52
  k * 2 ^ 52 + roundHalfEven a (b * 2 ^ k)

theorem ofUnits_eq (neg : Bool) (a b : Nat) :
    ofUnits neg a b = make neg (min (roundedMagnitude a b) (2047 * 2 ^ 52)) := rfl

theorem roundedMagnitude_mono {a b c d : Nat} (hb : 0 < b) (hd : 0 < d) (h : a * d ≤ c * b) :
    roundedMagnitude a b ≤ roundedMagnitude c d := by
  have hquot : a / b ≤ c / d := by
    rw [Nat.le_div_iff_mul_le hd]
    have := Nat.div_mul_le_self a b
    nlinarith
  have hlog : Nat.log2 (a / b) ≤ Nat.log2 (c / d) := by
    rw [Nat.log2_eq_log_two, Nat.log2_eq_log_two]
    exact Nat.log_mono_right hquot
  simp only [roundedMagnitude]
  obtain ⟨k, hk⟩ : ∃ k, Nat.log2 (a / b) - 52 = k := ⟨_, rfl⟩
  obtain ⟨k', hk'⟩ : ∃ k', Nat.log2 (c / d) - 52 = k' := ⟨_, rfl⟩
  rw [hk, hk']
  have hpow (j : Nat) : 0 < 2 ^ j := Nat.two_pow_pos j
  rcases Nat.lt_or_eq_of_le (show k ≤ k' by omega) with hlt | rfl
  · -- below the larger quantum the significand is at most full, above it at least normal
    have hfull : roundHalfEven a (b * 2 ^ k) ≤ 2 ^ 53 := by
      have hbound : a / b < 2 ^ (k + 53) := by
        refine lt_of_lt_of_le (Nat.lt_log2_self) (Nat.pow_le_pow_right (by decide) ?_)
        omega
      have ha : a < 2 ^ (k + 53) * b := (Nat.div_lt_iff_lt_mul hb).mp hbound
      rw [← roundHalfEven_one (2 ^ 53)]
      apply roundHalfEven_mono (Nat.mul_pos hb (hpow k)) (by decide)
      rw [pow_add] at ha
      nlinarith
    have hnormal : 2 ^ 52 ≤ roundHalfEven c (d * 2 ^ k') := by
      have hne : c / d ≠ 0 := by
        intro hzero
        rw [hzero] at hk'
        simp at hk'
        omega
      have hbound : 2 ^ (k' + 52) ≤ c / d := by
        have := Nat.log2_self_le hne
        refine le_trans (Nat.pow_le_pow_right (by decide) ?_) this
        omega
      have hc : 2 ^ (k' + 52) * d ≤ c := (Nat.le_div_iff_mul_le hd).mp hbound
      rw [← roundHalfEven_one (2 ^ 52)]
      apply roundHalfEven_mono (by decide) (Nat.mul_pos hd (hpow k'))
      rw [pow_add] at hc
      nlinarith
    have : (k + 1) * 2 ^ 52 ≤ k' * 2 ^ 52 := Nat.mul_le_mul_right _ hlt
    omega
  · refine Nat.add_le_add_left (roundHalfEven_mono (Nat.mul_pos hb (hpow k))
      (Nat.mul_pos hd (hpow k)) ?_) _
    nlinarith [hpow k]

theorem magnitude_ofUnits (neg : Bool) (a b : Nat) :
    (ofUnits neg a b).magnitude = min (roundedMagnitude a b) (2047 * 2 ^ 52) := by
  rw [ofUnits_eq, magnitude_make]
  exact lt_of_le_of_lt (Nat.min_le_right _ _) (by decide)

theorem neg_ofUnits (neg : Bool) (a b : Nat) : (ofUnits neg a b).neg = neg := by
  rw [ofUnits_eq, neg_make]
  exact lt_of_le_of_lt (Nat.min_le_right _ _) (by decide)

/-- A value of binary64 is its own nearest. -/
theorem ofUnits_absUnits {x : Binary64} (h : x.isFinite = true) {b : Nat} (hb : 0 < b) :
    ofUnits x.neg (x.absUnits * b) b = x := by
  have hexp : x.exponent < 2047 := of_decide_eq_true h
  have hmag : x.magnitude = x.exponent * 2 ^ 52 + x.fraction := by
    rw [exponent, fraction]
    omega
  have hfrac : x.fraction < 2 ^ 52 := Nat.mod_lt _ (by decide)
  apply eq_of_neg_magnitude (neg_ofUnits _ _ _)
  have hround : roundedMagnitude (x.absUnits * b) b = x.magnitude := by
    rw [roundedMagnitude, Nat.mul_div_cancel _ hb]
    by_cases he : x.exponent = 0
    · have hlog : Nat.log2 x.absUnits - 52 = 0 := by
        rw [absUnits, if_pos he]
        by_cases hz : x.fraction = 0
        · simp [hz]
        · have := (Nat.log2_lt hz).mpr hfrac
          omega
      rw [hlog, pow_zero, Nat.mul_one, roundHalfEven_mul_self _ hb, absUnits, if_pos he, hmag, he]
    · have hunits : x.absUnits = (2 ^ 52 + x.fraction) * 2 ^ (x.exponent - 1) := by
        rw [absUnits, if_neg he]
      have hlog : Nat.log2 x.absUnits = 52 + (x.exponent - 1) := by
        rw [hunits, Nat.log2_eq_iff (by positivity), Nat.add_right_comm, pow_add, pow_add]
        constructor
        · exact Nat.mul_le_mul_right _ (by omega)
        · exact Nat.mul_lt_mul_of_pos_right (by omega) (Nat.two_pow_pos _)
      have hmul : x.absUnits * b = (2 ^ 52 + x.fraction) * (b * 2 ^ (x.exponent - 1)) := by
        rw [hunits]
        ring
      rw [hlog, Nat.add_sub_cancel_left, hmul,
        roundHalfEven_mul_self _ (Nat.mul_pos hb (Nat.two_pow_pos _)), hmag]
      omega
  rw [magnitude_ofUnits, hround, Nat.min_eq_left]
  omega

-- ---------------------------------------------------------------------------
-- Decimals
-- ---------------------------------------------------------------------------

/-- The number `± digits * 10^exponent`. -/
def decimal (neg : Bool) (digits : Nat) (exponent : Int) : ℚ :=
  (if neg then -1 else 1) * (digits * 10 ^ exponent)

theorem ofDecimal_eq (neg : Bool) (digits : Nat) (exponent : Int) :
    ∃ a b, 0 < b ∧ ofDecimal neg digits exponent = ofUnits neg a b ∧
      (a : ℚ) / b = digits * 10 ^ exponent * 2 ^ 1074 := by
  cases exponent with
  | ofNat e =>
    refine ⟨_, 1, by decide, rfl, ?_⟩
    rw [Nat.cast_one, div_one, Nat.cast_mul, Nat.cast_mul, Nat.cast_pow, Nat.cast_pow,
      Int.ofNat_eq_natCast, zpow_natCast]
    rfl
  | negSucc e =>
    refine ⟨_, _, by positivity, rfl, ?_⟩
    rw [zpow_negSucc, Nat.cast_mul, Nat.cast_pow, Nat.cast_pow, div_eq_mul_inv, mul_right_comm]
    rfl

theorem magnitude_ofDecimal_mono {neg neg' : Bool} {m n : Nat} {e f : Int}
    (h : (m : ℚ) * 10 ^ e ≤ n * 10 ^ f) :
    (ofDecimal neg m e).magnitude ≤ (ofDecimal neg' n f).magnitude := by
  obtain ⟨a, b, hb, hab, hq⟩ := ofDecimal_eq neg m e
  obtain ⟨c, d, hd, hcd, hr⟩ := ofDecimal_eq neg' n f
  rw [hab, hcd, magnitude_ofUnits, magnitude_ofUnits]
  refine min_le_min_right _ (roundedMagnitude_mono hb hd ?_)
  have hle : (a : ℚ) / b ≤ c / d := by
    rw [hq, hr]
    exact mul_le_mul_of_nonneg_right h (by positivity)
  rw [div_le_div_iff₀ (by exact_mod_cast hb) (by exact_mod_cast hd)] at hle
  exact_mod_cast hle

theorem neg_ofDecimal (neg : Bool) (digits : Nat) (exponent : Int) :
    (ofDecimal neg digits exponent).neg = neg := by
  obtain ⟨a, b, -, hab, -⟩ := ofDecimal_eq neg digits exponent
  rw [hab, neg_ofUnits]

theorem magnitude_ofDecimal_zero (neg : Bool) {digits : Nat} {exponent : Int}
    (h : (digits : ℚ) * 10 ^ exponent ≤ 0) : (ofDecimal neg digits exponent).magnitude = 0 := by
  obtain ⟨a, b, hb, hab, hq⟩ := ofDecimal_eq neg digits exponent
  have ha : (a : ℚ) ≤ 0 := by
    have hle : (a : ℚ) / b ≤ 0 := by
      rw [hq]
      exact mul_nonpos_of_nonpos_of_nonneg h (by positivity)
    have hpos : (0 : ℚ) < b := by exact_mod_cast hb
    rwa [div_le_iff₀ hpos, zero_mul] at hle
  have hzero : a = 0 := by exact_mod_cast le_antisymm ha (Nat.cast_nonneg a)
  rw [hab, magnitude_ofUnits, hzero]
  simp [roundedMagnitude, roundHalfEven, hb]

/-- A smaller decimal rounds to a smaller float. -/
theorem key_ofDecimal_mono {neg neg' : Bool} {m n : Nat} {e f : Int}
    (h : decimal neg m e ≤ decimal neg' n f) :
    (ofDecimal neg m e).key ≤ (ofDecimal neg' n f).key := by
  have hm : (0 : ℚ) ≤ m * 10 ^ e := by positivity
  have hn : (0 : ℚ) ≤ n * 10 ^ f := by positivity
  simp only [key, neg_ofDecimal]
  unfold decimal at h
  cases neg <;> cases neg' <;> simp only [if_true, if_false, Bool.false_eq_true] at h ⊢
  · exact_mod_cast magnitude_ofDecimal_mono (by linarith)
  · have hzero := magnitude_ofDecimal_zero false (show (m : ℚ) * 10 ^ e ≤ 0 by linarith)
    have hzero' := magnitude_ofDecimal_zero true (show (n : ℚ) * 10 ^ f ≤ 0 by linarith)
    omega
  · omega
  · have := @magnitude_ofDecimal_mono true true n m f e (by linarith)
    omega

-- ---------------------------------------------------------------------------
-- The order of the units
-- ---------------------------------------------------------------------------

theorem absUnits_lt_of_magnitude_lt {x y : Binary64} (h : x.magnitude < y.magnitude) :
    x.absUnits < y.absUnits := by
  have hx := Nat.div_add_mod x.magnitude (2 ^ 52)
  have hy := Nat.div_add_mod y.magnitude (2 ^ 52)
  have hfx := Nat.mod_lt x.magnitude (show 0 < 2 ^ 52 by decide)
  have hfy := Nat.mod_lt y.magnitude (show 0 < 2 ^ 52 by decide)
  unfold absUnits exponent fraction
  rcases Nat.lt_trichotomy (x.magnitude / 2 ^ 52) (y.magnitude / 2 ^ 52) with he | he | he
  · have hpos : y.magnitude / 2 ^ 52 ≠ 0 := by omega
    have hstep : 2 ^ (y.magnitude / 2 ^ 52 - 1) * 2 ^ 52 ≤
        (2 ^ 52 + y.magnitude % 2 ^ 52) * 2 ^ (y.magnitude / 2 ^ 52 - 1) := by
      rw [Nat.mul_comm]
      exact Nat.mul_le_mul_right _ (Nat.le_add_right _ _)
    rw [if_neg hpos]
    refine lt_of_lt_of_le ?_ hstep
    split
    · have : 1 ≤ 2 ^ (y.magnitude / 2 ^ 52 - 1) := Nat.one_le_two_pow
      calc x.magnitude % 2 ^ 52 < 1 * 2 ^ 52 := by omega
        _ ≤ _ := Nat.mul_le_mul_right _ this
    · rename_i hx0
      have hle : 2 ^ (x.magnitude / 2 ^ 52) ≤ 2 ^ (y.magnitude / 2 ^ 52 - 1) :=
        Nat.pow_le_pow_right (by decide) (by omega)
      have hdouble : 2 ^ (x.magnitude / 2 ^ 52) = 2 * 2 ^ (x.magnitude / 2 ^ 52 - 1) := by
        rw [← Nat.pow_succ', Nat.succ_eq_add_one, Nat.sub_add_cancel (Nat.one_le_iff_ne_zero.mpr hx0)]
      calc (2 ^ 52 + x.magnitude % 2 ^ 52) * 2 ^ (x.magnitude / 2 ^ 52 - 1)
          < (2 * 2 ^ 52) * 2 ^ (x.magnitude / 2 ^ 52 - 1) :=
            Nat.mul_lt_mul_of_pos_right (by omega) (Nat.two_pow_pos _)
        _ = 2 ^ (x.magnitude / 2 ^ 52) * 2 ^ 52 := by rw [hdouble]; ring
        _ ≤ _ := Nat.mul_le_mul_right _ hle
  · have hf : x.magnitude % 2 ^ 52 < y.magnitude % 2 ^ 52 := by omega
    rw [he]
    split
    · exact hf
    · exact Nat.mul_lt_mul_of_pos_right (by omega) (Nat.two_pow_pos _)
  · omega

theorem absUnits_eq_of_magnitude_eq {x y : Binary64} (h : x.magnitude = y.magnitude) :
    x.absUnits = y.absUnits := by
  unfold absUnits exponent fraction
  rw [h]

theorem absUnits_eq_zero {x : Binary64} : x.absUnits = 0 ↔ x.magnitude = 0 := by
  have hzero : zero.magnitude = 0 := magnitude_make false (by decide)
  constructor
  · intro h
    by_contra hne
    have := @absUnits_lt_of_magnitude_lt zero x (by omega)
    omega
  · intro h
    simp [absUnits, exponent, fraction, h]

/-- The key orders values as the units they count. -/
theorem units_le_units {x y : Binary64} : x.units ≤ y.units ↔ x.key ≤ y.key := by
  have hlt := @absUnits_lt_of_magnitude_lt x y
  have hgt := @absUnits_lt_of_magnitude_lt y x
  have heq := @absUnits_eq_of_magnitude_eq x y
  have hx := @absUnits_eq_zero x
  have hy := @absUnits_eq_zero y
  unfold units key
  split <;> split <;> omega

end Binary64
