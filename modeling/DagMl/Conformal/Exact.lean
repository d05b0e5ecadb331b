import Mathlib
import DagMl.Conformal.Apply

/-!
# Exactness of the decimal code

A number text is plain when it is as the standard library prints a float:
without an exponent, and far shorter than any counter can count. On plain texts
the decimal arithmetic never fails, and what it returns has no zero that could
be left out. The rank needs no wider integers than it has.
-/

namespace DagMl

open Checked

/-- A text without an exponent. No finite float is printed longer than 1100 characters. -/
structure PlainText (text : List Char) : Prop where
  unmarked : ∀ c ∈ text, c ≠ 'e' ∧ c ≠ 'E'
  short : text.length < 2 ^ 30

theorem PlainText.tail (h : PlainText text) : PlainText text.tail where
  unmarked c hc := h.unmarked c (List.mem_of_mem_tail hc)
  short := by
    have hlength := List.length_tail (l := text)
    have := h.short
    omega

theorem splitExponent_plain (h : PlainText text) : splitExponent text = .ok (text, 0) := by
  have hmark : ∀ c ∈ text, (!(decide (c = 'e') || decide (c = 'E'))) = true := by
    intro c hc
    obtain ⟨he, hE⟩ := h.unmarked c hc
    simp [he, hE]
  rw [splitExponent, List.takeWhile_eq_self_iff.mpr hmark, List.dropWhile_eq_nil_iff.mpr hmark]

theorem digitOf_lt (h : c.isDigit = true) : digitOf c < 10 := by
  have hc : '0'.val ≤ c.val ∧ c.val ≤ '9'.val := by
    simpa [Char.isDigit] using h
  have hupper : c.toNat ≤ '9'.toNat := hc.2
  have hnine : '9'.toNat = 57 := rfl
  have hzero : '0'.toNat = 48 := rfl
  unfold digitOf
  omega

theorem readMantissa_spec {after : Bool} {r : List Nat × Nat} (h : readMantissa after text = some r) :
    (∀ d ∈ r.1, d < 10) ∧ r.1.length ≤ text.length ∧ r.2 ≤ text.length := by
  induction text generalizing after r with
  | nil =>
    cases h
    simp
  | cons c cs ih =>
    unfold readMantissa at h
    split at h
    · obtain ⟨hdigits, hlength, hfraction⟩ := ih h
      exact ⟨hdigits, by simp; omega, by simp; omega⟩
    · split at h
      · rename_i hdigit
        obtain ⟨r, hr, rfl⟩ := Option.map_eq_some_iff.mp h
        obtain ⟨hdigits, hlength, hfraction⟩ := ih hr
        refine ⟨List.forall_mem_cons.mpr ⟨digitOf_lt hdigit, hdigits⟩, by simpa using hlength, ?_⟩
        simp only [List.length_cons]
        split <;> omega
      · cases h

theorem digitsValue_lt {ds : List Nat} (h : ∀ d ∈ ds, d < 10) : digitsValue ds < 10 ^ ds.length := by
  have hlt := Nat.ofDigits_lt_base_pow_length (b := 10) (by decide)
    (fun d hd => h d (List.mem_reverse.mp hd))
  rwa [List.length_reverse] at hlt

/-- A digit list without a leading zero is as large as its length says. -/
theorem pow_le_digitsValue {ds : List Nat} (hne : ds ≠ []) (hhead : ds.head? ≠ some 0) :
    10 ^ (ds.length - 1) ≤ digitsValue ds := by
  match ds with
  | d :: ds =>
    have hd : 1 ≤ d := Nat.one_le_iff_ne_zero.mpr fun hzero => hhead (by rw [hzero]; rfl)
    rw [digitsValue_cons]
    calc 10 ^ ds.length = 1 * 10 ^ ds.length := (Nat.one_mul _).symm
      _ ≤ d * 10 ^ ds.length := Nat.mul_le_mul_right _ hd
      _ ≤ d * 10 ^ ds.length + digitsValue ds := Nat.le_add_right _ _

namespace ExactDecimal

-- ---------------------------------------------------------------------------
-- The form without redundant zeros
-- ---------------------------------------------------------------------------

/-- Decimal digits, with no zero in front and none behind, but for the digit of
zero itself. -/
structure Canonical (d : ExactDecimal) : Prop where
  digit_lt : ∀ x ∈ d.digits, x < 10
  trimmed : d.digits = [0] ∧ d.exponent = 0 ∨
    d.digits ≠ [] ∧ d.digits.head? ≠ some 0 ∧ d.digits.getLast? ≠ some 0

/-- Far from the limits of an `i32`. -/
structure Small (d : ExactDecimal) : Prop where
  low : -2 ^ 30 < d.exponent
  high : d.exponent + d.digits.length ≤ 2 ^ 30

theorem zero_canonical (negative : Bool) : (zero negative).Canonical where
  digit_lt := by simp [zero]
  trimmed := .inl ⟨rfl, rfl⟩

theorem Canonical.with_sign {d : ExactDecimal} (h : d.Canonical) (negative : Bool) :
    ({ d with negative } : ExactDecimal).Canonical := ⟨h.digit_lt, h.trimmed⟩

theorem popZeros_ok (reversed : List Nat) {e : Int} (hne : reversed ≠ [])
    (hlead : reversed.getLast? ≠ some 0) (hlow : -2 ^ 31 ≤ e)
    (hhigh : e + reversed.length ≤ 2 ^ 31) :
    popZeros reversed e =
      .ok (reversed.dropWhile (· = 0), e + (reversed.takeWhile (· = 0)).length) := by
  induction reversed generalizing e with
  | nil => exact absurd rfl hne
  | cons digit rest ih =>
    cases rest with
    | nil =>
      have hdigit : digit ≠ 0 := fun hzero => hlead (by rw [hzero]; rfl)
      simp [popZeros, hdigit]
    | cons next rest =>
      unfold popZeros
      split
      · rename_i hzero
        simp only [List.length_cons] at hhigh
        have hchecked : checkedI32 (e + 1) = .ok (e + 1) :=
          checkedI32_ok.mpr ⟨⟨by omega, by omega⟩, rfl⟩
        have hrest := ih (e := e + 1) (by simp) (by simpa using hlead) (by omega)
          (by simp only [List.length_cons]; omega)
        rw [hchecked]
        simp only [bind, Except.bind]
        rw [hrest, hzero]
        simp
        omega
      · rename_i hdigit
        simp [hdigit]

/-- Normalising digits with no leading zero succeeds and leaves no trailing one. -/
theorem normalize_ok {d : ExactDecimal} (hne : d.digits ≠ []) (hhead : d.digits.head? ≠ some 0)
    (hdigits : ∀ x ∈ d.digits, x < 10) (hlow : -2 ^ 31 ≤ d.exponent)
    (hhigh : d.exponent + d.digits.length ≤ 2 ^ 31) :
    ∃ d', d.normalize = .ok d' ∧ d'.Canonical ∧ d.exponent ≤ d'.exponent ∧
      d'.exponent + d'.digits.length = d.exponent + d.digits.length := by
  have hpop := popZeros_ok d.digits.reverse (e := d.exponent) (by simpa using hne)
    (by simpa using hhead) hlow (by simpa using hhigh)
  have hsplit := List.takeWhile_append_dropWhile (p := fun x : Nat => decide (x = 0))
    (l := d.digits.reverse)
  have hdropped : d.digits.reverse.dropWhile (· = 0) ≠ [] := by
    intro hnil
    rw [List.dropWhile_eq_nil_iff] at hnil
    obtain ⟨x, hx⟩ : ∃ x, d.digits.head? = some x := by
      cases h : d.digits with
      | nil => exact absurd h hne
      | cons x _ => exact ⟨x, rfl⟩
    have hzero := hnil x (List.mem_reverse.mpr (List.mem_of_head? hx))
    rw [of_decide_eq_true hzero] at hx
    exact hhead hx
  have hlength := congrArg List.length hsplit
  rw [List.length_append, List.length_reverse] at hlength
  have hlast : (d.digits.reverse.takeWhile (· = 0) ++ d.digits.reverse.dropWhile (· = 0)).getLast? =
      d.digits.head? := by
    rw [hsplit, List.getLast?_reverse]
  rw [List.getLast?_append_of_ne_nil _ hdropped] at hlast
  refine ⟨⟨d.negative, (d.digits.reverse.dropWhile (· = 0)).reverse,
    d.exponent + (d.digits.reverse.takeWhile (· = 0)).length⟩, ?_, ⟨?_, .inr ⟨?_, ?_, ?_⟩⟩, ?_, ?_⟩
  · rw [normalize, hpop]
    rfl
  · intro x hx
    exact hdigits x (List.mem_reverse.mp ((List.dropWhile_suffix _).subset (List.mem_reverse.mp hx)))
  · simpa using hdropped
  · rwa [List.head?_reverse, hlast]
  · rw [List.getLast?_reverse]
    intro hzero
    have hfirst := List.head?_dropWhile_not (fun x : Nat => decide (x = 0)) d.digits.reverse
    rw [hzero] at hfirst
    simp at hfirst
  · simp only
    omega
  · simp only [List.length_reverse]
    omega

-- ---------------------------------------------------------------------------
-- Addition
-- ---------------------------------------------------------------------------

theorem headD_lt {l : List Nat} (h : ∀ d ∈ l, d < 10) : l.headD 0 < 10 := by
  cases l with
  | nil => decide
  | cons d _ => exact h d List.mem_cons_self

theorem tail_lt {l : List Nat} (h : ∀ d ∈ l, d < 10) : ∀ d ∈ l.tail, d < 10 :=
  fun d hd => h d (List.mem_of_mem_tail hd)

/-- Sums of two digits and a carry fit in a byte, and give digits again. -/
theorem addReversed_digits (n : Nat) {left right : List Nat} {carry : Nat}
    (hl : ∀ d ∈ left, d < 10) (hr : ∀ d ∈ right, d < 10) (hcarry : carry ≤ 1) :
    (∀ d ∈ addReversed n left right carry, d < 10) ∧
      (addReversed n left right carry).length ≤ n + 1 := by
  induction n generalizing left right carry with
  | zero =>
    unfold addReversed
    split
    · simpa using by omega
    · simp
  | succ n ih =>
    have hsum : (left.headD 0 + right.headD 0 + carry) / 10 ≤ 1 := by
      have := headD_lt hl
      have := headD_lt hr
      omega
    obtain ⟨hdigits, hlength⟩ := ih (tail_lt hl) (tail_lt hr) hsum
    unfold addReversed
    exact ⟨List.forall_mem_cons.mpr ⟨Nat.mod_lt _ (by decide), hdigits⟩, by simpa using hlength⟩

/-- The leading digit of the longer operand, or the carry out of it, leads. -/
theorem addReversed_getLast (n : Nat) {left right : List Nat} (carry : Nat)
    (h : left.length = n + 1 ∧ left.getLast? ≠ some 0 ∨
      right.length = n + 1 ∧ right.getLast? ≠ some 0) :
    addReversed (n + 1) left right carry ≠ [] ∧
      (addReversed (n + 1) left right carry).getLast? ≠ some 0 := by
  induction n generalizing left right carry with
  | zero =>
    have hpos : 1 ≤ left.headD 0 + right.headD 0 + carry := by
      have hone {l : List Nat} (hlength : l.length = 0 + 1) (hlast : l.getLast? ≠ some 0) :
          1 ≤ l.headD 0 := by
        obtain ⟨d, rfl⟩ := List.length_eq_one_iff.mp hlength
        exact Nat.one_le_iff_ne_zero.mpr fun hzero => hlast (by simpa using hzero)
      rcases h with ⟨hlength, hlast⟩ | ⟨hlength, hlast⟩
      · have := hone hlength hlast
        omega
      · have := hone hlength hlast
        omega
    simp only [addReversed]
    split
    · rename_i hcarry
      simpa using hcarry
    · rename_i hcarry
      simp only [List.getLast?_singleton]
      refine ⟨by simp, fun hzero => ?_⟩
      have hmod := Option.some.inj hzero
      omega
  | succ n ih =>
    have htail {l : List Nat} (hlength : l.length = n + 1 + 1) (hlast : l.getLast? ≠ some 0) :
        l.tail.length = n + 1 ∧ l.tail.getLast? ≠ some 0 := by
      cases l with
      | nil => simp at hlength
      | cons d l =>
        cases l with
        | nil => simp at hlength
        | cons e l => exact ⟨by simpa using hlength, by simpa using hlast⟩
    obtain ⟨hne, hlast⟩ := ih ((left.headD 0 + right.headD 0 + carry) / 10)
      (h.imp (fun h => htail h.1 h.2) fun h => htail h.1 h.2)
    rw [addReversed]
    refine ⟨by simp, ?_⟩
    obtain ⟨d, rest, hrest⟩ := List.exists_cons_of_ne_nil hne
    rw [hrest] at hlast ⊢
    simpa using hlast

theorem addMagnitudes_digits {left right : List Nat} (hleft : left ≠ [])
    (hl : ∀ d ∈ left, d < 10) (hr : ∀ d ∈ right, d < 10)
    (hlhead : left.head? ≠ some 0) (hrhead : right.head? ≠ some 0) :
    (∀ d ∈ addMagnitudes left right, d < 10) ∧ addMagnitudes left right ≠ [] ∧
      (addMagnitudes left right).head? ≠ some 0 ∧
      (addMagnitudes left right).length ≤ max left.length right.length + 1 := by
  have hpos := List.length_pos_iff.mpr hleft
  obtain ⟨n, hn⟩ : ∃ n, max left.length right.length = n + 1 :=
    ⟨max left.length right.length - 1, by omega⟩
  have hleading : left.reverse.length = n + 1 ∧ left.reverse.getLast? ≠ some 0 ∨
      right.reverse.length = n + 1 ∧ right.reverse.getLast? ≠ some 0 := by
    simp only [List.length_reverse, List.getLast?_reverse]
    rcases le_total left.length right.length with hle | hle
    · exact .inr ⟨by omega, hrhead⟩
    · exact .inl ⟨by omega, hlhead⟩
  have hl' : ∀ d ∈ left.reverse, d < 10 := by simpa using hl
  have hr' : ∀ d ∈ right.reverse, d < 10 := by simpa using hr
  obtain ⟨hdigits, hlength⟩ := addReversed_digits (n + 1) hl' hr' (Nat.zero_le 1)
  obtain ⟨hne, hlast⟩ := addReversed_getLast n 0 hleading
  unfold addMagnitudes
  rw [hn]
  exact ⟨by simpa using hdigits, by simpa using hne, by simpa using hlast, by simpa using hlength⟩

-- ---------------------------------------------------------------------------
-- Subtraction
-- ---------------------------------------------------------------------------

theorem subtractReversed_ok {larger smaller : List Nat} (borrow : Int)
    (hlength : smaller.length ≤ larger.length) (hl : ∀ d ∈ larger, d < 10)
    (hs : ∀ d ∈ smaller, d < 10) (hborrow : borrow = 0 ∨ borrow = 1)
    (hle : ((Nat.ofDigits 10 smaller : Nat) : Int) + borrow ≤ (Nat.ofDigits 10 larger : Nat)) :
    ∃ ds, subtractReversed larger smaller borrow = .ok ds ∧ ds.length = larger.length ∧
      ∀ d ∈ ds, d < 10 := by
  induction larger generalizing smaller borrow with
  | nil =>
    have hnil : smaller = [] := by simpa using hlength
    subst hnil
    have hzero : borrow = 0 := by
      simp at hle
      omega
    exact ⟨[], by simp [subtractReversed, hzero], rfl, by simp⟩
  | cons digit larger ih =>
    rw [List.forall_mem_cons] at hl
    have hhead := headD_lt hs
    have htail : smaller.tail.length ≤ larger.length := by
      rw [List.length_tail, List.length_cons] at *
      omega
    rw [Nat.ofDigits_cons, ofDigits_headD smaller] at hle
    unfold subtractReversed
    simp only
    generalize hdifference : (digit : Int) - smaller.headD 0 - borrow = difference
    obtain ⟨ds, hds, hlen, hdigits⟩ := ih (if difference < 0 then 1 else 0) htail hl.2
      (tail_lt hs) (by split <;> simp) (by split <;> omega)
    generalize hdigit : (if difference < 0 then difference + 10 else difference) = digit'
    have hrange : 0 ≤ digit' ∧ digit' < 10 := by
      rw [← hdigit]
      split <;> omega
    have haccept : refuseIf (¬(0 ≤ digit' ∧ digit' < 2 ^ 8)) ConformalError.decimalConversion =
        .ok () := refuseIf_ok.mpr (by omega)
    refine ⟨digit'.toNat :: ds, ?_, by simpa using hlen,
      List.forall_mem_cons.mpr ⟨by omega, hdigits⟩⟩
    rw [haccept, hds]
    rfl

theorem subtractMagnitudes_ok {larger smaller : List Nat} (hlength : smaller.length ≤ larger.length)
    (hl : ∀ d ∈ larger, d < 10) (hs : ∀ d ∈ smaller, d < 10)
    (hlt : digitsValue smaller < digitsValue larger) :
    ∃ ds, subtractMagnitudes larger smaller = .ok ds ∧ (∀ d ∈ ds, d < 10) ∧ ds ≠ [] ∧
      ds.head? ≠ some 0 ∧ ds.length ≤ larger.length := by
  have hlength' : smaller.reverse.length ≤ larger.reverse.length := by simpa using hlength
  have hle : ((Nat.ofDigits 10 smaller.reverse : Nat) : Int) + 0 ≤
      (Nat.ofDigits 10 larger.reverse : Nat) := by
    unfold digitsValue at hlt
    omega
  obtain ⟨reversed, hr, hlen, hdigits⟩ := subtractReversed_ok 0 hlength' (by simpa using hl)
    (by simpa using hs) (.inl rfl) hle
  have hok : subtractMagnitudes larger smaller = .ok (dropLeadingZeros reversed.reverse) := by
    rw [subtractMagnitudes, hr]
    rfl
  have hvalue := subtractMagnitudes_value hlength hok
  have hpos : 0 < digitsValue (dropLeadingZeros reversed.reverse) := by omega
  rw [digitsValue_dropLeadingZeros] at hpos
  have hnonzero : ¬reversed.reverse.all (· = 0) = true := by
    intro hall
    have hzero : digitsValue reversed.reverse = 0 := digitsValue_of_all_zero (by simpa using hall)
    omega
  have hdrop : dropLeadingZeros reversed.reverse = reversed.reverse.dropWhile (· = 0) :=
    if_neg hnonzero
  rw [hdrop] at hok
  refine ⟨_, hok, fun d hd => hdigits d ?_, fun hnil => ?_, fun hzero => ?_, ?_⟩
  · exact List.mem_reverse.mp ((List.dropWhile_suffix _).subset hd)
  · rw [List.dropWhile_eq_nil_iff] at hnil
    exact hnonzero (List.all_eq_true.mpr hnil)
  · have hfirst := List.head?_dropWhile_not (fun x : Nat => decide (x = 0)) reversed.reverse
    rw [hzero] at hfirst
    simp at hfirst
  · have hle := (List.dropWhile_suffix (l := reversed.reverse) (fun x : Nat => decide (x = 0))).length_le
    simp only [List.length_reverse] at hle hlen
    omega

theorem digitsValue_lt_of_compare {left right : List Nat} (hl : ∀ d ∈ left, d < 10)
    (hlength : left.length = right.length) (h : compare left right = .lt) :
    digitsValue left < digitsValue right := by
  induction left generalizing right with
  | nil =>
    rw [List.length_eq_zero_iff.mp hlength.symm] at h
    cases h
  | cons d left ih =>
    match right with
    | e :: right =>
      rw [List.forall_mem_cons] at hl
      have hlen : left.length = right.length := by simpa using hlength
      have hvalue := digitsValue_lt hl.2
      rw [hlen] at hvalue
      rw [digitsValue_cons, digitsValue_cons, hlen]
      rw [List.compare_cons_cons, Ordering.then_eq_lt, compare_lt_iff_lt, compare_eq_iff_eq] at h
      rcases h with hlt | ⟨rfl, hlt⟩
      · calc d * 10 ^ right.length + digitsValue left
            < d * 10 ^ right.length + 10 ^ right.length := Nat.add_lt_add_left hvalue _
          _ = (d + 1) * 10 ^ right.length := by ring
          _ ≤ e * 10 ^ right.length := Nat.mul_le_mul_right _ hlt
          _ ≤ e * 10 ^ right.length + digitsValue right := Nat.le_add_right _ _
      · exact Nat.add_lt_add_left (ih hl.2 hlen hlt) _

/-- Digit lists without leading zeros are compared as numbers. -/
theorem digitsValue_lt_of_magnitudeOrder {left right : List Nat} (hr : ∀ d ∈ right, d < 10)
    (hlne : left ≠ []) (hlhead : left.head? ≠ some 0)
    (h : magnitudeOrder left right = .gt) : digitsValue right < digitsValue left := by
  rcases lt_trichotomy left.length right.length with hlt | heq | hlt
  · exact absurd (length_le_of_magnitudeOrder h) (not_le.mpr hlt)
  · rw [magnitudeOrder, compare_eq_iff_eq.mpr heq, Ordering.eq_then] at h
    exact digitsValue_lt_of_compare hr heq.symm (Std.OrientedCmp.gt_iff_lt.mp h)
  · calc digitsValue right < 10 ^ right.length := digitsValue_lt hr
      _ ≤ 10 ^ (left.length - 1) := Nat.pow_le_pow_right (by decide) (by omega)
      _ ≤ digitsValue left := pow_le_digitsValue hlne hlhead

theorem digitsValue_lt_of_magnitudeOrder' {left right : List Nat} (hl : ∀ d ∈ left, d < 10)
    (hrne : right ≠ []) (hrhead : right.head? ≠ some 0)
    (h : magnitudeOrder left right = .lt) : digitsValue left < digitsValue right := by
  rcases lt_trichotomy left.length right.length with hlt | heq | hlt
  · calc digitsValue left < 10 ^ left.length := digitsValue_lt hl
      _ ≤ 10 ^ (right.length - 1) := Nat.pow_le_pow_right (by decide) (by omega)
      _ ≤ digitsValue right := pow_le_digitsValue hrne hrhead
  · rw [magnitudeOrder, compare_eq_iff_eq.mpr heq, Ordering.eq_then] at h
    exact digitsValue_lt_of_compare hl heq h
  · exact absurd (length_le_of_magnitudeOrder' h) (not_le.mpr hlt)

theorem alignedDigits_ok {d : ExactDecimal} {common : Int} (hne : d.digits ≠ [])
    (hhead : d.digits.head? ≠ some 0) (hdigits : ∀ x ∈ d.digits, x < 10)
    (hle : common ≤ d.exponent) (hhigh : d.exponent - common < 2 ^ 31) :
    ∃ ds, d.alignedDigits common = .ok ds ∧ (∀ x ∈ ds, x < 10) ∧ ds ≠ [] ∧ ds.head? ≠ some 0 ∧
      common + ds.length = d.exponent + d.digits.length := by
  have hchecked : checkedI32 (d.exponent - common) = .ok (d.exponent - common) :=
    checkedI32_ok.mpr ⟨⟨by omega, hhigh⟩, rfl⟩
  have haccept : refuseIf (d.exponent - common < 0) ConformalError.decimalConversion = .ok () :=
    refuseIf_ok.mpr (by omega)
  refine ⟨d.digits ++ List.replicate (d.exponent - common).toNat 0, ?_, ?_, by simp [hne], ?_, ?_⟩
  · rw [alignedDigits, hchecked]
    simp only [bind, Except.bind]
    rw [haccept]
    rfl
  · intro x hx
    rcases List.mem_append.mp hx with hx | hx
    · exact hdigits x hx
    · rw [List.eq_of_mem_replicate hx]
      decide
  · rwa [List.head?_append_of_ne_nil _ hne]
  · simp only [List.length_append, List.length_replicate]
    omega

/-- Adding two decimals of moderate size succeeds, without redundant zeros. -/
theorem add_ok {left right : ExactDecimal} (hleft : left.Canonical) (hright : right.Canonical)
    (hl : left.Small) (hr : right.Small) (subtractRight : Bool) :
    ∃ d, left.add right subtractRight = .ok d ∧ d.Canonical := by
  have htrimmed {d : ExactDecimal} (h : d.Canonical) (hz : ¬d.isZero = true) :
      d.digits ≠ [] ∧ d.digits.head? ≠ some 0 := by
    rcases h.trimmed with ⟨hzero, -⟩ | ⟨hne, hhead, -⟩
    · exact absurd (decide_eq_true hzero) hz
    · exact ⟨hne, hhead⟩
  unfold add
  split
  · exact ⟨_, rfl, zero_canonical false⟩
  split
  · exact ⟨_, rfl, hleft⟩
  split
  · exact ⟨_, rfl, hright.with_sign _⟩
  rename_i hrz hlz
  obtain ⟨hlne, hlhead⟩ := htrimmed hleft hlz
  obtain ⟨hrne, hrhead⟩ := htrimmed hright hrz
  have hllow := hl.low
  have hlhigh := hl.high
  have hrlow := hr.low
  have hrhigh := hr.high
  have hcl := min_le_left left.exponent right.exponent
  have hcr := min_le_right left.exponent right.exponent
  have hclow := lt_min hllow hrlow
  generalize min left.exponent right.exponent = common at *
  obtain ⟨leftDigits, hlok, hld, hlne', hlhead', hllen⟩ := alignedDigits_ok hlne hlhead
    hleft.digit_lt hcl (by omega)
  obtain ⟨rightDigits, hrok, hrd, hrne', hrhead', hrlen⟩ := alignedDigits_ok hrne hrhead
    hright.digit_lt hcr (by omega)
  simp only [hlok, hrok, bind, Except.bind]
  have hnormal (negative : Bool) (ds : List Nat) (hd : ∀ x ∈ ds, x < 10) (hne : ds ≠ [])
      (hhead : ds.head? ≠ some 0) (hlen : ds.length ≤ max leftDigits.length rightDigits.length + 1) :
      ∃ d, normalize ⟨negative, ds, common⟩ = .ok d ∧ d.Canonical := by
    obtain ⟨d, hok, hcanonical, -⟩ := normalize_ok
      (d := ⟨negative, ds, common⟩) hne hhead hd (by simp only; omega)
      (by simp only; omega)
    exact ⟨d, hok, hcanonical⟩
  split
  · obtain ⟨hd, hne, hhead, hlen⟩ := addMagnitudes_digits hlne' hld hrd hlhead' hrhead'
    exact hnormal _ _ hd hne hhead hlen
  · split
    · rename_i horder
      obtain ⟨ds, hds, hd, hne, hhead, hlen⟩ := subtractMagnitudes_ok
        (length_le_of_magnitudeOrder horder) hld hrd
        (digitsValue_lt_of_magnitudeOrder hrd hlne' hlhead' horder)
      rw [hds]
      exact hnormal _ _ hd hne hhead (by omega)
    · rename_i horder
      obtain ⟨ds, hds, hd, hne, hhead, hlen⟩ := subtractMagnitudes_ok
        (length_le_of_magnitudeOrder' horder) hrd hld
        (digitsValue_lt_of_magnitudeOrder' hld hrne' hrhead' horder)
      rw [hds]
      exact hnormal _ _ hd hne hhead (by omega)
    · exact ⟨_, rfl, zero_canonical false⟩

/-- What is read from a plain text has no redundant zero. -/
theorem ofFloat_canonical {floats : FloatText} {x : Binary64} {d : ExactDecimal}
    (hplain : PlainText (floats.text x)) (h : ofFloat floats x = .ok d) : d.Canonical ∧ d.Small := by
  have hunsigned : PlainText (if (floats.text x).head? = some '-' then (floats.text x).tail
      else floats.text x) := by
    split
    · exact hplain.tail
    · exact hplain
  simp only [ofFloat, bind_ok, refuseIf_ok] at h
  obtain ⟨_, -, ⟨mantissa, e⟩, hsplit, scan, hscan, _, -, h⟩ := h
  rw [splitExponent_plain hunsigned] at hsplit
  cases hsplit
  obtain ⟨r, hr, hdigits, hfraction⟩ := scanDigit_loop hscan
  obtain ⟨hlt, hlength, hscale⟩ := readMantissa_spec hr
  simp only at hlength hscale
  rw [List.nil_append] at hdigits
  rw [zero_add] at hfraction
  have hshort := hunsigned.short
  have hsuffix := List.dropWhile_suffix (l := scan.digits) (fun x : Nat => decide (x = 0))
  split at h
  · cases h
    exact ⟨zero_canonical _, by simp [zero], by simp [zero]⟩
  · rename_i hne
    simp only [bind_ok, checkedI32_ok] at h
    obtain ⟨_, ⟨-, rfl⟩, h⟩ := h
    have hle := hsuffix.length_le
    rw [hdigits] at hle
    obtain ⟨d', hok, hcanonical, hexponent, hsum⟩ := normalize_ok
      (d := ⟨decide ((floats.text x).head? = some '-'), scan.digits.dropWhile (· = 0),
        0 - scan.fractionalDigits⟩) hne (by
        intro hzero
        have hfirst := List.head?_dropWhile_not (fun x : Nat => decide (x = 0)) scan.digits
        rw [hzero] at hfirst
        simp at hfirst) (fun x hx => hlt x (hdigits ▸ hsuffix.subset hx)) (by simp only; omega)
      (by simp only [hdigits]; omega)
    rw [hok] at h
    cases h
    simp only [hdigits] at hexponent hsum
    exact ⟨hcanonical, by omega, by omega⟩

end ExactDecimal

-- ---------------------------------------------------------------------------
-- The rank
-- ---------------------------------------------------------------------------

/-- A number text without a sign or an exponent that has at most `n` significant digits. -/
def HasSignificantDigits (text : List Char) (n : Nat) : Prop :=
  ∃ r, readMantissa false text = some r ∧ digitsValue r.1 < 10 ^ n

theorem scanByte_ok (scan : FloatText.MantissaScan) {r : List Nat × Nat}
    (hr : readMantissa scan.afterDecimal text = some r)
    (hcoefficient : scan.coefficient * 10 ^ r.1.length + digitsValue r.1 < 2 ^ 128)
    (hlow : 0 ≤ scan.fractionalDigits) (hhigh : scan.fractionalDigits + r.2 < 2 ^ 31) :
    ∃ scan', loop FloatText.scanByte scan text = .ok scan' ∧
      scan'.sawDigit = (scan.sawDigit || decide (r.1 ≠ [])) := by
  induction text generalizing scan r with
  | nil =>
    cases hr
    exact ⟨scan, rfl, by simp⟩
  | cons c cs ih =>
    unfold readMantissa at hr
    split at hr
    · rename_i hpoint
      obtain ⟨scan', hloop, hsaw⟩ := ih { scan with afterDecimal := true } hr hcoefficient
        hlow hhigh
      exact ⟨scan', loop_cons.mpr ⟨_, by rw [FloatText.scanByte, if_pos hpoint], hloop⟩, hsaw⟩
    · rename_i hpoint
      split at hr
      · rename_i hdigit
        obtain ⟨r, hrest, rfl⟩ := Option.map_eq_some_iff.mp hr
        simp only [List.length_cons, digitsValue_cons] at hcoefficient
        have htotal : (10 * scan.coefficient + digitOf c) * 10 ^ r.1.length + digitsValue r.1 <
            2 ^ 128 := by
          calc _ = scan.coefficient * 10 ^ (r.1.length + 1) +
                (digitOf c * 10 ^ r.1.length + digitsValue r.1) := by ring
            _ < 2 ^ 128 := hcoefficient
        have hstep : 10 * scan.coefficient + digitOf c < 2 ^ 128 := by
          calc 10 * scan.coefficient + digitOf c
              ≤ (10 * scan.coefficient + digitOf c) * 10 ^ r.1.length :=
                Nat.le_mul_of_pos_right _ (Nat.pow_pos (by decide))
            _ ≤ _ := Nat.le_add_right _ _
            _ < 2 ^ 128 := htotal
        obtain ⟨fraction, hfraction, hlow', hhigh'⟩ : ∃ fraction : Int,
            (if scan.afterDecimal then scan.fractionalDigits + 1 else scan.fractionalDigits) =
              fraction ∧ 0 ≤ fraction ∧ fraction + r.2 < 2 ^ 31 := by
          refine ⟨_, rfl, ?_, ?_⟩
          · split <;> omega
          · revert hhigh
            cases scan.afterDecimal with
            | false => simp
            | true =>
              simp only [if_true]
              omega
        obtain ⟨scan', hloop, hsaw⟩ := ih
          { scan with coefficient := 10 * scan.coefficient + digitOf c,
                      fractionalDigits := fraction, sawDigit := true } hrest htotal hlow' hhigh'
        refine ⟨scan', loop_cons.mpr ⟨_, ?_, hloop⟩, by simpa using hsaw⟩
        rw [FloatText.scanByte, if_neg hpoint, if_pos hdigit]
        simp only [bind_ok, refuseIf_ok, not_le, checkedI32_ok, pure_ok]
        exact ⟨(), hstep, fraction, ⟨⟨by omega, by omega⟩, hfraction⟩, rfl⟩
      · cases hr

namespace FloatText

variable {floats : FloatText}

/-- The text of a valid coverage is read to its end. -/
theorem shortestDecimal_ok {coverage : Binary64} (hvalid : ValidCoverage coverage)
    (hplain : PlainText (floats.text coverage))
    (hdigits : HasSignificantDigits (floats.text coverage) 17) :
    ∃ s, floats.shortestDecimal coverage = .ok s := by
  obtain ⟨r, hr, hmax⟩ := hdigits
  obtain ⟨-, hlength, hscale⟩ := readMantissa_spec hr
  have hshort := hplain.short
  have hunsigned : (floats.text coverage).head? ≠ some '-' := by
    intro hsign
    obtain ⟨rest, hrest⟩ := List.head?_eq_some_iff.mp hsign
    rw [hrest] at hr
    cases hr
  have hvalue : floats.decimalOf coverage = (⟨false, r.1, 0 - r.2⟩ : ExactDecimal).value := by
    simp [decimalOf, readLiteral, hunsigned, splitExponent_plain hplain, hr]
  have hvalue : floats.decimalOf coverage = digitsValue r.1 / 10 ^ r.2 := by
    rw [hvalue, ExactDecimal.value, Binary64.decimal]
    simp [zpow_neg, div_eq_mul_inv]
  have hcoefficient : digitsValue r.1 ≠ 0 := by
    intro hzero
    have hpos := floats.decimalOf_pos hvalid
    rw [hvalue, hzero] at hpos
    simp at hpos
  have hfraction : r.2 ≠ 0 := by
    intro hzero
    have hlt := floats.decimalOf_lt_one hvalid
    rw [hvalue, hzero, pow_zero, div_one] at hlt
    exact hcoefficient (Nat.lt_one_iff.mp (by exact_mod_cast hlt))
  have hne : r.1 ≠ [] := by
    intro hnil
    rw [hnil] at hcoefficient
    exact hcoefficient rfl
  obtain ⟨scan, hscan, hsaw⟩ := scanByte_ok {} hr (by simp only; omega) (by simp)
    (by simp only; omega)
  obtain ⟨r', hr', hread, hscanned⟩ := scanByte_loop hscan
  cases hr.symm.trans hr'
  simp only [zero_mul, zero_add] at hread hscanned
  simp only [shortestDecimal, bind_ok, refuseIf_ok, checkedI32_ok, pure_ok]
  refine ⟨_, (floats.text coverage, 0), splitExponent_plain hplain, scan, hscan, (), ?_, _,
    ⟨⟨?_, ?_⟩, rfl⟩, (), ?_, rfl⟩
  · rw [hsaw, hread]
    simp only [maxShortestDecimalCoefficient]
    simp [hne, hcoefficient]
    omega
  all_goals omega

/-- No step of the rank is wider than its type. -/
theorem finiteSampleConformalRank_ok {n : Nat} {coverage : Binary64} (hpos : 1 ≤ n)
    (hn : n < 2 ^ 64 - 1) (hvalid : validateConformalCoverages [coverage] = .ok ())
    (hplain : PlainText (floats.text coverage))
    (hdigits : HasSignificantDigits (floats.text coverage) 17) :
    ∃ s rank, floats.shortestDecimal coverage = .ok s ∧ n + 1 < 2 ^ 64 ∧
      (n + 1) * s.coefficient < 2 ^ 128 ∧ (s.scale ≤ maxU128PowerOfTen → 10 ^ s.scale < 2 ^ 128) ∧
      floats.finiteSampleConformalRank n coverage = .ok rank := by
  have hcoverage := (validateConformalCoverages_ok.mp hvalid).2.1 coverage (by simp)
  obtain ⟨s, hs⟩ := shortestDecimal_ok hcoverage hplain hdigits
  obtain ⟨hvalue, hcoefficient, hmax⟩ := shortestDecimal_value hs
  have hscaled : (n + 1) * s.coefficient < 2 ^ 128 := by
    calc (n + 1) * s.coefficient
        ≤ (2 ^ 64 - 1) * maxShortestDecimalCoefficient := Nat.mul_le_mul (by omega) hmax
      _ < 2 ^ 128 := by decide
  have hrank : (if maxU128PowerOfTen < s.scale then 1
      else (n + 1) * s.coefficient / 10 ^ s.scale +
        if (n + 1) * s.coefficient % 10 ^ s.scale ≠ 0 then 1 else 0) < 2 ^ 64 := by
    split
    · decide
    · -- the coverage is below one, so the ceiling is at most `n + 1`
      have hlt := floats.decimalOf_lt_one hcoverage
      rw [hvalue, div_lt_one (by positivity)] at hlt
      have hlt : s.coefficient < 10 ^ s.scale := by exact_mod_cast hlt
      have hquotient : (n + 1) * s.coefficient / 10 ^ s.scale < n + 1 := by
        rw [Nat.div_lt_iff_lt_mul (Nat.pow_pos (by decide))]
        exact Nat.mul_lt_mul_of_pos_left hlt (Nat.succ_pos n)
      split <;> omega
  have hpower : s.scale ≤ maxU128PowerOfTen → 10 ^ s.scale < 2 ^ 128 := fun hscale =>
    calc 10 ^ s.scale ≤ 10 ^ 38 := Nat.pow_le_pow_right (by decide) hscale
      _ < 2 ^ 128 := by decide
  have hcount : ¬(n = 0 ∨ maxConformalSampleCount < n) := by
    simp only [maxConformalSampleCount]
    omega
  obtain ⟨rank, hok⟩ : ∃ rank, floats.finiteSampleConformalRank n coverage = .ok rank := by
    simp only [finiteSampleConformalRank, bind_ok, refuseIf_ok, pure_ok]
    exact ⟨_, (), hcount, (), hvalid, s, hs, (), not_le.mpr hscaled, (), not_le.mpr hrank, rfl⟩
  exact ⟨s, rank, hs, by omega, hscaled, hpower, hok⟩

end FloatText

-- ---------------------------------------------------------------------------
-- Exactness
-- ---------------------------------------------------------------------------

/-- The sum or difference of two accepted texts is the exact one in its
shortest form, and the rank of every sample count from one is the exact
ceiling, within bounds and computed without overflow. -/
theorem conformal_decimal_exact (floats : FloatText) :
    (∀ x y p r subtractRight, PlainText (floats.text x) → PlainText (floats.text y) →
      ExactDecimal.ofFloat floats x = .ok p → ExactDecimal.ofFloat floats y = .ok r →
      p.value = floats.decimalOf x ∧ r.value = floats.decimalOf y ∧
      ∃ d, p.add r subtractRight = .ok d ∧
        d.value = (if subtractRight then p.value - r.value else p.value + r.value) ∧
        d.Canonical) ∧
    (∀ n coverage, 1 ≤ n → n < 2 ^ 64 - 1 → validateConformalCoverages [coverage] = .ok () →
      PlainText (floats.text coverage) → HasSignificantDigits (floats.text coverage) 17 →
      ∃ s rank, floats.shortestDecimal coverage = .ok s ∧ n + 1 < 2 ^ 64 ∧
        (n + 1) * s.coefficient < 2 ^ 128 ∧
        (s.scale ≤ FloatText.maxU128PowerOfTen → 10 ^ s.scale < 2 ^ 128) ∧
        floats.finiteSampleConformalRank n coverage = .ok rank ∧
        (rank : Int) = ⌈((n : ℚ) + 1) * floats.decimalOf coverage⌉ ∧ 1 ≤ rank ∧ rank ≤ n + 1) ∧
    (∀ n coverage coverage' rank rank',
      floats.finiteSampleConformalRank n coverage = .ok rank →
      floats.finiteSampleConformalRank n coverage' = .ok rank' →
      floats.decimalOf coverage ≤ floats.decimalOf coverage' → rank ≤ rank') := by
  refine ⟨?_, ?_, ?_⟩
  · intro x y p r subtractRight hx hy hp hr
    obtain ⟨hpcanonical, hpsmall⟩ := ExactDecimal.ofFloat_canonical hx hp
    obtain ⟨hrcanonical, hrsmall⟩ := ExactDecimal.ofFloat_canonical hy hr
    obtain ⟨d, hd, hcanonical⟩ := ExactDecimal.add_ok hpcanonical hrcanonical hpsmall hrsmall
      subtractRight
    refine ⟨(FloatText.ofFloat_value hp).2, (FloatText.ofFloat_value hr).2, d, hd, ?_, hcanonical⟩
    rw [ExactDecimal.add_value hd]
    cases subtractRight
    · simp [ExactDecimal.sign]
    · simp [ExactDecimal.sign, sub_eq_add_neg]
  · intro n coverage hpos hn hvalid hplain hdigits
    obtain ⟨s, rank, hs, hcount, hscaled, hpower, hrank⟩ :=
      FloatText.finiteSampleConformalRank_ok hpos hn hvalid hplain hdigits
    exact ⟨s, rank, hs, hcount, hscaled, hpower, hrank,
      FloatText.finiteSampleConformalRank_ceil hrank, FloatText.one_le_rank hrank,
      FloatText.rank_le hrank⟩
  · intro n coverage coverage' rank rank' h h' hle
    exact FloatText.rank_mono h h' hle

theorem text_of_eq_half {x : Binary64} (h : x = half) :
    printedText.text x = ['0', '.', '5'] := by
  have hprint : printFloat x = ['0', '.', '5'] := by
    unfold printFloat
    rw [if_pos h]
    rfl
  exact hprint

theorem plainText_half {x : Binary64} (h : x = half) : PlainText (printedText.text x) := by
  rw [text_of_eq_half h]
  exact ⟨by simp, by norm_num⟩

theorem hasSignificantDigits_half {x : Binary64} (h : x = half) :
    HasSignificantDigits (printedText.text x) 17 := by
  rw [text_of_eq_half h]
  exact ⟨([0, 5], 1), by decide, by decide⟩

theorem conformal_decimal_exact_half :
    (∃ d p, ExactDecimal.ofFloat printedText half = .ok p ∧ p.add p true = .ok d ∧
      d.value = p.value - p.value ∧ d.Canonical) ∧
    ∃ rank, printedText.finiteSampleConformalRank 3 half = .ok rank ∧ 1 ≤ rank ∧ rank ≤ 4 := by
  obtain ⟨hadd, hrank, -⟩ := conformal_decimal_exact printedText
  obtain ⟨p, hp⟩ : ∃ p, ExactDecimal.ofFloat printedText half = .ok p :=
    ⟨_, eq_ok_valueOf (by decide +kernel)⟩
  obtain ⟨-, -, d, hd, hvalue, hcanonical⟩ :=
    hadd half half p p true (plainText_half rfl) (plainText_half rfl) hp hp
  obtain ⟨-, rank, -, -, -, -, hok, -, hone, hle⟩ := hrank 3 half (by decide) (by decide)
    (by decide +kernel) (plainText_half rfl) (hasSignificantDigits_half rfl)
  exact ⟨⟨d, p, hp, hd, hvalue, hcanonical⟩, rank, hok, hone, hle⟩

/-- Without samples there is no rank, whatever the coverage. -/
theorem finiteSampleConformalRank_no_samples :
    ¬∀ n coverage, n < 2 ^ 64 - 1 → validateConformalCoverages [coverage] = .ok () →
      PlainText (printedText.text coverage) →
      HasSignificantDigits (printedText.text coverage) 17 →
      ∃ rank, printedText.finiteSampleConformalRank n coverage = .ok rank := by
  intro h
  obtain ⟨rank, hrank⟩ := h 0 half (by decide) (by decide +kernel) (plainText_half rfl)
    (hasSignificantDigits_half rfl)
  cases hrank

end DagMl
