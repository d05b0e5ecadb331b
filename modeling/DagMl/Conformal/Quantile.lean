import Mathlib
import DagMl.Conformal.Scores

/-!
# Validation of quantiles

The check application makes of a list of quantiles, written apart from the
calibration that produces them.
-/

namespace DagMl

open Checked

namespace ConformalRadius

def isUnbounded (radius : ConformalRadius) : Bool := radius = .unbounded

/-- A finite value is finite and not negative. -/
def isValid (radius : ConformalRadius) : Bool :=
  match radius with
  | .finite value => value.isFinite && !value.lt .zero
  | .unbounded => true

def nestedIn (left right : ConformalRadius) : Bool :=
  match left, right with
  | .finite left, .finite right => left.le right
  | .unbounded, .finite _ => false
  | _, .unbounded => true

end ConformalRadius

/-- What the loop over quantiles threads. -/
structure QuantileScan where
  previousRank : Nat := 0
  previous : List (Option ConformalRadius)

def scanQuantile (expected : Nat) (scan : QuantileScan) (entry : SplitConformalQuantile × Nat) :
    ConformalResult QuantileScan := do
  let (quantile, coverageIndex) := entry
  refuseIf (quantile.rank = 0) (.zeroQuantileRank coverageIndex)
  refuseIf (0 < coverageIndex ∧ quantile.rank < scan.previousRank)
    (.decreasingQuantileRank coverageIndex)
  refuseIf (quantile.radii.length ≠ expected)
    (.quantileShape coverageIndex expected quantile.radii.length)
  let first ← need quantile.radii.head? (.panicked "index out of bounds")
  refuseIf (quantile.radii.any fun radius => radius.isUnbounded ≠ first.isUnbounded)
    (.mixedRadiusStatus coverageIndex)
  eachIdx quantile.radii fun radiusIndex radius => do
    refuseIf (radius.isValid = false) (.invalidRadius coverageIndex radiusIndex)
    whenSome (scan.previous[radiusIndex]?.join) fun previousRadius =>
      refuseIf (previousRadius.nestedIn radius = false) (.nonNestedRadius coverageIndex radiusIndex)
  pure ⟨quantile.rank, quantile.radii.map some⟩

def validateQuantiles (quantiles : List SplitConformalQuantile) (targetCount : Nat)
    (policy : ConformalMultiTargetPolicy) : ConformalResult Unit := do
  refuseIf (quantiles = []) .emptyQuantiles
  validateConformalCoverages (quantiles.map SplitConformalQuantile.coverage)
  let expected := scoreCount policy targetCount
  let _ ← loop (scanQuantile expected) { previous := List.replicate expected none }
    quantiles.zipIdx

/-- What validation asks of one quantile. -/
structure ValidQuantile (expected : Nat) (quantile : SplitConformalQuantile) : Prop where
  rank_pos : 0 < quantile.rank
  shape : quantile.radii.length = expected
  uniform : ∀ r ∈ quantile.radii, ∀ r' ∈ quantile.radii, r.isUnbounded = r'.isUnbounded
  valid : ∀ r ∈ quantile.radii, r.isValid = true

/-- What it asks of a quantile and the next. -/
structure NestedQuantiles (left right : SplitConformalQuantile) : Prop where
  rank_le : left.rank ≤ right.rank
  nested : List.Forall₂ (fun r r' => ConformalRadius.nestedIn r r' = true) left.radii right.radii

theorem scanQuantile_ok {scan : QuantileScan} {q : SplitConformalQuantile}
    (hpos : 0 < expected) :
    scanQuantile expected scan (q, i) = .ok scan' ↔
      ValidQuantile expected q ∧ (0 < i → scan.previousRank ≤ q.rank) ∧
        (∀ (j : Nat) (r r' : ConformalRadius), scan.previous[j]? = some (some r) → q.radii[j]? = some r' →
          r.nestedIn r' = true) ∧
        scan' = ⟨q.rank, q.radii.map some⟩ := by
  simp only [scanQuantile, bind_ok, refuseIf_ok, need_ok, eachIdx_ok, whenSome_ok, pure_ok,
    exists_const, Bool.not_eq_false, not_not, not_and, not_lt, Option.join_eq_some_iff]
  constructor
  · rintro ⟨hrank, hle, hshape, first, hfirst, huniform, hradii, rfl⟩
    have hsame (r : ConformalRadius) (hr : r ∈ q.radii) : r.isUnbounded = first.isUnbounded := by
      by_contra hne
      exact huniform (List.any_eq_true.mpr ⟨r, hr, by simpa using hne⟩)
    refine ⟨⟨Nat.pos_of_ne_zero hrank, hshape, fun r hr r' hr' => ?_, fun r hr => ?_⟩, hle, ?_, rfl⟩
    · rw [hsame r hr, hsame r' hr']
    · obtain ⟨j, hj⟩ := List.getElem?_of_mem hr
      exact (hradii j r hj).1
    · exact fun j r r' hr hr' => (hradii j r' hr').2 r hr
  · rintro ⟨h, hle, hnested, rfl⟩
    obtain ⟨first, hfirst⟩ : ∃ first, q.radii.head? = some first := by
      cases hq : q.radii with
      | nil =>
        have hshape := h.shape
        rw [hq] at hshape
        exact absurd hshape hpos.ne
      | cons first rest => exact ⟨first, rfl⟩
    refine ⟨h.rank_pos.ne', hle, h.shape, first, hfirst, ?_, ?_, rfl⟩
    · simpa using fun r hr => h.uniform r hr first (List.mem_of_mem_head? hfirst)
    · exact fun j r hr => ⟨h.valid r (List.mem_of_getElem? hr), fun r' hr' => hnested j r' r hr' hr⟩

theorem nestedQuantiles_iff {p q : SplitConformalQuantile} (hp : ValidQuantile expected p)
    (hq : ValidQuantile expected q) :
    NestedQuantiles p q ↔ p.rank ≤ q.rank ∧ ∀ (j : Nat) (r r' : ConformalRadius),
      p.radii[j]? = some r → q.radii[j]? = some r' → r.nestedIn r' = true := by
  constructor
  · intro h
    refine ⟨h.rank_le, fun j r r' hr hr' => ?_⟩
    obtain ⟨hj, rfl⟩ := List.getElem?_eq_some_iff.mp hr
    obtain ⟨hj', rfl⟩ := List.getElem?_eq_some_iff.mp hr'
    simpa using (List.forall₂_iff_get.mp h.nested).2 j hj hj'
  · rintro ⟨hle, h⟩
    refine ⟨hle, List.forall₂_iff_get.mpr ⟨hp.shape.trans hq.shape.symm, fun j hj hj' => ?_⟩⟩
    exact h j _ _ (List.getElem?_eq_getElem hj) (List.getElem?_eq_getElem hj')

theorem scanQuantile_loop {p : SplitConformalQuantile} (hpos : 0 < expected)
    (hp : ValidQuantile expected p) :
    (∃ scan, loop (scanQuantile expected) ⟨p.rank, p.radii.map some⟩ (qs.zipIdx (k + 1)) =
        .ok scan) ↔
      (∀ q ∈ qs, ValidQuantile expected q) ∧ (p :: qs).IsChain NestedQuantiles := by
  induction qs generalizing p k with
  | nil => simp
  | cons q qs ih =>
    have hstep (scan : QuantileScan) :
        scanQuantile expected ⟨p.rank, p.radii.map some⟩ (q, k + 1) = .ok scan ↔
          (ValidQuantile expected q ∧ NestedQuantiles p q) ∧ scan = ⟨q.rank, q.radii.map some⟩ := by
      rw [scanQuantile_ok hpos]
      constructor
      · rintro ⟨hq, hle, h, rfl⟩
        refine ⟨⟨hq, (nestedQuantiles_iff hp hq).mpr ⟨hle (Nat.succ_pos k), ?_⟩⟩, rfl⟩
        exact fun j r r' hr => h j r r' (by simp [hr])
      · rintro ⟨⟨hq, hpq⟩, rfl⟩
        obtain ⟨hle, h⟩ := (nestedQuantiles_iff hp hq).mp hpq
        exact ⟨hq, fun _ => hle, fun j r r' hr => h j r r' (by simpa using hr), rfl⟩
    simp only [List.zipIdx_cons, loop_cons, List.forall_mem_cons, List.isChain_cons_cons]
    constructor
    · rintro ⟨scan, next, hnext, hrest⟩
      obtain ⟨⟨hq, hpq⟩, rfl⟩ := (hstep next).mp hnext
      obtain ⟨hall, hchain⟩ := (ih hq).mp ⟨scan, hrest⟩
      exact ⟨⟨hq, hall⟩, hpq, hchain⟩
    · rintro ⟨⟨hq, hall⟩, hpq, hchain⟩
      obtain ⟨scan, hscan⟩ := (ih hq).mpr ⟨hall, hchain⟩
      exact ⟨scan, _, (hstep _).mpr ⟨⟨hq, hpq⟩, rfl⟩, hscan⟩

theorem validateQuantiles_ok {quantiles : List SplitConformalQuantile}
    (hpos : 0 < scoreCount policy targetCount) :
    validateQuantiles quantiles targetCount policy = .ok u ↔
      quantiles ≠ [] ∧
        validateConformalCoverages (quantiles.map SplitConformalQuantile.coverage) = .ok () ∧
        (∀ q ∈ quantiles, ValidQuantile (scoreCount policy targetCount) q) ∧
        quantiles.IsChain NestedQuantiles := by
  simp only [validateQuantiles, bind_ok, refuseIf_ok]
  cases quantiles with
  | nil => simp
  | cons q qs =>
    have hfirst (scan : QuantileScan) :
        scanQuantile (scoreCount policy targetCount)
            { previous := List.replicate (scoreCount policy targetCount) none } (q, 0) = .ok scan ↔
          ValidQuantile (scoreCount policy targetCount) q ∧ scan = ⟨q.rank, q.radii.map some⟩ := by
      rw [scanQuantile_ok hpos]
      constructor
      · rintro ⟨hq, -, -, h⟩
        exact ⟨hq, h⟩
      · rintro ⟨hq, h⟩
        exact ⟨hq, fun h0 => absurd h0 (lt_irrefl 0), by simp [List.getElem?_replicate], h⟩
    simp only [List.zipIdx_cons, loop_cons, List.forall_mem_cons]
    constructor
    · rintro ⟨_, hne, _, hcoverages, scan, ⟨next, hnext, hrest⟩, -⟩
      obtain ⟨hq, rfl⟩ := (hfirst next).mp hnext
      obtain ⟨hall, hchain⟩ := (scanQuantile_loop hpos hq).mp ⟨scan, hrest⟩
      exact ⟨hne, hcoverages, ⟨hq, hall⟩, hchain⟩
    · rintro ⟨hne, hcoverages, ⟨hq, hall⟩, hchain⟩
      obtain ⟨scan, hscan⟩ := (scanQuantile_loop hpos hq).mpr ⟨hall, hchain⟩
      exact ⟨(), hne, (), hcoverages, scan, ⟨_, (hfirst _).mpr ⟨hq, rfl⟩, hscan⟩, rfl⟩

end DagMl
