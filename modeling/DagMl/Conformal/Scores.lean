import Mathlib
import DagMl.Conformal.Basic
import DagMl.Lib.Keyed

/-!
# Scores

What calibration sorts: a column of scores for each radius. A sorted column is
related here to the rows it was made from, whatever their order.
-/

namespace DagMl

open Checked Keyed

/-- How many radii a quantile has. -/
def scoreCount (policy : ConformalMultiTargetPolicy) (targetCount : Nat) : Nat :=
  match policy with
  | .marginal => targetCount
  | .jointMax => 1

/-- The scores one calibration row adds, one a column. -/
def scoreRow (policy : ConformalMultiTargetPolicy) (row : List Binary64) : List Binary64 :=
  match policy with
  | .marginal => row.map normalizedZero
  | .jointMax => [(row.map normalizedZero).foldl Binary64.max .zero]

def pushScores (columns : List (List Binary64)) (scores : List Binary64) : List (List Binary64) :=
  List.zipWith (fun column score => column ++ [score]) columns scores

def orderedScores (policy : ConformalMultiTargetPolicy) (targetCount : Nat)
    (residuals : List (List Binary64)) : List (List Binary64) :=
  let columns := residuals.foldl (fun columns row => pushScores columns (scoreRow policy row))
    (List.replicate (scoreCount policy targetCount) [])
  columns.map (sortBy Binary64.totalKey)

/-- `row` meets `p` at the radius `target`: its residual there, or all of them
when the row is reduced to its largest. -/
def rowMeets (policy : ConformalMultiTargetPolicy) (target : Nat) (p : Binary64 → Bool)
    (row : List Binary64) : Bool :=
  match policy with
  | .marginal => row[target]?.any p
  | .jointMax => row.all p

/-- `residual` is what `row` is scored by at the radius `target`. -/
def ScoredBy (policy : ConformalMultiTargetPolicy) (target : Nat) (row : List Binary64)
    (residual : Binary64) : Prop :=
  match policy with
  | .marginal => row[target]? = some residual
  | .jointMax => residual ∈ row ∧ ∀ other ∈ row, other.le residual = true

/-- A score is a finite value of clear sign, numerically the row's own residual. -/
structure IsScore (policy : ConformalMultiTargetPolicy) (target : Nat) (row : List Binary64)
    (score : Binary64) : Prop where
  finite : score.isFinite = true
  neg : score.neg = false
  observed : ∃ residual ∈ row, ScoredBy policy target row residual ∧ score.key = residual.key

theorem normalizedZero_spec {x : Binary64} (hfinite : x.isFinite = true) (hnonneg : 0 ≤ x.key) :
    (normalizedZero x).isFinite = true ∧ (normalizedZero x).neg = false ∧
      (normalizedZero x).key = x.key := by
  unfold normalizedZero
  split
  · rename_i hz
    have hmag : x.magnitude = 0 := of_decide_eq_true hz
    refine ⟨zero_isFinite, by decide, ?_⟩
    simp [Binary64.key, hmag, show Binary64.zero.magnitude = 0 by decide]
  · rename_i hz
    refine ⟨hfinite, ?_, rfl⟩
    have hmag : x.magnitude ≠ 0 := fun h => hz (decide_eq_true h)
    by_contra hneg
    rw [Bool.not_eq_false] at hneg
    simp only [Binary64.key, hneg, if_true] at hnonneg
    omega

theorem max_eq {x y : Binary64} (hx : x.isFinite = true) (hy : y.isFinite = true) :
    x.max y = if x.key < y.key then y else x := by
  simp only [Binary64.max, Binary64.isNan_of_isFinite hx, Bool.false_eq_true, if_false,
    Binary64.lt_iff hx hy]

/-- A running maximum is one of the values seen, and none of them exceeds it. -/
theorem foldl_max_spec {l : List Binary64} {start : Binary64} (hstart : start.isFinite = true)
    (hl : ∀ x ∈ l, x.isFinite = true) :
    l.foldl Binary64.max start ∈ start :: l ∧
      ∀ x ∈ start :: l, x.key ≤ (l.foldl Binary64.max start).key := by
  induction l generalizing start with
  | nil => simp
  | cons y l ih =>
    rw [List.forall_mem_cons] at hl
    obtain ⟨hy, hl⟩ := hl
    have hmax : (start.max y = start ∨ start.max y = y) ∧ start.key ≤ (start.max y).key ∧
        y.key ≤ (start.max y).key := by
      rw [max_eq hstart hy]
      split
      · rename_i hlt
        exact ⟨.inr rfl, hlt.le, le_refl _⟩
      · rename_i hle
        exact ⟨.inl rfl, le_refl _, not_lt.mp hle⟩
    have hfinite : (start.max y).isFinite = true := by
      rcases hmax.1 with h | h <;> rw [h] <;> assumption
    obtain ⟨hmem, hle⟩ := ih hfinite hl
    rw [List.forall_mem_cons] at hle
    rw [List.foldl_cons]
    constructor
    · rcases List.mem_cons.mp hmem with h | h
      · rw [h]
        rcases hmax.1 with h | h <;> simp [h]
      · simp [h]
    · simp only [List.forall_mem_cons]
      exact ⟨hmax.2.1.trans hle.1, hmax.2.2.trans hle.1, hle.2⟩

theorem length_scoreRow {row : List Binary64} (h : row.length = targetCount) :
    (scoreRow policy row).length = scoreCount policy targetCount := by
  cases policy <;> simp [scoreRow, scoreCount, h]

theorem scoreRow_isScore {row : List Binary64} (hne : row ≠ [])
    (hrow : ∀ x ∈ row, x.isFinite = true ∧ 0 ≤ x.key)
    (h : (scoreRow policy row)[target]? = some score) : IsScore policy target row score := by
  cases policy with
  | marginal =>
    rw [scoreRow, List.getElem?_map, Option.map_eq_some_iff] at h
    obtain ⟨x, hx, rfl⟩ := h
    have hmem := List.mem_of_getElem? hx
    obtain ⟨hfinite, hneg, hkey⟩ := normalizedZero_spec (hrow x hmem).1 (hrow x hmem).2
    exact ⟨hfinite, hneg, x, hmem, hx, hkey⟩
  | jointMax =>
    have hscore : (row.map normalizedZero).foldl Binary64.max .zero = score := by
      cases target with
      | zero => simpa [scoreRow] using h
      | succ target => simp [scoreRow] at h
    have hscaled (x : Binary64) (hx : x ∈ row) := normalizedZero_spec (hrow x hx).1 (hrow x hx).2
    obtain ⟨hmem, hle⟩ := @foldl_max_spec (row.map normalizedZero) .zero zero_isFinite (by
      simpa using fun x hx => (hscaled x hx).1)
    rw [hscore] at hmem hle
    have hbound (x : Binary64) (hx : x ∈ row) : x.key ≤ score.key := by
      rw [← (hscaled x hx).2.2]
      exact hle _ (List.mem_cons_of_mem _ (List.mem_map_of_mem hx))
    -- the start of the fold stands for a row whose residuals are all zero
    obtain ⟨x, hx, hkey⟩ : ∃ x ∈ row, score.key = x.key := by
      rcases List.mem_cons.mp hmem with hz | hm
      · obtain ⟨x, hx⟩ := List.exists_mem_of_ne_nil row hne
        have hzero : score.key = 0 := by rw [hz]; rfl
        exact ⟨x, hx, le_antisymm (hzero ▸ (hrow x hx).2) (hbound x hx)⟩
      · obtain ⟨x, hx, rfl⟩ := List.mem_map.mp hm
        exact ⟨x, hx, (hscaled x hx).2.2⟩
    have hfinite : score.isFinite = true ∧ score.neg = false := by
      rcases List.mem_cons.mp hmem with rfl | hm
      · exact ⟨zero_isFinite, by decide⟩
      · obtain ⟨y, hy, rfl⟩ := List.mem_map.mp hm
        exact ⟨(hscaled y hy).1, (hscaled y hy).2.1⟩
    refine ⟨hfinite.1, hfinite.2, x, hx, ⟨hx, fun y hy => ?_⟩, hkey⟩
    rw [Binary64.le_iff (hrow y hy).1 (hrow x hx).1, ← hkey]
    exact hbound y hy

theorem getElem?_pushScores {rows : List (List Binary64)} {target : Nat} {columns : List (List Binary64)}
    (h : ∀ row ∈ rows, (scoreRow policy row).length = columns.length) :
    (rows.foldl (fun columns row => pushScores columns (scoreRow policy row)) columns)[target]? =
      columns[target]?.map (· ++ rows.filterMap fun row => (scoreRow policy row)[target]?) := by
  induction rows generalizing columns with
  | nil => simp
  | cons row rows ih =>
    rw [List.forall_mem_cons] at h
    have hlength : (pushScores columns (scoreRow policy row)).length = columns.length := by
      simp [pushScores, h.1]
    rw [List.foldl_cons, ih (by rw [hlength]; exact h.2), pushScores, List.getElem?_zipWith]
    cases hc : columns[target]? with
    | none => simp
    | some column =>
      obtain ⟨score, hs⟩ : ∃ score, (scoreRow policy row)[target]? = some score := by
        have hlt := (List.getElem?_eq_some_iff.mp hc).1
        exact ⟨_, List.getElem?_eq_getElem (h.1 ▸ hlt)⟩
      simp [hs]

/-- The column of a radius holds the scores of the rows, sorted. -/
theorem getElem?_orderedScores {residuals : List (List Binary64)}
    (h : ∀ row ∈ residuals, row.length = targetCount) :
    (orderedScores policy targetCount residuals)[target]? =
      if target < scoreCount policy targetCount then
        some (sortBy Binary64.totalKey
          (residuals.filterMap fun row => (scoreRow policy row)[target]?))
      else none := by
  rw [orderedScores, List.getElem?_map, getElem?_pushScores]
  · rw [List.getElem?_replicate]
    split <;> simp
  · intro row hrow
    rw [length_scoreRow (h row hrow), List.length_replicate]

/-- Calibration sees the rows as a multiset. -/
theorem orderedScores_perm {residuals residuals' : List (List Binary64)}
    (h : ∀ row ∈ residuals, row.length = targetCount) (hperm : residuals'.Perm residuals) :
    orderedScores policy targetCount residuals' = orderedScores policy targetCount residuals := by
  apply List.ext_getElem?
  intro target
  rw [getElem?_orderedScores h, getElem?_orderedScores fun row hr => h row (hperm.mem_iff.mp hr),
    sortBy_eq_of_injective (fun _ _ => Binary64.totalKey_inj.mp) (hperm.filterMap _)]

/-- A sorted column of scores, against the rows it was made from. -/
structure Column (policy : ConformalMultiTargetPolicy) (target : Nat)
    (residuals : List (List Binary64)) (column : List Binary64) : Prop where
  sorted : column.Pairwise fun a b => a.key ≤ b.key
  score : ∀ s ∈ column, ∃ row ∈ residuals, IsScore policy target row s
  length : column.length = residuals.length
  count (p : Binary64 → Bool) (hp : ∀ x y : Binary64, x.isFinite = true → y.isFinite = true →
    x.key ≤ y.key → p y = true → p x = true) :
    column.countP p = residuals.countP (rowMeets policy target p)

theorem IsScore.meets {row : List Binary64} (h : IsScore policy target row score)
    (hrow : ∀ x ∈ row, x.isFinite = true) {p : Binary64 → Bool}
    (hp : ∀ x y : Binary64, x.isFinite = true → y.isFinite = true →
      x.key ≤ y.key → p y = true → p x = true) :
    rowMeets policy target p row = p score := by
  obtain ⟨residual, hmem, hscored, hkey⟩ := h.observed
  have hresidual : p residual = p score := by
    rw [Bool.eq_iff_iff]
    exact ⟨hp _ _ h.finite (hrow _ hmem) hkey.le, hp _ _ (hrow _ hmem) h.finite hkey.ge⟩
  rw [← hresidual]
  cases policy with
  | marginal =>
    have hget : row[target]? = some residual := hscored
    simp [rowMeets, hget]
  | jointMax =>
    obtain ⟨-, hmax⟩ := hscored
    rw [Bool.eq_iff_iff, rowMeets, List.all_eq_true]
    constructor
    · exact fun hall => hall residual hmem
    · intro hr x hx
      refine hp x residual (hrow x hx) (hrow _ hmem) ?_ hr
      exact (Binary64.le_iff (hrow x hx) (hrow _ hmem)).mp (hmax x hx)

theorem column_orderedScores {residuals : List (List Binary64)} {column : List Binary64}
    (h : FiniteMatrix residuals true targetCount)
    (hcolumn : (orderedScores policy targetCount residuals)[target]? = some column) :
    Column policy target residuals column := by
  rw [getElem?_orderedScores h.rectangular] at hcolumn
  split at hcolumn
  · rename_i htarget
    cases hcolumn
    have hscore (row : List Binary64) (hr : row ∈ residuals) :
        ∃ s, (scoreRow policy row)[target]? = some s ∧ IsScore policy target row s := by
      have hlt : target < (scoreRow policy row).length := by
        rwa [length_scoreRow (h.rectangular row hr)]
      refine ⟨_, List.getElem?_eq_getElem hlt, scoreRow_isScore ?_ ?_ (List.getElem?_eq_getElem hlt)⟩
      · intro hnil
        have hwidth := h.rectangular row hr
        rw [hnil] at hwidth
        exact absurd hwidth h.width_pos.ne
      · exact fun x hx => ⟨h.finite row hr x hx, h.nonneg rfl row hr x hx⟩
    have hmem (s : Binary64) (hs : s ∈ sortBy Binary64.totalKey
        (residuals.filterMap fun row => (scoreRow policy row)[target]?)) :
        ∃ row ∈ residuals, IsScore policy target row s := by
      rw [mem_sortBy, List.mem_filterMap] at hs
      obtain ⟨row, hr, hs⟩ := hs
      obtain ⟨s', hs', hscored⟩ := hscore row hr
      rw [hs] at hs'
      cases hs'
      exact ⟨row, hr, hscored⟩
    refine { sorted := ?_, score := hmem, length := ?_, count := fun p hp => ?_ }
    · refine (pairwise_sortBy Binary64.totalKey _).imp_of_mem fun {a b} ha hb hle => ?_
      obtain ⟨_, _, ha⟩ := hmem a ha
      obtain ⟨_, _, hb⟩ := hmem b hb
      simpa [Binary64.totalKey, Binary64.key, ha.neg, hb.neg] using hle
    · rw [(perm_sortBy _ _).length_eq]
      have hall : residuals.filterMap (fun row => (scoreRow policy row)[target]?) =
          residuals.filterMap (fun row => some ((scoreRow policy row)[target]?.getD .zero)) := by
        apply List.filterMap_congr
        intro row hr
        obtain ⟨s, hs, -⟩ := hscore row hr
        simp [hs]
      rw [hall]
      simp
    · rw [(perm_sortBy _ _).countP_eq, List.countP_filterMap]
      apply List.countP_congr
      intro row hr
      obtain ⟨s, hs, hscored⟩ := hscore row hr
      rw [hscored.meets (h.finite row hr) hp]
      simp [hs]
  · cases hcolumn

end DagMl
