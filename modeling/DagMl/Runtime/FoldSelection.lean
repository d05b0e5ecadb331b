import DagMl.Lib.WeightedRows
import DagMl.Metrics.PercentileRanks
import DagMl.Metrics.Report

/-!
# Fold estimators of a stacking source

Which fold's estimator supplies the test feature of a source, or with which
weights all of them do. Both read the validation reports of the source; the
weights are computed in exact arithmetic.
-/

namespace DagMl

open Checked WeightedRows

structure StackingFoldSelectionRequest where
  producerNode : NodeId
  foldIds : List FoldId
  metric : String
  reports : List RegressionMetricReport

namespace StackingFoldSelectionRequest

variable (self : StackingFoldSelectionRequest)

/-- A validation report of the source on the fold. -/
def isReportOf (foldId : FoldId) (report : RegressionMetricReport) : Bool :=
  report.producerNode = self.producerNode && report.partition = .validation &&
    report.foldId = some foldId

/-- The metric of a report, where it is finite. -/
def usableScore (report : RegressionMetricReport) : Option Binary64 :=
  report.metrics[self.metric]?.filter Binary64.isFinite

/-- The key a score is ranked by: the best one has the least. -/
def rankKey (objective : MetricObjective) (score : Binary64) : Int :=
  match objective with
  | .maximize => -score.totalKey
  | .minimize => score.totalKey

/-- The first finite score among the reports of the fold. -/
def firstScore (foldId : FoldId) : Option Binary64 :=
  (self.reports.find? fun report =>
      self.isReportOf foldId report && report.metrics[self.metric]?.any Binary64.isFinite).bind
    fun report => report.metrics[self.metric]?

/-- The folds with a finite score, each with its place among `fold_ids`. -/
def ranked : List ((FoldId × Nat) × Binary64) :=
  self.foldIds.zipIdx.filterMap fun entry => (self.firstScore entry.1).map (entry, ·)

def selectedFoldId : Result FoldId := do
  refuseIf (self.foldIds = [] ∨ self.foldIds.toFinset.card ≠ self.foldIds.length)
    (.runtimeValidation "stacking fold selection needs distinct fold ids")
  let kind ← need (RegressionMetricKind.fromName self.metric)
    (.runtimeValidation s!"stacking fold selection has unsupported metric `{self.metric}`")
  -- by score, then by place
  let order := Keyed.sortBy (fun entry => toLex (rankKey kind.objective entry.2, entry.1.2))
    self.ranked
  match order, self.foldIds with
  | best :: _, _ => pure best.1.1
  | [], foldId :: _ => pure foldId
  | [], [] => throw (.runtimeValidation "stacking fold selection needs distinct fold ids")

section Weights

variable {K : Type} [Field K] [LinearOrder K]

/-- The weight of a finite score. -/
def scoreWeight (objective : MetricObjective) (score : Binary64) : K :=
  match objective with
  | .maximize => max score.exact 0
  | .minimize => if 0 ≤ (score.exact : K) then 1 / (score.exact + 1 / 10 ^ 10) else 0

/-- The score of the first report of the fold, where it is finite. -/
def leadingScore (foldId : FoldId) : Option Binary64 :=
  (self.reports.find? (self.isReportOf foldId)).bind self.usableScore

def foldWeight (objective : MetricObjective) (foldId : FoldId) : K :=
  ((self.leadingScore foldId).map (scoreWeight objective)).getD 0

/-- The weights as parts of their sum, or equal weights where that is zero. -/
def weightsFor (objective : MetricObjective) : List K :=
  let weights := self.foldIds.map (self.foldWeight objective)
  if 0 < weights.sum then WeightedRows.normalized weights
  else List.replicate self.foldIds.length (1 / (self.foldIds.length : K))

def normalizedWeights : Result (List K) := do
  refuseIf (self.foldIds = [] ∨ self.foldIds.toFinset.card ≠ self.foldIds.length)
    (.runtimeValidation "stacking fold weights need distinct fold ids")
  let kind ← need (RegressionMetricKind.fromName self.metric)
    (.runtimeValidation s!"stacking fold weights have unsupported metric `{self.metric}`")
  refuseIf (kind.objective = .minimize ∧ ∃ report ∈ self.reports,
      report.producerNode = self.producerNode ∧ report.partition = .validation ∧
        report.foldId.any (fun fold => fold ∈ self.foldIds) = true ∧
        report.metrics[self.metric]?.any (fun score => score.lt .zero) = true)
    (.runtimeValidation "stacking error metrics cannot be negative")
  pure (self.weightsFor kind.objective)

end Weights

-- ---------------------------------------------------------------------------
-- The scores of a fold
-- ---------------------------------------------------------------------------

/-- What the reports of a fold say, in their order. -/
def scores (foldId : FoldId) : List (Option Binary64) :=
  (self.reports.filter (self.isReportOf foldId)).map self.usableScore

/-- All reports of a fold carry the same usable score, or none does. -/
def Agreeing : Prop := ∀ foldId ∈ self.foldIds, ∀ s ∈ self.scores foldId, ∀ t ∈ self.scores foldId, s = t

/-- The first report of a fold carries a usable score if any of them does. -/
def Led : Prop := ∀ foldId ∈ self.foldIds, self.leadingScore foldId = self.firstScore foldId

variable {self}

theorem usableScore_eq_some {report : RegressionMetricReport} {score : Binary64} :
    self.usableScore report = some score ↔
      report.metrics[self.metric]? = some score ∧ score.isFinite = true := by
  rw [usableScore, Option.filter_eq_some_iff]

theorem leadingScore_eq (foldId : FoldId) :
    self.leadingScore foldId = (self.scores foldId).head?.join := by
  rw [leadingScore, scores, List.head?_map, List.head?_filter]
  cases self.reports.find? (self.isReportOf foldId) <;> rfl

theorem firstScore_eq (foldId : FoldId) :
    self.firstScore foldId = (self.scores foldId).findSome? fun score => score := by
  unfold firstScore scores
  induction self.reports with
  | nil => rfl
  | cons report reports ih =>
    by_cases hreport : self.isReportOf foldId report = true
    · rw [List.filter_cons_of_pos hreport, List.map_cons, List.findSome?_cons]
      cases husable : self.usableScore report with
      | none =>
        have hneither : report.metrics[self.metric]?.any Binary64.isFinite = false := by
          rw [usableScore, Option.filter_eq_none_iff] at husable
          rw [Option.any_eq_false]
          simpa using husable
        rw [List.find?_cons_of_neg (by simp [hneither]), ih]
      | some score =>
        obtain ⟨hget, hfinite⟩ := usableScore_eq_some.mp husable
        rw [List.find?_cons_of_pos (by simp [hreport, hget, hfinite]), Option.bind_some, hget]
    · rw [List.filter_cons_of_neg hreport, ← ih, List.find?_cons_of_neg]
      simp [hreport]

/-- A first score is that of a report of the fold. -/
theorem exists_of_firstScore {foldId : FoldId} {score : Binary64}
    (h : self.firstScore foldId = some score) :
    ∃ report ∈ self.reports, self.isReportOf foldId report = true ∧
      report.metrics[self.metric]? = some score ∧ score.isFinite = true := by
  rw [firstScore_eq, List.findSome?_eq_some_iff] at h
  obtain ⟨before, _, after, hscores, rfl, -⟩ := h
  have hmem : some score ∈ self.scores foldId := hscores ▸ by simp
  obtain ⟨report, hreport, husable⟩ := List.mem_map.mp hmem
  obtain ⟨hmem, hof⟩ := List.mem_filter.mp hreport
  obtain ⟨hget, hfinite⟩ := usableScore_eq_some.mp husable
  exact ⟨report, hmem, hof, hget, hfinite⟩

-- ---------------------------------------------------------------------------
-- The order of the reports
-- ---------------------------------------------------------------------------

theorem findSome?_of_agreeing {α : Type} {l : List (Option α)} (h : ∀ s ∈ l, ∀ t ∈ l, s = t) :
    (l.findSome? fun s => s) = l.head?.join := by
  cases l with
  | nil => rfl
  | cons s l =>
    cases s with
    | some a => rfl
    | none =>
      rw [List.findSome?_cons, List.head?_cons, Option.join_some]
      refine List.findSome?_eq_none_iff.mpr fun t ht => ?_
      exact h t (List.mem_cons_of_mem _ ht) none List.mem_cons_self

theorem head?_of_agreeing {α : Type} {l l' : List α} (h : ∀ s ∈ l, ∀ t ∈ l, s = t)
    (hperm : l.Perm l') : l.head? = l'.head? := by
  cases l with
  | nil => rw [List.nil_perm.mp hperm]
  | cons s l =>
    cases l' with
    | nil => exact absurd hperm.length_eq (Nat.succ_ne_zero _)
    | cons t l' =>
      rw [List.head?_cons, List.head?_cons,
        h s List.mem_cons_self t (hperm.mem_iff.mpr List.mem_cons_self)]

section Reordered

variable {reports : List RegressionMetricReport} (hperm : self.reports.Perm reports)
include hperm

theorem scores_perm (foldId : FoldId) :
    (self.scores foldId).Perm ({ self with reports := reports }.scores foldId) :=
  (hperm.filter _).map _

theorem leadingScore_perm (h : self.Agreeing) {foldId : FoldId} (hfold : foldId ∈ self.foldIds) :
    { self with reports := reports }.leadingScore foldId = self.leadingScore foldId := by
  rw [leadingScore_eq, leadingScore_eq, head?_of_agreeing (h foldId hfold) (scores_perm hperm foldId)]

theorem firstScore_perm (h : self.Agreeing) {foldId : FoldId} (hfold : foldId ∈ self.foldIds) :
    { self with reports := reports }.firstScore foldId = self.firstScore foldId := by
  have hscores := scores_perm hperm foldId
  have hagree := h foldId hfold
  have hagree' : ∀ s ∈ { self with reports := reports }.scores foldId,
      ∀ t ∈ { self with reports := reports }.scores foldId, s = t := fun s hs t ht =>
    hagree s (hscores.mem_iff.mpr hs) t (hscores.mem_iff.mpr ht)
  rw [firstScore_eq, firstScore_eq, findSome?_of_agreeing hagree, findSome?_of_agreeing hagree',
    head?_of_agreeing hagree hscores]

theorem ranked_perm (h : self.Agreeing) :
    { self with reports := reports }.ranked = self.ranked := by
  refine List.filterMap_congr fun entry hentry => ?_
  rw [firstScore_perm hperm h (List.fst_mem_of_mem_zipIdx hentry)]

theorem selectedFoldId_perm (h : self.Agreeing) :
    { self with reports := reports }.selectedFoldId = self.selectedFoldId := by
  rw [selectedFoldId, ranked_perm hperm h]
  rfl

variable {K : Type} [Field K] [LinearOrder K]

theorem normalizedWeights_perm (h : self.Agreeing) :
    ({ self with reports := reports }.normalizedWeights : Result (List K)) =
      self.normalizedWeights := by
  have hweights (objective : MetricObjective) :
      ({ self with reports := reports }.weightsFor objective : List K) =
        self.weightsFor objective := by
    have hmap : self.foldIds.map ({ self with reports := reports }.foldWeight objective : _ → K) =
        self.foldIds.map (self.foldWeight objective) := by
      refine List.map_congr_left fun foldId hfold => ?_
      rw [foldWeight, leadingScore_perm hperm h hfold, foldWeight]
    rw [weightsFor, hmap, weightsFor]
  simp only [normalizedWeights, hweights, hperm.mem_iff]

end Reordered

-- ---------------------------------------------------------------------------
-- The selected fold
-- ---------------------------------------------------------------------------

theorem mem_ranked {entry : (FoldId × Nat) × Binary64} :
    entry ∈ self.ranked ↔
      entry.1 ∈ self.foldIds.zipIdx ∧ self.firstScore entry.1.1 = some entry.2 := by
  obtain ⟨place, score⟩ := entry
  simp only [ranked, List.mem_filterMap, Option.map_eq_some_iff, Prod.mk.injEq]
  constructor
  · rintro ⟨place', hplace, score', hscore, rfl, rfl⟩
    exact ⟨hplace, hscore⟩
  · rintro ⟨hplace, hscore⟩
    exact ⟨place, hplace, score, hscore, rfl, rfl⟩

theorem exists_mem_ranked {foldId : FoldId} {score : Binary64} (h : foldId ∈ self.foldIds)
    (hscore : self.firstScore foldId = some score) :
    ∃ i, ((foldId, i), score) ∈ self.ranked := by
  obtain ⟨i, hi⟩ := List.mem_iff_getElem?.mp h
  exact ⟨i, mem_ranked.mpr ⟨List.mem_zipIdx_iff_getElem?.mpr hi, hscore⟩⟩

/-- Which fold is selected, and over which others. -/
theorem selectedFoldId_ok {foldId : FoldId} (h : self.selectedFoldId = .ok foldId) :
    ∃ kind, RegressionMetricKind.fromName self.metric = some kind ∧ foldId ∈ self.foldIds ∧
      ((∀ other ∈ self.foldIds, self.firstScore other = none) ∨
        ∃ best, self.firstScore foldId = some best ∧
          ∀ other ∈ self.foldIds, ∀ score, self.firstScore other = some score →
            rankKey kind.objective best ≤ rankKey kind.objective score) := by
  simp only [selectedFoldId, bind_ok, refuseIf_ok, need_ok] at h
  obtain ⟨_, -, kind, hkind, h⟩ := h
  refine ⟨kind, hkind, ?_⟩
  split at h
  · rename_i best rest hsorted
    cases h
    have hmem (entry) : entry ∈ best :: rest ↔ entry ∈ self.ranked := by
      rw [← hsorted]
      exact Keyed.mem_sortBy
    obtain ⟨hplace, hscore⟩ := mem_ranked.mp ((hmem best).mp List.mem_cons_self)
    refine ⟨List.fst_mem_of_mem_zipIdx hplace, .inr ⟨best.2, hscore, ?_⟩⟩
    intro other hother score hother'
    obtain ⟨i, hi⟩ := exists_mem_ranked hother hother'
    have hle := Keyed.pairwise_sortBy
      (fun entry => toLex (rankKey kind.objective entry.2, entry.1.2)) self.ranked
    rw [hsorted, List.pairwise_cons] at hle
    rcases List.mem_cons.mp ((hmem _).mpr hi) with rfl | hi
    · exact le_rfl
    · rcases Prod.Lex.toLex_le_toLex.mp (hle.1 _ hi) with hlt | ⟨heq, -⟩
      · exact hlt.le
      · exact heq.le
  · rename_i foldId' rest hsorted hfolds
    cases h
    refine ⟨by simp [hfolds], .inl fun other hother => ?_⟩
    by_contra hne
    obtain ⟨score, hscore⟩ := Option.ne_none_iff_exists'.mp hne
    obtain ⟨i, hi⟩ := exists_mem_ranked hother hscore
    have hmem : ((other, i), score) ∈ ([] : List ((FoldId × Nat) × Binary64)) := by
      rw [← hsorted]
      exact Keyed.mem_sortBy.mpr hi
    exact absurd hmem List.not_mem_nil
  · cases h

-- ---------------------------------------------------------------------------
-- The weights
-- ---------------------------------------------------------------------------

variable {K : Type} [Field K] [LinearOrder K] [IsStrictOrderedRing K]

theorem scoreWeight_nonneg (objective : MetricObjective) (score : Binary64) :
    (0 : K) ≤ scoreWeight objective score := by
  cases objective with
  | maximize => exact le_max_right _ _
  | minimize =>
    unfold scoreWeight
    dsimp only
    split
    · positivity
    · exact le_refl (0 : K)

theorem foldWeight_nonneg (objective : MetricObjective) (foldId : FoldId) :
    (0 : K) ≤ self.foldWeight objective foldId := by
  rw [foldWeight]
  cases self.leadingScore foldId with
  | none => exact le_refl (0 : K)
  | some score => exact scoreWeight_nonneg objective score

/-- A better score has no smaller weight, unless it is a negative error. -/
theorem scoreWeight_le {objective : MetricObjective} {score best : Binary64}
    (hrank : rankKey objective best ≤ rankKey objective score)
    (hbest : objective = .minimize → (0 : K) ≤ best.exact) :
    (scoreWeight objective score : K) ≤ scoreWeight objective best := by
  cases objective with
  | maximize =>
    have hle : (score.exact : K) ≤ best.exact :=
      Binary64.exact_le_exact.mpr (Binary64.key_le_of_totalKey_le (neg_le_neg_iff.mp hrank))
    exact max_le_max_right 0 hle
  | minimize =>
    have hle : (best.exact : K) ≤ score.exact :=
      Binary64.exact_le_exact.mpr (Binary64.key_le_of_totalKey_le hrank)
    have hnonneg := hbest rfl
    rw [scoreWeight, scoreWeight, if_pos (hnonneg.trans hle), if_pos hnonneg]
    exact one_div_le_one_div_of_le (by positivity) (by linarith)

omit [IsStrictOrderedRing K] in
/-- What a run that returns weights has checked. -/
theorem normalizedWeights_ok {weights : List K} (h : self.normalizedWeights = .ok weights) :
    self.foldIds ≠ [] ∧ ∃ kind, RegressionMetricKind.fromName self.metric = some kind ∧
      (kind.objective = .minimize → ∀ report ∈ self.reports, ∀ foldId ∈ self.foldIds,
        self.isReportOf foldId report = true → ∀ score,
          report.metrics[self.metric]? = some score → score.lt .zero = false) ∧
      weights = self.weightsFor kind.objective := by
  simp only [normalizedWeights, bind_ok, refuseIf_ok, need_ok, pure_ok] at h
  obtain ⟨_, hfolds, kind, hkind, _, hnegative, rfl⟩ := h
  refine ⟨(not_or.mp hfolds).1, kind, hkind, ?_, rfl⟩
  intro hobjective report hreport foldId hfold hof score hscore
  by_contra hlt
  simp only [isReportOf, Bool.and_eq_true, decide_eq_true_eq] at hof
  obtain ⟨⟨hproducer, hpartition⟩, hid⟩ := hof
  refine hnegative ⟨hobjective, report, hreport, hproducer, hpartition, ?_, ?_⟩
  · simp [hid, hfold]
  · simpa [hscore] using hlt

/-- Weights are non-negative and sum to one. -/
theorem weightsFor_distribution (h : self.foldIds ≠ []) (objective : MetricObjective) :
    (∀ weight ∈ (self.weightsFor objective : List K), 0 ≤ weight) ∧
      (self.weightsFor objective : List K).sum = 1 := by
  have hcount : (0 : K) < self.foldIds.length :=
    Nat.cast_pos.mpr (List.length_pos_of_ne_nil h)
  unfold weightsFor
  dsimp only
  split
  · rename_i hsum
    constructor
    · intro weight hweight
      obtain ⟨w, hw, rfl⟩ := List.mem_map.mp hweight
      obtain ⟨foldId, -, rfl⟩ := List.mem_map.mp hw
      exact div_nonneg (foldWeight_nonneg objective foldId) hsum.le
    · rw [WeightedRows.normalized, sum_map_div, div_self hsum.ne']
  · constructor
    · intro weight hweight
      rw [List.eq_of_mem_replicate hweight]
      positivity
    · rw [List.sum_replicate, nsmul_eq_mul, mul_one_div_cancel hcount.ne']

/-- Without negative errors and with led folds, no fold weighs more than the selected one. -/
theorem foldWeight_le_selected {foldId : FoldId} {kind : RegressionMetricKind}
    (hkind : RegressionMetricKind.fromName self.metric = some kind) (hled : self.Led)
    (hnegative : kind.objective = .minimize → ∀ report ∈ self.reports, ∀ foldId ∈ self.foldIds,
      self.isReportOf foldId report = true → ∀ score,
        report.metrics[self.metric]? = some score → score.lt .zero = false)
    (h : self.selectedFoldId = .ok foldId) {other : FoldId} (hother : other ∈ self.foldIds) :
    (self.foldWeight kind.objective other : K) ≤ self.foldWeight kind.objective foldId := by
  obtain ⟨kind', hkind', hfold, hcases⟩ := selectedFoldId_ok h
  obtain rfl : kind' = kind := Option.some_inj.mp (hkind'.symm.trans hkind)
  cases hscore : self.firstScore other with
  | none =>
    have hzero : (self.foldWeight kind'.objective other : K) = 0 := by
      rw [foldWeight, hled other hother, hscore]
      rfl
    rw [hzero]
    exact foldWeight_nonneg _ _
  | some score =>
    rcases hcases with hnone | ⟨best, hbest, hrank⟩
    · rw [hnone other hother] at hscore
      cases hscore
    · have hnonneg : kind'.objective = .minimize → (0 : K) ≤ best.exact := by
        intro hobjective
        obtain ⟨report, hreport, hof, hget, hfinite⟩ := exists_of_firstScore hbest
        have hlt := hnegative hobjective report hreport foldId hfold hof best hget
        exact Binary64.exact_nonneg hfinite hlt
      rw [foldWeight, foldWeight, hled other hother, hled foldId hfold, hscore, hbest]
      exact scoreWeight_le (hrank other hother score hscore) hnonneg

variable (K self) in
/-- Weights keep the order of what they are made from. -/
theorem weightsFor_eq_map (objective : MetricObjective) :
    ∃ f : K → K, Monotone f ∧
      self.weightsFor objective = self.foldIds.map fun foldId => f (self.foldWeight objective foldId) := by
  unfold weightsFor
  dsimp only
  split
  · rename_i hsum
    exact ⟨_, fun _ _ hle => div_le_div_of_nonneg_right hle hsum.le, List.map_map⟩
  · exact ⟨_, monotone_const, List.map_const'.symm⟩

/-- The weights are a distribution over the folds. Where the reports of each fold agree their order
plays no part, neither in the weights nor in the selection. Where the first report of each fold
has a usable score if any of them does, no fold weighs more than the selected one. -/
theorem foldSelection_laws (self : StackingFoldSelectionRequest) :
    (∀ weights : List K, self.normalizedWeights = .ok weights →
      weights.length = self.foldIds.length ∧ (∀ weight ∈ weights, 0 ≤ weight) ∧ weights.sum = 1) ∧
    (∀ reports, self.reports.Perm reports → self.Agreeing →
      ({ self with reports := reports }.normalizedWeights : Result (List K)) =
          self.normalizedWeights ∧
        { self with reports := reports }.selectedFoldId = self.selectedFoldId) ∧
    ∀ (weights : List K) (foldId : FoldId), self.Led → self.normalizedWeights = .ok weights →
      self.selectedFoldId = .ok foldId →
      ∃ weight, (foldId, weight) ∈ self.foldIds.zip weights ∧ ∀ other ∈ weights, other ≤ weight := by
  refine ⟨?_, ?_, ?_⟩
  · intro weights h
    obtain ⟨hfolds, kind, -, -, rfl⟩ := normalizedWeights_ok h
    obtain ⟨f, -, hmap⟩ := weightsFor_eq_map self K kind.objective
    exact ⟨by rw [hmap, List.length_map], weightsFor_distribution hfolds kind.objective⟩
  · intro reports hperm hagree
    exact ⟨normalizedWeights_perm hperm hagree, selectedFoldId_perm hperm hagree⟩
  · intro weights foldId hled hweights hselected
    obtain ⟨-, kind, hkind, hnegative, rfl⟩ := normalizedWeights_ok hweights
    obtain ⟨-, -, hfold, -⟩ := selectedFoldId_ok hselected
    obtain ⟨f, hmono, hmap⟩ := weightsFor_eq_map self K kind.objective
    refine ⟨f (self.foldWeight kind.objective foldId), ?_, ?_⟩
    · rw [hmap, ← List.map_prod_left_eq_zip]
      exact List.mem_map_of_mem hfold
    · rw [hmap]
      intro weight hweight
      obtain ⟨other, hother, rfl⟩ := List.mem_map.mp hweight
      exact hmono (foldWeight_le_selected hkind hled hnegative hselected hother)

/-- A validation report of one metric, for the cases below. -/
def reportOn (foldId : FoldId) (metrics : BTreeMap String Binary64) : RegressionMetricReport where
  predictionId := none
  producerNode := ⟨"model:led", by decide⟩
  producerPort := none
  partition := .validation
  foldId := some foldId
  level := .sample
  rowCount := 1
  targetWidth := 1
  targetNames := []
  metrics := metrics

def ledRequest : StackingFoldSelectionRequest where
  producerNode := ⟨"model:led", by decide⟩
  foldIds := [⟨"fold:led1", by decide⟩, ⟨"fold:led2", by decide⟩]
  metric := "rmse"
  reports := [
    reportOn ⟨"fold:led1", by decide⟩ ((∅ : BTreeMap String Binary64).insert "rmse" .zero),
    reportOn ⟨"fold:led2", by decide⟩ ((∅ : BTreeMap String Binary64).insert "rmse" (.ofNat 1))]

theorem ledRequest_normalizedWeights :
    (ledRequest.normalizedWeights : Result (List ℚ)) = .ok (ledRequest.weightsFor .minimize) := by
  simp only [normalizedWeights, bind_ok, refuseIf_ok, need_ok, pure_ok]
  exact ⟨(), by decide +kernel, .rmse, rfl, (), by decide +kernel, rfl⟩

theorem foldSelection_laws_led :
    ∃ weight, ((⟨"fold:led1", by decide⟩ : FoldId), weight) ∈
        ledRequest.foldIds.zip (ledRequest.weightsFor (K := ℚ) .minimize) ∧
      ∀ other ∈ ledRequest.weightsFor (K := ℚ) .minimize, other ≤ weight :=
  (foldSelection_laws ledRequest).2.2 _ ⟨"fold:led1", by decide⟩ (by unfold Led; decide +kernel)
    ledRequest_normalizedWeights (by decide +kernel)

/-- A report without the metric in front takes the weight of the fold that is selected. -/
def unledRequest : StackingFoldSelectionRequest :=
  { ledRequest with reports := reportOn ⟨"fold:led1", by decide⟩ ∅ :: ledRequest.reports }

theorem unledRequest_outweighed :
    unledRequest.selectedFoldId = .ok ⟨"fold:led1", by decide⟩ ∧
      (unledRequest.normalizedWeights : Result (List ℚ)) = .ok [0, 1] := by
  refine ⟨by decide +kernel, ?_⟩
  have hpos : (0 : ℚ) < scoreWeight .minimize (.ofNat 1) := by
    have hnonneg : (0 : ℚ) ≤ (Binary64.ofNat 1).exact :=
      Binary64.exact_nonneg (by decide +kernel) (by decide +kernel)
    rw [scoreWeight, if_pos hnonneg]
    positivity
  have hleading : unledRequest.foldIds.map unledRequest.leadingScore = [none, some (.ofNat 1)] := by
    decide +kernel
  have hweights : unledRequest.foldIds.map (unledRequest.foldWeight .minimize) =
      [0, (scoreWeight .minimize (.ofNat 1) : ℚ)] := by
    have hmap := congrArg (List.map fun score => (score.map (scoreWeight (K := ℚ) .minimize)).getD 0)
      hleading
    rwa [List.map_map] at hmap
  have hfor : (unledRequest.weightsFor .minimize : List ℚ) = [0, 1] := by
    rw [weightsFor, hweights]
    simp [hpos, WeightedRows.normalized, hpos.ne']
  rw [← hfor]
  simp only [normalizedWeights, bind_ok, refuseIf_ok, need_ok, pure_ok]
  exact ⟨(), by decide +kernel, .rmse, rfl, (), by decide +kernel, rfl⟩

end StackingFoldSelectionRequest

end DagMl
