import DagMl.Metrics.ScoringLaws

/-!
# The two paths of scoring

The complete path gives the matrices to the providers and reduces by the mean;
the masked path scores one column after the other and adds up the shares. Both
end in the report of the same components.
-/

namespace DagMl

open Checked WeightedRows

variable {K : Type} [Field K] [LinearOrder K] [FloorRing K] {sqrt : K → K}
  {rows : PredictionRows K} {targets : ExactTargets K} {metrics : List RegressionMetricKind}
  {names : List String} {report : ExactReport K}

/-- The score of one column on the units observed for it. -/
def PredictionRows.component (sqrt : K → K) (rows : PredictionRows K) (targets : ExactTargets K)
    (metric : RegressionMetricKind) (column : Nat) : K :=
  ScoredColumn.score sqrt metric ((rows.observed targets column).map Prod.snd)

omit [LinearOrder K] [FloorRing K] in
def meanOver (width : Nat) (value : Nat → K) : K := ((List.range width).map value).sum / width

/-- The report of the components of every metric and of their means. -/
def ReportOf (sqrt : K → K) (rows : PredictionRows K) (targets : ExactTargets K)
    (metrics : List RegressionMetricKind) (names : List String) (report : ExactReport K) : Prop :=
  ∃ values, Scores metrics (targetMetricNames rows.width names).zipIdx (rows.component sqrt targets)
    (fun metric => meanOver rows.width (rows.component sqrt targets metric)) values ∧
    report = rows.report names values

-- ---------------------------------------------------------------------------
-- Reports
-- ---------------------------------------------------------------------------

theorem length_targetMetricNames {width : Nat} (h : names = [] ∨ names.length = width) :
    (targetMetricNames width names).length = width := by
  unfold targetMetricNames
  split
  · simp
  · rename_i hne
    exact h.resolve_left hne

theorem isBlank_name (metric : RegressionMetricKind) : isBlank metric.name = false := by
  cases metric <;> decide

theorem isBlank_componentKey (metric : RegressionMetricKind) (suffix : String) :
    isBlank (componentKey metric suffix) = false := by
  have hname := isBlank_name metric
  unfold isBlank at hname ⊢
  rw [toList_componentKey, List.all_append, hname, Bool.false_and]

omit [Field K] [LinearOrder K] [FloorRing K] in
theorem report_validate {columns : List (String × Nat)} {value : RegressionMetricKind → Nat → K}
    {mean : RegressionMetricKind → K} {values : BTreeMap String K} (hs : rows.Sound)
    (hnames : names = [] ∨ names.length = rows.width) (hne : metrics ≠ [])
    (h : Scores metrics columns value mean values) : (rows.report names values).validate = .ok () := by
  have hmetrics : values.isEmpty = false := by
    rw [Std.ExtTreeMap.isEmpty_eq_false_iff]
    rintro rfl
    obtain ⟨metric, hmetric⟩ := List.exists_mem_of_ne_nil metrics hne
    have haggregate := h.aggregate metric
    simp [hmetric] at haggregate
  have hkeys : ∀ e ∈ values.toList, isBlank e.1 = false := by
    intro e he
    have hvalue := BTreeMap.mem_toList.mp he
    rcases key_cases e.1 with ⟨metric, hkey⟩ | ⟨metric, suffix, hkey⟩ | hforeign
    · rw [hkey]
      exact isBlank_name metric
    · rw [hkey]
      exact isBlank_componentKey metric suffix
    · rw [h.foreign e.1 hforeign] at hvalue
      cases hvalue
  simp only [ExactReport.validate, bind_ok]
  refine ⟨(), rfl, (), refuseIf_ok.mpr ?_, (), refuseIf_ok.mpr hs.width_pos.ne', (),
    refuseIf_ok.mpr ?_, (), refuseIf_ok.mpr ?_, each_ok.mpr fun e he => refuseIf_ok.mpr ?_⟩
  · exact fun hzero => hs.unitIds_ne_nil (List.length_eq_zero_iff.mp hzero)
  · exact fun hbad => hnames.elim hbad.1 hbad.2
  · simpa [PredictionRows.report] using hmetrics
  · simp [hkeys e he]

-- ---------------------------------------------------------------------------
-- The complete path
-- ---------------------------------------------------------------------------

section

variable {aligned : List (List K × List K)} {suffixes : List String}

/-- The components a provider answers with, in the order of the columns. -/
theorem recordEvaluation_eq {metric : RegressionMetricKind} {value : Nat → K}
    {values : BTreeMap String K} (hlength : suffixes.length = rows.width)
    (hcolumns : ScoredColumn.perTarget sqrt metric rows.width (aligned.map Prod.fst)
      (aligned.map Prod.snd) = (List.range rows.width).map value) :
    recordEvaluation metric suffixes ⟨.ofTask (rows.task aligned metric)
        (metric.evaluateValues sqrt (rows.task aligned metric)), ScoredColumn.mean
        (ScoredColumn.perTarget sqrt metric rows.width (aligned.map Prod.fst) (aligned.map Prod.snd))⟩
        values =
      writeMetric suffixes.zipIdx (fun _ => value) (fun _ => meanOver rows.width value) values
        metric := by
  have hmean : ScoredColumn.mean (ScoredColumn.perTarget sqrt metric rows.width
      (aligned.map Prod.fst) (aligned.map Prod.snd)) = meanOver rows.width value := by
    rw [hcolumns, ScoredColumn.mean, meanOver, List.length_map, List.length_range]
  have houtputs : (rows.task aligned metric).outputIds.length = rows.width := by
    simp [PredictionRows.task]
  have hvalues : (metric.evaluateValues sqrt (rows.task aligned metric)).map (·.value) =
      (List.range rows.width).map value := by
    rw [map_value_evaluateValues, houtputs]
    exact hcolumns
  have hentries : ((metric.evaluateValues sqrt (rows.task aligned metric)).zip suffixes).map
      (fun entry => (entry.2, entry.1.value)) = suffixes.zipIdx.map fun e => (e.1, value e.2) := by
    calc ((metric.evaluateValues sqrt (rows.task aligned metric)).zip suffixes).map
          (fun entry => (entry.2, entry.1.value))
        = suffixes.zip ((metric.evaluateValues sqrt (rows.task aligned metric)).map (·.value)) := by
          rw [List.zip_map_right, ← List.zip_swap, List.map_map]
          rfl
      _ = suffixes.zip ((List.range suffixes.length).map value) := by rw [hvalues, hlength]
      _ = suffixes.zipIdx.map fun e => (e.1, value e.2) := by
          rw [List.zip_map_right, List.zipIdx_eq_zip_range', List.range_eq_range']
          rfl
  have hfold := congrArg (List.foldl (fun values (e : String × K) =>
    values.insert (componentKey metric e.1) e.2)
    (values.insert metric.name (meanOver rows.width value))) hentries
  rw [List.foldl_map, List.foldl_map] at hfold
  rw [recordEvaluation, hmean]
  exact hfold

theorem scoreMetric_ok (hs : rows.Sound) (hfst : aligned.map Prod.fst = rows.values)
    (hsnd : ∀ entry ∈ aligned, entry.2.length = rows.width) (hlength : suffixes.length = rows.width)
    {value : RegressionMetricKind → Nat → K}
    (hcolumns : ∀ metric, ScoredColumn.perTarget sqrt metric rows.width (aligned.map Prod.fst)
      (aligned.map Prod.snd) = (List.range rows.width).map (value metric))
    (values : BTreeMap String K) (metric : RegressionMetricKind) (values' : BTreeMap String K) :
    scoreMetric sqrt rows aligned suffixes values metric = .ok values' ↔
      rows.scope.validate = .ok () ∧ writeMetric suffixes.zipIdx value
        (fun metric => meanOver rows.width (value metric)) values metric = values' := by
  have houtputs : (rows.task aligned metric).outputIds.length = rows.width := by
    simp [PredictionRows.task]
  have hrecord : recordEvaluation metric suffixes _ values = _ :=
    recordEvaluation_eq hlength (hcolumns metric)
  have hspec : (rows.task aligned metric).metric = builtinMetricSpec metric := rfl
  simp only [scoreMetric, bind_ok, pure_ok, validateFields_task hs hfst hsnd, evaluateMetric_ok hspec,
    houtputs]
  constructor
  · rintro ⟨_, hscope, _, ⟨-, rfl⟩, rfl⟩
    exact ⟨hscope, hrecord.symm⟩
  · rintro ⟨hscope, rfl⟩
    exact ⟨(), hscope, _, ⟨hscope, rfl⟩, hrecord⟩

theorem scoreCompleteRows_ok (hs : rows.Sound) (hfst : aligned.map Prod.fst = rows.values)
    (hsnd : ∀ entry ∈ aligned, entry.2.length = rows.width)
    (hnames : names = [] ∨ names.length = rows.width) (hne : metrics ≠ [])
    (hcolumns : ∀ column < rows.width,
      aligned.map (fun row => (entry row.1 column, entry row.2 column)) =
        (rows.observed targets column).map Prod.snd) :
    scoreCompleteRows sqrt rows aligned metrics names = .ok report ↔
      rows.scope.validate = .ok () ∧ ReportOf sqrt rows targets metrics names report := by
  have hvalues : ∀ metric, ScoredColumn.perTarget sqrt metric rows.width (aligned.map Prod.fst)
      (aligned.map Prod.snd) = (List.range rows.width).map (rows.component sqrt targets metric) := by
    intro metric
    refine List.map_congr_left fun column hcolumn => ?_
    rw [PredictionRows.component, ← hcolumns column (List.mem_range.mp hcolumn),
      show (aligned.map Prod.fst).zip (aligned.map Prod.snd) = aligned from
        (List.zip_of_prod rfl rfl).symm]
  have hscores : Scores metrics (targetMetricNames rows.width names).zipIdx
      (rows.component sqrt targets)
      (fun metric => meanOver rows.width (rows.component sqrt targets metric))
      (metrics.foldl (writeMetric _ _ _) ∅) := foldl_writeMetric
  have hloop (values : BTreeMap String K) :
      loop (scoreMetric sqrt rows aligned (targetMetricNames rows.width names)) ∅ metrics = .ok values ↔
        rows.scope.validate = .ok () ∧ Scores metrics (targetMetricNames rows.width names).zipIdx
          (rows.component sqrt targets)
          (fun metric => meanOver rows.width (rows.component sqrt targets metric)) values := by
    rw [loop_foldl (P := fun _ => rows.scope.validate = .ok ()) fun values metric values' =>
      scoreMetric_ok hs hfst hsnd (length_targetMetricNames hnames) hvalues values metric values']
    constructor
    · rintro ⟨hscope, rfl⟩
      obtain ⟨metric, hmetric⟩ := List.exists_mem_of_ne_nil metrics hne
      exact ⟨hscope metric hmetric, hscores⟩
    · rintro ⟨hscope, h⟩
      exact ⟨fun _ _ => hscope, hscores.unique h⟩
  simp only [scoreCompleteRows, bind_ok, pure_ok, hloop]
  constructor
  · rintro ⟨values, ⟨hscope, h⟩, _, -, rfl⟩
    exact ⟨hscope, values, h, rfl⟩
  · rintro ⟨hscope, values, h, rfl⟩
    exact ⟨values, ⟨hscope, h⟩, (), report_validate hs hnames hne h, rfl⟩

end

-- ---------------------------------------------------------------------------
-- Alignment
-- ---------------------------------------------------------------------------

section

omit [LinearOrder K] [FloorRing K]

omit [Field K] in
/-- The row of a unit. -/
def ExactTargets.rowOf (targets : ExactTargets K) (unit : PredictionUnitId) : List K :=
  ((targets.unitIds.zip targets.values).lookup unit).getD []

omit [Field K] in
theorem alignRow_ok (ht : targets.Shape) {e : PredictionUnitId × List K} :
    alignRow (BTreeMap.collect (targets.unitIds.zip targets.values)) e = .ok pair ↔
      e.1 ∈ targets.unitIds ∧ pair = (e.2, targets.rowOf e.1) := by
  have hnodup : ((targets.unitIds.zip targets.values).map Prod.fst).Nodup := by
    rw [List.map_fst_zip ht.length_eq.le]
    exact ht.nodup
  have hget (row : List K) : (BTreeMap.collect (targets.unitIds.zip targets.values))[e.1]? = some row ↔
      (targets.unitIds.zip targets.values).lookup e.1 = some row := by
    rw [BTreeMap.getElem?_collect (BTreeMap.functional_of_nodup hnodup), Keyed.lookup_eq_some hnodup]
  have hsome : ((targets.unitIds.zip targets.values).lookup e.1).isSome ↔ e.1 ∈ targets.unitIds := by
    rw [Keyed.lookup_isSome, List.map_fst_zip ht.length_eq.le]
  simp only [alignRow, bind_ok, need_ok, pure_ok, hget, ← hsome, ExactTargets.rowOf]
  cases (targets.unitIds.zip targets.values).lookup e.1 with
  | none => simp
  | some row => simp [eq_comm]

omit [Field K] in
theorem collect_alignRow (ht : targets.Shape) {aligned : List (List K × List K)}
    (hs : rows.Sound) : collect (rows.unitIds.zip rows.values)
        (alignRow (BTreeMap.collect (targets.unitIds.zip targets.values))) = .ok aligned ↔
      (∀ unit ∈ rows.unitIds, unit ∈ targets.unitIds) ∧
        aligned = (rows.unitIds.zip rows.values).map fun e => (e.2, targets.rowOf e.1) := by
  have hunits : (∀ e ∈ rows.unitIds.zip rows.values, e.1 ∈ targets.unitIds) ↔
      ∀ unit ∈ rows.unitIds, unit ∈ targets.unitIds := by
    rw [← List.forall_mem_map (f := Prod.fst) (P := (· ∈ targets.unitIds)), hs.map_fst]
  rw [← hunits]
  have hcollect (h : ∀ e ∈ rows.unitIds.zip rows.values, e.1 ∈ targets.unitIds) :
      collect (rows.unitIds.zip rows.values)
        (alignRow (BTreeMap.collect (targets.unitIds.zip targets.values))) =
        .ok ((rows.unitIds.zip rows.values).map fun e => (e.2, targets.rowOf e.1)) :=
    collect_of_forall fun e he => (alignRow_ok ht).mpr ⟨h e he, rfl⟩
  constructor
  · intro h
    have hmem : ∀ e ∈ rows.unitIds.zip rows.values, e.1 ∈ targets.unitIds := by
      intro e he
      obtain ⟨pair, -, hpair⟩ := exists_right_of_mem (collect_ok.mp h) he
      exact ((alignRow_ok ht).mp hpair).1
    exact ⟨hmem, Except.ok.inj (h.symm.trans (hcollect hmem))⟩
  · rintro ⟨h, rfl⟩
    exact hcollect h

omit [Field K] in
theorem size_targetByUnit (ht : targets.Shape) :
    (BTreeMap.collect (targets.unitIds.zip targets.values)).size = targets.unitIds.length := by
  have hfst : (targets.unitIds.zip targets.values).map Prod.fst = targets.unitIds :=
    List.map_fst_zip ht.length_eq.le
  have hnodup : ((targets.unitIds.zip targets.values).map Prod.fst).Nodup := by
    rw [hfst]
    exact ht.nodup
  rw [← Std.ExtTreeMap.length_toList, (BTreeMap.toList_collect_perm hnodup).length_eq,
    ← List.length_map (f := Prod.fst), hfst]

omit [Field K] in
/-- The target rows are found in their places, under full masks where no cell is missing. -/
theorem ExactTargets.Shape.lookup_rowOf (ht : targets.Shape) {unit : PredictionUnitId}
    (hunit : unit ∈ targets.unitIds) : ∃ mask ∈ targets.masks,
      targets.rows.lookup unit = some (targets.rowOf unit, mask) := by
  obtain ⟨i, hi⟩ := List.getElem?_of_mem hunit
  have hlt : i < targets.values.length := ht.length_eq ▸ (List.getElem?_eq_some_iff.mp hi).1
  have hmask : i < targets.masks.length := ht.length_masks.symm ▸ hlt
  have hrow : targets.rowOf unit = targets.values[i] := by
    have hmem : (unit, targets.values[i]) ∈ targets.unitIds.zip targets.values :=
      List.mem_iff_getElem?.mpr ⟨i, List.getElem?_zip_eq_some.mpr
        ⟨hi, List.getElem?_eq_getElem hlt⟩⟩
    have hnodup : ((targets.unitIds.zip targets.values).map Prod.fst).Nodup := by
      rw [List.map_fst_zip ht.length_eq.le]
      exact ht.nodup
    rw [ExactTargets.rowOf, (Keyed.lookup_eq_some hnodup).mpr hmem]
    rfl
  exact ⟨targets.masks[i], List.getElem_mem hmask, ht.lookup_rows.mpr
    ⟨i, hi, by rw [hrow, List.getElem?_eq_getElem hlt], List.getElem?_eq_getElem hmask⟩⟩

theorem observedAt_of_complete (ht : targets.Shape) (hcomplete : targets.hasMissingValues = false)
    {unit : PredictionUnitId} (hunit : unit ∈ targets.unitIds) {column : Nat}
    (hcolumn : column < targets.width) :
    targets.observedAt unit column = some (entry (targets.rowOf unit) column) := by
  obtain ⟨mask, hmask, hlookup⟩ := ht.lookup_rowOf hunit
  have hlength : column < mask.length := ht.width_masks mask hmask ▸ hcolumn
  have htrue : mask.getD column false = true := by
    rw [List.getD_eq_getElem _ _ hlength]
    exact ExactTargets.observed_of_complete hcomplete mask hmask _ (List.getElem_mem hlength)
  rw [ExactTargets.observedAt, hlookup, Option.bind_some, if_pos htrue]

/-- Without a missing cell the aligned rows are the observed cells of every column. -/
theorem aligned_columns (ht : targets.Shape) (hcomplete : targets.hasMissingValues = false)
    (hunits : ∀ unit ∈ rows.unitIds, unit ∈ targets.unitIds) {column : Nat}
    (hcolumn : column < targets.width) :
    ((rows.unitIds.zip rows.values).map fun e => (e.2, targets.rowOf e.1)).map
        (fun row => (entry row.1 column, entry row.2 column)) =
      (rows.observed targets column).map Prod.snd := by
  have hobserved : rows.observed targets column = (rows.unitIds.zip rows.values).map fun e =>
      (e.1, entry e.2 column, entry (targets.rowOf e.1) column) := by
    rw [PredictionRows.observed, ← List.filterMap_eq_map']
    refine List.filterMap_congr fun e he => ?_
    rw [observedAt_of_complete ht hcomplete (hunits e.1 (List.of_mem_zip he).1) hcolumn]
    rfl
  rw [hobserved, List.map_map, List.map_map]
  rfl

end

-- ---------------------------------------------------------------------------
-- What is accepted
-- ---------------------------------------------------------------------------

/-- Some metric is requested, and none twice. -/
structure RequestedOnce (metrics : List RegressionMetricKind) : Prop where
  ne_nil : metrics ≠ []
  nodup : metrics.Nodup

omit [Field K] [LinearOrder K] [FloorRing K] in
/-- The targets have a row of the same width for exactly the predicted units. -/
structure FitsTargets (rows : PredictionRows K) (targets : ExactTargets K) : Prop where
  shape : targets.Shape
  width : rows.width = targets.width
  level : rows.level = targets.level
  units : rows.unitIds.Perm targets.unitIds

/-- The names two blocks give the targets do not conflict. -/
def NamesAgree (names names' : List String) : Prop := names = [] ∨ names' = [] ∨ names = names'

def resolvedNames (names names' : List String) : List String := if names ≠ [] then names else names'

omit [Field K] [LinearOrder K] [FloorRing K] in
theorem resolvedNames_ok (hs : rows.Sound) (hfit : FitsTargets rows targets) :
    resolvedNames rows.targetNames targets.targetNames = [] ∨
      (resolvedNames rows.targetNames targets.targetNames).length = rows.width := by
  unfold resolvedNames
  split
  · exact hs.names
  · rw [hfit.width]
    exact hfit.shape.names

theorem scoreRowsUsing_ok {masked : List String → Result (ExactReport K)} (hs : rows.Sound) :
    scoreRowsUsing masked sqrt rows targets metrics = .ok report ↔
      FitsTargets rows targets ∧ RequestedOnce metrics ∧ NamesAgree rows.targetNames targets.targetNames ∧
        if targets.hasMissingValues = true then
          masked (resolvedNames rows.targetNames targets.targetNames) = .ok report
        else rows.scope.validate = .ok () ∧ ReportOf sqrt rows targets metrics
          (resolvedNames rows.targetNames targets.targetNames) report := by
  have hnames : ¬(rows.targetNames ≠ [] ∧ targets.targetNames ≠ [] ∧
      rows.targetNames ≠ targets.targetNames) ↔ NamesAgree rows.targetNames targets.targetNames := by
    unfold NamesAgree
    tauto
  have hcomplete (aligned : List (List K × List K)) (hfit : FitsTargets rows targets)
      (hmetrics : RequestedOnce metrics)
      (hmissing : ¬targets.hasMissingValues = true)
      (haligned : aligned = (rows.unitIds.zip rows.values).map fun e => (e.2, targets.rowOf e.1)) :
      scoreCompleteRows sqrt rows aligned metrics
          (resolvedNames rows.targetNames targets.targetNames) = .ok report ↔
        rows.scope.validate = .ok () ∧ ReportOf sqrt rows targets metrics
          (resolvedNames rows.targetNames targets.targetNames) report := by
    subst haligned
    have hunits : ∀ unit ∈ rows.unitIds, unit ∈ targets.unitIds := fun _ h => hfit.units.subset h
    refine scoreCompleteRows_ok hs ?_ ?_ ?_ hmetrics.ne_nil fun column hcolumn => ?_
    · rw [List.map_map]
      exact hs.map_snd
    · refine List.forall_mem_map.mpr fun e he => ?_
      obtain ⟨mask, -, hlookup⟩ := hfit.shape.lookup_rowOf (hunits e.1 (List.of_mem_zip he).1)
      obtain ⟨i, -, hrow, -⟩ := hfit.shape.lookup_rows.mp hlookup
      rw [hfit.width]
      exact hfit.shape.rows_width _ (List.mem_of_getElem? hrow)
    · exact resolvedNames_ok hs hfit
    · exact aligned_columns hfit.shape (by simpa using hmissing) hunits (hfit.width ▸ hcolumn)
  simp only [scoreRowsUsing, bind_ok, refuseIf_ok, unique_ok, ExactTargets.validateShape_ok, not_not,
    hnames]
  constructor
  · rintro ⟨_, hne, _, ⟨hnodup, -⟩, _, ⟨hshape, rfl⟩, _, hwidth, _, hlevel, _, hagree, aligned,
      haligned, _, hsize, h⟩
    obtain ⟨hunits, rfl⟩ := (collect_alignRow hshape hs).mp haligned
    have hlength : rows.unitIds.length = targets.unitIds.length := by
      rw [size_targetByUnit hshape, List.length_map, List.length_zip, ← hs.length_eq, min_self]
        at hsize
      exact hsize
    have hperm : rows.unitIds.Perm targets.unitIds :=
      (List.subperm_of_subset hs.nodup hunits).perm_of_length_le hlength.ge
    have hfit : FitsTargets rows targets := ⟨hshape, hwidth, hlevel, hperm⟩
    refine ⟨hfit, ⟨hne, hnodup⟩, hagree, ?_⟩
    by_cases hmissing : targets.hasMissingValues = true
    · rw [if_pos hmissing] at h ⊢
      exact h
    · rw [if_neg hmissing] at h ⊢
      exact (hcomplete _ hfit ⟨hne, hnodup⟩ hmissing rfl).mp h
  · rintro ⟨hfit, hmetrics, hagree, h⟩
    have hunits : ∀ unit ∈ rows.unitIds, unit ∈ targets.unitIds := fun _ h => hfit.units.subset h
    refine ⟨(), hmetrics.ne_nil, _, ⟨hmetrics.nodup, rfl⟩, _, ⟨hfit.shape, rfl⟩, (), hfit.width, (),
      hfit.level, (), hagree, _, (collect_alignRow hfit.shape hs).mpr ⟨hunits, rfl⟩, (), ?_, ?_⟩
    · rw [size_targetByUnit hfit.shape, List.length_map, List.length_zip, ← hs.length_eq, min_self]
      exact hfit.units.length_eq
    · by_cases hmissing : targets.hasMissingValues = true
      · rw [if_pos hmissing] at h ⊢
        exact h
      · rw [if_neg hmissing] at h ⊢
        exact (hcomplete _ hfit hmetrics hmissing rfl).mpr h

-- ---------------------------------------------------------------------------
-- One column
-- ---------------------------------------------------------------------------

section

omit [LinearOrder K] [FloorRing K] in
theorem observed_sublist (hs : rows.Sound) (targets : ExactTargets K) (column : Nat) :
    ((rows.observed targets column).map Prod.fst).Sublist rows.unitIds := by
  have hsublist : ((rows.observed targets column).map Prod.fst).Sublist
      ((rows.unitIds.zip rows.values).map Prod.fst) := by
    rw [map_observed fun _ _ => rfl]
    exact List.filter_sublist.map _
  rwa [hs.map_fst] at hsublist

variable {observed : List (ObservedCell K)}

omit [Field K] [LinearOrder K] [FloorRing K] in
theorem oneColumn_sound (hs : rows.Sound) (hne : observed ≠ [])
    (hsublist : (observed.map Prod.fst).Sublist rows.unitIds) : (rows.oneColumn observed).Sound where
  length_eq := by simp [PredictionRows.oneColumn]
  levels := fun unit hunit => hs.levels unit (hsublist.subset hunit)
  nodup := hs.nodup.sublist hsublist
  width_eq := (matrixWidth_singletons hne).1.symm
  width_pos := Nat.one_pos
  rows_width := List.forall_mem_map.mpr fun _ _ => rfl
  names := .inl rfl

omit [LinearOrder K] [FloorRing K] in
/-- A block of one column holds the cells of a list, all of them observed. -/
structure HoldsColumn (level : PredictionLevel) (observed : List (ObservedCell K))
    (column : ExactTargets K) : Prop where
  shape : column.Shape
  width : column.width = 1
  level : column.level = level
  masks : column.validityMasks = none
  names : column.targetNames = []
  units : (observed.map Prod.fst).Perm column.unitIds
  cells : ∀ cell ∈ observed, column.observedAt cell.1 0 = some cell.2.2

variable {column : ExactTargets K}

omit [LinearOrder K] [FloorRing K] in
theorem HoldsColumn.observed_eq (h : HoldsColumn rows.level observed column) :
    (rows.oneColumn observed).observed column 0 = observed := by
  have hzip : (rows.oneColumn observed).unitIds.zip (rows.oneColumn observed).values =
      observed.map fun cell => (cell.1, [cell.2.1]) := by
    rw [PredictionRows.oneColumn, List.zip_map']
  rw [PredictionRows.observed, hzip, List.filterMap_map]
  calc observed.filterMap _ = observed.filterMap some := by
        refine List.filterMap_congr fun cell hcell => ?_
        simp [h.cells cell hcell, entry]
    _ = observed := List.filterMap_some

/-- Scored on its own, the column gives every metric the score of its cells. -/
theorem HoldsColumn.scoreRowsUsing_ok {masked : List String → Result (ExactReport K)}
    (h : HoldsColumn rows.level observed column) (hs : (rows.oneColumn observed).Sound) :
    scoreRowsUsing masked sqrt (rows.oneColumn observed) column metrics = .ok report ↔
      RequestedOnce metrics ∧ rows.scope.validate = .ok () ∧
        ReportOf sqrt (rows.oneColumn observed) column metrics [] report := by
  have hfit : FitsTargets (rows.oneColumn observed) column :=
    ⟨h.shape, h.width.symm, h.level.symm, h.units⟩
  have hcomplete : ¬column.hasMissingValues = true := by
    simp [ExactTargets.hasMissingValues, h.masks]
  have hnames : resolvedNames (rows.oneColumn observed).targetNames column.targetNames = [] := h.names
  rw [DagMl.scoreRowsUsing_ok hs, if_neg hcomplete, hnames]
  constructor
  · rintro ⟨-, hmetrics, -, hscope, hreport⟩
    exact ⟨hmetrics, hscope, hreport⟩
  · rintro ⟨hmetrics, hscope, hreport⟩
    exact ⟨hfit, hmetrics, .inl rfl, hscope, hreport⟩

theorem HoldsColumn.metrics_eq (h : HoldsColumn rows.level observed column)
    (hreport : ReportOf sqrt (rows.oneColumn observed) column metrics [] report)
    {metric : RegressionMetricKind} (hmetric : metric ∈ metrics) :
    report.metrics[metric.name]? =
      some (ScoredColumn.score sqrt metric (observed.map Prod.snd)) := by
  obtain ⟨values, hvalues, rfl⟩ := hreport
  have hmean : meanOver (rows.oneColumn observed).width
      ((rows.oneColumn observed).component sqrt column metric) =
      ScoredColumn.score sqrt metric (observed.map Prod.snd) := by
    have hwidth : (rows.oneColumn observed).width = 1 := rfl
    rw [meanOver, hwidth]
    simp [PredictionRows.component, h.observed_eq]
  change values[metric.name]? = _
  rw [hvalues.aggregate, if_pos hmetric, hmean]

theorem exists_reportOf (sqrt : K → K) (rows : PredictionRows K) (targets : ExactTargets K)
    (metrics : List RegressionMetricKind) (names : List String) :
    ∃ report, ReportOf sqrt rows targets metrics names report :=
  ⟨_, _, foldl_writeMetric, rfl⟩

end

-- ---------------------------------------------------------------------------
-- The masked path
-- ---------------------------------------------------------------------------

section

variable {observed : List (ObservedCell K)}

omit [LinearOrder K] [FloorRing K] in
theorem holdsColumn_oneColumn {level : PredictionLevel} (hne : observed ≠ [])
    (hnodup : (observed.map Prod.fst).Nodup) (hlevels : ∀ cell ∈ observed, cell.1.level = level) :
    HoldsColumn level observed (ExactTargets.oneColumn level observed) := by
  obtain ⟨hwidth, hrows⟩ : (ExactTargets.oneColumn level observed).width = 1 ∧
      ∀ row ∈ (ExactTargets.oneColumn level observed).values, row.length = 1 :=
    matrixWidth_singletons hne
  have hshape : (ExactTargets.oneColumn level observed).Shape := by
    constructor
    · simp [ExactTargets.oneColumn]
    · exact List.forall_mem_map.mpr hlevels
    · exact hnodup
    · rw [hwidth]
      exact Nat.one_pos
    · rw [hwidth]
      exact hrows
    · exact fun masks hmasks => nomatch hmasks
    · exact .inl rfl
  refine ⟨hshape, hwidth, rfl, rfl, rfl, .refl _, fun cell hcell => ?_⟩
  have hunit : cell.1 ∈ (ExactTargets.oneColumn level observed).unitIds := List.mem_map_of_mem hcell
  have hrow : (ExactTargets.oneColumn level observed).rowOf cell.1 = [cell.2.2] := by
    have hzip : (ExactTargets.oneColumn level observed).unitIds.zip
        (ExactTargets.oneColumn level observed).values =
          observed.map fun cell => (cell.1, [cell.2.2]) := by
      rw [ExactTargets.oneColumn, List.zip_map']
    have hfst : ((observed.map fun cell => (cell.1, [cell.2.2])).map Prod.fst).Nodup := by
      rw [List.map_map]
      exact hnodup
    rw [ExactTargets.rowOf, hzip, (Keyed.lookup_eq_some hfst).mpr (List.mem_map_of_mem hcell)]
    rfl
  rw [observedAt_of_complete hshape rfl hunit (by rw [hwidth]; exact Nat.one_pos), hrow]
  rfl

omit [LinearOrder K] [FloorRing K] in
theorem recordColumn_ok {width : Nat} {suffix : String} {values values' : BTreeMap String K}
    {metric : RegressionMetricKind} : recordColumn width suffix report values metric = .ok values' ↔
      report.metrics[metric.name]?.isSome ∧ addComponent width suffix
        (fun metric => report.metrics[metric.name]?.getD 0) values metric = values' := by
  simp only [recordColumn, bind_ok, need_ok, pure_ok, addComponent]
  cases h : report.metrics[metric.name]? with
  | none => simp
  | some value => simp

theorem scoreColumn_ok (hs : rows.Sound) (hfit : FitsTargets rows targets)
    {values values' : BTreeMap String K} {e : String × Nat} :
    scoreColumn sqrt rows targets targets.masks metrics values e = .ok values' ↔
      (rows.observed targets e.2 ≠ [] ∧ RequestedOnce metrics ∧ rows.scope.validate = .ok ()) ∧
        addColumn metrics rows.width (rows.component sqrt targets) values e = values' := by
  have hcells := observedCells_ok hfit.shape (fun _ h => hfit.units.subset h) e.2
  have hsublist := observed_sublist hs targets e.2
  have hholds (hne : rows.observed targets e.2 ≠ []) :=
    holdsColumn_oneColumn hne (hs.nodup.sublist hsublist) fun cell hcell =>
      hs.levels cell.1 (hsublist.subset (List.mem_map_of_mem hcell))
  have hloop (report : ExactReport K) (h : ∀ metric ∈ metrics,
      report.metrics[metric.name]? = some (rows.component sqrt targets metric e.2)) :
      loop (recordColumn rows.width e.1 report) values metrics = .ok values' ↔
        addColumn metrics rows.width (rows.component sqrt targets) values e = values' := by
    have hfold : metrics.foldl (addComponent rows.width e.1
        fun metric => report.metrics[metric.name]?.getD 0) values =
        addColumn metrics rows.width (rows.component sqrt targets) values e := by
      refine List.foldl_ext _ _ _ fun values metric hmetric => ?_
      rw [addComponent, addComponent, h metric hmetric]
      rfl
    rw [loop_foldl (P := fun metric => (report.metrics[metric.name]?.isSome : Prop))
      fun values metric values' => recordColumn_ok, hfold]
    exact and_iff_right fun metric hmetric => by rw [h metric hmetric]; rfl
  simp only [scoreColumn, bind_ok, refuseIf_ok, hcells]
  constructor
  · rintro ⟨_, hobserved, _, hne, report, hreport, h⟩
    obtain rfl := Except.ok.inj hobserved
    obtain ⟨hmetrics, hscope, hreport⟩ := ((hholds hne).scoreRowsUsing_ok
      (oneColumn_sound hs hne hsublist)).mp hreport
    exact ⟨⟨hne, hmetrics, hscope⟩, (hloop report fun metric hmetric =>
      (hholds hne).metrics_eq hreport hmetric).mp h⟩
  · rintro ⟨⟨hne, hmetrics, hscope⟩, h⟩
    obtain ⟨report, hreport⟩ := exists_reportOf sqrt (rows.oneColumn (rows.observed targets e.2))
      (ExactTargets.oneColumn rows.level (rows.observed targets e.2)) metrics []
    exact ⟨_, rfl, (), hne, report, ((hholds hne).scoreRowsUsing_ok
      (oneColumn_sound hs hne hsublist)).mpr ⟨hmetrics, hscope, hreport⟩,
      (hloop report fun metric hmetric => (hholds hne).metrics_eq hreport hmetric).mpr h⟩

omit [FloorRing K] [LinearOrder K] in
theorem sum_columns {suffixes : List String} {width : Nat} (hlength : suffixes.length = width)
    (value : Nat → K) : (suffixes.zipIdx.map fun e => value e.2).sum / width = meanOver width value := by
  rw [meanOver, ← hlength, List.range_eq_range', ← List.zipIdx_map_snd, List.map_map]
  rfl

theorem loop_scoreColumn (hs : rows.Sound) (hfit : FitsTargets rows targets)
    (hnames : names = [] ∨ names.length = rows.width) {values : BTreeMap String K} :
    loop (scoreColumn sqrt rows targets targets.masks metrics) ∅
        (targetMetricNames rows.width names).zipIdx = .ok values ↔
      RequestedOnce metrics ∧ rows.scope.validate = .ok () ∧
        (∀ column < rows.width, rows.observed targets column ≠ []) ∧
        Scores metrics (targetMetricNames rows.width names).zipIdx (rows.component sqrt targets)
          (fun metric => meanOver rows.width (rows.component sqrt targets metric)) values := by
  have hlength := length_targetMetricNames hnames
  have hcolumn : ∀ column < rows.width,
      ∃ e ∈ (targetMetricNames rows.width names).zipIdx, e.2 = column := by
    intro column hcolumn
    rw [← hlength] at hcolumn
    exact ⟨(_, column), List.mem_zipIdx_iff_getElem?.mpr (List.getElem?_eq_getElem hcolumn), rfl⟩
  have hlt : ∀ e ∈ (targetMetricNames rows.width names).zipIdx, e.2 < rows.width := by
    intro e he
    rw [← hlength]
    exact (List.getElem?_eq_some_iff.mp (List.mem_zipIdx_iff_getElem?.mp he)).1
  have hne : (targetMetricNames rows.width names).zipIdx ≠ [] := by
    obtain ⟨e, he, -⟩ := hcolumn 0 hs.width_pos
    exact List.ne_nil_of_mem he
  have hscores (hmetrics : RequestedOnce metrics) :
      Scores metrics (targetMetricNames rows.width names).zipIdx (rows.component sqrt targets)
        (fun metric => meanOver rows.width (rows.component sqrt targets metric))
        ((targetMetricNames rows.width names).zipIdx.foldl
          (addColumn metrics rows.width (rows.component sqrt targets)) ∅) :=
    (foldl_addColumn hmetrics.nodup hne).congr (fun _ _ _ _ => rfl)
      fun metric _ => sum_columns hlength _
  have hstep : ∀ values e values', scoreColumn sqrt rows targets targets.masks metrics values e =
      .ok values' ↔ (rows.observed targets e.2 ≠ [] ∧ RequestedOnce metrics ∧
        rows.scope.validate = .ok ()) ∧
        addColumn metrics rows.width (rows.component sqrt targets) values e = values' :=
    fun _ _ _ => scoreColumn_ok hs hfit
  rw [loop_foldl hstep]
  constructor
  · rintro ⟨hall, rfl⟩
    obtain ⟨e, he, -⟩ := hcolumn 0 hs.width_pos
    obtain ⟨-, hmetrics, hscope⟩ := hall e he
    refine ⟨hmetrics, hscope, fun column h => ?_, hscores hmetrics⟩
    obtain ⟨e, he, rfl⟩ := hcolumn column h
    exact (hall e he).1
  · rintro ⟨hmetrics, hscope, hobserved, h⟩
    exact ⟨fun e he => ⟨hobserved e.2 (hlt e he), hmetrics, hscope⟩, (hscores hmetrics).unique h⟩

theorem scoreMaskedRows_ok (hs : rows.Sound) (hfit : FitsTargets rows targets)
    (hnames : names = [] ∨ names.length = rows.width) {independentGroup : Bool} :
    scoreMaskedRegressionRowsWithGrouping sqrt rows targets metrics names independentGroup =
        .ok report ↔
      (rows.level ≠ .sample ∧ independentGroup = false → targets.hasMissingValues = false) ∧
        targets.validityMasks.isSome ∧ RequestedOnce metrics ∧ rows.scope.validate = .ok () ∧
        (∀ column < rows.width, rows.observed targets column ≠ []) ∧
        ReportOf sqrt rows targets metrics names report := by
  have hrequire : targets.requireCompleteTargets "group/target/observation scoring" = .ok () ↔
      targets.hasMissingValues = false := by
    simp only [ExactTargets.requireCompleteTargets, bind_ok, refuseIf_ok,
      ExactTargets.validateShape_ok, Bool.not_eq_true]
    exact ⟨fun h => h.choose_spec.2, fun h => ⟨_, ⟨hfit.shape, rfl⟩, h⟩⟩
  simp only [scoreMaskedRegressionRowsWithGrouping, bind_ok, checkIf_ok, need_ok, pure_ok, hrequire]
  cases hmasks : targets.validityMasks with
  | none => simp
  | some masks =>
    have heq : targets.masks = masks := by rw [ExactTargets.masks, hmasks]; rfl
    simp only [Option.some.injEq, Option.isSome_some, true_and, exists_eq_left', ← heq,
      loop_scoreColumn hs hfit hnames]
    constructor
    · rintro ⟨_, hlevel, values, ⟨hmetrics, hscope, hobserved, h⟩, _, -, rfl⟩
      exact ⟨hlevel, hmetrics, hscope, hobserved, values, h, rfl⟩
    · rintro ⟨hlevel, hmetrics, hscope, hobserved, values, h, rfl⟩
      exact ⟨(), hlevel, values, ⟨hmetrics, hscope, hobserved, h⟩, (),
        report_validate hs hnames hmetrics.ne_nil h, rfl⟩

end

-- ---------------------------------------------------------------------------
-- Both
-- ---------------------------------------------------------------------------

/-- What rows are scored for, whichever path they take. -/
structure Accepts (rows : PredictionRows K) (targets : ExactTargets K)
    (metrics : List RegressionMetricKind) : Prop where
  fits : FitsTargets rows targets
  requested : RequestedOnce metrics
  scope : rows.scope.validate = .ok ()
  observed : ∀ column < rows.width, rows.observed targets column ≠ []

omit [LinearOrder K] [FloorRing K] in
theorem observed_ne_nil_of_complete (hs : rows.Sound) (hfit : FitsTargets rows targets)
    (hcomplete : targets.hasMissingValues = false) :
    ∀ column < rows.width, rows.observed targets column ≠ [] := by
  intro column hcolumn hnil
  have haligned := aligned_columns hfit.shape hcomplete (fun _ h => hfit.units.subset h)
    (hfit.width ▸ hcolumn)
  rw [hnil, List.map_nil, List.map_map, List.map_eq_nil_iff, ← List.map_eq_nil_iff (f := Prod.fst),
    hs.map_fst] at haligned
  exact hs.unitIds_ne_nil haligned

theorem scoreRegressionRows_ok (hs : rows.Sound) :
    scoreRegressionRows sqrt rows targets metrics = .ok report ↔
      Accepts rows targets metrics ∧ NamesAgree rows.targetNames targets.targetNames ∧
        (targets.hasMissingValues = true → rows.level = .sample) ∧
        ReportOf sqrt rows targets metrics
          (resolvedNames rows.targetNames targets.targetNames) report := by
  rw [scoreRegressionRows, scoreRowsUsing_ok hs]
  by_cases hmissing : targets.hasMissingValues = true
  · have hmasks : targets.validityMasks.isSome := by
      cases h : targets.validityMasks with
      | none => simp [ExactTargets.hasMissingValues, h] at hmissing
      | some masks => rfl
    have hnames (hfit : FitsTargets rows targets) :
        resolvedNames rows.targetNames targets.targetNames = [] ∨
          (resolvedNames rows.targetNames targets.targetNames).length = rows.width :=
      resolvedNames_ok hs hfit
    rw [if_pos hmissing]
    constructor
    · rintro ⟨hfit, -, hagree, h⟩
      obtain ⟨hlevel, -, hmetrics, hscope, hobserved, hreport⟩ :=
        (scoreMaskedRows_ok hs hfit (hnames hfit)).mp h
      refine ⟨⟨hfit, hmetrics, hscope, hobserved⟩, hagree, fun _ => ?_, hreport⟩
      by_contra hne
      exact Bool.false_ne_true ((hlevel ⟨hne, rfl⟩).symm.trans hmissing)
    · rintro ⟨h, hagree, hlevel, hreport⟩
      exact ⟨h.fits, h.requested, hagree, (scoreMaskedRows_ok hs h.fits (hnames h.fits)).mpr
        ⟨fun hne => absurd (hlevel hmissing) hne.1, hmasks, h.requested, h.scope, h.observed,
          hreport⟩⟩
  · rw [if_neg hmissing]
    constructor
    · rintro ⟨hfit, hmetrics, hagree, hscope, hreport⟩
      have hobserved := observed_ne_nil_of_complete hs hfit (by simpa using hmissing)
      exact ⟨⟨hfit, hmetrics, hscope, hobserved⟩, hagree, fun h => absurd h hmissing, hreport⟩
    · rintro ⟨h, hagree, -, hreport⟩
      exact ⟨h.fits, h.requested, hagree, h.scope, hreport⟩

end DagMl
