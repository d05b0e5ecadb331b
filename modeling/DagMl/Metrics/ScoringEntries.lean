import DagMl.Metrics.ScoringRule

/-!
# The scoring rule at its two entry points

Sample blocks follow the rule with every target block. Blocks of independent
units follow it exactly where the target names cannot tell the masked call from
the unmasked one.
-/

namespace DagMl

open Checked WeightedRows

variable {K : Type}

-- ---------------------------------------------------------------------------
-- Rows
-- ---------------------------------------------------------------------------

section

variable [Field K] {rows : PredictionRows K} {targets targets' : ExactTargets K}

theorem ReadsAlike.observed_eq (h : ReadsAlike targets targets') (ht : targets.Shape) :
    rows.observed targets = rows.observed targets' := by
  funext column
  rw [PredictionRows.observed, PredictionRows.observed, h.observed ht]

theorem ReadsAlike.accepts {metrics : List RegressionMetricKind} (h : ReadsAlike targets targets')
    (haccepts : Accepts rows targets metrics) : Accepts rows targets' metrics where
  fits := ⟨h.shape.mp haccepts.fits.shape, haccepts.fits.width.trans (h.width haccepts.fits.shape),
    haccepts.fits.level.trans h.level, haccepts.fits.units.trans h.units⟩
  requested := haccepts.requested
  scope := haccepts.scope
  observed := by
    rw [← h.observed_eq haccepts.fits.shape]
    exact haccepts.observed

/-- The cells of a column of targets, in the order of its rows. -/
def ExactTargets.columnCells (targets : ExactTargets K) (j : Nat) : List (ObservedCell K) :=
  targets.unitIds.filterMap fun unit =>
    (targets.observedAt unit j).map fun target => (unit, target, target)

theorem column_eq_oneColumn (targets : ExactTargets K) (j : Nat) :
    targets.column j = ExactTargets.oneColumn targets.level (targets.columnCells j) := by
  simp [ExactTargets.column, ExactTargets.oneColumn, ExactTargets.columnCells, List.map_filterMap,
    Function.comp_def]

theorem map_fst_columnCells (targets : ExactTargets K) (j : Nat) :
    (targets.columnCells j).map Prod.fst =
      targets.unitIds.filter fun unit => (targets.observedAt unit j).isSome := by
  unfold ExactTargets.columnCells
  induction targets.unitIds with
  | nil => rfl
  | cons unit unitIds ih =>
    cases hat : targets.observedAt unit j with
    | none => simp [hat, ih]
    | some target => simp [hat, ih]

theorem map_fst_observed (hs : rows.Sound) (targets : ExactTargets K) (j : Nat) :
    (rows.observed targets j).map Prod.fst =
      rows.unitIds.filter fun unit => (targets.observedAt unit j).isSome := by
  have hfilter : ((rows.unitIds.zip rows.values).map Prod.fst).filter
      (fun unit => (targets.observedAt unit j).isSome) = rows.unitIds.filter
        fun unit => (targets.observedAt unit j).isSome := by rw [hs.map_fst]
  rw [map_observed fun _ _ => rfl, ← hfilter, List.filter_map]
  rfl

/-- The restricted column holds the observed cells, in whatever order its rows are. -/
theorem holdsColumn_column (hs : rows.Sound) (hfit : FitsTargets rows targets) {j : Nat}
    (hne : rows.observed targets j ≠ []) :
    HoldsColumn rows.level (rows.observed targets j) (targets.column j) := by
  have hperm : ((rows.observed targets j).map Prod.fst).Perm
      ((targets.columnCells j).map Prod.fst) := by
    rw [map_fst_observed hs, map_fst_columnCells]
    exact hfit.units.filter _
  have hsublist : ((targets.columnCells j).map Prod.fst).Sublist targets.unitIds := by
    rw [map_fst_columnCells]
    exact List.filter_sublist
  have hcells : targets.columnCells j ≠ [] := by
    intro hnil
    rw [hnil, List.map_nil, List.perm_nil, List.map_eq_nil_iff] at hperm
    exact hne hperm
  have hholds := holdsColumn_oneColumn hcells (hfit.shape.nodup.sublist hsublist)
    fun cell hcell => hfit.shape.levels cell.1 (hsublist.subset (List.mem_map_of_mem hcell))
  rw [column_eq_oneColumn]
  refine ⟨hholds.shape, hholds.width, hfit.level.symm, rfl, rfl, hperm.trans hholds.units,
    fun cell hcell => ?_⟩
  obtain ⟨row, hrow, -, hat⟩ := mem_observed.mp hcell
  have hunit : cell.1 ∈ targets.unitIds := hfit.units.subset (List.of_mem_zip hrow).1
  refine hholds.cells (cell.1, cell.2.2, cell.2.2) (List.mem_filterMap.mpr ⟨cell.1, hunit, ?_⟩)
  rw [hat]
  rfl

variable [LinearOrder K] [FloorRing K] {sqrt : K → K} {metrics : List RegressionMetricKind}
  {names : List String} {report : ExactReport K}

theorem ReadsAlike.reportOf (h : ReadsAlike targets targets') (ht : targets.Shape) :
    ReportOf sqrt rows targets metrics names report ↔
      ReportOf sqrt rows targets' metrics names report := by
  have hcomponent : rows.component sqrt targets = rows.component sqrt targets' := by
    funext metric column
    rw [PredictionRows.component, PredictionRows.component, h.observed_eq ht]
  rw [ReportOf, ReportOf, hcomponent]

theorem ReadsAlike.scoreRegressionRows_ok (h : ReadsAlike targets targets') (hs : rows.Sound)
    (hscore : scoreRegressionRows sqrt rows targets metrics = .ok report) :
    scoreRegressionRows sqrt rows targets' metrics = .ok report := by
  obtain ⟨haccepts, hagree, hlevel, hreport⟩ := (DagMl.scoreRegressionRows_ok hs).mp hscore
  have ht := haccepts.fits.shape
  rw [h.names] at hagree hreport
  rw [h.missing ht] at hlevel
  exact (DagMl.scoreRegressionRows_ok hs).mpr
    ⟨h.accepts haccepts, hagree, hlevel, (h.reportOf ht).mp hreport⟩

theorem validate_of_scoreRegressionRows (hs : rows.Sound)
    (h : scoreRegressionRows sqrt rows targets metrics = .ok report) :
    report.validate = .ok () ∧ report.level = rows.level := by
  obtain ⟨haccepts, -, -, values, hvalues, rfl⟩ := (scoreRegressionRows_ok hs).mp h
  exact ⟨report_validate hs (resolvedNames_ok hs haccepts.fits) haccepts.requested.ne_nil hvalues,
    rfl⟩

/-- A suffix no later column has is that of the last column with it. -/
theorem lastWith_zipIdx {suffixes : List String} {j : Nat} {suffix : String}
    (hj : suffixes[j]? = some suffix) (hlater : suffix ∉ suffixes.drop (j + 1)) :
    lastWith suffixes.zipIdx suffix = some j := by
  induction suffixes using List.reverseRecOn with
  | nil => cases hj
  | append_singleton suffixes last ih =>
    have hzip : (suffixes ++ [last]).zipIdx = suffixes.zipIdx ++ [(last, suffixes.length)] := by
      simp [List.zipIdx_append]
    rw [hzip, lastWith_append_singleton]
    rcases lt_trichotomy j suffixes.length with hlt | rfl | hgt
    · rw [List.drop_append_of_le_length hlt, List.mem_append, not_or, List.mem_singleton] at hlater
      rw [List.getElem?_append_left hlt] at hj
      rw [if_neg (Ne.symm hlater.2), ih hj hlater.1]
    · rw [if_pos (by simpa using hj)]
    · rw [List.getElem?_eq_none (by simpa using hgt)] at hj
      cases hj

/-- The report of accepted rows is made of the reports of their columns. -/
theorem columns_of_report (hs : rows.Sound) (haccepts : Accepts rows targets metrics)
    (hreport : ReportOf sqrt rows targets metrics names report) :
    (∀ j < rows.width, ∃ alone,
      scoreRegressionRows sqrt (rows.oneColumn (rows.observed targets j)) (targets.column j) metrics =
        .ok alone ∧ ∀ metric ∈ metrics,
          alone.metrics[metric.name]? = some (rows.component sqrt targets metric j)) ∧
      ∀ metric ∈ metrics,
        report.metrics[metric.name]? = some (meanOver rows.width (rows.component sqrt targets metric)) ∧
        ∀ (j : Nat) suffix, (targetMetricNames rows.width names)[j]? = some suffix →
          suffix ∉ (targetMetricNames rows.width names).drop (j + 1) →
          report.metrics[componentKey metric suffix]? = some (rows.component sqrt targets metric j) := by
  obtain ⟨values, hvalues, rfl⟩ := hreport
  refine ⟨fun j hj => ?_, fun metric hmetric => ⟨?_, fun j suffix hsuffix hlater => ?_⟩⟩
  · have hne := haccepts.observed j hj
    have hholds := holdsColumn_column hs haccepts.fits hne
    have hsound := oneColumn_sound hs hne (observed_sublist hs targets j)
    obtain ⟨alone, halone⟩ := exists_reportOf sqrt (rows.oneColumn (rows.observed targets j))
      (targets.column j) metrics []
    exact ⟨alone, (hholds.scoreRowsUsing_ok hsound).mpr
      ⟨haccepts.requested, haccepts.scope, halone⟩, fun metric hmetric =>
        hholds.metrics_eq halone hmetric⟩
  · exact (hvalues.aggregate metric).trans (if_pos hmetric)
  · refine (hvalues.component metric suffix).trans ?_
    rw [if_pos hmetric, lastWith_zipIdx hsuffix hlater]
    rfl

end

-- ---------------------------------------------------------------------------
-- Samples
-- ---------------------------------------------------------------------------

section

variable {block : ExactBlock K} {targets targets' : ExactTargets K}

theorem ExactBlock.predictionRows_sound (h : block.Content) :
    (block.predictionRows block.width).Sound where
  length_eq := (List.length_map _).trans h.length_eq
  levels := List.forall_mem_map.mpr fun _ _ => rfl
  nodup := h.nodup.map fun _ _ heq => PredictionUnitId.sample.inj heq
  width_eq := rfl
  width_pos := h.width_pos
  rows_width := h.rows_width
  names := h.targets

variable [Field K]

/-- The observed cells of a block, read off its own rows. -/
theorem ExactBlock.map_observed {α : Type} {w j : Nat} {f : ObservedCell K → α}
    {g : PredictionUnitId × List K → α} (h : ∀ e target, f (e.1, entry e.2 j, target) = g e) :
    ((block.predictionRows w).observed targets j).map f =
      (block.rows.filter fun e => (targets.observedAt (.sample e.1) j).isSome).map
        fun e => g (.sample e.1, e.2) := by
  have hzip : (block.predictionRows w).unitIds.zip (block.predictionRows w).values =
      block.rows.map fun e => (.sample e.1, e.2) := by
    simp only [ExactBlock.predictionRows, ExactBlock.rows, List.zip_map_left]
    rfl
  rw [DagMl.map_observed h, hzip, List.filter_map, List.map_map]
  rfl

/-- The restricted block is the column of observed cells. -/
theorem ExactBlock.predictionRows_column (block : ExactBlock K) (targets : ExactTargets K)
    (w j : Nat) : (block.column targets j).predictionRows 1 = (block.predictionRows w).oneColumn
      ((block.predictionRows w).observed targets j) := by
  rw [PredictionRows.oneColumn, ExactBlock.map_observed (g := fun e => e.1) fun _ _ => rfl,
    ExactBlock.map_observed (g := fun e => [entry e.2 j]) fun _ _ => rfl]
  simp only [ExactBlock.predictionRows, ExactBlock.column, List.map_map]
  rfl

theorem ExactBlock.content_column (h : block.Content) {w j : Nat}
    (hne : (block.predictionRows w).observed targets j ≠ []) :
    (block.column targets j).Content ∧ (block.column targets j).width = 1 := by
  have hcolumn := ExactBlock.predictionRows_column block targets w j
  obtain ⟨hwidth, hrows⟩ : (block.column targets j).width = 1 ∧
      ∀ row ∈ (block.column targets j).values, row.length = 1 := by
    change matrixWidth (block.column targets j).values = 1 ∧ _
    rw [show (block.column targets j).values = _ from congrArg PredictionRows.values hcolumn]
    exact matrixWidth_singletons hne
  refine ⟨⟨by simp [ExactBlock.column], hwidth ▸ Nat.one_pos, hwidth ▸ hrows, .inl rfl, ?_⟩, hwidth⟩
  refine h.nodup.sublist ?_
  rw [← ExactBlock.map_fst_rows h.length_eq]
  exact List.filter_sublist.map _

variable [LinearOrder K] [FloorRing K] {sqrt : K → K} {metrics : List RegressionMetricKind}
  {report : ExactReport K}

theorem scoreRegressionPredictionBlock_ok :
    scoreRegressionPredictionBlock sqrt metrics block targets = .ok report ↔ block.Content ∧
      scoreRegressionRows sqrt (block.predictionRows block.width) targets metrics = .ok report := by
  simp only [scoreRegressionPredictionBlock, bind_ok, ExactBlock.validateContent_ok]
  constructor
  · rintro ⟨_, ⟨hcontent, rfl⟩, h⟩
    exact ⟨hcontent, h⟩
  · rintro ⟨hcontent, h⟩
    exact ⟨_, ⟨hcontent, rfl⟩, h⟩

theorem ReadsAlike.scorePredictionBlock (h : ReadsAlike targets targets') :
    Alike (scoreRegressionPredictionBlock sqrt metrics block targets)
      (scoreRegressionPredictionBlock sqrt metrics block targets') := by
  intro report
  rw [scoreRegressionPredictionBlock_ok, scoreRegressionPredictionBlock_ok]
  constructor
  · rintro ⟨hcontent, hscore⟩
    exact ⟨hcontent, h.scoreRegressionRows_ok (ExactBlock.predictionRows_sound hcontent) hscore⟩
  · rintro ⟨hcontent, hscore⟩
    exact ⟨hcontent, h.symm.scoreRegressionRows_ok (ExactBlock.predictionRows_sound hcontent) hscore⟩

/-- Sample blocks follow the rule. -/
theorem samples_oneScoringRule (sqrt : K → K) (metrics : List RegressionMetricKind)
    (block : ExactBlock K) (targets : ExactTargets K) :
    OneScoringRule (scoreRegressionPredictionBlock sqrt metrics) ExactBlock.column metrics block
      targets where
  complete := (readsAlike_allTrue targets).scorePredictionBlock
  hidden := fun _ h => h.readsAlike.scorePredictionBlock
  permuted := fun _ h => h.readsAlike.scorePredictionBlock
  columns := by
    intro report h
    obtain ⟨hcontent, h⟩ := scoreRegressionPredictionBlock_ok.mp h
    have hs := ExactBlock.predictionRows_sound hcontent
    obtain ⟨haccepts, -, -, hreport⟩ := (scoreRegressionRows_ok hs).mp h
    have hcolumns := columns_of_report hs haccepts hreport
    obtain ⟨values, -, rfl⟩ := hreport
    refine ⟨_, fun j hj => ?_, hcolumns.2⟩
    obtain ⟨alone, halone, hvalue⟩ := hcolumns.1 j hj
    obtain ⟨hcolumn, hwidth⟩ := ExactBlock.content_column hcontent (haccepts.observed j hj)
    refine ⟨alone, scoreRegressionPredictionBlock_ok.mpr ⟨hcolumn, ?_⟩, hvalue⟩
    rw [hwidth, ExactBlock.predictionRows_column block targets block.width]
    exact halone

end

-- ---------------------------------------------------------------------------
-- Independent units
-- ---------------------------------------------------------------------------

section

variable {block : ExactUnitBlock K} {targets targets' : ExactTargets K}

/-- What `validateShape` accepts. -/
structure ExactUnitBlock.Shape (block : ExactUnitBlock K) : Prop where
  length_eq : block.unitIds.length = block.values.length
  levels : ∀ unit ∈ block.unitIds, unit.level = block.level
  nodup : block.unitIds.Nodup
  width_pos : 0 < block.width
  rows_width : ∀ row ∈ block.values, row.length = block.width
  names : block.targetNames = [] ∨ block.targetNames.length = block.width

theorem ExactUnitBlock.validateShape_ok {w : Nat} :
    block.validateShape = .ok w ↔ block.Shape ∧ w = block.width := by
  simp only [validateShape, bind_ok, refuseIf_ok, pure_ok, not_not, not_exists, not_and,
    card_toFinset_eq_length]
  constructor
  · rintro ⟨_, hl, _, hv, _, hn, _, hw, _, hr, _, hnames, rfl⟩
    exact ⟨⟨hl, hv, hn, Nat.pos_of_ne_zero hw, hr, or_iff_not_imp_left.mpr hnames⟩, rfl⟩
  · rintro ⟨h, rfl⟩
    exact ⟨(), h.length_eq, (), h.levels, (), h.nodup, (), h.width_pos.ne', (), h.rows_width, (),
      or_iff_not_imp_left.mp h.names, rfl⟩

theorem ExactUnitBlock.predictionRows_sound (h : block.Shape) :
    (block.predictionRows block.width).Sound :=
  ⟨h.length_eq, h.levels, h.nodup, rfl, h.width_pos, h.rows_width, h.names⟩

theorem ExactReport.validate_grouped {report : ExactReport K} {key : AggregationGroupingKey}
    (h : report.validate = .ok ()) (hkey : key.validate = .ok ()) (hlevel : report.level = .group) :
    ({ report with groupingKey := some key } : ExactReport K).validate = .ok () := by
  simp only [validate, bind_ok] at h ⊢
  obtain ⟨_, -, hrest⟩ := h
  refine ⟨(), whenSome_ok.mpr ?_, hrest⟩
  rintro _ ⟨⟩
  exact bind_ok.mpr ⟨(), hkey, refuseIf_ok.mpr (not_not.mpr hlevel)⟩

/-- The names of the report: the masked path takes those of the predictions. -/
def unitNames (block : ExactUnitBlock K) (targets : ExactTargets K) : List String :=
  if targets.validityMasks.isSome then block.targetNames
  else resolvedNames block.targetNames targets.targetNames

/-- The target names do not tell the masked call from the unmasked one. -/
def NamesCarryOver (block : ExactUnitBlock K) (targets : ExactTargets K) : Prop :=
  targets.targetNames = [] ∨ targets.targetNames = block.targetNames

theorem namesCarryOver_iff : NamesCarryOver block targets ↔
    NamesAgree block.targetNames targets.targetNames ∧
      resolvedNames block.targetNames targets.targetNames = block.targetNames := by
  unfold NamesCarryOver NamesAgree resolvedNames
  by_cases hblock : block.targetNames = []
  · simp [hblock]
  · simp only [hblock, ne_eq, not_false_eq_true, if_true, false_or, and_true]
    exact or_congr_right eq_comm

variable [Field K]

/-- What independent units are scored for, apart from the target names. -/
structure ScorableUnits (key : AggregationGroupingKey) (metrics : List RegressionMetricKind)
    (block : ExactUnitBlock K) (targets : ExactTargets K) : Prop where
  key : key.validate = .ok ()
  level : block.level = .group
  shape : block.Shape
  accepts : Accepts (block.predictionRows block.width) targets metrics

variable [LinearOrder K] [FloorRing K] {sqrt : K → K} {metrics : List RegressionMetricKind}
  {report : ExactReport K} {key : AggregationGroupingKey}

theorem scoreUnitBlockRows_ok (hlevel : block.level = .group) (hlevel' : targets.level = .group) :
    scoreUnitBlockRows sqrt metrics block targets = .ok report ↔
      block.Shape ∧ Accepts (block.predictionRows block.width) targets metrics ∧
        (targets.validityMasks = none → NamesAgree block.targetNames targets.targetNames) ∧
        ReportOf sqrt (block.predictionRows block.width) targets metrics (unitNames block targets)
          report := by
  unfold scoreUnitBlockRows unitNames
  cases hmasks : targets.validityMasks with
  | none =>
    have hcomplete : targets.hasMissingValues = false := by
      simp [ExactTargets.hasMissingValues, hmasks]
    simp only [scoreRegressionAggregatedBlock, bind_ok, ExactUnitBlock.validateShape_ok,
      Option.isSome_none, Bool.false_eq_true, if_false, forall_const]
    constructor
    · rintro ⟨_, ⟨hshape, rfl⟩, h⟩
      obtain ⟨haccepts, hagree, -, hreport⟩ :=
        (scoreRegressionRows_ok (ExactUnitBlock.predictionRows_sound hshape)).mp h
      exact ⟨hshape, haccepts, hagree, hreport⟩
    · rintro ⟨hshape, haccepts, hagree, hreport⟩
      refine ⟨_, ⟨hshape, rfl⟩,
        (scoreRegressionRows_ok (ExactUnitBlock.predictionRows_sound hshape)).mpr
          ⟨haccepts, hagree, fun h => ?_, hreport⟩⟩
      rw [hcomplete] at h
      cases h
  | some masks =>
    have hmasked : targets.validityMasks.isSome := by rw [hmasks]; rfl
    simp only [scoreMaskedUnitBlock, bind_ok, refuseIf_ok, ExactUnitBlock.validateShape_ok,
      ExactTargets.validateShape_ok, not_or, not_not, Option.isSome_some, if_true, reduceCtorEq,
      false_implies, true_and]
    constructor
    · rintro ⟨_, ⟨hshape, -⟩, _, ⟨hshape', -⟩, _, ⟨hunits, hwidth⟩, h⟩
      have hfit : FitsTargets (block.predictionRows block.width) targets :=
        ⟨hshape', hwidth, hlevel.trans hlevel'.symm,
          List.perm_of_nodup_nodup_toFinset_eq hshape.nodup hshape'.nodup hunits⟩
      obtain ⟨-, -, hmetrics, hscope, hobserved, hreport⟩ := (scoreMaskedRows_ok
        (ExactUnitBlock.predictionRows_sound hshape) hfit hshape.names).mp h
      exact ⟨hshape, ⟨hfit, hmetrics, hscope, hobserved⟩, hreport⟩
    · rintro ⟨hshape, haccepts, hreport⟩
      exact ⟨_, ⟨hshape, rfl⟩, _, ⟨haccepts.fits.shape, rfl⟩, (),
        ⟨List.toFinset_eq_of_perm _ _ haccepts.fits.units, haccepts.fits.width⟩,
        (scoreMaskedRows_ok (ExactUnitBlock.predictionRows_sound hshape) haccepts.fits
          hshape.names).mpr ⟨fun h => absurd h.2 (by simp), hmasked, haccepts.requested,
            haccepts.scope, haccepts.observed, hreport⟩⟩

theorem scoreIndependentUnitBlock_ok :
    scoreIndependentUnitBlock sqrt metrics key block targets = .ok report ↔
      ScorableUnits key metrics block targets ∧
        (targets.validityMasks = none → NamesAgree block.targetNames targets.targetNames) ∧
        ∃ inner, ReportOf sqrt (block.predictionRows block.width) targets metrics
          (unitNames block targets) inner ∧ report = { inner with groupingKey := some key } := by
  simp only [scoreIndependentUnitBlock, bind_ok, refuseIf_ok, pure_ok, not_or, not_not]
  constructor
  · rintro ⟨_, hkey, _, ⟨hlevel, hlevel'⟩, inner, hinner, _, -, rfl⟩
    obtain ⟨hshape, haccepts, hagree, hreport⟩ := (scoreUnitBlockRows_ok hlevel hlevel').mp hinner
    exact ⟨⟨hkey, hlevel, hshape, haccepts⟩, hagree, inner, hreport, rfl⟩
  · rintro ⟨h, hagree, inner, hreport, rfl⟩
    have hs := ExactUnitBlock.predictionRows_sound h.shape
    have hlevel : targets.level = .group := h.accepts.fits.level.symm.trans h.level
    have hnames : unitNames block targets = [] ∨ (unitNames block targets).length = block.width := by
      unfold unitNames
      split
      · exact h.shape.names
      · exact resolvedNames_ok hs h.accepts.fits
    have hinner := (scoreUnitBlockRows_ok h.level hlevel).mpr ⟨h.shape, h.accepts, hagree, hreport⟩
    have hvalid : inner.validate = .ok () ∧ inner.level = .group := by
      obtain ⟨values, hvalues, rfl⟩ := hreport
      exact ⟨report_validate hs hnames h.accepts.requested.ne_nil hvalues, h.level⟩
    exact ⟨(), h.key, (), ⟨h.level, hlevel⟩, inner, hinner, (),
      ExactReport.validate_grouped hvalid.1 h.key hvalid.2, rfl⟩

theorem ReadsAlike.scoreUnitBlock_ok (h : ReadsAlike targets targets')
    (hmasks : targets.validityMasks.isSome = targets'.validityMasks.isSome)
    (hscore : scoreIndependentUnitBlock sqrt metrics key block targets = .ok report) :
    scoreIndependentUnitBlock sqrt metrics key block targets' = .ok report := by
  obtain ⟨hunits, hagree, inner, hreport, rfl⟩ := scoreIndependentUnitBlock_ok.mp hscore
  have ht := hunits.accepts.fits.shape
  have hnames : unitNames block targets = unitNames block targets' := by
    rw [unitNames, unitNames, hmasks, h.names]
  rw [hnames, h.reportOf ht] at hreport
  rw [← Option.isNone_iff_eq_none, ← Option.not_isSome, hmasks, Option.not_isSome,
    Option.isNone_iff_eq_none, h.names] at hagree
  exact scoreIndependentUnitBlock_ok.mpr ⟨⟨hunits.key, hunits.level, hunits.shape,
    h.accepts hunits.accepts⟩, hagree, inner, hreport, rfl⟩

theorem ReadsAlike.scoreUnitBlock (h : ReadsAlike targets targets')
    (hmasks : targets.validityMasks.isSome = targets'.validityMasks.isSome) :
    Alike (scoreIndependentUnitBlock sqrt metrics key block targets)
      (scoreIndependentUnitBlock sqrt metrics key block targets') :=
  fun _ => ⟨h.scoreUnitBlock_ok hmasks, h.symm.scoreUnitBlock_ok hmasks.symm⟩

theorem unitBlock_complete_iff :
    Alike (scoreIndependentUnitBlock sqrt metrics key block targets.allTrue)
        (scoreIndependentUnitBlock sqrt metrics key block targets.unmasked) ↔
      (ScorableUnits key metrics block targets.unmasked → NamesCarryOver block targets) := by
  have halike := readsAlike_allTrue targets
  have hmasked (report : ExactReport K) :
      scoreIndependentUnitBlock sqrt metrics key block targets.allTrue = .ok report ↔
        ScorableUnits key metrics block targets.unmasked ∧ ∃ inner,
          ReportOf sqrt (block.predictionRows block.width) targets.unmasked metrics
            block.targetNames inner ∧ report = { inner with groupingKey := some key } := by
    rw [scoreIndependentUnitBlock_ok]
    constructor
    · rintro ⟨hunits, -, inner, hreport, rfl⟩
      exact ⟨⟨hunits.key, hunits.level, hunits.shape, halike.accepts hunits.accepts⟩, inner,
        (halike.reportOf hunits.accepts.fits.shape).mp hreport, rfl⟩
    · rintro ⟨hunits, inner, hreport, rfl⟩
      exact ⟨⟨hunits.key, hunits.level, hunits.shape, halike.symm.accepts hunits.accepts⟩,
        fun hnone => (nomatch hnone), inner,
        (halike.symm.reportOf hunits.accepts.fits.shape).mp hreport, rfl⟩
  have hunmasked (report : ExactReport K) :
      scoreIndependentUnitBlock sqrt metrics key block targets.unmasked = .ok report ↔
        ScorableUnits key metrics block targets.unmasked ∧
          NamesAgree block.targetNames targets.targetNames ∧ ∃ inner,
            ReportOf sqrt (block.predictionRows block.width) targets.unmasked metrics
              (resolvedNames block.targetNames targets.targetNames) inner ∧
              report = { inner with groupingKey := some key } := by
    rw [scoreIndependentUnitBlock_ok]
    exact and_congr_right fun _ => and_congr_left fun _ => ⟨fun h => h rfl, fun h _ => h⟩
  rw [Alike, namesCarryOver_iff]
  simp only [hmasked, hunmasked]
  constructor
  · intro h hunits
    obtain ⟨inner, hreport⟩ := exists_reportOf sqrt (block.predictionRows block.width)
      targets.unmasked metrics block.targetNames
    obtain ⟨-, hagree, inner', hreport', heq⟩ :=
      (h { inner with groupingKey := some key }).mp ⟨hunits, inner, hreport, rfl⟩
    refine ⟨hagree, ?_⟩
    have hnames := congrArg ExactReport.targetNames heq
    obtain ⟨_, -, rfl⟩ := hreport
    obtain ⟨_, -, rfl⟩ := hreport'
    exact hnames.symm
  · intro h report
    constructor
    · rintro ⟨hunits, inner, hreport, rfl⟩
      obtain ⟨hagree, hnames⟩ := h hunits
      rw [hnames]
      exact ⟨hunits, hagree, inner, hreport, rfl⟩
    · rintro ⟨hunits, -, inner, hreport, rfl⟩
      rw [(h hunits).2] at hreport
      exact ⟨hunits, inner, hreport, rfl⟩

-- ---------------------------------------------------------------------------
-- The rule for independent units
-- ---------------------------------------------------------------------------

omit [LinearOrder K] [FloorRing K] in
theorem ExactUnitBlock.predictionRows_column (block : ExactUnitBlock K) (targets : ExactTargets K)
    (w j : Nat) : (block.column targets j).predictionRows 1 = (block.predictionRows w).oneColumn
      ((block.predictionRows w).observed targets j) := by
  rw [PredictionRows.oneColumn, map_observed (g := fun e => e.1) fun _ _ => rfl,
    map_observed (g := fun e => [entry e.2 j]) fun _ _ => rfl]
  rfl

omit [LinearOrder K] [FloorRing K] in
theorem ExactUnitBlock.shape_column (h : block.Shape) {w j : Nat}
    (hne : (block.predictionRows w).observed targets j ≠ []) :
    (block.column targets j).Shape ∧ (block.column targets j).width = 1 := by
  have hcolumn := ExactUnitBlock.predictionRows_column block targets w j
  obtain ⟨hwidth, hrows⟩ : (block.column targets j).width = 1 ∧
      ∀ row ∈ (block.column targets j).values, row.length = 1 := by
    change matrixWidth (block.column targets j).values = 1 ∧ _
    rw [show (block.column targets j).values = _ from congrArg PredictionRows.values hcolumn]
    exact matrixWidth_singletons hne
  have hsublist : (block.column targets j).unitIds.Sublist block.unitIds := by
    have hsublist : (block.column targets j).unitIds.Sublist
        ((block.unitIds.zip block.values).map Prod.fst) := List.filter_sublist.map _
    rwa [List.map_fst_zip h.length_eq.le] at hsublist
  exact ⟨⟨by simp [ExactUnitBlock.column], fun unit hunit => h.levels unit (hsublist.subset hunit),
    h.nodup.sublist hsublist, hwidth ▸ Nat.one_pos, hwidth ▸ hrows, .inl rfl⟩, hwidth⟩

/-- Independent units follow the rule with respect to their columns whatever their names. -/
theorem unitBlock_columns (h : scoreIndependentUnitBlock sqrt metrics key block targets = .ok report) :
    ∃ value : RegressionMetricKind → Nat → K,
      (∀ j < report.targetWidth, ∃ alone,
        scoreIndependentUnitBlock sqrt metrics key (block.column targets j) (targets.column j) =
          .ok alone ∧ ∀ metric ∈ metrics, alone.metrics[metric.name]? = some (value metric j)) ∧
      ∀ metric ∈ metrics,
        report.metrics[metric.name]? = some (meanOver report.targetWidth (value metric)) ∧
        ∀ (j : Nat) suffix,
          (targetMetricNames report.targetWidth report.targetNames)[j]? = some suffix →
          suffix ∉ (targetMetricNames report.targetWidth report.targetNames).drop (j + 1) →
          report.metrics[componentKey metric suffix]? = some (value metric j) := by
  obtain ⟨hunits, -, inner, hreport, rfl⟩ := scoreIndependentUnitBlock_ok.mp h
  have hs := ExactUnitBlock.predictionRows_sound hunits.shape
  have hcolumns := columns_of_report hs hunits.accepts hreport
  obtain ⟨values, -, rfl⟩ := hreport
  refine ⟨_, fun j hj => ?_, hcolumns.2⟩
  obtain ⟨alone, halone, hvalue⟩ := hcolumns.1 j hj
  have hne := hunits.accepts.observed j hj
  obtain ⟨hvalid, hlevel⟩ := validate_of_scoreRegressionRows
    (oneColumn_sound hs hne (observed_sublist hs targets j)) halone
  obtain ⟨hcolumn, hwidth⟩ := ExactUnitBlock.shape_column hunits.shape hne
  have hrows : scoreUnitBlockRows sqrt metrics (block.column targets j) (targets.column j) =
      .ok alone := by
    rw [← ExactUnitBlock.predictionRows_column, ← hwidth] at halone
    exact bind_ok.mpr ⟨_, ExactUnitBlock.validateShape_ok.mpr ⟨hcolumn, rfl⟩, halone⟩
  have hgroup : (targets.column j).level = .group := hunits.accepts.fits.level.symm.trans hunits.level
  refine ⟨{ alone with groupingKey := some key }, ?_, hvalue⟩
  simp only [scoreIndependentUnitBlock, bind_ok, refuseIf_ok, pure_ok, not_or, not_not]
  exact ⟨(), hunits.key, (), ⟨hunits.level, hgroup⟩, alone, hrows, (),
    ExactReport.validate_grouped hvalid hunits.key (hlevel.trans hunits.level), rfl⟩

/-- Sample blocks always follow the scoring rule; blocks of independent units do exactly where
they are refused for another reason or the target names carry over. -/
theorem oneScoringRule_iff (sqrt : K → K) (metrics : List RegressionMetricKind) :
    (∀ (block : ExactBlock K) (targets : ExactTargets K),
      OneScoringRule (scoreRegressionPredictionBlock sqrt metrics) ExactBlock.column metrics block
        targets) ∧
    ∀ (key : AggregationGroupingKey) (block : ExactUnitBlock K) (targets : ExactTargets K),
      OneScoringRule (scoreIndependentUnitBlock sqrt metrics key) ExactUnitBlock.column metrics block
        targets ↔
        (ScorableUnits key metrics block targets.unmasked → NamesCarryOver block targets) := by
  refine ⟨samples_oneScoringRule sqrt metrics, fun key block targets => ?_⟩
  constructor
  · exact fun h => unitBlock_complete_iff.mp h.complete
  · intro h
    constructor
    · exact unitBlock_complete_iff.mpr h
    · exact fun report hreport => unitBlock_columns hreport
    · exact fun targets' hsame => hsame.readsAlike.scoreUnitBlock (by rw [hsame.masks])
    · intro targets' hpermuted
      refine hpermuted.readsAlike.scoreUnitBlock ?_
      obtain ⟨_, _, masked, _, _, -, rfl, rfl⟩ := hpermuted
      cases masked <;> rfl

end

-- ---------------------------------------------------------------------------
-- Two names for one target
-- ---------------------------------------------------------------------------

def scoredUnit : PredictionUnitId := .group ⟨"group:scored", by decide⟩

/-- One prediction of one unit, under a name the targets do not have. -/
def scoredUnits : ExactUnitBlock ℚ where
  predictionId := none
  producerNode := ⟨"model:scored", by decide⟩
  producerPort := none
  partition := .validation
  foldId := none
  level := .group
  unitIds := [scoredUnit]
  values := [[1]]
  targetNames := ["protein"]

def scoredTargets : ExactTargets ℚ where
  level := .group
  unitIds := [scoredUnit]
  values := [[2]]
  validityMasks := none
  targetNames := ["moisture"]

def scoredKey : AggregationGroupingKey := .relationMetadata "independent_unit_id"

/-- Marked observed, the cell is scored; without the mask the names are refused. -/
theorem scoredUnits_break_rule :
    ¬OneScoringRule (scoreIndependentUnitBlock id [.mse] scoredKey) ExactUnitBlock.column [.mse]
      scoredUnits scoredTargets := by
  intro h
  have hmasked : (scoreIndependentUnitBlock id [.mse] scoredKey scoredUnits
      scoredTargets.allTrue).isOk = true := by decide +kernel
  have hunmasked : (scoreIndependentUnitBlock id [.mse] scoredKey scoredUnits
      scoredTargets.unmasked).isOk = false := by decide +kernel
  rw [(h.complete _).mp (eq_ok_valueOf hmasked)] at hunmasked
  cases hunmasked

end DagMl
