import DagMl.Fold.Observed
import DagMl.Lib.Keyed
import DagMl.Metrics.Kernel
import DagMl.Runtime.ArtifactStore
import DagMl.Selection.Select

/-!
# Nested selection

Grouped outer folds, and in each of them a selection among declared candidates
by their predictions on the inner folds of its training samples. What plans a
candidate and fits it is a host; the loops, the checks on what the host
returns and the assembly of one prediction for each sample are the core's.
-/

namespace DagMl

open Checked

def nestedSelectionSchemaVersion : Nat := 1

def nestedSelectionInvalid (message : String) : DagMlError :=
  .runtimeValidation s!"nested selection: {message}"

def NestedCvSpec.validate : NestedCvSpec → Result Unit
  | .kFold spec => refuseIf (spec.nSplits < 2)
      (.oofValidation "inner KFold requires at least two splits")
  | .capacityKFold spec => refuseIf (spec.minSplits < 2 ∨ spec.maxSplits < spec.minSplits)
      (.oofValidation "capacity KFold requires 2 <= min_splits <= max_splits")
  | .groupKFold spec => refuseIf (spec.nSplits < 2)
      (.oofValidation "inner GroupKFold requires at least two splits")
  | .stratifiedKFold spec => do
      refuseIf (spec.splitter.nSplits < 2)
        (.oofValidation "inner StratifiedKFold requires at least two splits")
      refuseIf (spec.strata.isEmpty ∨ ∃ label ∈ spec.strata.values, label.isEmpty)
        (.oofValidation "inner StratifiedKFold requires non-empty identity-keyed strata")

-- ---------------------------------------------------------------------------
-- Requests and outcomes
-- ---------------------------------------------------------------------------

structure NestedSelectionCandidate where
  candidateId : String
  params : BTreeMap String JsonValue

structure NestedSelectionRequest where
  id : String
  graph : GraphSpec
  campaign : CampaignSpec
  targetNode : NodeId
  candidates : List NestedSelectionCandidate
  sampleGroups : BTreeMap SampleId GroupId
  targetMissingSampleIds : Finset SampleId
  outer : GroupKFoldSpec
  inner : GroupKFoldSpec
  selectionMetric : RegressionMetricKind

structure NestedCandidateEvaluation where
  candidateId : String
  score : Binary64
  nSamples : Nat

structure NestedSelectionScope where
  outerFoldId : FoldId
  innerFoldSet : NestedFoldSet
  candidates : List NestedCandidateEvaluation
  decision : SelectionDecision

structure NestedOofRow where
  sampleId : SampleId
  outerFoldId : FoldId
  selectedCandidateId : String
  yTrue : Binary64
  prediction : Binary64

structure NestedSelectionOutcome where
  schemaVersion : Nat
  outerFoldSet : FoldSet
  scopes : List NestedSelectionScope
  oof : List NestedOofRow
  modelMetrics : BTreeMap String Binary64
  nFits : Nat

/-- What a candidate's plan is built from beside the templates of the request:
`params` extend those of the target node. -/
structure PlannedCandidate where
  planId : String
  params : BTreeMap String JsonValue
  splitId : String
  foldSet : FoldSet

/-- The planner and the scheduler, with the registries and the provider behind them. -/
structure NestedSelectionHost (P : Type) where
  buildExecutionPlan : PlannedCandidate → Result P
  /-- FIT_CV of the plan's first variant in a new context of the run. -/
  executeFitCv : P → RunId → Result (List NodeResult)

/-- What a selection takes from elsewhere; `display` prints a float. -/
structure NestedSelectionServices where
  sha256 : Digest
  regressionMetric : RegressionMetricKind → List Binary64 → List Binary64 → Result Binary64
  selectCandidate : SelectionPolicy → List CandidateScore → Result SelectionDecision
  display : Binary64 → String

/-- `fit_cv` up to the results of its run. -/
def NestedSelectionHost.fitCv (self : NestedSelectionHost P) (planned : PlannedCandidate)
    (run : String) : Result (List NodeResult) := do
  let plan ← self.buildExecutionPlan planned
  let runId ← Id.new run
  self.executeFitCv plan runId

namespace NestedSelectionRequest

def validate (self : NestedSelectionRequest) : Result Unit := do
  let _ ← (Id.new s!"run:{self.id}" : Result RunId)
  refuseIf (self.campaign.splitInvocation.isSome = true)
    (nestedSelectionInvalid "the campaign template must not declare its own split")
  refuseIf (self.candidates.isEmpty = true)
    (nestedSelectionInvalid "at least one candidate is required")
  let repeated := nestedSelectionInvalid "candidate ids must be nonempty and unique"
  eachUnique NestedSelectionCandidate.candidateId
    (fun candidate => refuseIf (isBlank candidate.candidateId = true) repeated)
    (fun _ => repeated) self.candidates
  refuseIf (∀ node ∈ self.graph.nodes, node.id ≠ self.targetNode)
    (nestedSelectionInvalid s!"unknown target node `{self.targetNode}`")
  refuseIf (self.selectionMetric ∉ [.mse, .rmse, .mae])
    (nestedSelectionInvalid "selection metric must be mse, rmse or mae")
  (NestedCvSpec.groupKFold self.inner).validate

def plan (self : NestedSelectionRequest) (candidate : NestedSelectionCandidate)
    (foldSet : FoldSet) : PlannedCandidate where
  planId := s!"plan:{self.id}:{candidate.candidateId}"
  params := candidate.params
  splitId := s!"split:{foldSet.id}"
  foldSet

def policy (self : NestedSelectionRequest) : SelectionPolicy where
  id := s!"selection:{self.id}"
  metric := ⟨self.selectionMetric.name, self.selectionMetric.objective⟩
  requiredMetricLevel := none
  requireFinite := true
  evaluationScope := none
  refitSlotPlan := none
  requestedRank := none
  stackingFitContract := none
  reductionId := none

end NestedSelectionRequest

/-- An error with the scope it occurred in, of the same kind. -/
def inScope (scope : String) : DagMlError → DagMlError
  | .graphValidation m => .graphValidation s!"{scope}: {m}"
  | .campaignValidation m => .campaignValidation s!"{scope}: {m}"
  | .planning m => .planning s!"{scope}: {m}"
  | .runtimeValidation m => .runtimeValidation s!"{scope}: {m}"
  | .oofValidation m => .oofValidation s!"{scope}: {m}"
  | other => other

-- ---------------------------------------------------------------------------
-- The rows of a run
-- ---------------------------------------------------------------------------

structure FitCvRows where
  predictions : BTreeMap SampleId (FoldId × Binary64) := ∅
  targets : BTreeMap SampleId Binary64 := ∅
  nFits : Nat := 0

namespace FitCvRows

def addTarget (rows : FitCvRows) : PredictionUnitId × List Binary64 → Result FitCvRows
  | (.sample id, [value]) => do
    refuseIf ((rows.targets[id]?).any (fun v => !v.eq value) = true)
      (nestedSelectionInvalid s!"sample `{id}` has contradictory targets")
    pure { rows with targets := rows.targets.insert id value }
  | _ => .error (nestedSelectionInvalid "targets must be one sample-level column")

def addTargets (rows : FitCvRows) (block : RegressionTargetBlock) : Result FitCvRows := do
  block.requireCompleteTargets "nested selection"
  loop addTarget rows (block.unitIds.zip block.values)

def addPrediction (foldId : FoldId) (rows : FitCvRows) :
    SampleId × List Binary64 → Result FitCvRows
  | (id, [value]) => do
    refuseIf (id ∈ rows.predictions)
      (nestedSelectionInvalid s!"sample `{id}` was validated twice")
    pure { rows with predictions := rows.predictions.insert id (foldId, value) }
  | _ => .error (nestedSelectionInvalid "predictions must be one column")

def addPredictions (rows : FitCvRows) (block : PredictionBlock) : Result FitCvRows := do
  let foldId ← need block.foldId
    (nestedSelectionInvalid "validation predictions lack their fold")
  loop (addPrediction foldId) rows block.rows

/-- The validation blocks of a result. -/
def validationBlocks (result : NodeResult) : List PredictionBlock :=
  result.predictions.filter (·.partition = .validation)

def addResult (rows : FitCvRows) (result : NodeResult) : Result FitCvRows := do
  let rows ← loop addTargets { rows with nFits := rows.nFits + 1 } result.regressionTargets
  loop addPredictions rows (validationBlocks result)

def ofResults (targetNode : NodeId) (results : List NodeResult) : Result FitCvRows :=
  loop addResult {} (results.filter (·.nodeId = targetNode))

/-- Targets beside predictions, in the order of the samples. -/
def scoredRows (rows : FitCvRows) : Result (List (Binary64 × Binary64)) :=
  collect rows.predictions.toList fun entry => do
    let yTrue ← need rows.targets[entry.1]? (.panicked "no entry found for key")
    pure (yTrue, entry.2.2)

end FitCvRows

-- ---------------------------------------------------------------------------
-- One outer fold
-- ---------------------------------------------------------------------------

section

variable (services : NestedSelectionServices) (host : NestedSelectionHost P)
  (request : NestedSelectionRequest)

def fitCandidate (candidate : NestedSelectionCandidate) (foldSet : FoldSet)
    (run scope : String) : Result FitCvRows :=
  Except.mapError (inScope scope) do
    let results ← host.fitCv (request.plan candidate foldSet) run
    FitCvRows.ofResults request.targetNode results

def nestedScore (kind : RegressionMetricKind) (rows : List (Binary64 × Binary64)) :
    Result Binary64 := do
  let value ← services.regressionMetric kind (rows.map Prod.fst) (rows.map Prod.snd)
  refuseIf (¬(value.isFinite = true ∧ Binary64.zero.le value = true)) (nestedSelectionInvalid
    s!"metric `{kind.name}` must be finite and nonnegative, got {services.display value}")
  pure value

/-- A candidate's evaluation with the fits it took. -/
structure CandidateRun where
  evaluation : NestedCandidateEvaluation
  nFits : Nat

def evaluateCandidate (fold : FoldAssignment) (nested : NestedFoldSet)
    (candidate : NestedSelectionCandidate) : Result CandidateRun := do
  let scope := s!"outer fold `{fold.foldId}` candidate `{candidate.candidateId}`"
  let rows ← fitCandidate host request candidate nested.innerFoldSet
    s!"run:{request.id}:{fold.foldId}:{candidate.candidateId}" scope
  let train := fold.trainSampleIds.toFinset
  refuseIf (rows.predictions.keys.toFinset ≠ train ∨ rows.targets.keys.toFinset ≠ train)
    (nestedSelectionInvalid
      s!"inner OOF of `{fold.foldId}` must cover exactly the outer training pool")
  let scored ← rows.scoredRows
  let value ← Except.mapError (inScope scope)
    (nestedScore services request.selectionMetric scored)
  pure ⟨⟨candidate.candidateId, value, rows.predictions.size⟩, rows.nFits⟩

/-- The candidate's entry in the selection. -/
def CandidateRun.toScore (metricName : String) (self : CandidateRun) : CandidateScore where
  candidateId := self.evaluation.candidateId
  metrics := (∅ : BTreeMap String Binary64).insert metricName self.evaluation.score
  metadata := ∅

/-- The one fold on which the selected candidate is fitted once. -/
def FoldSet.evaluation (self : FoldSet) (fold : FoldAssignment) : FoldSet where
  id := s!"{self.id}.{fold.foldId}.evaluation"
  sampleIds := self.sampleIds
  folds := [⟨fold.foldId, fold.trainSampleIds, fold.validationSampleIds, ∅⟩]
  sampleGroups := self.sampleGroups
  partitionMode := .resampled
  trainExclusion := self.trainExclusion
  targetMissingSampleIds := self.targetMissingSampleIds

/-- What one outer fold adds to the outcome. -/
structure FoldSelection where
  scope : NestedSelectionScope
  oof : List NestedOofRow
  nFits : Nat

def outerRows (fold : FoldAssignment) (winner : NestedSelectionCandidate) (rows : FitCvRows) :
    Result (List NestedOofRow) :=
  collect rows.predictions.toList fun entry => do
    let yTrue ← need rows.targets[entry.1]?
      (nestedSelectionInvalid s!"validation sample `{entry.1}` has no target")
    pure ⟨entry.1, fold.foldId, winner.candidateId, yTrue, entry.2.2⟩

def selectInFold (outer : FoldSet) (entry : FoldAssignment × NestedFoldSet) :
    Result FoldSelection := do
  let (fold, nested) := entry
  nested.validateForOuter fold
  let runs ← collect request.candidates (evaluateCandidate services host request fold nested)
  let decision ← services.selectCandidate request.policy
    (runs.map (·.toScore request.selectionMetric.name))
  let winner ← need (request.candidates.find? (·.candidateId = decision.selectedCandidateId))
    (.panicked "selected candidate is declared")
  let rows ← fitCandidate host request winner (outer.evaluation fold)
    s!"run:{request.id}:{fold.foldId}:selected"
    s!"outer fold `{fold.foldId}` selected candidate `{winner.candidateId}`"
  refuseIf (rows.predictions.keys.toFinset ≠ fold.validationSampleIds.toFinset ∨
      ∃ entry ∈ rows.predictions.values, entry.1 ≠ fold.foldId) (nestedSelectionInvalid
    s!"outer predictions of `{fold.foldId}` must cover exactly its validation rows")
  let oof ← outerRows fold winner rows
  pure {
    scope := ⟨fold.foldId, nested, runs.map (·.evaluation), decision⟩
    oof
    nFits := (runs.map (·.nFits)).sum + rows.nFits }

-- ---------------------------------------------------------------------------
-- The whole selection
-- ---------------------------------------------------------------------------

def modelMetricsOf (oof : List NestedOofRow) : Result (BTreeMap String Binary64) := do
  let entries ← collect [RegressionMetricKind.mse, .rmse, .mae] fun kind => do
    let value ← nestedScore services kind (oof.map fun row => (row.yTrue, row.prediction))
    pure (kind.name, value)
  pure (BTreeMap.collect entries)

def executeNestedSelectionWithMetrics : Result NestedSelectionOutcome := do
  request.validate
  let outer ← request.outer.splitWithTargetMissing s!"{request.id}.outer" request.sampleGroups
    request.targetMissingSampleIds
  -- Every inner fold set is built before the host is called.
  let nested ← collect outer.folds (outer.nestedFoldSet services.sha256 (.groupKFold request.inner))
  let selections ← collect (outer.folds.zip nested) (selectInFold services host request outer)
  let oof := Keyed.sortBy (·.sampleId) (selections.flatMap (·.oof))
  refuseIf (oof.map (·.sampleId) ≠ outer.sampleIds)
    (nestedSelectionInvalid "outer OOF must validate every sample exactly once")
  let modelMetrics ← modelMetricsOf services oof
  pure {
    schemaVersion := nestedSelectionSchemaVersion
    outerFoldSet := outer
    scopes := selections.map (·.scope)
    oof
    modelMetrics
    nFits := (selections.map (·.nFits)).sum }

end

end DagMl
