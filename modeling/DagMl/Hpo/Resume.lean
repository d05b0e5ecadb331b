import DagMl.Aggregation.Sample
import DagMl.Hpo.Trial
import DagMl.Metrics.Report
import DagMl.Runtime.Context

/-!
# Resuming an optimizer campaign

The portable evidence of a campaign: the ledger of its terminal trials, and
for each completed trial a proposal, a report and a candidate. A resumed
campaign joins its fresh evidence to the previous state; every later state of
a chain of campaigns then still holds all that an earlier one held.
-/

namespace DagMl

open Checked Ledger

structure MethodsHpoResumeSelection where
  selectionId : String
  targetNodeId : NodeId
  producerPort : String
  metric : String
  deriving DecidableEq

structure MethodsHpoResumeProvenance where
  graphFingerprint : String
  campaignFingerprint : String
  controllerFingerprint : String
  dataIdentitiesFingerprint : String
  foldSetFingerprint : String
  trainingInfluenceFingerprint : String
  relationFingerprint : String
  selection : MethodsHpoResumeSelection
  deriving DecidableEq

structure MethodsHpoCompletedProposal where
  trialId : Int
  variant : VariantPlan

inductive MethodsHpoCompletedState
  | completed
  deriving DecidableEq

structure MethodsHpoCompletedReport where
  trialId : Int
  variantId : VariantId
  terminalState : MethodsHpoCompletedState
  score : Binary64
  report : RegressionMetricReport

structure MethodsHpoOofAverage where
  predictions : AggregatedPredictionBlock
  yTrue : RegressionTargetBlock

structure MethodsHpoCandidateEvidence where
  trialId : Int
  variantId : VariantId
  variantLabel : Option String
  predictions : List PredictionBlock
  regressionTargets : List RegressionTargetBlock
  oofAverage : MethodsHpoOofAverage
  lineage : List LineageRecord

structure MethodsHpoNativeIncumbent where
  trialId : Int
  score : Binary64
  metric : String
  direction : HpoDirection
  variantId : VariantId

structure MethodsHpoTerminalEvidence where
  trial : HpoTrial
  variantId : Option VariantId

/-- `==`. -/
def MethodsHpoTerminalEvidence.eq (a b : MethodsHpoTerminalEvidence) : Bool :=
  a.trial.eq b.trial && a.variantId = b.variantId

theorem MethodsHpoTerminalEvidence.carries : Carries MethodsHpoTerminalEvidence.eq := by
  intro a b c hab hbc
  simp only [MethodsHpoTerminalEvidence.eq, Bool.and_eq_true, decide_eq_true_eq] at *
  exact ⟨HpoTrial.carries _ _ _ hab.1 hbc.1, hab.2.trans hbc.2⟩

structure MethodsHpoResumeState where
  schemaVersion : Nat
  checkpoint : N4moptCheckpointArtifact
  provenance : MethodsHpoResumeProvenance
  operationId : String
  controllerId : ControllerId
  targetNodeId : NodeId
  incumbent : MethodsHpoNativeIncumbent
  trialHistoryLen : Nat
  terminalTrials : List MethodsHpoTerminalEvidence
  completedProposals : List MethodsHpoCompletedProposal
  completedReports : List MethodsHpoCompletedReport
  candidates : List MethodsHpoCandidateEvidence

def methodsHpoResumeStateSchemaVersion : Nat := 1

/-- What the validator calls of other modules: the digest, the reader of fitted
target domains, and a lineage record's own checks of its artifacts,
attestations and early stopping. -/
structure ResumeChecks where
  sha256 : Digest
  readState : StateReader
  lineage : LineageRecord → Result Unit

-- ---------------------------------------------------------------------------
-- Validation
-- ---------------------------------------------------------------------------

def validateResumeSha256 (label value : String) : Result Unit :=
  refuseIf (isSha value = false)
    (.runtimeValidation s!"Methods HPO resume {label} fingerprint must be lowercase SHA-256")

/-- `1e-12`. -/
def resumeScoreTolerance : Binary64 := .ofDecimal false 1 (-12)

def validateResumeReport (checks : ResumeChecks) (completed : MethodsHpoCompletedReport)
    (selection : MethodsHpoResumeSelection) : Result Unit := do
  let report := completed.report
  report.validate checks.readState
  let metric ← need report.metrics[selection.metric]? (.runtimeValidation
    s!"Methods HPO report for trial {completed.trialId} omits selection metric `{selection.metric}`")
  refuseIf (report.variantId ≠ some completed.variantId ∨
    report.producerNode ≠ selection.targetNodeId ∨
    report.producerPort ≠ some selection.producerPort ∨ report.partition ≠ .validation ∨
    report.foldId.map (·.value) ≠ some "avg" ∨ report.level ≠ .sample ∨
    resumeScoreTolerance.lt (metric.sub completed.score).abs = true) (.runtimeValidation
    s!"Methods HPO report for trial {completed.trialId} must be the exact sample-level validation OOF average")

/-- The sample ids among a target block's units. -/
def RegressionTargetBlock.sampleUnits (self : RegressionTargetBlock) : List SampleId :=
  self.unitIds.filterMap fun
    | .sample id => some id
    | _ => none

def validateResumeCandidate (checks : ResumeChecks) (candidate : MethodsHpoCandidateEvidence)
    (selection : MethodsHpoResumeSelection) : Result Unit := do
  refuseIf (candidate.predictions = [] ∨
    candidate.predictions.length ≠ candidate.regressionTargets.length ∨
    candidate.lineage.isEmpty = true) (.runtimeValidation
    "Methods HPO candidate evidence requires paired fold OOF predictions, targets and lineage")
  each (candidate.predictions.zip candidate.regressionTargets) fun (prediction, target) => do
    let _ ← prediction.validateShape
    let _ ← target.validateShape
    refuseIf (prediction.partition ≠ .validation ∨
      prediction.producerNode ≠ selection.targetNodeId ∨
      prediction.producerPort ≠ some selection.producerPort ∨
      prediction.sampleIds ≠ target.sampleUnits) (.runtimeValidation
      "Methods HPO candidate fold evidence is not exact validation OOF data for selection")
  let average := candidate.oofAverage
  let _ ← average.predictions.validateShape
  let _ ← average.yTrue.validateShape
  refuseIf (average.predictions.producerNode ≠ selection.targetNodeId ∨
    average.predictions.producerPort ≠ some selection.producerPort ∨
    average.predictions.partition ≠ .validation ∨
    average.predictions.foldId.map (·.value) ≠ some "avg")
    (.runtimeValidation "Methods HPO candidate OOF average does not match selection output")
  eachUnique (·.recordId) checks.lineage
    (fun _ => .runtimeValidation "Methods HPO candidate evidence has duplicate lineage record ids")
    candidate.lineage
  refuseIf (¬∃ record ∈ candidate.lineage, record.nodeId = selection.targetNodeId ∧
    record.variantId = some candidate.variantId) (.runtimeValidation
    "Methods HPO candidate lineage does not include its selected target variant")

namespace MethodsHpoResumeState

variable (checks : ResumeChecks)

/-- The schema, the checkpoint and the identities of the campaign. -/
def validateCampaign (self : MethodsHpoResumeState) : Result Unit := do
  refuseIf (self.schemaVersion ≠ methodsHpoResumeStateSchemaVersion) (.runtimeValidation
    s!"Methods HPO resume state has unsupported schema_version {self.schemaVersion}")
  (self.checkpoint.validate checks.sha256).mapError fun error =>
    .runtimeValidation s!"Methods HPO resume checkpoint is invalid: {error.text}"
  refuseIf (isBlank self.checkpoint.binding.controllerId = true ∨
    isBlank self.checkpoint.binding.studyId = true) (.runtimeValidation
    "Methods HPO resume checkpoint binding has an empty controller or study identity")
  refuseIf (isBlank self.operationId = true ∨ self.trialHistoryLen = 0 ∨
    self.trialHistoryLen < self.completedProposals.length ∨
    self.controllerId.value ≠ self.checkpoint.binding.controllerId ∨
    self.targetNodeId ≠ self.provenance.selection.targetNodeId ∨
    self.incumbent.metric ≠ self.provenance.selection.metric ∨
    self.incumbent.score.isFinite = false) (.runtimeValidation
    "Methods HPO resume campaign operation or incumbent identity is invalid")

/-- The ledger covers the history, and each list is in strict trial order. -/
def validateOrder (self : MethodsHpoResumeState) : Result Unit := do
  refuseIf (self.terminalTrials.length ≠ self.trialHistoryLen ∨
    (∃ pair ∈ windows self.terminalTrials, pair.2.trial.id ≤ pair.1.trial.id) ∨
    ∃ evidence ∈ self.terminalTrials, evidence.trial.status.isTerminal = false)
    (.runtimeValidation
    "Methods HPO terminal trial evidence must exactly cover a strictly ordered terminal native history")
  each [
    ("completed proposals", self.completedProposals.map (·.trialId)),
    ("completed reports", self.completedReports.map (·.trialId)),
    ("candidate evidence", self.candidates.map (·.trialId))] fun entry =>
      refuseIf (∃ pair ∈ windows entry.2, pair.2 ≤ pair.1) (.runtimeValidation
        s!"Methods HPO resume {entry.1} must be strictly sorted by trial_id")

def validateProvenance (self : MethodsHpoResumeState) : Result Unit := do
  let provenance := self.provenance
  validateResumeSha256 "checkpoint search-space" self.checkpoint.binding.searchSpaceFingerprint
  validateResumeSha256 "checkpoint optimizer" self.checkpoint.binding.optimizerFingerprint
  each [
    ("graph", provenance.graphFingerprint), ("campaign", provenance.campaignFingerprint),
    ("controller", provenance.controllerFingerprint),
    ("data identities", provenance.dataIdentitiesFingerprint),
    ("fold set", provenance.foldSetFingerprint),
    ("training influence", provenance.trainingInfluenceFingerprint),
    ("relation", provenance.relationFingerprint)] fun entry => validateResumeSha256 entry.1 entry.2
  each [
    ("selection id", provenance.selection.selectionId),
    ("selection producer port", provenance.selection.producerPort),
    ("selection metric", provenance.selection.metric)] fun entry =>
      refuseIf (isBlank entry.2 = true)
        (.runtimeValidation s!"Methods HPO resume {entry.1} must not be empty")

abbrev Proposals := BTreeMap Int MethodsHpoCompletedProposal

def proposalsByTrial (self : MethodsHpoResumeState) : Result Proposals :=
  loop (fun (proposals : Proposals) proposal => do
    proposal.variant.validate
    vacant proposals[proposal.trialId]? fun _ => .runtimeValidation
      s!"Methods HPO resume has duplicate completed proposal for trial {proposal.trialId}"
    pure (proposals.insert proposal.trialId proposal)) ∅ self.completedProposals

def terminalByTrial (self : MethodsHpoResumeState) : BTreeMap Int MethodsHpoTerminalEvidence :=
  .collect (self.terminalTrials.map fun evidence => (evidence.trial.id, evidence))

def completedTerminalIds (self : MethodsHpoResumeState) : Finset Int :=
  ((self.terminalTrials.filter (·.trial.status = .completed)).map (·.trial.id)).toFinset

/-- The proposals are those of the completed trials of the ledger. -/
def validateProposals (self : MethodsHpoResumeState) (proposals : Proposals) : Result Unit := do
  refuseIf (proposals.isEmpty = true)
    (.runtimeValidation "Methods HPO resume requires at least one completed proposal")
  refuseIf (self.completedTerminalIds ≠ proposals.keys.toFinset ∨
    ∃ entry ∈ proposals.toList, (self.terminalByTrial[entry.1]?.bind (·.variantId)) ≠
      some entry.2.variant.variantId) (.runtimeValidation
    "Methods HPO completed proposal evidence must exactly match terminal native trials")

def validateReport (self : MethodsHpoResumeState) (proposals : Proposals)
    (completed : MethodsHpoCompletedReport) : Result Unit := do
  let proposal ← need proposals[completed.trialId]? (.runtimeValidation
    s!"Methods HPO resume report for trial {completed.trialId} is orphaned")
  refuseIf (completed.terminalState ≠ .completed ∨
    proposal.variant.variantId ≠ completed.variantId ∨ completed.score.isFinite = false)
    (.runtimeValidation
    s!"Methods HPO resume report for trial {completed.trialId} does not match its proposal")
  -- Indexing the map panics on an absent trial.
  let terminal ← need self.terminalByTrial[completed.trialId]? (.panicked "key not found")
  refuseIf (terminal.trial.score.map (·.bits) ≠ some completed.score.bits ∨
    ∃ value ∈ terminal.trial.intermediates, value.score.isFinite = false) (.runtimeValidation
    s!"Methods HPO terminal trial {completed.trialId} score/intermediate evidence is inconsistent")
  validateResumeReport checks completed self.provenance.selection

def validateReports (self : MethodsHpoResumeState) (proposals : Proposals) : Result Unit := do
  eachUnique (·.trialId) (self.validateReport checks proposals)
    (fun completed => .runtimeValidation
      s!"Methods HPO resume has duplicate completed report for trial {completed.trialId}")
    self.completedReports
  refuseIf ((self.completedReports.map (·.trialId)).toFinset ≠ proposals.keys.toFinset)
    (.runtimeValidation
    "Methods HPO resume completed reports must exactly cover completed proposals")

def validateIncumbent (self : MethodsHpoResumeState) : Result Unit := do
  let incumbent ← need (self.completedReports.find? (·.trialId = self.incumbent.trialId))
    (.runtimeValidation "Methods HPO resume incumbent is not a completed scheduler trial")
  refuseIf (incumbent.variantId ≠ self.incumbent.variantId ∨
    incumbent.score.bits ≠ self.incumbent.score.bits) (.runtimeValidation
    "Methods HPO resume incumbent does not exactly match its completed report")

def validateCandidate (self : MethodsHpoResumeState) (proposals : Proposals)
    (candidate : MethodsHpoCandidateEvidence) : Result Unit := do
  let proposal ← need proposals[candidate.trialId]? (.runtimeValidation
    s!"Methods HPO candidate evidence for trial {candidate.trialId} is orphaned")
  refuseIf (proposal.variant.variantId ≠ candidate.variantId) (.runtimeValidation
    s!"Methods HPO candidate evidence for trial {candidate.trialId} does not match its proposal")
  validateResumeCandidate checks candidate self.provenance.selection

def validateCandidates (self : MethodsHpoResumeState) (proposals : Proposals) : Result Unit := do
  eachUnique (·.trialId) (self.validateCandidate checks proposals)
    (fun candidate => .runtimeValidation
      s!"Methods HPO resume has duplicate candidate evidence for trial {candidate.trialId}")
    self.candidates
  refuseIf ((self.candidates.map (·.trialId)).toFinset ≠ proposals.keys.toFinset)
    (.runtimeValidation "Methods HPO candidate evidence must exactly cover completed proposals")

def validate (self : MethodsHpoResumeState) : Result Unit := do
  self.validateCampaign checks
  self.validateOrder
  self.validateProvenance
  let proposals ← self.proposalsByTrial
  self.validateProposals proposals
  self.validateReports checks proposals
  self.validateIncumbent
  self.validateCandidates checks proposals

end MethodsHpoResumeState

-- ---------------------------------------------------------------------------
-- Joining fresh evidence
-- ---------------------------------------------------------------------------

structure RuntimeHpoProvenance where
  graphFingerprint : String
  campaignFingerprint : String
  controllerFingerprint : String
  dataIdentitiesFingerprint : String
  foldSetFingerprint : Option String
  trainingInfluenceFingerprint : String
  relationFingerprint : String

structure RuntimeHpoProposal where
  trialId : Int
  variant : VariantPlan

structure RuntimeHpoCompletedReport where
  trialId : Int
  variantId : VariantId
  report : RegressionMetricReport

structure RuntimeHpoCheckpointResult where
  artifact : N4moptCheckpointArtifact
  provenance : RuntimeHpoProvenance
  operationId : String
  controllerId : ControllerId
  targetNodeId : NodeId
  completedProposals : List RuntimeHpoProposal
  completedReports : List RuntimeHpoCompletedReport
  trialHistoryLen : Nat

structure OofAverageBlock where
  predictions : AggregatedPredictionBlock
  yTrue : RegressionTargetBlock

structure VariantValidationPredictions where
  variantLabel : Option String
  predictions : List PredictionBlock
  regressionTargets : List RegressionTargetBlock
  oofAverage : Option OofAverageBlock

structure RuntimeHpoCandidateEvaluation where
  proposal : RuntimeHpoProposal
  score : Binary64
  validationPredictions : VariantValidationPredictions
  lineage : List LineageRecord

structure RuntimeHpoIncumbent where
  trialId : Int
  score : Binary64
  metric : String
  direction : HpoDirection
  variantId : VariantId

structure RuntimeHpoTerminalSnapshot where
  trial : HpoTrial
  variantId : Option VariantId

/-- The portable report of a completed trial; its score is the candidate's. -/
def RuntimeHpoCompletedReport.toEvidence (self : RuntimeHpoCompletedReport) (metric : String)
    (candidateScores : BTreeMap Int Binary64) : Result MethodsHpoCompletedReport := do
  refuseIf (self.report.metrics.contains metric = false) (.runtimeValidation
    s!"Methods HPO completed trial {self.trialId} has no `{metric}` OOF metric")
  let score ← need candidateScores[self.trialId]? (.runtimeValidation
    s!"Methods HPO completed trial {self.trialId} has no candidate OOF evidence")
  pure {
    trialId := self.trialId, variantId := self.variantId, terminalState := .completed, score
    report := self.report }

def RuntimeHpoCandidateEvaluation.toEvidence (self : RuntimeHpoCandidateEvaluation) :
    Result MethodsHpoCandidateEvidence := do
  let average ← need self.validationPredictions.oofAverage (.runtimeValidation
    s!"Methods HPO trial {self.proposal.trialId} has no cross-fold OOF average")
  pure {
    trialId := self.proposal.trialId
    variantId := self.proposal.variant.variantId
    variantLabel := self.validationPredictions.variantLabel
    predictions := self.validationPredictions.predictions
    regressionTargets := self.validationPredictions.regressionTargets
    oofAverage := ⟨average.predictions, average.yTrue⟩
    lineage := self.lineage }

namespace MethodsHpoResumeState

variable (checks : ResumeChecks)

/-- The state of this invocation's evidence alone. -/
def ofFresh (checkpoint : RuntimeHpoCheckpointResult) (selection : MethodsHpoResumeSelection)
    (candidates : List RuntimeHpoCandidateEvaluation) (incumbent : RuntimeHpoIncumbent)
    (terminalTrials : List RuntimeHpoTerminalSnapshot) : Result MethodsHpoResumeState := do
  let candidateScores : BTreeMap Int Binary64 :=
    .collect (candidates.map fun candidate => (candidate.proposal.trialId, candidate.score))
  let completedReports ← collect checkpoint.completedReports
    (·.toEvidence selection.metric candidateScores)
  let evidence ← collect candidates (·.toEvidence)
  let foldSetFingerprint ← need checkpoint.provenance.foldSetFingerprint (.runtimeValidation
    "Methods HPO resume requires an attested fold-set fingerprint")
  pure {
    schemaVersion := methodsHpoResumeStateSchemaVersion
    checkpoint := checkpoint.artifact
    provenance := {
      graphFingerprint := checkpoint.provenance.graphFingerprint
      campaignFingerprint := checkpoint.provenance.campaignFingerprint
      controllerFingerprint := checkpoint.provenance.controllerFingerprint
      dataIdentitiesFingerprint := checkpoint.provenance.dataIdentitiesFingerprint
      foldSetFingerprint
      trainingInfluenceFingerprint := checkpoint.provenance.trainingInfluenceFingerprint
      relationFingerprint := checkpoint.provenance.relationFingerprint
      selection }
    operationId := checkpoint.operationId
    controllerId := checkpoint.controllerId
    targetNodeId := checkpoint.targetNodeId
    incumbent := {
      trialId := incumbent.trialId, score := incumbent.score, metric := incumbent.metric
      direction := incumbent.direction, variantId := incumbent.variantId }
    trialHistoryLen := checkpoint.trialHistoryLen
    terminalTrials := terminalTrials.map fun snapshot => ⟨snapshot.trial, snapshot.variantId⟩
    completedProposals := checkpoint.completedProposals.map fun proposal =>
      ⟨proposal.trialId, proposal.variant⟩
    completedReports
    candidates := evidence }

/-- The previous evidence comes after the fresh one, and the sorts are stable. -/
def joined (state previous : MethodsHpoResumeState) : MethodsHpoResumeState :=
  { state with
    completedProposals :=
      Keyed.sortBy (·.trialId) (state.completedProposals ++ previous.completedProposals)
    completedReports :=
      Keyed.sortBy (·.trialId) (state.completedReports ++ previous.completedReports)
    candidates := Keyed.sortBy (·.trialId) (state.candidates ++ previous.candidates) }

def join (state previous : MethodsHpoResumeState) : Result MethodsHpoResumeState := do
  previous.validate checks
  refuseIf (previous.provenance ≠ state.provenance ∨ previous.operationId ≠ state.operationId ∨
    previous.controllerId ≠ state.controllerId ∨ previous.targetNodeId ≠ state.targetNodeId ∨
    previous.checkpoint.binding ≠ state.checkpoint.binding) (.runtimeValidation
    "native Methods HPO resumed campaign state has incompatible provenance")
  refuseIf (state.trialHistoryLen < previous.trialHistoryLen ∨
    startsWith MethodsHpoTerminalEvidence.eq state.terminalTrials previous.terminalTrials = false)
    (.runtimeValidation
    "native Methods HPO resumed campaign does not preserve its prior terminal history")
  pure (state.joined previous)

/-- `if let Some(previous) = previous`. -/
def joinPrevious (state : MethodsHpoResumeState) :
    Option MethodsHpoResumeState → Result MethodsHpoResumeState
  | some previous => state.join checks previous
  | none => pure state

def fromRuntimeCheckpointWithPrevious (checkpoint : RuntimeHpoCheckpointResult)
    (selection : MethodsHpoResumeSelection) (candidates : List RuntimeHpoCandidateEvaluation)
    (incumbent : RuntimeHpoIncumbent) (terminalTrials : List RuntimeHpoTerminalSnapshot)
    (previous : Option MethodsHpoResumeState) : Result MethodsHpoResumeState := do
  let fresh ← ofFresh checkpoint selection candidates incumbent terminalTrials
  let state ← fresh.joinPrevious checks previous
  state.validate checks
  pure state

end MethodsHpoResumeState

end DagMl
