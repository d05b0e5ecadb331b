import DagMl.Hpo.Resume
import DagMl.Lib.Calls
import DagMl.Runtime.Oof
import DagMl.Runtime.Registry

/-!
# The trials of a campaign

`executeHpoCampaign` asks a tuner session for trials, runs each through the
folds of FIT_CV and reports every fold back, then tells the session how the
trial ended. What the session, the controllers and the data provider do is
left open: they act on one state of the outside world, and every call that
belongs to a trial is recorded with its answer.
-/

namespace DagMl

open Checked

/-- `for x in xs { if !seen.insert(key(x)) { return Err(dup(x)) } check(x)?; }`. -/
def eachFresh [DecidableEq α] (key : β → α) (check : β → Except ε Unit) (dup : β → ε)
    (l : List β) : Except ε Unit := do
  let _ ← loop (fun seen x => do
    refuseIf (key x ∈ seen) (dup x)
    check x
    pure (insert (key x) seen)) (∅ : Finset α) l

-- ---------------------------------------------------------------------------
-- The session
-- ---------------------------------------------------------------------------

structure RuntimeHpoIntermediate where
  trialId : Int
  step : Int
  score : Binary64

structure RuntimeHpoFailure where
  code : String
  message : String
  retryable : Bool

inductive RuntimeHpoTerminal
  | completed (score : Binary64)
  | failed (failure : RuntimeHpoFailure)

inductive RuntimeHpoIntermediateOutcome
  | continues | pruned

/-- `dyn RuntimeTunerSession`; even a method on `&self` may reach the world. -/
structure TunerSession (W : Type) where
  trialHistoryLen : Method DagMlError W Nat
  ask : Method DagMlError W (Option RuntimeHpoProposal)
  reportIntermediate :
    RuntimeHpoIntermediate → Method DagMlError W RuntimeHpoIntermediateOutcome
  tell : Int → RuntimeHpoTerminal → Method DagMlError W Unit
  incumbent : BTreeMap Int VariantId → Method DagMlError W (Option RuntimeHpoIncumbent)
  terminalTrialSnapshots :
    BTreeMap Int VariantId → Method DagMlError W (List RuntimeHpoTerminalSnapshot)
  checkpoint : Method DagMlError W N4moptCheckpointArtifact

/-- The calls a campaign's trials are made of. -/
inductive SessionCall
  | counted (answer : Result Nat)
  | asked (answer : Result (Option RuntimeHpoProposal))
  | reported (intermediate : RuntimeHpoIntermediate)
      (answer : Result RuntimeHpoIntermediateOutcome)
  | told (trialId : Int) (terminal : RuntimeHpoTerminal) (answer : Result Unit)

/-- A procedure of the campaign. -/
abbrev Campaign (W α : Type) := Method DagMlError (Recording W SessionCall) α

namespace TunerSession

variable {W : Type} (session : TunerSession W)

def counting : Campaign W Nat := Method.recorded .counted session.trialHistoryLen

def asking : Campaign W (Option RuntimeHpoProposal) := Method.recorded .asked session.ask

def reporting (intermediate : RuntimeHpoIntermediate) :
    Campaign W RuntimeHpoIntermediateOutcome :=
  Method.recorded (.reported intermediate) (session.reportIntermediate intermediate)

def telling (trialId : Int) (terminal : RuntimeHpoTerminal) : Campaign W Unit :=
  Method.recorded (.told trialId terminal) (session.tell trialId terminal)

def tellingFailed (trialId : Int) (code message : String) : Campaign W Unit :=
  session.telling trialId (.failed { code, message, retryable := false })

end TunerSession

/-- `match call { Ok(..) => .., Err(..) => .. }`; a panic is nobody's to handle. -/
def catching (m : Campaign W α) : Campaign W (Result α) := do
  match ← m.attempt with
  | .error (.panicked message) => Method.lift (.error (.panicked message))
  | answer => pure answer

-- ---------------------------------------------------------------------------
-- What a campaign is given
-- ---------------------------------------------------------------------------

/-- The search space is known by its fingerprint, or by why it has none. -/
structure MethodsHpoStudyConfig where
  controllerId : String
  studyId : String
  methodsAbi : String
  searchSpaceFingerprint : Except HpoError String

structure RuntimeHpoSelectionTarget where
  producerNode : NodeId
  producerPort : String
  metric : RegressionMetricKind
  direction : HpoDirection

structure RuntimeHpoExecutionContext where
  operationId : String
  controllerId : ControllerId
  targetNodeId : NodeId
  baseVariant : VariantPlan
  trialBudgetTotal : Nat
  study : MethodsHpoStudyConfig
  parameterPaths : BTreeMap String String
  resumeVariants : BTreeMap Int VariantId
  selection : RuntimeHpoSelectionTarget
  provenance : RuntimeHpoProvenance

structure RuntimeHpoCampaignTask where
  runId : RunId
  operationId : String
  controllerId : ControllerId
  targetNodeId : NodeId
  seed : Option UInt64

/-- A plan with its variants and what its aggregation policy says of reports. -/
structure HpoPlan extends ExecutionPlan where
  variants : List VariantPlan
  selectionMetricLevel : PredictionLevel
  groupingKey : Option AggregationGroupingKey

/-- A scope that carries the variant it runs. -/
structure CandidateScope extends PhaseScope where
  variant : Option VariantPlan
  seedRoot : Option UInt64

/-- A run context with its reports; the stores no report is read from are `Rest`. -/
structure CandidateContext (Rest : Type) extends RunContext where
  scoreCollector : List RegressionMetricReport
  rest : Rest

/-- A candidate with the validation reports of its run. -/
structure ReportedCandidate extends RuntimeHpoCandidateEvaluation where
  validationReports : List RegressionMetricReport

structure RuntimeHpoCampaignResult where
  operationId : String
  controllerId : ControllerId
  targetNodeId : NodeId
  candidates : List ReportedCandidate
  checkpoint : RuntimeHpoCheckpointResult
  incumbent : RuntimeHpoIncumbent
  terminalTrials : List RuntimeHpoTerminalSnapshot

/-- What the campaign calls of elsewhere: the controllers `C` and the data
provider behind a scope, the validators of a plan, and the scoring of a run. -/
structure HpoServices (C W Rest : Type) where
  externals : Externals
  sameChoice : GenerationChoice → GenerationChoice → Bool
  validatePlan : HpoPlan → Result Unit
  validateForPlan : RuntimeHpoExecutionContext → HpoPlan → Result Unit
  createTunerSession :
    C → RuntimeHpoCampaignTask → RuntimeHpoExecutionContext → Method DagMlError W (TunerSession W)
  /-- The rest of a new context, with the resource limits of another. -/
  limitedBy : Rest → Rest
  configureGlobalOofAggregation :
    HpoPlan → CandidateContext Rest → Method DagMlError W (CandidateContext Rest)
  executePhaseScope :
    HpoPlan → CandidateScope → CandidateContext Rest → Method DagMlError W (CandidateContext Rest)
  collectCrossFoldValidationScoresForTarget : FoldPartitionMode → RegressionMetricKind →
    Option NodeId → CandidateContext Rest → Result (CandidateContext Rest)
  captureVariantValidationPredictions :
    VariantId → Option String → CandidateContext Rest → VariantValidationPredictions

/-- `as_str()`. -/
def TargetMissingRefusal.asStr : TargetMissingRefusal → String
  | .unknownSample => "unknown_sample"
  | .inCvUniverse => "in_cv_universe"
  | .noObservedTargets => "no_observed_targets"
  | .insufficientObservedTargets => "insufficient_observed_targets"
  | .emptyValidationFold => "empty_validation_fold"
  | .emptyTrainFold => "empty_train_fold"
  | .scoredResult => "scored_result"

/-- `to_string()`. -/
def DagMlError.text : DagMlError → String
  | .invalidIdentifier value reason => s!"invalid identifier `{value}`: {reason}"
  | .graphValidation detail => s!"graph validation failed: {detail}"
  | .campaignValidation detail => s!"campaign validation failed: {detail}"
  | .planning detail => s!"planning failed: {detail}"
  | .runtimeValidation detail => s!"runtime validation failed: {detail}"
  | .oofValidation detail => s!"OOF validation failed: {detail}"
  | .oofLeakage report =>
    s!"OOF leakage at `{report.nodeId}`: {report.violators.length} violator(s); {report.remediation}"
  | .targetMissing report =>
    s!"target-missing exclusion refused ({report.reason.asStr}): {report.detail}"
  | .serialization detail => s!"serialization error: {detail}"
  | .panicked message => message

-- ---------------------------------------------------------------------------
-- The books
-- ---------------------------------------------------------------------------

inductive HpoTrialTerminalState
  | completed | pruned | failed
  deriving DecidableEq

/-- What the loop over the trials keeps. -/
structure TrialBooks where
  candidates : List ReportedCandidate := []
  proposedVariantIds : Finset VariantId := ∅
  trialVariants : BTreeMap Int VariantId := ∅
  incumbentVariants : BTreeMap Int VariantId
  terminalTrials : BTreeMap Int HpoTrialTerminalState := ∅
  completedProposals : List RuntimeHpoProposal := []
  completedReports : List RuntimeHpoCompletedReport := []
  firstCandidateError : Option String := none

def TrialBooks.terminated (self : TrialBooks) (trialId : Int) (state : HpoTrialTerminalState) :
    TrialBooks :=
  { self with terminalTrials := self.terminalTrials.insert trialId state }

section

variable {C W Rest : Type} (services : HpoServices C W Rest) (session : TunerSession W)
  (plan : HpoPlan) (hpo : RuntimeHpoExecutionContext)

/-- The choice patches another node, another parameter or the topology. -/
def changesUndeclared (choice : GenerationChoice) : Prop :=
  (∃ patch ∈ choice.paramOverrides, patch.nodeId ≠ hpo.targetNodeId ∨
    ∃ key ∈ patch.params.keys, key ∉ hpo.parameterPaths.toList.map Prod.snd) ∨
  choice.activeSubsequence ≠ none

instance (choice : GenerationChoice) : Decidable (changesUndeclared hpo choice) :=
  inferInstanceAs (Decidable (_ ∨ _))

def validateProposalChoices (proposal : RuntimeHpoProposal) : Result Unit :=
  each proposal.variant.choices.toList fun entry =>
    refuseIf ((hpo.baseVariant.choices[entry.1]?.any (services.sameChoice · entry.2)) = false ∧
      changesUndeclared hpo entry.2)
      (.runtimeValidation "native HPO proposal changes undeclared parameters or topology")

def admitProposal (books : TrialBooks) (proposal : RuntimeHpoProposal) : Result TrialBooks := do
  let trialId := proposal.trialId
  let variantId := proposal.variant.variantId
  vacant books.trialVariants[trialId]? fun _ =>
    .runtimeValidation s!"runtime HPO session proposed duplicate trial `{trialId}`"
  vacant books.incumbentVariants[trialId]? fun _ =>
    .runtimeValidation s!"runtime HPO session reused restored trial `{trialId}`"
  refuseIf (variantId ∈ books.proposedVariantIds)
    (.runtimeValidation s!"runtime HPO session proposed duplicate variant `{variantId}`")
  validateProposalChoices services hpo proposal
  pure { books with
    trialVariants := books.trialVariants.insert trialId variantId
    incumbentVariants := books.incumbentVariants.insert trialId variantId
    proposedVariantIds := insert variantId books.proposedVariantIds }

-- ---------------------------------------------------------------------------
-- One candidate through the folds
-- ---------------------------------------------------------------------------

/-- A validation report of the selected output, at the level scores are compared. -/
def isTargetReport (report : RegressionMetricReport) : Bool :=
  report.producerNode = hpo.selection.producerNode &&
    report.producerPort = some hpo.selection.producerPort && report.partition = .validation &&
    report.level = plan.selectionMetricLevel && report.groupingKey = plan.groupingKey

/-- `metrics.get(name).copied().filter(|score| score.is_finite())`. -/
def RegressionMetricReport.finiteMetric (self : RegressionMetricReport) (name : String) :
    Option Binary64 :=
  self.metrics[name]?.filter (·.isFinite)

/-- The score of the one report a fold added. -/
def foldScore (trialId : Int) (foldId : FoldId) (added : List RegressionMetricReport) :
    Result Binary64 :=
  let fold := s!"Some(FoldId(\"{foldId}\"))"
  match added.filter fun report =>
    isTargetReport plan hpo report && report.foldId = some foldId with
  | [report] => need (report.finiteMetric hpo.selection.metric.name) (.runtimeValidation
      s!"runtime HPO trial `{trialId}` fold {fold} emitted no finite `{hpo.selection.metric.name}` intermediate score")
  | reports => throw (.runtimeValidation
      s!"runtime HPO trial `{trialId}` must emit exactly one target validation report per fold; fold {fold} emitted {reports.length}")

/-- `i32::try_from(step)`. -/
def intermediateStep (step : Nat) : Result Int := do
  refuseIf (2 ^ 31 ≤ step)
    (.runtimeValidation "runtime HPO fold intermediate count exceeds i32")
  pure step

inductive HpoCandidateFitCvOutcome
  | completed | pruned

/-- The folds from `step` on. -/
def evaluateFolds (trialId : Int) (variant : VariantPlan) :
    Nat → List FoldAssignment → CandidateContext Rest →
      Campaign W (HpoCandidateFitCvOutcome × CandidateContext Rest)
  | _, [], ctx => pure (.completed, ctx)
  | step, fold :: folds, ctx => do
    let scope : CandidateScope := {
      phase := .fitCv, variantId := some variant.variantId, foldId := some fold.foldId
      variant := some variant, seedRoot := variant.seed.or ctx.rootSeed }
    let scored ← Method.silent (services.executePhaseScope plan scope ctx)
    let added := scored.scoreCollector.drop ctx.scoreCollector.length
    let score ← Method.lift (foldScore plan hpo trialId fold.foldId added)
    let intermediate ← Method.lift (intermediateStep step)
    match ← session.reporting { trialId, step := intermediate, score } with
    | .pruned => pure (.pruned, scored)
    | .continues => evaluateFolds trialId variant (step + 1) folds scored

def executeHpoCandidateFitCv (trialId : Int) (ctx : CandidateContext Rest) :
    Campaign W (HpoCandidateFitCvOutcome × CandidateContext Rest) := do
  let ctx ← Method.silent (services.configureGlobalOofAggregation plan ctx)
  let foldSet ← Method.lift
    (need plan.foldSet (.panicked "progressive HPO topology was preflighted"))
  let variant ← Method.lift
    (need plan.variants.head? (.panicked "candidate plan has exactly one variant"))
  evaluateFolds services session plan hpo trialId variant 0 foldSet.folds ctx

-- ---------------------------------------------------------------------------
-- One trial
-- ---------------------------------------------------------------------------

/-- The trial is told and written down under every heading. -/
def completeTrial (books : TrialBooks) (proposal : RuntimeHpoProposal)
    (ctx : CandidateContext Rest) (report : RegressionMetricReport) (score : Binary64) :
    Campaign W TrialBooks := do
  let variantId := proposal.variant.variantId
  session.telling proposal.trialId (.completed score)
  let validationReports := (ctx.scoreCollector.filter (·.partition = .validation)).map fun item =>
    { item with variantId := some variantId }
  let candidate : ReportedCandidate := {
    proposal, score, validationReports
    validationPredictions := services.captureVariantValidationPredictions variantId none ctx
    lineage := ctx.lineage.records }
  let books := books.terminated proposal.trialId .completed
  pure { books with
    completedProposals := books.completedProposals ++ [proposal]
    completedReports := books.completedReports ++ [{ trialId := proposal.trialId, variantId, report }]
    candidates := books.candidates ++ [candidate] }

/-- The cross-fold average of the selected output, and its score. -/
def scoreTrial (books : TrialBooks) (proposal : RuntimeHpoProposal)
    (ctx : CandidateContext Rest) : Campaign W TrialBooks := do
  let trialId := proposal.trialId
  let average := ctx.scoreCollector.find? fun report =>
    isTargetReport plan hpo report && report.foldId.any (·.value = "avg")
  match average with
  | none => do
    session.tellingFailed trialId "DAGML_SCORE_MISSING"
      s!"runtime HPO trial `{trialId}` emitted no target OOF average"
    pure (books.terminated trialId .failed)
  | some report => do
    let report := { report with variantId := some proposal.variant.variantId }
    match report.finiteMetric hpo.selection.metric.name with
    | none => do
      session.tellingFailed trialId "DAGML_SCORE_NONFINITE"
        s!"runtime HPO trial `{trialId}` emitted no finite `{hpo.selection.metric.name}` score"
      pure (books.terminated trialId .failed)
    | some score => completeTrial services session books proposal ctx report score

/-- A run through all folds, scored across them. -/
def finishTrial (candidatePlan : HpoPlan) (books : TrialBooks) (proposal : RuntimeHpoProposal)
    (ctx : CandidateContext Rest) : Campaign W TrialBooks := do
  let scored ← catching (Method.lift (services.collectCrossFoldValidationScoresForTarget
    (planOofPartitionMode candidatePlan.toExecutionPlan) hpo.selection.metric
    (some hpo.selection.producerNode) ctx))
  match scored with
  | .error error => do
    session.tellingFailed proposal.trialId "DAGML_SCORE_ERROR" error.text
    Method.lift (.error error)
  | .ok ctx => scoreTrial services session plan hpo books proposal ctx

/-- An invalid numerical candidate fails its trial; any other error is fatal. -/
def failTrial (books : TrialBooks) (trialId : Int) (error : DagMlError) : Campaign W TrialBooks :=
  match error with
  | .runtimeValidation _ => do
    session.tellingFailed trialId "DAGML_CV_ERROR" error.text
    pure { books.terminated trialId .failed with
      firstCandidateError := books.firstCandidateError.or (some error.text) }
  | _ => Method.lift (.error error)

def candidateContext (ctx : CandidateContext Rest) (variant : VariantPlan) :
    CandidateContext Rest :=
  { RunContext.new ctx.runId (variant.seed.or ctx.rootSeed) with
    variantId := some variant.variantId
    scoreCollector := []
    rest := services.limitedBy ctx.rest }

def runTrial (ctx : CandidateContext Rest) (books : TrialBooks) (proposal : RuntimeHpoProposal) :
    Campaign W TrialBooks := do
  let books ← Method.lift (admitProposal services hpo books proposal)
  let candidatePlan := { plan with variants := [proposal.variant] }
  Method.lift (services.validatePlan candidatePlan)
  let evaluation ← catching (executeHpoCandidateFitCv services session candidatePlan hpo
    proposal.trialId (candidateContext services ctx proposal.variant))
  match evaluation with
  | .error error => failTrial session books proposal.trialId error
  | .ok (.pruned, _) => pure (books.terminated proposal.trialId .pruned)
  | .ok (.completed, ctx) =>
    finishTrial services session plan hpo candidatePlan books proposal ctx

/-- `for _ in 0..remaining`, until the session has no further proposal. -/
def runTrials (ctx : CandidateContext Rest) : Nat → TrialBooks → Campaign W TrialBooks
  | 0, books => pure books
  | remaining + 1, books => do
    match ← session.asking with
    | none => pure books
    | some proposal => do
      let books ← runTrial services session plan hpo ctx books proposal
      runTrials ctx remaining books

-- ---------------------------------------------------------------------------
-- The checkpoint
-- ---------------------------------------------------------------------------

deriving instance DecidableEq for RuntimeHpoProvenance

/-- The identities and the counts of a checkpoint. -/
def validateCheckpointBinding (checkpoint : RuntimeHpoCheckpointResult)
    (trialVariants : BTreeMap Int VariantId) (historyAtStart : Nat) : Result Unit := do
  (checkpoint.artifact.validate services.externals.sha256).mapError fun error =>
    .runtimeValidation s!"runtime HPO checkpoint artifact is invalid: {error.text}"
  refuseIf (checkpoint.operationId ≠ hpo.operationId ∨
    checkpoint.controllerId ≠ hpo.controllerId ∨ checkpoint.targetNodeId ≠ hpo.targetNodeId ∨
    checkpoint.provenance ≠ hpo.provenance) (.runtimeValidation
    "runtime HPO checkpoint provenance does not exactly match its execution context")
  refuseIf (2 ^ 32 ≤ trialVariants.size)
    (.runtimeValidation "runtime HPO scheduler proposal count does not fit u32")
  refuseIf (hpo.trialBudgetTotal < checkpoint.trialHistoryLen ∨
    checkpoint.trialHistoryLen < historyAtStart ∨
    checkpoint.trialHistoryLen - historyAtStart ≠ trialVariants.size) (.runtimeValidation
    "runtime HPO checkpoint native history is inconsistent with scheduler-observed trials")
  let binding := checkpoint.artifact.binding
  refuseIf (binding.controllerId ≠ hpo.controllerId.value ∨
    binding.controllerId ≠ hpo.study.controllerId ∨ binding.studyId ≠ hpo.study.studyId ∨
    checkpoint.artifact.methodsAbi ≠ hpo.study.methodsAbi) (.runtimeValidation
    "runtime HPO checkpoint binding/controller/study does not match the active tuner")
  let expected ← hpo.study.searchSpaceFingerprint.mapError fun error =>
    .runtimeValidation s!"runtime HPO cannot fingerprint the configured search space: {error.text}"
  refuseIf (binding.searchSpaceFingerprint ≠ expected) (.runtimeValidation
    "runtime HPO checkpoint search-space binding does not match the active study")

def validateCheckpointProposal (trialVariants : BTreeMap Int VariantId)
    (proposal : RuntimeHpoProposal) : Result Unit :=
  refuseIf (trialVariants[proposal.trialId]? ≠ some proposal.variant.variantId) (.runtimeValidation
    s!"runtime HPO checkpoint proposal for trial `{proposal.trialId}` does not exactly match its scheduler proposal")

def validateCheckpointReport (trialVariants : BTreeMap Int VariantId)
    (proposalTrialIds : Finset Int) (completed : RuntimeHpoCompletedReport) : Result Unit := do
  refuseIf (trialVariants[completed.trialId]? ≠ some completed.variantId ∨
    completed.trialId ∉ proposalTrialIds) (.runtimeValidation
    s!"runtime HPO checkpoint report for trial `{completed.trialId}` does not match a completed proposal")
  let report := completed.report
  refuseIf (isTargetReport plan hpo report = false ∨
    report.foldId.all (·.value ≠ "avg") ∨ report.variantId ≠ some completed.variantId ∨
    report.metrics[hpo.selection.metric.name]?.any (·.isFinite) = false) (.runtimeValidation
    s!"runtime HPO checkpoint report for trial `{completed.trialId}` is not its one finite target OOF average")

def validateHpoCheckpointResult (checkpoint : RuntimeHpoCheckpointResult)
    (trialVariants : BTreeMap Int VariantId)
    (terminalTrials : BTreeMap Int HpoTrialTerminalState) (historyAtStart : Nat) :
    Result Unit := do
  validateCheckpointBinding services hpo checkpoint trialVariants historyAtStart
  let completedTrialIds :=
    ((terminalTrials.toList.filter (·.2 = .completed)).map Prod.fst).toFinset
  eachFresh (·.trialId) (validateCheckpointProposal trialVariants)
    (fun proposal => .runtimeValidation
      s!"runtime HPO checkpoint has duplicate completed proposal for trial `{proposal.trialId}`")
    checkpoint.completedProposals
  let proposalTrialIds := (checkpoint.completedProposals.map (·.trialId)).toFinset
  refuseIf (proposalTrialIds ≠ completedTrialIds) (.runtimeValidation
    "runtime HPO checkpoint proposals must cover exactly the completed trials")
  eachFresh (·.trialId) (validateCheckpointReport plan hpo trialVariants proposalTrialIds)
    (fun completed => .runtimeValidation
      s!"runtime HPO checkpoint has duplicate completed report for trial `{completed.trialId}`")
    checkpoint.completedReports
  refuseIf ((checkpoint.completedReports.map (·.trialId)).toFinset ≠ completedTrialIds)
    (.runtimeValidation
    "runtime HPO checkpoint reports must cover exactly one OOF average per completed trial")

-- ---------------------------------------------------------------------------
-- The campaign
-- ---------------------------------------------------------------------------

def validateHpoProgressiveFoldTopology : Result Unit := do
  let campaigns ← plan.nestedStackingCampaignPlans services.externals
  refuseIf (campaigns.isEmpty = false) (.runtimeValidation
    "runtime HPO progressive pruning does not support nested-stacking FIT_CV; the scheduler cannot attest one report-grade intermediate per outer fold")
  let foldSet ← need plan.foldSet (.runtimeValidation
    "runtime HPO progressive pruning requires an explicit validated fold set")
  refuseIf (foldSet.partitionMode ≠ .partition) (.runtimeValidation
    "runtime HPO progressive pruning requires FoldPartitionMode::Partition; resampled folds cannot attest one stable validation resource step per sample")
  refuseIf (2 ^ 31 ≤ foldSet.folds.length) (.runtimeValidation
    "runtime HPO fold count exceeds the native intermediate step range")

/-- Every controller of FIT_CV is registered. -/
def validateFitCvControllers [RuntimeController C] (controllers : RuntimeControllerRegistry C) :
    Result Unit :=
  each (plan.nodePlans.toList.filter (Phase.fitCv ∈ ·.2.supportedPhases)) fun entry =>
    refuseIf (controllers.get entry.2.controllerId).isNone (.runtimeValidation
      s!"native HPO FIT_CV controller `{entry.2.controllerId}` for node `{entry.2.nodeId}` is not registered")

/-- What the session knows when all trials have ended. -/
def concludeCampaign (historyAtStart : Nat) (books : TrialBooks) :
    Campaign W RuntimeHpoCampaignResult := do
  let historyAtCheckpoint ← session.counting
  Method.lift (refuseIf (hpo.trialBudgetTotal < historyAtCheckpoint) (.runtimeValidation
    s!"runtime HPO native history ended at {historyAtCheckpoint}, expected total trial budget {hpo.trialBudgetTotal}"))
  let artifact ← Method.silent session.checkpoint
  let checkpoint : RuntimeHpoCheckpointResult := {
    artifact
    provenance := hpo.provenance
    operationId := hpo.operationId
    controllerId := hpo.controllerId
    targetNodeId := hpo.targetNodeId
    completedProposals := books.completedProposals
    completedReports := books.completedReports
    trialHistoryLen := historyAtCheckpoint }
  Method.lift (validateHpoCheckpointResult services plan hpo checkpoint books.trialVariants
    books.terminalTrials historyAtStart)
  let incumbent ← Method.silent (session.incumbent books.incumbentVariants)
  let detail := (books.firstCandidateError.map fun error => s!"; first candidate failure: {error}").getD ""
  let incumbent ← Method.lift (need incumbent (.runtimeValidation
    s!"native HPO campaign has no completed native incumbent after terminalization{detail}"))
  Method.lift (refuseIf (incumbent.metric ≠ hpo.selection.metric.name ∨
    incumbent.direction ≠ hpo.selection.direction ∨
    books.incumbentVariants[incumbent.trialId]? ≠ some incumbent.variantId ∨
    incumbent.score.isFinite = false) (.runtimeValidation
    "native HPO incumbent is not bound to this scheduler campaign's metric, direction, trial, and variant"))
  let terminalTrials ← Method.silent (session.terminalTrialSnapshots books.incumbentVariants)
  Method.lift (refuseIf (terminalTrials.length ≠ historyAtCheckpoint ∨
    ∃ pair ∈ Ledger.windows terminalTrials, pair.2.trial.id ≤ pair.1.trial.id) (.runtimeValidation
    "native HPO terminal ledger is not a complete strictly ordered history"))
  pure {
    operationId := hpo.operationId
    controllerId := hpo.controllerId
    targetNodeId := hpo.targetNodeId
    candidates := books.candidates
    checkpoint, incumbent, terminalTrials }

def executeHpoCampaign [RuntimeController C] (controllers : RuntimeControllerRegistry C)
    (ctx : CandidateContext Rest) : Campaign W RuntimeHpoCampaignResult := do
  Method.lift (services.validatePlan plan)
  Method.lift (services.validateForPlan hpo plan)
  Method.lift (validateHpoProgressiveFoldTopology services plan)
  let controller ← Method.lift (need (controllers.get hpo.controllerId) (.runtimeValidation
    s!"runtime HPO campaign controller `{hpo.controllerId}` is not registered"))
  let task : RuntimeHpoCampaignTask := {
    runId := ctx.runId, operationId := hpo.operationId, controllerId := hpo.controllerId
    targetNodeId := hpo.targetNodeId, seed := ctx.rootSeed }
  let session ← Method.silent (services.createTunerSession controller task hpo)
  let historyAtStart ← session.counting
  Method.lift (refuseIf (hpo.trialBudgetTotal < historyAtStart) (.runtimeValidation
    s!"runtime HPO restored native history ({historyAtStart}) exceeds total trial budget ({hpo.trialBudgetTotal})"))
  Method.lift (validateFitCvControllers plan controllers)
  let books ← runTrials services session plan hpo ctx (hpo.trialBudgetTotal - historyAtStart)
    { incumbentVariants := hpo.resumeVariants }
  concludeCampaign services session plan hpo historyAtStart books

end

end DagMl
