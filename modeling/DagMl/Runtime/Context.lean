import DagMl.Metrics.Targets
import DagMl.Plan

/-!
# Run contexts

What a run has collected so far: prediction blocks, target records, lineage
and calibrated residual gates.
-/

namespace DagMl

open Checked

-- ---------------------------------------------------------------------------
-- Predictions
-- ---------------------------------------------------------------------------

structure InMemoryPredictionStore where
  blocks : List PredictionBlock

namespace InMemoryPredictionStore

def new : InMemoryPredictionStore := ⟨[]⟩

def append (self : InMemoryPredictionStore) (block : PredictionBlock) :
    Result InMemoryPredictionStore := do
  let _ ← block.validateContent
  pure ⟨self.blocks ++ [block]⟩

/-- `requested.is_none_or(|r| value == r)`. -/
def requests [DecidableEq α] (requested : Option α) (value : α) : Bool :=
  match requested with
  | none => true
  | some r => value = r

def find (self : InMemoryPredictionStore) (producerNode : Option NodeId)
    (phasePartition : Option PredictionPartition) (foldId : Option FoldId) :
    List PredictionBlock :=
  self.blocks.filter fun block =>
    requests producerNode block.producerNode && requests phasePartition block.partition &&
      requests (foldId.map some) block.foldId

end InMemoryPredictionStore

structure RegressionTargetRecord where
  producerNode : NodeId
  producerPort : Option String
  partition : PredictionPartition
  foldId : Option FoldId
  variantId : Option VariantId
  block : RegressionTargetBlock

-- ---------------------------------------------------------------------------
-- Lineage
-- ---------------------------------------------------------------------------

structure LineageRecord where
  recordId : LineageId
  runId : RunId
  nodeId : NodeId
  phase : Phase
  controllerId : ControllerId
  controllerVersion : String
  variantId : Option VariantId
  foldId : Option FoldId
  inputLineage : List LineageId
  paramsFingerprint : String

structure InMemoryLineageRecorder where
  entries : BTreeMap LineageId LineageRecord

/-- The records in the order of their ids. -/
def InMemoryLineageRecorder.records (self : InMemoryLineageRecorder) : List LineageRecord :=
  self.entries.toList.map Prod.snd

-- ---------------------------------------------------------------------------
-- Residual gates
-- ---------------------------------------------------------------------------

/-- The key of a calibrated gate; without a fold it is the full-training gate. -/
structure GateScope where
  variantId : Option VariantId
  foldId : Option FoldId
  deriving DecidableEq

/-- Pairs compare by their first component first, and `None` is least. -/
def GateScope.orderKey (scope : GateScope) : WithBot VariantId ×ₗ WithBot FoldId :=
  toLex (scope.variantId, scope.foldId)

theorem GateScope.orderKey_injective : Function.Injective GateScope.orderKey := by
  rintro ⟨v, f⟩ ⟨v', f'⟩ h
  cases h
  rfl

instance GateScope.linearOrder : LinearOrder GateScope :=
  LinearOrder.lift' GateScope.orderKey GateScope.orderKey_injective

structure ResidualGateResult where
  gate : Binary64
  rli : Binary64
  deriving DecidableEq

/-- `==`, which compares the fields as floats. -/
def ResidualGateResult.eq (a b : ResidualGateResult) : Bool := a.gate.eq b.gate && a.rli.eq b.rli

structure RunContext where
  runId : RunId
  rootSeed : Option UInt64
  variantId : Option VariantId
  predictionStore : InMemoryPredictionStore
  lineage : InMemoryLineageRecorder
  regressionTargetRecords : List RegressionTargetRecord
  residualGates : BTreeMap GateScope ResidualGateResult

def RunContext.new (runId : RunId) (rootSeed : Option UInt64) : RunContext where
  runId
  rootSeed
  variantId := none
  predictionStore := .new
  lineage := ⟨∅⟩
  regressionTargetRecords := []
  residualGates := ∅

end DagMl
