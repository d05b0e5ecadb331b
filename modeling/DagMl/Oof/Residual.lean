import Mathlib
import DagMl.Aggregation.Exact
import DagMl.Lib.LeastSquares
import DagMl.Oof.Coverage
import DagMl.Oof.Join

/-!
# Residual targets

The second stage of a residual learner: its targets are what the base model's
out-of-fold predictions leave, and its own predictions are added with a gate
estimated from its out-of-fold rows. Numbers are read from the floats as they are
and computed with exactly; `sqrt` stands for the square root.
-/

namespace DagMl

open Checked WeightedRows

structure ResidualTargetSet (K : Type) where
  baseProducer : NodeId
  sampleIds : List SampleId
  values : List (List K)
  targetNames : List String

inductive ResidualGate (K : Type)
  | disabled
  | fixed (value : K)
  | automatic (rliThreshold : K)

/-- `ResidualGateResult` with exact numbers. -/
structure ExactGateResult (K : Type) where
  gate : K
  rli : K

variable {K : Type} [Field K]

-- ---------------------------------------------------------------------------
-- The gate
-- ---------------------------------------------------------------------------

/-- The targets and learner predictions of one sample, behind those before it. -/
def pushGateRow (learnerOof : BTreeMap SampleId (List K)) (width : Nat)
    (pooled : List K × List K) (entry : SampleId × List K) : Result (List K × List K) := do
  let prediction ← need learnerOof[entry.1]? (.panicked "no entry found for key")
  refuseIf (entry.2.length ≠ width ∨ prediction.length ≠ width) (.oofValidation
    s!"residual gate requires {width} finite target and learner values for sample `{entry.1}`")
  pure (pooled.1 ++ entry.2, pooled.2 ++ prediction)

def arithmeticMean (values : List K) : K := values.sum / values.length

/-- One minus the root mean squared error over the standard deviation of the residual. -/
def learnabilityIndex [DecidableEq K] (sqrt : K → K) (residual learner : List K) : K :=
  let mean := arithmeticMean residual
  let sd := sqrt (arithmeticMean (residual.map fun value => (value - mean) ^ 2))
  let rmse := sqrt (arithmeticMean
    (List.zipWith (fun target prediction => (target - prediction) ^ 2) residual learner))
  1 - rmse / (if sd = 0 then 1 else sd)

variable [LinearOrder K]

/-- `x.clamp(low, high)`. -/
def clamp (x low high : K) : K := if x < low then low else if high < x then high else x

def automaticGate (residual learner : List K) (rli rliThreshold : K) : K :=
  let denominator := (learner.map fun value => value * value).sum
  let fitted :=
    if 1 / 10 ^ 12 < denominator then
      (List.zipWith (fun target prediction => target * prediction) residual learner).sum /
        denominator
    else 0
  if rli ≤ rliThreshold then 0 else clamp fitted 0 1

def calibrateResidualGate (sqrt : K → K) (targets : ResidualTargetSet K)
    (learnerOof : BTreeMap SampleId (List K)) (policy : ResidualGate K) :
    Result (ExactGateResult K) := do
  refuseIf (targets.sampleIds.toFinset.card ≠ targets.sampleIds.length ∨
      learnerOof.keys.toFinset ≠ targets.sampleIds.toFinset) (.oofValidation
    "residual gate requires learner OOF over exactly the residual target samples")
  let width := (targets.values.head?.map List.length).getD 0
  refuseIf (width = 0 ∨ targets.values.length ≠ targets.sampleIds.length)
    (.oofValidation "residual gate received malformed residual targets")
  let (residual, learner) ← loop (pushGateRow learnerOof width) ([], [])
    (targets.sampleIds.zip targets.values)
  let rli := learnabilityIndex sqrt residual learner
  let gate := match policy with
    | .disabled => 1
    | .fixed value => value
    | .automatic rliThreshold => automaticGate residual learner rli rliThreshold
  pure ⟨gate, rli⟩

-- ---------------------------------------------------------------------------
-- The fusion
-- ---------------------------------------------------------------------------

def fuseSample (learner : BTreeMap SampleId (List K)) (lambda : K) (gate : ExactGateResult K)
    (entry : SampleId × List K) : Result (SampleId × List K) := do
  let learnerRow ← need learner[entry.1]? (.panicked "no entry found for key")
  refuseIf (entry.2 = [] ∨ entry.2.length ≠ learnerRow.length) (.oofValidation
    s!"residual fusion received inconsistent finite prediction widths for sample `{entry.1}`")
  pure (entry.1,
    List.zipWith (fun base learned => base + lambda * gate.gate * learned) entry.2 learnerRow)

def fuseResidualPredictions (base learner : BTreeMap SampleId (List K)) (lambda : K)
    (gate : ExactGateResult K) : Result (BTreeMap SampleId (List K)) := do
  refuseIf (base.isEmpty ∨ base.keys ≠ learner.keys) (.oofValidation
    "residual fusion requires matching non-empty base and learner sample identities")
  let fused ← collect base.toList (fuseSample learner lambda gate)
  pure (BTreeMap.collect fused)

-- ---------------------------------------------------------------------------
-- The targets
-- ---------------------------------------------------------------------------

/-- The width and target names of the blocks so far. -/
structure BaseContract where
  width : Option Nat
  targetNames : Option (List String)

def checkBaseBlock (baseProducer : NodeId) (contract : BaseContract) (block : PredictionBlock) :
    Result BaseContract := do
  refuseIf (block.producerNode ≠ baseProducer) (.oofValidation
    s!"residual target derivation expected base producer `{baseProducer}`, got `{block.producerNode}`")
  refuseIf (block.partition ≠ .validation) (.oofValidation
    s!"residual target derivation accepts only validation OOF, got {block.partition.debug}")
  let blockWidth ← block.validateContent
  refuseIf (contract.width.any (· ≠ blockWidth))
    (.oofValidation "residual base predictions have inconsistent target widths")
  refuseIf (contract.targetNames.any (· ≠ block.targetNames))
    (.oofValidation "residual base predictions have inconsistent target names")
  pure ⟨some blockWidth, some (contract.targetNames.getD block.targetNames)⟩

/-- One more row of a sample: its sum column by column, and the count. -/
def addPrediction (width : Nat) (sums : BTreeMap SampleId (List K × Nat))
    (entry : SampleId × List Binary64) : BTreeMap SampleId (List K × Nat) :=
  let slot := sums.getD entry.1 (List.replicate width 0, 0)
  sums.insert entry.1 (addRow (fun value => value) slot.1 (entry.2.map Binary64.exact), slot.2 + 1)

def residualRow (observedTargets : BTreeMap SampleId (List Binary64)) (width : Nat)
    (sums : BTreeMap SampleId (List K × Nat)) (sample : SampleId) : Result (List K) := do
  let observed ← need observedTargets[sample]? (.oofValidation
    s!"residual target derivation has no observed target for sample `{sample}`")
  refuseIf (observed.length ≠ width ∨ ∃ value ∈ observed, value.isFinite = false) (.oofValidation
    s!"residual observed target for sample `{sample}` must have {width} finite value(s)")
  let slot ← need sums[sample]? (.panicked "validated OOF covers all requested samples")
  pure (List.zipWith (fun target total => target - total / slot.2)
    (observed.map Binary64.exact) slot.1)

def deriveResidualTargets (foldSet : FoldSet) (baseProducer : NodeId)
    (basePredictions : List PredictionBlock) (observedTargets : BTreeMap SampleId (List Binary64)) :
    Result (ResidualTargetSet K) := do
  foldSet.validate
  refuseIf (basePredictions = [])
    (.oofValidation "residual target derivation requires base validation OOF predictions")
  let contract ← loop (checkBaseBlock baseProducer) ⟨none, none⟩ basePredictions
  validatePredictionBlocksAgainstFolds foldSet basePredictions
  validateProducerOofCoverage baseProducer basePredictions foldSet.partitionMode
    (some foldSet.sampleIds.toFinset)
  let width ← need contract.width
    (.panicked "nonempty base predictions have a validated width")
  let sums := (basePredictions.flatMap (·.rows)).foldl (addPrediction width) ∅
  let values ← collect foldSet.sampleIds (residualRow observedTargets width sums)
  pure {
    baseProducer, sampleIds := foldSet.sampleIds, values
    targetNames := contract.targetNames.getD [] }

end DagMl
