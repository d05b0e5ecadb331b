import DagMl.Aggregation.Exact
import DagMl.Lib.Index

/-!
# Fusing blocks

Blocks of several folds or branches, fused into one sample by sample: each
sample is averaged over the blocks that hold it. The reducers share one loop
and differ in what they ask of the blocks.
-/

namespace DagMl

open Checked WeightedRows

variable {K : Type} [Field K]

/-- The samples met so far in order, with their weighted sums and total weights. -/
structure Fusion (K : Type) where
  order : List SampleId
  sums : BTreeMap SampleId (List K × K)

namespace Fusion

def empty : Fusion K := ⟨[], ∅⟩

/-- One row; a new sample opens a slot of zeros. -/
def push (width : Nat) (weight : K) (self : Fusion K) (entry : SampleId × List K) : Fusion K :=
  let slot := self.sums.getD entry.1 (List.replicate width 0, 0)
  { order := if entry.1 ∈ self.sums then self.order else self.order ++ [entry.1]
    sums := self.sums.insert entry.1 (addRow (· * weight) slot.1 entry.2, slot.2 + weight) }

end Fusion

/-- What one reducer says where another says something else. -/
structure FusionTexts where
  weights : String
  ragged : String
  zeroTotal : String

def crossFold : FusionTexts where
  weights := "cross-fold reduction: weights must be finite and non-negative"
  ragged := "cross-fold reduction: ragged prediction width"
  zeroTotal := "cross-fold reduction: a sample had zero total weight"

def crossBranch : FusionTexts where
  weights := "cross-branch reduction: weights must be finite and non-negative"
  ragged := "cross-branch reduction: branches differ in prediction width"
  zeroTotal := "cross-branch reduction: a sample had zero total branch weight"

/-- The blocks with `weights.map_or(1.0, |weights| weights[position])`. -/
def weighted (blocks : List (ExactBlock K)) (weights : Option (List K)) :
    List (ExactBlock K × K) :=
  blocks.zip (weights.getD (List.replicate blocks.length 1))

section Fuse

variable [LinearOrder K] (texts : FusionTexts) (agrees : ExactBlock K → Result Unit) (width : Nat)

def fuseRow (weight : K) (fusion : Fusion K) (entry : SampleId × List K) : Result (Fusion K) := do
  refuseIf (entry.2.length ≠ width) (.oofValidation texts.ragged)
  pure (fusion.push width weight entry)

/-- One turn of the loop over the blocks. -/
def fuseBlock (fusion : Fusion K) (block : ExactBlock K × K) : Result (Fusion K) := do
  agrees block.1
  let _ ← block.1.validateContent
  refuseIf (block.2 < 0) (.oofValidation texts.weights)
  loop (fuseRow texts width block.2) fusion block.1.rows

def finishSample (sums : BTreeMap SampleId (List K × K)) (s : SampleId) : Result (List K) := do
  let slot ← need sums[s]? (.panicked "every sample in order has a slot")
  refuseIf (slot.2 ≤ 0) (.oofValidation texts.zeroTotal)
  pure (slot.1.map (· / slot.2))

/-- The samples in the order they are met, and their means. -/
def fuse (blocks : List (ExactBlock K × K)) : Result (List SampleId × List (List K)) := do
  let fusion ← loop (fuseBlock texts agrees width) .empty blocks
  let values ← collect fusion.order (finishSample texts fusion.sums)
  pure (fusion.order, values)

end Fuse

-- ---------------------------------------------------------------------------
-- The reducers
-- ---------------------------------------------------------------------------

section Reducers

variable [LinearOrder K]

def foldsAgree (first block : ExactBlock K) : Result Unit :=
  refuseIf (block.producerNode ≠ first.producerNode ∨ block.partition ≠ first.partition)
    (.oofValidation "cross-fold reduction: blocks differ in producer or partition")

def reducePredictionsAcrossFolds (blocks : List (ExactBlock K)) (weights : Option (List K))
    (foldLabel : String) : Result (ExactBlock K) := do
  let first ← need blocks.head?
    (.oofValidation "cross-fold reduction needs at least one block")
  whenSome weights fun weights => refuseIf (weights.length ≠ blocks.length) (.oofValidation
    s!"cross-fold weights ({weights.length}) must match block count ({blocks.length})")
  refuseIf (first.width = 0)
    (.oofValidation "cross-fold reduction: first block has empty prediction rows")
  let (order, values) ← fuse crossFold (foldsAgree first) first.width (weighted blocks weights)
  let foldId ← Id.new foldLabel
  pure {
    predictionId := none, producerNode := first.producerNode, producerPort := first.producerPort
    partition := first.partition, foldId := some foldId, sampleIds := order, values
    targetNames := first.targetNames }

def branchesAgree (first block : ExactBlock K) : Result Unit := do
  refuseIf (block.partition ≠ first.partition)
    (.oofValidation "cross-branch reduction: branches differ in partition")
  refuseIf (block.targetNames ≠ first.targetNames)
    (.oofValidation "cross-branch reduction: branches differ in target names")

def reducePredictionsAcrossBranches (branchBlocks : List (ExactBlock K))
    (weights : Option (List K)) (mergeNode : NodeId) : Result (ExactBlock K) := do
  let first ← need branchBlocks.head? (.oofValidation
    "cross-branch reduction needs at least one model-bearing branch")
  whenSome weights fun weights => refuseIf (weights.length ≠ branchBlocks.length) (.oofValidation
    s!"cross-branch weights ({weights.length}) must match model-bearing branch count ({branchBlocks.length})")
  let width ← first.validateShape
  let (order, values) ← fuse crossBranch (branchesAgree first) width (weighted branchBlocks weights)
  pure {
    predictionId := none, producerNode := mergeNode, producerPort := none
    partition := first.partition, foldId := first.foldId, sampleIds := order, values
    targetNames := first.targetNames }

/-- `PROBA_SUM_TOLERANCE`. -/
def probaSumTolerance : K := 1 / 10 ^ 6

/-- The probability check of one row; a sum is printed as the field prints it. -/
def checkProba [ToString K] (block : ExactBlock K) (entry : SampleId × List K) : Result Unit := do
  refuseIf (∃ value ∈ entry.2, value < 0) (.oofValidation
    s!"proba-mean fusion: branch `{block.producerNode}` sample `{entry.1}` has a negative class probability")
  refuseIf (probaSumTolerance < |entry.2.sum - 1|) (.oofValidation
    s!"proba-mean fusion: branch `{block.producerNode}` sample `{entry.1}` probabilities sum to {entry.2.sum}, not 1")

def checkProbaBlock [ToString K] (block : ExactBlock K) : Result Unit := do
  let width ← block.validateContent
  refuseIf (width < 2) (.oofValidation
    s!"proba-mean fusion: branch `{block.producerNode}` has width {width}, classification probabilities need at least 2 classes")
  each block.rows (checkProba block)

def normalizeRow (row : List K) : Result (List K) := do
  refuseIf (row.sum ≤ 0)
    (.oofValidation "proba-mean fusion: a fused sample has zero total probability")
  pure (normalized row)

def reduceProbaMeanAcrossBranches [ToString K] (branchBlocks : List (ExactBlock K))
    (mergeNode : NodeId) : Result (ExactBlock K) := do
  refuseIf (branchBlocks = [])
    (.oofValidation "proba-mean fusion needs at least one model-bearing branch")
  each branchBlocks checkProbaBlock
  let fused ← reducePredictionsAcrossBranches branchBlocks none mergeNode
  let values ← collect fused.values normalizeRow
  pure { fused with values }

/-- One selected model; it gives back its width. -/
def checkModel (first block : ExactBlock K) : Result Nat := do
  let width ← block.validateContent
  refuseIf (block.partition ≠ first.partition ∨ block.foldId ≠ first.foldId)
    (.oofValidation "per-branch proba-mean models differ in partition or fold")
  pure width

def addModelRow (sums : BTreeMap SampleId (List K)) (entry : SampleId × List K) :
    Result (BTreeMap SampleId (List K)) := do
  let output ← need sums[entry.1]? (.panicked "a covered sample has a position")
  pure (sums.insert entry.1 (addRow id output entry.2))

/-- Adds a model's rows to the sums of their samples. -/
def addModel (first : ExactBlock K) (sums : BTreeMap SampleId (List K)) (block : ExactBlock K) :
    Result (BTreeMap SampleId (List K)) := do
  refuseIf (block.sampleIds.toFinset ≠ first.sampleIds.toFinset) (.oofValidation
    s!"per-branch proba-mean model `{block.producerNode}` does not cover the same samples")
  loop addModelRow sums block.rows

/-- The class names of the first model of full width. -/
def widestTargetNames (width : Nat) (blocks : List (ExactBlock K)) : List String :=
  match blocks.find? fun block => block.targetNames.length = width with
  | some block => block.targetNames
  | none => []

def checkTargetNames (targetNames : List String) (block : ExactBlock K) : Result Unit :=
  refuseIf (block.targetNames ≠ [] ∧ targetNames ≠ [] ∧
      block.targetNames ≠ targetNames.take block.targetNames.length) (.oofValidation
    s!"per-branch proba-mean model `{block.producerNode}` has incompatible class names")

def reduceProbaMeanWithinBranch (modelBlocks : List (ExactBlock K)) (branchNode : NodeId) :
    Result (ExactBlock K) := do
  let first ← need modelBlocks.head?
    (.oofValidation "per-branch proba-mean needs at least one selected model")
  let widths ← collect modelBlocks (checkModel first)
  let width := widths.foldl max 0
  let zeros := BTreeMap.tabulate first.sampleIds fun _ => List.replicate width (0 : K)
  let sums ← loop (addModel first) zeros modelBlocks
  let values := first.sampleIds.map fun s =>
    (sums.getD s []).map (· / (modelBlocks.length : K))
  let targetNames := widestTargetNames width modelBlocks
  each modelBlocks (checkTargetNames targetNames)
  pure {
    predictionId := none, producerNode := branchNode, producerPort := none
    partition := first.partition, foldId := first.foldId, sampleIds := first.sampleIds, values
    targetNames }

def checkBranchModel (first block : ExactBlock K) : Result Unit := do
  let _ ← block.validateContent
  refuseIf (block.partition ≠ first.partition ∨ block.foldId ≠ first.foldId)
    (.oofValidation "per-branch mean models differ in partition or fold")
  refuseIf (block.sampleIds.toFinset ≠ first.sampleIds.toFinset) (.oofValidation
    s!"per-branch mean model `{block.producerNode}` does not cover the same samples")

def reduceMeanWithinBranch (modelBlocks : List (ExactBlock K)) (weights : Option (List K))
    (branchNode : NodeId) : Result (ExactBlock K) := do
  let first ← need modelBlocks.head?
    (.oofValidation "per-branch mean needs at least one selected model")
  each modelBlocks (checkBranchModel first)
  reducePredictionsAcrossBranches modelBlocks weights branchNode

end Reducers

end DagMl
