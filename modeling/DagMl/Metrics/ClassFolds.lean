import Mathlib
import DagMl.Lib.Keyed
import DagMl.Lib.Voting
import DagMl.Oof.Block

/-!
# Classes across folds

Class predictions of several folds are combined by the mean of their class
probabilities or, when a fold has none, by vote. Labels are floats as they are;
weights and probabilities are computed with exactly.
-/

namespace DagMl

open Checked Keyed Voting

/-- `ClassificationProbabilityBlock` with exact probabilities. -/
structure ClassificationProbabilityBlock (K : Type) where
  producerNode : NodeId
  producerPort : Option String
  partition : PredictionPartition
  foldId : Option FoldId
  sampleIds : List SampleId
  classLabels : List Binary64
  values : List (List K)
  deriving DecidableEq

variable {K : Type} [Field K] [LinearOrder K]

/-- A probability for each class, with sum one up to `1e-6`. -/
def IsProbabilityRow (classes : Nat) (row : List K) : Prop :=
  row.length = classes ∧ (∀ p ∈ row, 0 ≤ p ∧ p ≤ 1) ∧ |row.sum - 1| ≤ 1 / 10 ^ 6

instance (classes : Nat) (row : List K) : Decidable (IsProbabilityRow classes row) :=
  inferInstanceAs (Decidable (_ ∧ _ ∧ _))

def ClassificationProbabilityBlock.validate (self : ClassificationProbabilityBlock K) :
    Result Unit := do
  refuseIf (self.partition = .final ∨ (self.partition ≠ .test ∧ self.foldId = none))
    (.runtimeValidation
      "classification probabilities require a CV train, train-pool or validation fold, or a test block")
  refuseIf (self.classLabels = [] ∨ (∃ label ∈ self.classLabels, label.isFinite = false) ∨
      (∃ label ∈ self.classLabels, self.classLabels.countP (·.eq label) ≠ 1) ∨
      self.sampleIds = [] ∨ self.sampleIds.length ≠ self.values.length ∨
      self.sampleIds.toFinset.card ≠ self.sampleIds.length)
    (.runtimeValidation "classification probabilities have invalid class or sample identities")
  each self.values fun row => refuseIf (¬IsProbabilityRow self.classLabels.length row)
    (.runtimeValidation
      "classification probabilities must be finite, non-negative and sum to one")

-- ---------------------------------------------------------------------------
-- The class universe
-- ---------------------------------------------------------------------------

/-- `classes.sort_by(f64::total_cmp); classes.dedup();`. -/
def classUniverse (labels : List Binary64) : List Binary64 :=
  (sortBy Binary64.totalKey labels).destutter fun a b => ¬a.eq b = true

/-- `classes.binary_search_by(|value| value.total_cmp(label)).expect(missing)`. -/
def classIndex (classes : List Binary64) (missing : String) (label : Binary64) : Result Nat :=
  need (classes.findIdx? fun value => value.totalKey = label.totalKey) (.panicked missing)

/-- Adds each number of a row to the score of its label. -/
def addAligned (classes : List Binary64) (missing : String) (scores : List K)
    (row : List (Binary64 × K)) : Result (List K) :=
  loop (fun scores entry => do
    let aligned ← classIndex classes missing entry.1
    pure (scores.modify aligned (· + entry.2))) scores row

-- ---------------------------------------------------------------------------
-- Votes of folds
-- ---------------------------------------------------------------------------

/-- A fold's block with its probabilities, if any, and its weight: `weights[fold_index]`,
or one without weights. -/
structure ClassificationFold (K : Type) where
  block : PredictionBlock
  probability : Option (ClassificationProbabilityBlock K)
  baseWeight : Option K

def classificationFolds (blocks : List PredictionBlock)
    (probabilityBlocks : List (ClassificationProbabilityBlock K)) (weights : Option (List K))
    (partition : PredictionPartition) : List (ClassificationFold K) :=
  blocks.zipIdx.map fun (block, foldIndex) => {
    block
    probability := probabilityBlocks.find? fun candidate =>
      candidate.producerNode = block.producerNode && candidate.producerPort = block.producerPort &&
        candidate.foldId = block.foldId && candidate.partition = partition
    baseWeight := match weights with
      | none => some 1
      | some weights => weights[foldIndex]? }

/-- How the folds are combined: by probabilities, with weights, into which partition. -/
structure FoldVote where
  soft : Bool
  weighted : Bool
  partition : PredictionPartition

/-- The labels of all folds. -/
def FoldVote.labels (vote : FoldVote) (folds : List (ClassificationFold K)) :
    Result (List Binary64) :=
  if vote.soft then
    .ok (folds.flatMap fun fold => (fold.probability.map (·.classLabels)).getD [])
  else
    collect (folds.flatMap (·.block.values)) fun row =>
      need row.head? (.panicked "index out of bounds")

/-- The weight of a fold, times the confidence of its row when folds are weighted. -/
def FoldVote.rowWeight (vote : FoldVote) (baseWeight : K) (row : List K) : K :=
  baseWeight * if vote.weighted then row.foldl max 0 else 1

def addProbability (vote : FoldVote) (classes : List Binary64) (sampleId : SampleId)
    (baseWeight : K) (state : List K × K) (probability : ClassificationProbabilityBlock K) :
    Result (List K × K) := do
  probability.validate
  let position ← need (probability.sampleIds.idxOf? sampleId)
    (.oofValidation "classification probability sample identities differ from predictions")
  let row ← need probability.values[position]? (.panicked "index out of bounds")
  let weight := vote.rowWeight baseWeight row
  let scores ← addAligned classes "class universe contains fold class" state.1
    (probability.classLabels.zip (row.map (weight * ·)))
  pure (scores, state.2 + weight)

def addVote (classes : List Binary64) (position : Nat) (baseWeight : K) (state : List K × K)
    (block : PredictionBlock) : Result (List K × K) := do
  let row ← need block.values[position]? (.panicked "index out of bounds")
  let label ← need row.head? (.panicked "index out of bounds")
  let scores ← addAligned classes "class universe contains fold label" state.1
    [(label, baseWeight)]
  pure (scores, state.2 + baseWeight)

def addFold (vote : FoldVote) (classes : List Binary64) (sampleId : SampleId)
    (state : List K × K) (fold : ClassificationFold K) : Result (List K × K) :=
  match fold.block.sampleIds.idxOf? sampleId with
  | none => do
    refuseIf (vote.partition = .test)
      (.oofValidation "classification test folds have inconsistent sample identities")
    pure state
  | some position => do
    let baseWeight ← need fold.baseWeight (.panicked "index out of bounds")
    refuseIf (baseWeight < 0)
      (.oofValidation "classification fold weight must be finite and non-negative")
    if vote.soft then
      let probability ← need fold.probability (.panicked "unwrap on a none value")
      addProbability vote classes sampleId baseWeight state probability
    else addVote classes position baseWeight state fold.block

/-- The row of one sample: the class that wins it. -/
def electClass (vote : FoldVote) (classes : List Binary64) (folds : List (ClassificationFold K))
    (sampleId : SampleId) : Result (List Binary64) := do
  let state ← loop (addFold vote classes sampleId) (classes.map fun _ => 0, 0) folds
  refuseIf (state.2 ≤ 0)
    (.oofValidation "classification ensemble has zero total fold weight")
  let position ← need (winner state.1) (.panicked "nonempty classes")
  let label ← need classes[position]? (.panicked "index out of bounds")
  pure [label]

def foldVote (weighted : Bool) (folds : List (ClassificationFold K))
    (partition : PredictionPartition) : FoldVote where
  soft := folds.all (·.probability.isSome)
  weighted := weighted
  partition := partition

def combineFolds (weighted : Bool) (folds : List (ClassificationFold K)) (foldLabel : String)
    (partition : PredictionPartition) : Result PredictionBlock := do
  let first ← need folds.head? (.panicked "index out of bounds")
  let vote := foldVote weighted folds partition
  let labels ← vote.labels folds
  refuseIf (∃ fold ∈ folds, ∃ row ∈ fold.block.values, row.length ≠ 1)
    (.oofValidation "classification ensemble requires one target")
  let classes := classUniverse labels
  refuseIf (classes = [] ∨ ∃ value ∈ classes, value.isFinite = false)
    (.oofValidation "classification ensemble has invalid class labels")
  let ids := firstMet (folds.flatMap (·.block.sampleIds))
  let rows ← collect ids (electClass vote classes folds)
  let foldId ← Id.new foldLabel
  pure {
    predictionId := none, producerNode := first.block.producerNode
    producerPort := first.block.producerPort, partition, foldId := some foldId
    sampleIds := ids, values := rows, targetNames := first.block.targetNames }

def reduceClassificationFolds (blocks : List PredictionBlock)
    (probabilityBlocks : List (ClassificationProbabilityBlock K)) (weights : Option (List K))
    (foldLabel : String) (partition : PredictionPartition) : Result PredictionBlock :=
  combineFolds weights.isSome (classificationFolds blocks probabilityBlocks weights partition)
    foldLabel partition

-- ---------------------------------------------------------------------------
-- Mean probabilities
-- ---------------------------------------------------------------------------

/-- The probabilities of a validation block: those of its output and fold, with its samples. -/
def probabilityCandidates (probabilityBlocks : List (ClassificationProbabilityBlock K))
    (block : PredictionBlock) : List (ClassificationProbabilityBlock K) :=
  probabilityBlocks.filter fun candidate =>
    candidate.producerNode = block.producerNode && candidate.producerPort = block.producerPort &&
      candidate.partition = .validation && candidate.foldId = block.foldId &&
      candidate.sampleIds.toFinset = block.sampleIds.toFinset

def pushMatched (probabilityBlocks : List (ClassificationProbabilityBlock K))
    (matched : List (ClassificationProbabilityBlock K)) (block : PredictionBlock) :
    Result (List (ClassificationProbabilityBlock K)) := do
  let candidates := probabilityCandidates probabilityBlocks block
  refuseIf (1 < candidates.length)
    (.oofValidation "cross-fold classification probabilities are ambiguous")
  whenSome candidates.head? (·.validate)
  pure (matched ++ candidates.head?.toList)

/-- The rows under their sample ids, each number with its label. -/
def ClassificationProbabilityBlock.labelledRows (self : ClassificationProbabilityBlock K) :
    List (SampleId × List (Binary64 × K)) :=
  (self.sampleIds.zip self.values).map fun entry => (entry.1, self.classLabels.zip entry.2)

/-- One more row of a sample: its sum class by class, and the count. -/
def addProbabilityRow (classes : List Binary64) (sums : BTreeMap SampleId (List K × Nat))
    (entry : SampleId × List (Binary64 × K)) : Result (BTreeMap SampleId (List K × Nat)) := do
  let slot := sums.getD entry.1 (classes.map fun _ => 0, 0)
  let sum ← addAligned classes "class label came from validated probability block" slot.1 entry.2
  pure (sums.insert entry.1 (sum, slot.2 + 1))

def averageRow (sums : BTreeMap SampleId (List K × Nat)) (sample : SampleId) :
    Result (List K) := do
  let slot ← need sums[sample]? (.oofValidation
    s!"OOF average sample `{sample}` has no class probabilities")
  pure (slot.1.map fun value => value / slot.2)

def averageMatched (matched : List (ClassificationProbabilityBlock K)) (average : PredictionBlock) :
    Result (ClassificationProbabilityBlock K) := do
  let classLabels := classUniverse (matched.flatMap (·.classLabels))
  let sums ← loop (fun sums block => loop (addProbabilityRow classLabels) sums block.labelledRows)
    ∅ matched
  let values ← collect average.sampleIds (averageRow sums)
  let averaged : ClassificationProbabilityBlock K := {
    producerNode := average.producerNode, producerPort := average.producerPort
    partition := .validation, foldId := average.foldId, sampleIds := average.sampleIds
    classLabels, values }
  averaged.validate
  pure averaged

def averageValidationProbabilities (blocks : List PredictionBlock)
    (probabilityBlocks : List (ClassificationProbabilityBlock K)) (average : PredictionBlock) :
    Result (Option (ClassificationProbabilityBlock K)) := do
  let matched ← loop (pushMatched probabilityBlocks) [] blocks
  if matched = [] then pure none
  else
    refuseIf (matched.length ≠ blocks.length)
      (.oofValidation "cross-fold classification probabilities omit a validation fold")
    let averaged ← averageMatched matched average
    pure (some averaged)

end DagMl
