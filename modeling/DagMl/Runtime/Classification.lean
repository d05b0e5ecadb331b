import DagMl.Oof.Block
import DagMl.Plan
import DagMl.Runtime.Externals

/-!
# Signed classifiers

The vocabulary an operator signs, and what it asks of the prediction blocks
of its node.
-/

namespace DagMl

open Checked

def methodsRawClassifier : String := "N4mMultimodalClassifierPipeline"
def methodsMetaClassifier : String := "N4mRoleClassifierPipeline"

namespace MethodsClassVocabulary

/-- Names of one kind, in strictly ascending order. -/
def orderedNames (names : List JsonValue) : Bool :=
  if names.all fun name => name.asStr.any (·.utf8ByteSize ≤ 1048576) then
    (names.filterMap JsonValue.asStr).IsChain (· < ·)
  else names.all (·.asI64.isSome) && (names.filterMap JsonValue.asI64).IsChain (· < ·)

def validate (self : MethodsClassVocabulary) : Result Unit := do
  let count := self.classLabels.length
  refuseIf (self.schemaVersion ≠ 1 ∨ count < 2 ∨ 65536 < count ∨
      self.classLabels ≠ List.range count ∨ self.labelNames.length ≠ count)
    (.runtimeValidation "Methods classification requires a complete ordered contiguous vocabulary")
  refuseIf (!orderedNames self.labelNames) (.runtimeValidation
    "Methods class names must be sorted unique homogeneous strings or int64 values")

def probabilityNames (self : MethodsClassVocabulary) : List String :=
  self.classLabels.map fun label => s!"class:{label}"

end MethodsClassVocabulary

variable (externals : Externals)

def methodsOperatorClassification (operator : JsonValue) :
    Result (Option MethodsClassVocabulary) :=
  let operatorType := (operator.get "type").bind JsonValue.asStr
  if operatorType = some methodsRawClassifier ∨ operatorType = some methodsMetaClassifier then do
    let classification ← need (operator.get "classification")
      (.runtimeValidation "Methods classifier lacks its signed vocabulary")
    let vocabulary ← (externals.decodeClassVocabulary classification).mapError .serialization
    vocabulary.validate
    pure (some vocabulary)
  else .ok none

def classificationForNode (plan : ExecutionPlan) (node : NodeId) :
    Result (Option MethodsClassVocabulary) :=
  match (plan.findNode node).bind (·.operator) with
  | none => .ok none
  | some operator => methodsOperatorClassification externals operator

/-- A row with one whole number below the number of classes. -/
def isClassLabel (classes : Nat) : List Binary64 → Bool
  | [label] => label.isIntegral && !label.lt .zero && label.lt (.ofNat classes)
  | _ => false

/-- Numbers of the unit interval that sum to one within `1e-6`. -/
def isDistribution (classes : Nat) (row : List Binary64) : Bool :=
  row.length = classes &&
    row.all (fun p => p.isFinite && Binary64.zero.le p && p.le (.ofNat 1)) &&
    !(Binary64.ofDecimal false 1 (-6)).lt ((Binary64.sum row).sub (.ofNat 1)).abs

def validateMethodsClassificationBlock (plan : ExecutionPlan) (block : PredictionBlock) :
    Result Unit := do
  match ← classificationForNode externals plan block.producerNode with
  | none => pure ()
  | some vocabulary =>
    let _ ← block.validateShape
    if block.producerPort = some "y_hat" ∧ block.targetNames = ["y"] then
      refuseIf (block.values.any fun row => !isClassLabel vocabulary.classLabels.length row)
        (.runtimeValidation "class-label output is outside its signed vocabulary")
    else if block.producerPort = some "probabilities" ∧
        block.targetNames = vocabulary.probabilityNames then
      refuseIf (block.values.any fun row => !isDistribution vocabulary.classLabels.length row)
        (.runtimeValidation
          "signed class probability columns require complete normalized distributions")
    else .error (.runtimeValidation
      "classifier prediction port or ordered class-column identity differs from its signed declaration")

end DagMl
