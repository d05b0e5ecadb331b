import DagMl.Ids
import DagMl.Json
import DagMl.Lib.Checked

/-!
# Policies

The leakage and aggregation policies, with the checks they pass on their own.
-/

namespace DagMl

open Checked

inductive SplitUnit
  | physicalSample
  | observation
  | sample
  | target
  | group
  deriving DecidableEq

structure LeakageUnitPolicy where
  splitUnit : SplitUnit
  forbidOriginCrossFold : Bool
  allowObservationSplitWithSharedTarget : Bool
  requireGroupIds : Bool
  unsafeFlags : Finset String

/-- `LeakageUnitPolicy::default()`. -/
def LeakageUnitPolicy.default : LeakageUnitPolicy where
  splitUnit := .physicalSample
  forbidOriginCrossFold := true
  allowObservationSplitWithSharedTarget := false
  requireGroupIds := false
  unsafeFlags := ∅

def LeakageUnitPolicy.validate (self : LeakageUnitPolicy) : Result Unit := do
  refuseIf (self.splitUnit = .observation ∧ !self.allowObservationSplitWithSharedTarget)
    (.campaignValidation
      "observation-level splitting is unsafe for repeated X / shared Y unless explicitly allowed")
  refuseIf (self.requireGroupIds ∧ self.splitUnit ≠ .group)
    (.campaignValidation "require_group_ids=true requires split_unit=group")

def allowSampleAugmentationWithoutOrigin : String := "allow_sample_augmentation_without_origin"

inductive PredictionLevel
  | observation
  | sample
  | target
  | group
  deriving DecidableEq

/-- `{:?}`. -/
def PredictionLevel.debug : PredictionLevel → String
  | .observation => "Observation"
  | .sample => "Sample"
  | .target => "Target"
  | .group => "Group"

inductive AggregationMethod
  | none
  | mean
  | weightedMean
  | median
  | vote
  | robustMean
  | excludeOutliers
  | customController
  deriving DecidableEq

inductive AggregationWeights
  | none
  | quality
  | repetitionCount
  | controllerEmitted
  deriving DecidableEq

/-- `{:?}`. -/
def AggregationWeights.debug : AggregationWeights → String
  | .none => "None"
  | .quality => "Quality"
  | .repetitionCount => "RepetitionCount"
  | .controllerEmitted => "ControllerEmitted"

structure AggregationControllerSpec where
  controllerId : ControllerId
  params : JsonValue

def AggregationControllerSpec.validate (self : AggregationControllerSpec) : Result Unit :=
  refuseIf self.params.isNull (.campaignValidation
    s!"custom aggregation controller `{self.controllerId}` params cannot be null")

/-- A statistical grouping identity independent of split groups. -/
inductive AggregationGroupingKey
  | relationMetadata (key : String)
  deriving DecidableEq

/-- The metadata key the grouping reads. -/
def AggregationGroupingKey.key : AggregationGroupingKey → String
  | .relationMetadata key => key

def AggregationGroupingKey.validate (self : AggregationGroupingKey) : Result Unit :=
  refuseIf (self.key ≠ "independent_unit_id") (.campaignValidation
    "statistical grouping requires relation_metadata independent_unit_id")

structure AggregationPolicy where
  groupingKey : Option AggregationGroupingKey
  aggregationLevel : PredictionLevel
  method : AggregationMethod
  weights : AggregationWeights
  customController : Option AggregationControllerSpec
  storeRawPredictions : Bool
  storeAggregatedPredictions : Bool

def AggregationPolicy.validate (self : AggregationPolicy) : Result Unit := do
  whenSome self.groupingKey fun key => do
    key.validate
    refuseIf (self.aggregationLevel ≠ .group)
      (.campaignValidation "grouping_key requires Group aggregation")
  refuseIf (self.method = .none ∧ self.aggregationLevel ≠ .observation)
    (.campaignValidation "aggregation method none is only valid at observation level")
  refuseIf (self.method = .weightedMean ∧ self.weights = .none)
    (.campaignValidation "weighted_mean aggregation requires an explicit weights policy")
  refuseIf (self.method ≠ .weightedMean ∧ self.method ≠ .customController ∧ self.weights ≠ .none)
    (.campaignValidation
      s!"aggregation weights {self.weights.debug} are only valid with weighted_mean")
  match self.method, self.customController with
  | .customController, some controller => controller.validate
  | .customController, none => throw (.campaignValidation
      "custom_controller aggregation requires a custom_controller spec")
  | _, some controller => throw (.campaignValidation
      s!"aggregation controller `{controller.controllerId}` is only valid with custom_controller method")
  | _, none => pure ()
  refuseIf (!self.storeRawPredictions ∧ !self.storeAggregatedPredictions)
    (.campaignValidation "aggregation policy must store raw and/or aggregated predictions")

end DagMl
