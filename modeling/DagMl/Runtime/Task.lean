import DagMl.Aggregation.Sample
import DagMl.Plan

/-!
# Task inputs

The prediction features a task receives along one edge of the graph.
-/

namespace DagMl

open Checked

structure PredictionInputSpec where
  producerNode : NodeId
  sourcePort : String
  targetPort : String
  partition : PredictionPartition
  predictionLevel : PredictionLevel
  foldId : Option FoldId
  foldIds : List FoldId
  unitIds : List PredictionUnitId
  sampleIds : List SampleId
  /-- One row for each sample id. -/
  values : List (List Binary64)
  featureValidityMasks : Option (List (List Bool))
  sourcePresence : Option (List Bool)
  predictionWidth : Nat
  targetNames : List String
  deriving DecidableEq

namespace PredictionInputSpec

/-- Whether a row disagrees with its mask or with the presence of its sample. -/
def unavailableRow (width : Nat) (mask : List Bool) (row : List Binary64) (present : Bool) : Bool :=
  mask.length ≠ width || row.length ≠ width || mask.any (· ≠ present) ||
    row.any (!·.isFinite) || (!present && row.any (!·.eq .zero))

def validateFeatureAvailability (self : PredictionInputSpec) : Result Unit :=
  match self.featureValidityMasks, self.sourcePresence with
  | none, none => .ok ()
  | some masks, some presence =>
    refuseIf (self.predictionLevel ≠ .sample ∨ self.predictionWidth = 0 ∨
        masks.length ≠ self.sampleIds.length ∨ presence.length ≠ self.sampleIds.length ∨
        self.values.length ≠ self.sampleIds.length ∨
        ((masks.zip self.values).zip presence).any fun ((mask, row), present) =>
          unavailableRow self.predictionWidth mask row present)
      (.oofValidation
        s!"prediction input `{self.producerNode}.{self.sourcePort}` has invalid feature availability")
  | _, _ => .error (.oofValidation
      "prediction feature validity and source presence must be supplied together")

end PredictionInputSpec

end DagMl
