import DagMl.Aggregation.Sample

/-!
# Target blocks

The `y_true` rows a host emits beside its predictions, and the gate every
merge passes before it emits, or declines to emit, rows for its own output.
-/

namespace DagMl

open Checked

structure RegressionTargetBlock where
  level : PredictionLevel
  unitIds : List PredictionUnitId
  values : List (List Binary64)
  /-- `true` marks an observed cell; without masks every cell is observed. -/
  validityMasks : Option (List (List Bool))
  targetNames : List String

namespace RegressionTargetBlock

/-- `self.values.first().map_or(0, Vec::len)`. -/
def width (self : RegressionTargetBlock) : Nat :=
  match self.values with
  | [] => 0
  | row :: _ => row.length

def validateShape (self : RegressionTargetBlock) : Result Nat := do
  refuseIf (self.unitIds.length ≠ self.values.length) (.oofValidation
    s!"target block has {self.unitIds.length} unit ids but {self.values.length} target rows")
  refuseIf (∃ unitId ∈ self.unitIds, unitId.level ≠ self.level)
    (.oofValidation s!"target block contains units outside level {self.level.debug}")
  refuseIf (self.unitIds.toFinset.card ≠ self.unitIds.length)
    (.oofValidation "target block contains duplicate unit ids")
  refuseIf (self.width = 0) (.oofValidation "target block has empty target rows")
  refuseIf (∃ row ∈ self.values, row.length ≠ self.width)
    (.oofValidation "target block has ragged target rows")
  whenSome self.validityMasks fun masks =>
    refuseIf (masks.length ≠ self.values.length ∨ ∃ row ∈ masks, row.length ≠ self.width)
      (.oofValidation "target validity_masks shape must match target values (sample-major)")
  refuseIf (∃ row ∈ self.values, ∃ value ∈ row, value.isFinite = false)
    (.oofValidation "target block contains non-finite values")
  refuseIf (self.targetNames ≠ [] ∧ self.targetNames.length ≠ self.width) (.oofValidation
    s!"target block has {self.targetNames.length} target names for width {self.width}")
  pure self.width

def hasMissingValues (self : RegressionTargetBlock) : Bool :=
  match self.validityMasks with
  | some masks => masks.any (·.any (!·))
  | none => false

def requireCompleteTargets (self : RegressionTargetBlock) (operation : String) : Result Unit := do
  let _ ← self.validateShape
  refuseIf (self.hasMissingValues = true) (.oofValidation
    s!"masked regression targets are unsupported for {operation}; use sample-level scoring without prediction merges")

end RegressionTargetBlock

-- ---------------------------------------------------------------------------
-- Reassembly
-- ---------------------------------------------------------------------------

/-- One turn of `ids.map(|id| rows.remove(id).expect(message))`. -/
def takeRow (message : String) (state : BTreeMap SampleId (List Binary64) × List (List Binary64))
    (s : SampleId) : Result (BTreeMap SampleId (List Binary64) × List (List Binary64)) := do
  let row ← need state.1[s]? (.panicked message)
  pure (state.1.erase s, state.2 ++ [row])

/-- `ids.iter().map(|id| rows.remove(id).expect(message)).collect()`. -/
def takeRows (message : String) (rows : BTreeMap SampleId (List Binary64))
    (ids : List SampleId) : Result (List (List Binary64)) := do
  let state ← loop (takeRow message) (rows, []) ids
  pure state.2

def reassembleMergeTargets (producerNode : NodeId) (mergeSampleIds : List SampleId)
    (bySampleTarget : BTreeMap SampleId (List Binary64)) (targetNames : List String) :
    Result (Option RegressionTargetBlock) :=
  if bySampleTarget.isEmpty then .ok none
  else do
    let missing := (mergeSampleIds.filter fun s => !bySampleTarget.contains s).map toString
    let listed := ", ".intercalate missing
    refuseIf (missing ≠ []) (.oofValidation
      s!"merge node `{producerNode}` has partial target coverage: {missing.length} of {mergeSampleIds.length} merged sample(s) lack a y_true row ({listed}) while other contributing branch(es) emitted targets — a merge that some branch scores must have COMPLETE target coverage across the merge universe, never a silent no-score")
    let values ← takeRows "target coverage was just verified complete" bySampleTarget mergeSampleIds
    pure (some {
      validityMasks := none
      level := .sample
      unitIds := mergeSampleIds.map .sample
      values
      targetNames })

end DagMl
