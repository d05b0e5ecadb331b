import DagMl.Ids
import DagMl.Lib.Binary64
import DagMl.Lib.Checked
import DagMl.Lib.Collections

/-!
# Prediction blocks

One producer's predictions for one partition. `validateContent` is the gate
in front of every reducer; `Content` is what a block that passed it satisfies.
-/

namespace DagMl

open Checked

inductive PredictionPartition
  | train
  /-- Report-only predictions of a fold model on the whole training pool. -/
  | trainPool
  | validation
  | test
  | final
  deriving DecidableEq

/-- `{:?}`. -/
def PredictionPartition.debug : PredictionPartition → String
  | .train => "Train"
  | .trainPool => "TrainPool"
  | .validation => "Validation"
  | .test => "Test"
  | .final => "Final"

structure PredictionBlock where
  predictionId : Option String
  producerNode : NodeId
  producerPort : Option String
  partition : PredictionPartition
  foldId : Option FoldId
  sampleIds : List SampleId
  values : List (List Binary64)
  targetNames : List String
  deriving DecidableEq

namespace PredictionBlock

/-- `self.values.first().map_or(0, Vec::len)`. -/
def width (self : PredictionBlock) : Nat :=
  match self.values with
  | [] => 0
  | row :: _ => row.length

/-- The rows under their sample ids. -/
def rows (self : PredictionBlock) : List (SampleId × List Binary64) :=
  self.sampleIds.zip self.values

def validateShape (self : PredictionBlock) : Result Nat := do
  refuseIf (self.sampleIds.length ≠ self.values.length) (.oofValidation
    s!"producer `{self.producerNode}` has {self.sampleIds.length} sample ids but {self.values.length} prediction rows")
  refuseIf (self.width = 0)
    (.oofValidation s!"producer `{self.producerNode}` emitted empty prediction rows")
  refuseIf (∃ row ∈ self.values, row.length ≠ self.width)
    (.oofValidation s!"producer `{self.producerNode}` emitted ragged prediction rows")
  refuseIf (self.targetNames ≠ [] ∧ self.targetNames.length ≠ self.width) (.oofValidation
    s!"producer `{self.producerNode}` has {self.targetNames.length} target names for width {self.width}")
  pure self.width

/-- A repeated sample of the block. -/
def duplicateSample (self : PredictionBlock) (s : SampleId) : DagMlError :=
  .oofValidation s!"producer `{self.producerNode}` emitted duplicate prediction for sample `{s}`"

def validateContent (self : PredictionBlock) : Result Nat := do
  let width ← self.validateShape
  refuseIf (∃ row ∈ self.values, ∃ v ∈ row, v.isFinite = false)
    (.oofValidation s!"producer `{self.producerNode}` emitted non-finite prediction values")
  let _ ← unique self.duplicateSample self.sampleIds
  pure width

-- ---------------------------------------------------------------------------
-- What an accepted block satisfies
-- ---------------------------------------------------------------------------

structure Shape (block : PredictionBlock) : Prop where
  length_eq : block.sampleIds.length = block.values.length
  width_pos : 0 < block.width
  rows_width : ∀ row ∈ block.values, row.length = block.width
  targets : block.targetNames = [] ∨ block.targetNames.length = block.width

structure Content (block : PredictionBlock) : Prop extends Shape block where
  finite : ∀ row ∈ block.values, ∀ v ∈ row, v.isFinite = true
  nodup : block.sampleIds.Nodup

theorem validateShape_ok {self : PredictionBlock} :
    self.validateShape = .ok w ↔ self.Shape ∧ w = self.width := by
  simp only [validateShape, bind_ok, refuseIf_ok, pure_ok, not_exists, not_and, not_not]
  constructor
  · rintro ⟨_, hl, _, hw, _, hr, _, ht, rfl⟩
    exact ⟨⟨hl, Nat.pos_of_ne_zero hw, hr, or_iff_not_imp_left.mpr ht⟩, rfl⟩
  · rintro ⟨h, rfl⟩
    exact ⟨(), h.length_eq, (), h.width_pos.ne', (), h.rows_width, (),
      or_iff_not_imp_left.mp h.targets, rfl⟩

theorem validateContent_ok {self : PredictionBlock} :
    self.validateContent = .ok w ↔ self.Content ∧ w = self.width := by
  simp only [validateContent, bind_ok, validateShape_ok, refuseIf_ok, unique_ok, pure_ok,
    not_exists, not_and, Bool.not_eq_false]
  constructor
  · rintro ⟨_, ⟨hs, rfl⟩, _, hf, _, ⟨hn, -⟩, rfl⟩
    exact ⟨⟨hs, hf, hn⟩, rfl⟩
  · rintro ⟨h, rfl⟩
    exact ⟨_, ⟨h.toShape, rfl⟩, (), h.finite, _, ⟨h.nodup, rfl⟩, rfl⟩

instance (block : PredictionBlock) : Decidable block.Content :=
  decidable_of_iff (block.validateContent = .ok block.width) (by simp [validateContent_ok])

namespace Shape

variable {block : PredictionBlock}

theorem map_fst_rows (h : block.Shape) : block.rows.map Prod.fst = block.sampleIds := by
  rw [rows, List.map_fst_zip h.length_eq.le]

theorem mem_rows (h : block.Shape) : s ∈ block.sampleIds ↔ ∃ row, (s, row) ∈ block.rows := by
  rw [← h.map_fst_rows, List.mem_map]
  exact ⟨fun ⟨⟨_, row⟩, hm, rfl⟩ => ⟨row, hm⟩, fun ⟨row, hm⟩ => ⟨(s, row), hm, rfl⟩⟩

theorem length_row (h : block.Shape) (hm : (s, row) ∈ block.rows) : row.length = block.width :=
  h.rows_width row (List.of_mem_zip hm).2

end Shape

/-- No sample has two rows. -/
theorem Content.nodup_fst {block : PredictionBlock} (h : block.Content) :
    (block.rows.map Prod.fst).Nodup := by
  rw [h.map_fst_rows]
  exact h.nodup

end PredictionBlock

end DagMl
