import DagMl.Metrics.PercentileRanks
import DagMl.Oof.Block
import DagMl.Lib.Keyed
import DagMl.Lib.WeightedRows

/-!
# Exact blocks

Prediction blocks with numbers of an ordered field in place of floats. All of
them are finite, so that check has no counterpart.
-/

namespace DagMl

open Checked

structure ExactBlock (K : Type) where
  predictionId : Option String
  producerNode : NodeId
  producerPort : Option String
  partition : PredictionPartition
  foldId : Option FoldId
  sampleIds : List SampleId
  values : List (List K)
  targetNames : List String
  deriving DecidableEq

namespace ExactBlock

variable {K : Type}

/-- `self.values.first().map_or(0, Vec::len)`. -/
def width (self : ExactBlock K) : Nat :=
  match self.values with
  | [] => 0
  | row :: _ => row.length

/-- The rows under their sample ids. -/
def rows (self : ExactBlock K) : List (SampleId × List K) := self.sampleIds.zip self.values

/-- The row of a sample. -/
def rowOf (self : ExactBlock K) (s : SampleId) : Option (List K) := self.rows.lookup s

def validateShape (self : ExactBlock K) : Result Nat := do
  refuseIf (self.sampleIds.length ≠ self.values.length) (.oofValidation
    s!"producer `{self.producerNode}` has {self.sampleIds.length} sample ids but {self.values.length} prediction rows")
  refuseIf (self.width = 0)
    (.oofValidation s!"producer `{self.producerNode}` emitted empty prediction rows")
  refuseIf (∃ row ∈ self.values, row.length ≠ self.width)
    (.oofValidation s!"producer `{self.producerNode}` emitted ragged prediction rows")
  refuseIf (self.targetNames ≠ [] ∧ self.targetNames.length ≠ self.width) (.oofValidation
    s!"producer `{self.producerNode}` has {self.targetNames.length} target names for width {self.width}")
  pure self.width

def validateContent (self : ExactBlock K) : Result Nat := do
  let width ← self.validateShape
  let _ ← unique (fun s => .oofValidation
    s!"producer `{self.producerNode}` emitted duplicate prediction for sample `{s}`") self.sampleIds
  pure width

-- ---------------------------------------------------------------------------
-- What an accepted block satisfies
-- ---------------------------------------------------------------------------

structure Content (block : ExactBlock K) : Prop where
  length_eq : block.sampleIds.length = block.values.length
  width_pos : 0 < block.width
  rows_width : ∀ row ∈ block.values, row.length = block.width
  targets : block.targetNames = [] ∨ block.targetNames.length = block.width
  nodup : block.sampleIds.Nodup

theorem validateShape_ok {self : ExactBlock K} : self.validateShape = .ok w ↔
    self.sampleIds.length = self.values.length ∧ 0 < self.width ∧
      (∀ row ∈ self.values, row.length = self.width) ∧
      (self.targetNames = [] ∨ self.targetNames.length = self.width) ∧ w = self.width := by
  simp only [validateShape, bind_ok, refuseIf_ok, pure_ok, not_exists, not_and, not_not]
  constructor
  · rintro ⟨_, hl, _, hw, _, hr, _, ht, rfl⟩
    exact ⟨hl, Nat.pos_of_ne_zero hw, hr, or_iff_not_imp_left.mpr ht, rfl⟩
  · rintro ⟨hl, hw, hr, ht, rfl⟩
    exact ⟨(), hl, (), hw.ne', (), hr, (), or_iff_not_imp_left.mp ht, rfl⟩

theorem validateContent_ok {self : ExactBlock K} :
    self.validateContent = .ok w ↔ self.Content ∧ w = self.width := by
  simp only [validateContent, bind_ok, validateShape_ok, unique_ok, pure_ok]
  constructor
  · rintro ⟨_, ⟨hl, hw, hr, ht, rfl⟩, _, ⟨hn, -⟩, rfl⟩
    exact ⟨⟨hl, hw, hr, ht, hn⟩, rfl⟩
  · rintro ⟨h, rfl⟩
    exact ⟨_, ⟨h.length_eq, h.width_pos, h.rows_width, h.targets, rfl⟩, _, ⟨h.nodup, rfl⟩, rfl⟩

theorem map_fst_rows {block : ExactBlock K} (h : block.sampleIds.length = block.values.length) :
    block.rows.map Prod.fst = block.sampleIds := by
  rw [rows, List.map_fst_zip h.le]

theorem map_snd_rows {block : ExactBlock K} (h : block.sampleIds.length = block.values.length) :
    block.rows.map Prod.snd = block.values := by
  rw [rows, List.map_snd_zip h.ge]

namespace Content

variable {block : ExactBlock K}

theorem nodup_fst (h : block.Content) : (block.rows.map Prod.fst).Nodup := by
  rw [map_fst_rows h.length_eq]
  exact h.nodup

theorem length_row (h : block.Content) (hm : (s, row) ∈ block.rows) : row.length = block.width :=
  h.rows_width row (List.of_mem_zip hm).2

theorem rowOf_eq_some (h : block.Content) :
    block.rowOf s = some row ↔ (s, row) ∈ block.rows := Keyed.lookup_eq_some h.nodup_fst

theorem rowOf_isSome (h : block.Content) : (block.rowOf s).isSome ↔ s ∈ block.sampleIds := by
  rw [rowOf, Keyed.lookup_isSome, map_fst_rows h.length_eq]

end Content

end ExactBlock

-- ---------------------------------------------------------------------------
-- Floats
-- ---------------------------------------------------------------------------

/-- A block of floats, its numbers as they are. -/
def PredictionBlock.toExact {K : Type} [Field K] (block : PredictionBlock) : ExactBlock K where
  predictionId := block.predictionId
  producerNode := block.producerNode
  producerPort := block.producerPort
  partition := block.partition
  foldId := block.foldId
  sampleIds := block.sampleIds
  values := block.values.map fun row => row.map Binary64.exact
  targetNames := block.targetNames

/-- What passes the gate as floats passes it as numbers. -/
theorem PredictionBlock.Content.toExact {K : Type} [Field K] {block : PredictionBlock}
    (h : block.Content) : (block.toExact : ExactBlock K).Content := by
  have hwidth : (block.toExact : ExactBlock K).width = block.width := by
    unfold ExactBlock.width PredictionBlock.width PredictionBlock.toExact
    cases block.values with
    | nil => rfl
    | cons row rows => simp
  constructor
  · simpa [PredictionBlock.toExact] using h.length_eq
  · rw [hwidth]
    exact h.width_pos
  · intro row hrow
    obtain ⟨floats, hfloats, rfl⟩ := List.mem_map.mp hrow
    rw [hwidth, List.length_map]
    exact h.rows_width floats hfloats
  · rw [hwidth]
    exact h.targets
  · exact h.nodup

end DagMl
