import DagMl.Metrics.ScoringPaths

/-!
# One scoring rule

Masked and complete scoring as one rule: with every cell marked observed the
scores are those without masks, each component is the score of its own column on
the units observed for it, and neither hidden numbers nor the order of the target
rows matter. Samples follow the rule. Independent units do unless their block and
the targets' block disagree on the target names, which their masked path does not
compare.
-/

namespace DagMl

open Checked WeightedRows

-- ---------------------------------------------------------------------------
-- The rule
-- ---------------------------------------------------------------------------

section

variable {K : Type}

/-- Two computations that succeed together, with the same report. -/
def Alike (x y : Result (ExactReport K)) : Prop := ∀ report, x = .ok report ↔ y = .ok report

namespace ExactTargets

/-- Every cell marked observed. -/
def allTrue (targets : ExactTargets K) : ExactTargets K :=
  { targets with validityMasks := some (targets.values.map fun row => row.map fun _ => true) }

def unmasked (targets : ExactTargets K) : ExactTargets K := { targets with validityMasks := none }

/-- A target row under its unit, with its mask where the block has masks. -/
abbrev TargetRow (K : Type) := PredictionUnitId × List K × List Bool

def ofRows (level : PredictionLevel) (targetNames : List String) (masked : Bool)
    (rows : List (TargetRow K)) : ExactTargets K where
  level
  unitIds := rows.map (·.1)
  values := rows.map (·.2.1)
  validityMasks := if masked then some (rows.map (·.2.2)) else none
  targetNames

/-- The same rows with their masks in another order. -/
def Permuted (targets targets' : ExactTargets K) : Prop :=
  ∃ level names masked rows rows', rows.Perm rows' ∧ targets = ofRows level names masked rows ∧
    targets' = ofRows level names masked rows'

variable [Field K]

/-- Another number may stand in a cell that is not observed. -/
structure SameVisible (targets targets' : ExactTargets K) : Prop where
  level : targets.level = targets'.level
  unitIds : targets.unitIds = targets'.unitIds
  masks : targets.validityMasks = targets'.validityMasks
  names : targets.targetNames = targets'.targetNames
  lengths : targets.values.map List.length = targets'.values.map List.length
  visible : ∀ i column : Nat, (targets.masks.getD i []).getD column false = true →
    entry (targets.values.getD i []) column = entry (targets'.values.getD i []) column

/-- One column of the targets, restricted to the units observed for it. -/
def column (targets : ExactTargets K) (j : Nat) : ExactTargets K :=
  let kept := targets.unitIds.filterMap fun unit =>
    (targets.observedAt unit j).map fun target => (unit, target)
  { level := targets.level
    unitIds := kept.map (·.1)
    values := kept.map fun e => [e.2]
    validityMasks := none
    targetNames := [] }

end ExactTargets

variable [Field K]

def ExactBlock.column (block : ExactBlock K) (targets : ExactTargets K) (j : Nat) : ExactBlock K :=
  let kept := block.rows.filter fun e => (targets.observedAt (.sample e.1) j).isSome
  { block with
    sampleIds := kept.map (·.1), values := kept.map fun e => [entry e.2 j], targetNames := [] }

def ExactUnitBlock.column (block : ExactUnitBlock K) (targets : ExactTargets K) (j : Nat) :
    ExactUnitBlock K :=
  let kept := (block.unitIds.zip block.values).filter fun e => (targets.observedAt e.1 j).isSome
  { block with
    unitIds := kept.map (·.1), values := kept.map fun e => [entry e.2 j], targetNames := [] }

/-- What the scores of a block against targets have to satisfy. A suffix that two columns
carry is one key of the report, so a component is asked for where no later column has it. -/
structure OneScoringRule {B : Type} (score : B → ExactTargets K → Result (ExactReport K))
    (column : B → ExactTargets K → Nat → B) (metrics : List RegressionMetricKind) (block : B)
    (targets : ExactTargets K) : Prop where
  complete : Alike (score block targets.allTrue) (score block targets.unmasked)
  columns : ∀ report, score block targets = .ok report →
    ∃ value : RegressionMetricKind → Nat → K,
      (∀ j < report.targetWidth, ∃ alone,
        score (column block targets j) (targets.column j) = .ok alone ∧
          ∀ metric ∈ metrics, alone.metrics[metric.name]? = some (value metric j)) ∧
      ∀ metric ∈ metrics,
        report.metrics[metric.name]? = some (meanOver report.targetWidth (value metric)) ∧
        ∀ (j : Nat) suffix,
          (targetMetricNames report.targetWidth report.targetNames)[j]? = some suffix →
          suffix ∉ (targetMetricNames report.targetWidth report.targetNames).drop (j + 1) →
          report.metrics[componentKey metric suffix]? = some (value metric j)
  hidden : ∀ targets', targets.SameVisible targets' → Alike (score block targets) (score block targets')
  permuted : ∀ targets', targets.Permuted targets' → Alike (score block targets) (score block targets')

end

-- ---------------------------------------------------------------------------
-- Targets that read alike
-- ---------------------------------------------------------------------------

section

variable {K : Type} [Field K] {targets targets' : ExactTargets K}

/-- Scoring cannot tell two blocks of targets apart. -/
structure ReadsAlike (targets targets' : ExactTargets K) : Prop where
  shape : targets.Shape ↔ targets'.Shape
  level : targets.level = targets'.level
  width : targets.Shape → targets.width = targets'.width
  names : targets.targetNames = targets'.targetNames
  units : targets.unitIds.Perm targets'.unitIds
  missing : targets.Shape → targets.hasMissingValues = targets'.hasMissingValues
  observed : targets.Shape → targets.observedAt = targets'.observedAt

theorem ReadsAlike.symm (h : ReadsAlike targets targets') : ReadsAlike targets' targets where
  shape := h.shape.symm
  level := h.level.symm
  width := fun hshape => (h.width (h.shape.mpr hshape)).symm
  names := h.names.symm
  units := h.units.symm
  missing := fun hshape => (h.missing (h.shape.mpr hshape)).symm
  observed := fun hshape => (h.observed (h.shape.mpr hshape)).symm

theorem matrixWidth_of_lengths {α β : Type} {values : List (List α)} {values' : List (List β)}
    (h : values.map List.length = values'.map List.length) :
    matrixWidth values = matrixWidth values' := by
  cases values with
  | nil =>
    cases values' with
    | nil => rfl
    | cons row values' => simp at h
  | cons row values =>
    cases values' with
    | nil => simp at h
    | cons row' values' => exact (List.cons.inj h).1

theorem readsAlike_allTrue (targets : ExactTargets K) :
    ReadsAlike targets.allTrue targets.unmasked := by
  have hmasks : targets.allTrue.masks = targets.unmasked.masks := rfl
  refine ⟨⟨fun h => ?_, fun h => ?_⟩, rfl, fun _ => rfl, rfl, .refl _, fun _ => ?_, fun _ => ?_⟩
  · exact ⟨h.length_eq, h.levels, h.nodup, h.width_pos, h.rows_width, fun _ hm => (nomatch hm),
      h.names⟩
  · refine ⟨h.length_eq, h.levels, h.nodup, h.width_pos, h.rows_width, ?_, h.names⟩
    rintro _ ⟨⟩
    exact ⟨List.length_map _, List.forall_mem_map.mpr fun row hrow => by
      rw [List.length_map]
      exact h.rows_width row hrow⟩
  · simp [ExactTargets.hasMissingValues, ExactTargets.allTrue, ExactTargets.unmasked]
  · funext unit column
    rw [ExactTargets.observedAt, ExactTargets.observedAt, ExactTargets.rows, ExactTargets.rows, hmasks]
    rfl

omit [Field K] in
/-- Without masks every cell of a row of the same length is observed. -/
theorem map_allTrue (values : List (List K)) : (values.map fun row => row.map fun _ => true) =
    (values.map List.length).map fun length => List.replicate length true := by
  rw [List.map_map]
  exact List.map_congr_left fun row _ => List.map_const' ..

theorem ExactTargets.SameVisible.masks_eq (h : targets.SameVisible targets') :
    targets.masks = targets'.masks := by
  rw [ExactTargets.masks, ExactTargets.masks, h.masks, map_allTrue, map_allTrue, h.lengths]

theorem ExactTargets.SameVisible.symm (h : targets.SameVisible targets') :
    targets'.SameVisible targets where
  level := h.level.symm
  unitIds := h.unitIds.symm
  masks := h.masks.symm
  names := h.names.symm
  lengths := h.lengths.symm
  visible := fun i column hobserved => (h.visible i column (h.masks_eq ▸ hobserved)).symm

theorem ExactTargets.SameVisible.shape (h : targets.SameVisible targets') (ht : targets.Shape) :
    targets'.Shape := by
  have hwidth : targets.width = targets'.width := matrixWidth_of_lengths h.lengths
  have hlength : targets.values.length = targets'.values.length := by
    simpa using congrArg List.length h.lengths
  have hrows : ∀ row ∈ targets'.values, row.length = targets.width := by
    have hlengths : ∀ length ∈ targets.values.map List.length, length = targets.width :=
      List.forall_mem_map.mpr ht.rows_width
    rw [h.lengths] at hlengths
    exact List.forall_mem_map.mp hlengths
  constructor
  · rw [← h.unitIds, ← hlength]
    exact ht.length_eq
  · rw [← h.unitIds, ← h.level]
    exact ht.levels
  · rw [← h.unitIds]
    exact ht.nodup
  · rw [← hwidth]
    exact ht.width_pos
  · rw [← hwidth]
    exact hrows
  · rw [← h.masks, ← hlength, ← hwidth]
    exact ht.masks
  · rw [← h.names, ← hwidth]
    exact ht.names

theorem ExactTargets.SameVisible.readsAlike (h : targets.SameVisible targets') :
    ReadsAlike targets targets' := by
  refine ⟨⟨h.shape, h.symm.shape⟩, h.level, fun _ => matrixWidth_of_lengths h.lengths, h.names,
    .of_eq h.unitIds, fun _ => ?_, fun ht => ?_⟩
  · rw [ExactTargets.hasMissingValues, ExactTargets.hasMissingValues, h.masks]
  · funext unit column
    by_cases hunit : unit ∈ targets.unitIds
    · obtain ⟨i, hi⟩ := List.getElem?_of_mem hunit
      rw [ht.observedAt_eq hi, (h.shape ht).observedAt_eq (h.unitIds ▸ hi), ← h.masks_eq]
      split
      · rename_i hobserved
        rw [h.visible i column hobserved]
      · rfl
    · rw [ht.observedAt_eq_none hunit, (h.shape ht).observedAt_eq_none (h.unitIds ▸ hunit)]

theorem lookup_perm {α β : Type} [DecidableEq α] {l l' : List (α × β)}
    (hn : (l.map Prod.fst).Nodup) (h : l.Perm l') (a : α) : l.lookup a = l'.lookup a := by
  have hn' : (l'.map Prod.fst).Nodup := (h.map Prod.fst).nodup_iff.mp hn
  refine Option.ext fun b => ?_
  rw [Keyed.lookup_eq_some hn, Keyed.lookup_eq_some hn', h.mem_iff]

section

open ExactTargets

variable {level : PredictionLevel} {names : List String} {masked : Bool}
  {rows rows' : List (TargetRow K)}

omit [Field K] in
theorem Shape.ofRows_perm (ht : (ofRows level names masked rows).Shape) (h : rows.Perm rows') :
    (ofRows level names masked rows').Shape ∧
      (ofRows level names masked rows).width = (ofRows level names masked rows').width := by
  have hlengths : ∀ row ∈ rows'.map (·.2.1), row.length = (ofRows level names masked rows).width :=
    fun row hrow => ht.rows_width row ((h.map _).mem_iff.mpr hrow)
  have hne : rows'.map (·.2.1) ≠ [] := by
    intro hnil
    have hvalues := ht.values_ne_nil
    rw [List.map_eq_nil_iff] at hnil
    rw [hnil] at h
    exact hvalues (by simp [ofRows, h.eq_nil])
  have hwidth : (ofRows level names masked rows').width = (ofRows level names masked rows).width :=
    matrixWidth_of_forall hne hlengths
  refine ⟨⟨by simp [ofRows], fun unit hunit => ?_, (h.map _).nodup_iff.mp ht.nodup, ?_, ?_, ?_, ?_⟩,
    hwidth.symm⟩
  · exact ht.levels unit ((h.map _).mem_iff.mpr hunit)
  · rw [hwidth]
    exact ht.width_pos
  · rw [hwidth]
    exact hlengths
  · intro masks hmasks
    cases masked with
    | false => cases hmasks
    | true =>
      obtain rfl := Option.some.inj hmasks
      rw [hwidth]
      exact ⟨by simp [ofRows], fun row hrow =>
        (ht.masks _ rfl).2 row ((h.map _).mem_iff.mpr hrow)⟩
  · rw [hwidth]
    exact ht.names

omit [Field K] in
theorem rows_ofRows : (ofRows level names masked rows).rows = rows.map fun row =>
    (row.1, row.2.1, if masked then row.2.2 else row.2.1.map fun _ => true) := by
  cases masked <;> simp [ExactTargets.rows, ExactTargets.masks, ofRows, List.zip_map', Function.comp_def]

end

theorem ExactTargets.Permuted.readsAlike (h : targets.Permuted targets') :
    ReadsAlike targets targets' := by
  obtain ⟨level, names, masked, rows, rows', hperm, rfl, rfl⟩ := h
  refine ⟨⟨fun ht => (Shape.ofRows_perm ht hperm).1, fun ht => (Shape.ofRows_perm ht hperm.symm).1⟩,
    rfl, fun ht => (Shape.ofRows_perm ht hperm).2, rfl, hperm.map _, fun _ => ?_, fun ht => ?_⟩
  · cases masked with
    | false => rfl
    | true => exact (hperm.map _).any_eq
  · funext unit column
    have hn := ht.nodup
    rw [← ht.map_fst_rows] at hn
    have hlookup : (ofRows level names masked rows).rows.lookup unit =
        (ofRows level names masked rows').rows.lookup unit := by
      refine lookup_perm hn ?_ unit
      rw [rows_ofRows, rows_ofRows]
      exact hperm.map _
    rw [observedAt, observedAt, hlookup]

end

end DagMl
