import DagMl.Metrics.ScoreMaps

/-!
# What scoring computes

A block is read through the observed cells of its columns: both scoring paths
accept the same rows, and give every metric the mean of its components, each the
score of one column restricted to the units observed for it.
-/

namespace DagMl

open Checked WeightedRows

-- ---------------------------------------------------------------------------
-- Tokens
-- ---------------------------------------------------------------------------

theorem isIdentifierChar_plain {c : Char} (h : isIdentifierChar c = true) :
    isWhitespace c = false ∧ isControl c = false := by
  simp only [isIdentifierChar, Char.isAlphanum, Char.isAlpha, Char.isUpper, Char.isLower,
    Char.isDigit, Bool.or_eq_true, Bool.and_eq_true, decide_eq_true_eq, UInt32.le_iff_toNat_le,
    ge_iff_le] at h
  have hrange : 0x2d ≤ c.toNat ∧ c.toNat ≤ 0x7a := by
    rcases h with ((((h | h) | rfl) | rfl) | rfl) | rfl
    all_goals first | decide | (simp only [Char.toNat]; grind)
  simp only [isWhitespace, isControl, Bool.or_eq_false_iff, Bool.and_eq_false_iff,
    decide_eq_false_iff_not]
  omega

theorem Id.isIdentifierChar_of_mem {kind : IdKind} (id : Id kind) :
    ∀ c ∈ id.value.toList, isIdentifierChar c = true := by
  have h := id.valid
  unfold validateIdentifier at h
  split at h
  · cases h
  · split at h
    · cases h
    · split at h
      · cases h
      · rename_i hall
        simpa using hall

theorem dropWhile_eq_self {l : List Char} (h : ∀ c ∈ l, isWhitespace c = false) :
    l.dropWhile isWhitespace = l := by
  cases l with
  | nil => rfl
  | cons c l => simp [h c]

theorem validateToken_ok {label value : String} (hne : value.toList ≠ [])
    (h : ∀ c ∈ value.toList, isIdentifierChar c = true) : validateToken label value = .ok () := by
  have hwhitespace : ∀ c ∈ value.toList, isWhitespace c = false :=
    fun c hc => (isIdentifierChar_plain (h c hc)).1
  have htrim : trim value = value := by
    rw [trim, dropWhile_eq_self hwhitespace, dropWhile_eq_self (by simpa using hwhitespace),
      List.reverse_reverse, String.ofList_toList]
  rw [validateToken, refuseIf_ok]
  simp only [not_or, Bool.not_eq_true, List.any_eq_false, htrim, ne_eq, not_true_eq_false,
    not_false_eq_true, true_and]
  refine ⟨?_, hwhitespace, fun c hc => (isIdentifierChar_plain (h c hc)).2⟩
  rw [← Bool.not_eq_true, String.isEmpty_iff]
  rintro rfl
  exact hne rfl

/-- The output ids of a task, one for each column. -/
def outputId (index : Nat) : String := s!"output:{index}"

theorem toList_outputId (index : Nat) :
    (outputId index).toList = "output:".toList ++ Nat.toDigits 10 index := by
  have hid : outputId index = "output:" ++ toString index := rfl
  simp [hid]

theorem outputId_injective : Function.Injective outputId := by
  intro i j h
  have hchars := congrArg String.toList h
  rw [toList_outputId, toList_outputId, List.append_cancel_left_eq] at hchars
  rw [← Nat.ofDigitChars_ten_toDigits (n := i), hchars, Nat.ofDigitChars_ten_toDigits]

theorem validateToken_outputId {label : String} (index : Nat) :
    validateToken label (outputId index) = .ok () := by
  refine validateToken_ok (by simp [toList_outputId]) fun c hc => ?_
  rw [toList_outputId, List.mem_append] at hc
  rcases hc with hc | hc
  · revert c
    simp [isIdentifierChar, Char.isAlphanum, Char.isAlpha, Char.isLower]
  · have hdigit := Nat.isDigit_of_mem_toDigits (by decide) (by decide) hc
    simp [isIdentifierChar, Char.isAlphanum, hdigit]

-- ---------------------------------------------------------------------------
-- Sound rows
-- ---------------------------------------------------------------------------

section

variable {K : Type}

/-- What the entry points check before they score. -/
structure PredictionRows.Sound (rows : PredictionRows K) : Prop where
  length_eq : rows.unitIds.length = rows.values.length
  levels : ∀ unit ∈ rows.unitIds, unit.level = rows.level
  nodup : rows.unitIds.Nodup
  width_eq : rows.width = matrixWidth rows.values
  width_pos : 0 < rows.width
  rows_width : ∀ row ∈ rows.values, row.length = rows.width
  names : rows.targetNames = [] ∨ rows.targetNames.length = rows.width

theorem matrixWidth_of_forall {α : Type} {values : List (List α)} {width : Nat}
    (hne : values ≠ []) (h : ∀ row ∈ values, row.length = width) : matrixWidth values = width := by
  cases values with
  | nil => exact absurd rfl hne
  | cons row values => exact h row List.mem_cons_self

/-- A matrix with one cell in each row. -/
theorem matrixWidth_singletons {α β : Type} {f : α → β} {l : List α} (hne : l ≠ []) :
    matrixWidth (l.map fun a => [f a]) = 1 ∧ ∀ row ∈ l.map fun a => [f a], row.length = 1 := by
  have hrows : ∀ row ∈ l.map fun a => [f a], row.length = 1 :=
    List.forall_mem_map.mpr fun _ _ => rfl
  exact ⟨matrixWidth_of_forall (by simpa using hne) hrows, hrows⟩

theorem ne_nil_of_matrixWidth {α : Type} {values : List (List α)} (h : 0 < matrixWidth values) :
    values ≠ [] := by
  rintro rfl
  exact absurd h (Nat.lt_irrefl 0)

theorem PredictionRows.Sound.values_ne_nil {rows : PredictionRows K} (h : rows.Sound) :
    rows.values ≠ [] := ne_nil_of_matrixWidth (h.width_eq ▸ h.width_pos)

theorem PredictionRows.Sound.unitIds_ne_nil {rows : PredictionRows K} (h : rows.Sound) :
    rows.unitIds ≠ [] := by
  intro hnil
  have hlength := h.length_eq
  rw [hnil, List.length_nil] at hlength
  exact h.values_ne_nil (List.length_eq_zero_iff.mp hlength.symm)

theorem PredictionRows.Sound.map_fst {rows : PredictionRows K} (h : rows.Sound) :
    (rows.unitIds.zip rows.values).map Prod.fst = rows.unitIds := List.map_fst_zip h.length_eq.le

theorem PredictionRows.Sound.map_snd {rows : PredictionRows K} (h : rows.Sound) :
    (rows.unitIds.zip rows.values).map Prod.snd = rows.values := List.map_snd_zip h.length_eq.ge

theorem PredictionUnitId.toMetric_injective : Function.Injective PredictionUnitId.toMetric := by
  intro a b h
  cases a <;> cases b <;> simp_all [PredictionUnitId.toMetric]

theorem PredictionUnitId.level_toMetric (unit : PredictionUnitId) :
    unit.toMetric.level = unit.level := by
  cases unit <;> rfl

end

section

variable {K : Type} [Field K] [LinearOrder K]

theorem validateMatrix_ok {α : Type} {label : String} {values : List (List α)} {n width : Nat}
    (hlength : values.length = n) (hne : values ≠ []) (hwidth : 0 < width)
    (h : ∀ row ∈ values, row.length = width) : validateMatrix label values n = .ok width := by
  have hmatrix := matrixWidth_of_forall hne h
  simp only [validateMatrix, bind_ok, refuseIf_ok, pure_ok, not_or, not_not, not_exists, not_and,
    hmatrix]
  exact ⟨(), hlength, (), ⟨hwidth.ne', h⟩, trivial⟩

theorem validateCompatibility_builtin (metric : RegressionMetricKind) (level : PredictionLevel) :
    (builtinMetricSpec metric).validateCompatibility metric.taskKinds.1 metric.taskKinds.2 level =
      .ok () := by
  cases metric <;> cases level <;> rfl

/-- A task on sound rows is refused for its producer port or its prediction id only. -/
theorem validateFields_task {rows : PredictionRows K} (hs : rows.Sound)
    {aligned : List (List K × List K)} (hfst : aligned.map Prod.fst = rows.values)
    (hsnd : ∀ entry ∈ aligned, entry.2.length = rows.width) (metric : RegressionMetricKind) :
    (rows.task aligned metric).validateFields = .ok u ↔ rows.scope.validate = .ok () := by
  have hrequest : validateToken "metric request_id" (rows.task aligned metric).requestId = .ok () := by
    have hlist : (rows.task aligned metric).requestId.toList =
        "metric:".toList ++ rows.origin.producerNode.value.toList ++ ':' :: metric.name.toList := by
      have hid : (rows.task aligned metric).requestId =
        "metric:" ++ rows.origin.producerNode.value ++ ":" ++ metric.name := rfl
      simp [hid]
    have hname : ∀ c ∈ metric.name.toList, isIdentifierChar c = true := by
      cases metric <;> simp [RegressionMetricKind.name, isIdentifierChar, Char.isAlphanum,
        Char.isAlpha, Char.isLower, Char.isDigit]
    refine validateToken_ok (by simp [hlist]) fun c hc => ?_
    simp only [hlist, List.mem_append, List.mem_cons] at hc
    rcases hc with (hc | hc) | rfl | hc
    · revert c
      simp [isIdentifierChar, Char.isAlphanum, Char.isAlpha, Char.isLower]
    · exact rows.origin.producerNode.isIdentifierChar_of_mem c hc
    · decide
    · exact hname c hc
  have hlength : aligned.length = rows.unitIds.length := by
    rw [hs.length_eq, ← hfst, List.length_map]
  have hne : aligned ≠ [] := by
    rw [← List.length_pos_iff, hlength, List.length_pos_iff]
    exact hs.unitIds_ne_nil
  have hpredictions : validateMatrix "metric predictions" (aligned.map Prod.fst)
      (rows.unitIds.map (·.toMetric)).length = .ok rows.width := by
    rw [hfst, List.length_map]
    exact validateMatrix_ok hs.length_eq.symm hs.values_ne_nil hs.width_pos hs.rows_width
  have htargets : validateMatrix "metric targets" (aligned.map Prod.snd)
      (rows.unitIds.map (·.toMetric)).length = .ok rows.width := by
    refine validateMatrix_ok (by simpa using hlength) (by simpa using hne) hs.width_pos ?_
    exact List.forall_mem_map.mpr hsnd
  have houtputs : eachUnique id (validateToken "metric output_id")
      (fun outputId => DagMlError.campaignValidation s!"duplicate metric output_id `{outputId}`")
      ((List.range rows.width).map outputId) = .ok () := by
    rw [eachUnique_iff, List.forall_mem_map, List.map_id]
    exact ⟨fun index _ => validateToken_outputId index,
      List.nodup_range.map outputId_injective⟩
  have hcount : (rows.unitIds.map (·.toMetric)).toFinset.card = rows.unitIds.length := by
    rw [card_toFinset_eq_length.mpr (hs.nodup.map PredictionUnitId.toMetric_injective),
      List.length_map]
  have hoptional : (rows.task aligned metric).validateOptionalInputs
      (rows.unitIds.map (·.toMetric)).length rows.width = .ok () := rfl
  constructor
  · intro h
    simp only [MetricEvaluationTask.validateFields, bind_ok] at h
    obtain ⟨_, -, _, -, _, hscope, -⟩ := h
    exact hscope
  · intro hscope
    simp only [MetricEvaluationTask.validateFields, bind_ok, refuseIf_ok]
    refine ⟨(), hrequest, (), validateCompatibility_builtin metric rows.level, (), hscope, (), ?_,
      (), ?_, (), ?_, rows.width, hpredictions, rows.width, htargets, (), ?_, (), houtputs, (), ?_,
      hoptional⟩
    · simpa [PredictionRows.task] using hs.unitIds_ne_nil
    · rintro ⟨unit, hunit, hlevel⟩
      obtain ⟨source, hsource, rfl⟩ := List.mem_map.mp hunit
      rw [PredictionUnitId.level_toMetric] at hlevel
      exact hlevel (hs.levels source hsource)
    · simpa [PredictionRows.task] using hcount
    · simpa [PredictionRows.task] using hs.width_pos.ne'
    · exact fun h => h.2 rfl

end

-- ---------------------------------------------------------------------------
-- Target rows
-- ---------------------------------------------------------------------------

namespace ExactTargets

section

variable {K : Type}

/-- What `validateShape` accepts. -/
structure Shape (targets : ExactTargets K) : Prop where
  length_eq : targets.unitIds.length = targets.values.length
  levels : ∀ unit ∈ targets.unitIds, unit.level = targets.level
  nodup : targets.unitIds.Nodup
  width_pos : 0 < targets.width
  rows_width : ∀ row ∈ targets.values, row.length = targets.width
  masks : ∀ masks, targets.validityMasks = some masks →
    masks.length = targets.values.length ∧ ∀ row ∈ masks, row.length = targets.width
  names : targets.targetNames = [] ∨ targets.targetNames.length = targets.width

theorem validateShape_ok {targets : ExactTargets K} {w : Nat} :
    targets.validateShape = .ok w ↔ targets.Shape ∧ w = targets.width := by
  simp only [validateShape, bind_ok, refuseIf_ok, whenSome_ok, pure_ok, not_or, not_not, not_exists,
    not_and, card_toFinset_eq_length]
  constructor
  · rintro ⟨_, hl, _, hv, _, hn, _, hw, _, hr, _, hm, _, hnames, rfl⟩
    exact ⟨⟨hl, hv, hn, Nat.pos_of_ne_zero hw, hr, hm, or_iff_not_imp_left.mpr hnames⟩, rfl⟩
  · rintro ⟨h, rfl⟩
    exact ⟨(), h.length_eq, (), h.levels, (), h.nodup, (), h.width_pos.ne', (), h.rows_width, (),
      h.masks, (), or_iff_not_imp_left.mp h.names, rfl⟩

/-- The masks; without them every cell is observed. -/
def masks (targets : ExactTargets K) : List (List Bool) :=
  targets.validityMasks.getD (targets.values.map fun row => row.map fun _ => true)

/-- Every row under its unit, beside its mask. -/
def rows (targets : ExactTargets K) : List (PredictionUnitId × List K × List Bool) :=
  targets.unitIds.zip (targets.values.zip targets.masks)

variable {targets : ExactTargets K}

theorem Shape.length_masks (h : targets.Shape) : targets.masks.length = targets.values.length := by
  unfold ExactTargets.masks
  cases hm : targets.validityMasks with
  | none => simp
  | some masks => exact (h.masks masks hm).1

theorem Shape.width_masks (h : targets.Shape) : ∀ row ∈ targets.masks, row.length = targets.width := by
  unfold ExactTargets.masks
  cases hm : targets.validityMasks with
  | none => simpa using h.rows_width
  | some masks => exact (h.masks masks hm).2

theorem Shape.map_fst_rows (h : targets.Shape) : targets.rows.map Prod.fst = targets.unitIds := by
  refine List.map_fst_zip ?_
  rw [List.length_zip, h.length_masks, min_self, h.length_eq]

theorem Shape.values_ne_nil (h : targets.Shape) : targets.values ≠ [] :=
  ne_nil_of_matrixWidth h.width_pos

theorem Shape.lookup_rows (h : targets.Shape) {unit : PredictionUnitId} {row : List K}
    {mask : List Bool} : targets.rows.lookup unit = some (row, mask) ↔
      ∃ i : Nat, targets.unitIds[i]? = some unit ∧ targets.values[i]? = some row ∧
        targets.masks[i]? = some mask := by
  rw [Keyed.lookup_eq_some (by rw [h.map_fst_rows]; exact h.nodup), List.mem_iff_getElem?]
  simp only [rows, List.getElem?_zip_eq_some]

/-- A cell is observed under a true mask. -/
theorem observed_of_complete (h : targets.hasMissingValues = false) :
    ∀ row ∈ targets.masks, ∀ observed ∈ row, observed = true := by
  unfold ExactTargets.masks
  cases hm : targets.validityMasks with
  | none => simp
  | some masks => simpa [hasMissingValues, hm] using h

end

section

variable {K : Type} [Field K]

/-- The number in a column of a unit's row, where it is observed. -/
def observedAt (targets : ExactTargets K) (unit : PredictionUnitId) (column : Nat) : Option K :=
  (targets.rows.lookup unit).bind fun row =>
    if row.2.getD column false = true then some (entry row.1 column) else none

end

end ExactTargets

section

variable {K : Type} [Field K] {rows : PredictionRows K} {targets : ExactTargets K}

/-- The observed cells of a column, in prediction order. -/
def PredictionRows.observed (rows : PredictionRows K) (targets : ExactTargets K) (column : Nat) :
    List (ObservedCell K) :=
  (rows.unitIds.zip rows.values).filterMap fun e =>
    (targets.observedAt e.1 column).map fun target => (e.1, entry e.2 column, target)

theorem mem_observed {cell : ObservedCell K} {column : Nat} : cell ∈ rows.observed targets column ↔
    ∃ row, (cell.1, row) ∈ rows.unitIds.zip rows.values ∧ cell.2.1 = entry row column ∧
      targets.observedAt cell.1 column = some cell.2.2 := by
  obtain ⟨unit, prediction, target⟩ := cell
  simp only [PredictionRows.observed, List.mem_filterMap, Option.map_eq_some_iff, Prod.mk.injEq,
    Prod.exists]
  constructor
  · rintro ⟨_, row, hmem, _, hat, rfl, rfl, rfl⟩
    exact ⟨row, hmem, rfl, hat⟩
  · rintro ⟨row, hmem, rfl, hat⟩
    exact ⟨unit, row, hmem, target, hat, rfl, rfl, rfl⟩

/-- Of an observed cell, its unit and the prediction are those of the row. -/
theorem map_observed {α : Type} {column : Nat} {f : ObservedCell K → α}
    {g : PredictionUnitId × List K → α} (h : ∀ e target, f (e.1, entry e.2 column, target) = g e) :
    (rows.observed targets column).map f =
      ((rows.unitIds.zip rows.values).filter fun e => (targets.observedAt e.1 column).isSome).map g := by
  unfold PredictionRows.observed
  induction rows.unitIds.zip rows.values with
  | nil => rfl
  | cons e l ih =>
    cases hat : targets.observedAt e.1 column with
    | none => simp [hat, ih]
    | some target => simp [hat, ih, h]

omit [Field K] in
/-- The unit index finds the row of a unit. -/
theorem getElem?_unitRows (ht : targets.Shape) {unit : PredictionUnitId} {i : Nat} :
    (BTreeMap.collect targets.unitIds.zipIdx)[unit]? = some i ↔ targets.unitIds[i]? = some unit := by
  rw [BTreeMap.getElem?_collect, List.mem_zipIdx_iff_getElem?]
  refine BTreeMap.functional_of_nodup ?_
  rw [List.zipIdx_map_fst]
  exact ht.nodup

theorem collect_of_forall {α β : Type} {l : List α} {f : α → Result β} {g : α → β}
    (h : ∀ x ∈ l, f x = .ok (g x)) : collect l f = .ok (l.map g) := by
  rw [collect_ok, List.forall₂_map_right_iff]
  exact List.forall₂_same.mpr h

/-- The cell of a unit is that of its row. -/
theorem ExactTargets.Shape.observedAt_eq (ht : targets.Shape) {unit : PredictionUnitId} {i : Nat}
    (hi : targets.unitIds[i]? = some unit) (column : Nat) : targets.observedAt unit column =
      if (targets.masks.getD i []).getD column false = true then
        some (entry (targets.values.getD i []) column) else none := by
  have hrow : targets.values[i]? = some (targets.values.getD i []) := by
    have hlt : i < targets.values.length := ht.length_eq ▸ (List.getElem?_eq_some_iff.mp hi).1
    simp [hlt]
  have hmask : targets.masks[i]? = some (targets.masks.getD i []) := by
    have hlt : i < targets.masks.length :=
      (ht.length_eq.trans ht.length_masks.symm) ▸ (List.getElem?_eq_some_iff.mp hi).1
    simp [hlt]
  rw [ExactTargets.observedAt, ht.lookup_rows.mpr ⟨i, hi, hrow, hmask⟩]
  rfl

theorem ExactTargets.Shape.observedAt_eq_none (ht : targets.Shape) {unit : PredictionUnitId}
    (hunit : unit ∉ targets.unitIds) (column : Nat) : targets.observedAt unit column = none := by
  have hlookup : ¬(targets.rows.lookup unit).isSome := by
    rw [Keyed.lookup_isSome, ht.map_fst_rows]
    exact hunit
  rw [ExactTargets.observedAt, Option.not_isSome_iff_eq_none.mp hlookup]
  rfl

theorem observedCell_ok (ht : targets.Shape) {e : PredictionUnitId × List K}
    (hunit : e.1 ∈ targets.unitIds) (column : Nat) :
    observedCell targets (BTreeMap.collect targets.unitIds.zipIdx) targets.masks column e =
      .ok ((targets.observedAt e.1 column).map fun target => (e.1, entry e.2 column, target)) := by
  obtain ⟨i, hi⟩ := List.getElem?_of_mem hunit
  simp only [observedCell, bind_ok, need_ok, pure_ok, ht.observedAt_eq hi]
  refine ⟨i, (getElem?_unitRows ht).mpr hi, ?_⟩
  split <;> rfl

theorem observedCells_ok (ht : targets.Shape)
    (hunits : ∀ unit ∈ rows.unitIds, unit ∈ targets.unitIds) (column : Nat) :
    observedCells rows targets targets.masks column = .ok (rows.observed targets column) := by
  simp only [observedCells, bind_ok, pure_ok]
  refine ⟨_, collect_of_forall fun e he =>
    observedCell_ok ht (hunits e.1 (List.of_mem_zip he).1) column, ?_⟩
  rw [List.reduceOption, List.filterMap_map]
  rfl

end

end DagMl
