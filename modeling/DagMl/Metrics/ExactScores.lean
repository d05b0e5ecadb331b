import DagMl.Lib.ClassScores
import DagMl.Metrics.Kernel

/-!
# Classification metrics, exactly

The classification metrics over the rationals, one target column at a time.
They count rows by their label, the rounded value cast to 64 bits, in one pass;
the counts are those of the textbook definitions as long as the cast tells the
labels apart.
-/

namespace DagMl

namespace Exact

open ClassScores

-- ---------------------------------------------------------------------------
-- Labels
-- ---------------------------------------------------------------------------

/-- `value.round()`, half away from zero. -/
def round (x : ℚ) : Int := if 0 ≤ x then ⌊x + 1 / 2⌋ else -⌊-x + 1 / 2⌋

/-- `value as i64`, which saturates. -/
def toI64 (n : Int) : Int := max (-2 ^ 63) (min n (2 ^ 63 - 1))

/-- A prediction beside its target, in one target column. -/
abbrev ScoredRow := ℚ × ℚ

def sameLabel (row : ScoredRow) : Bool := round row.1 = round row.2

-- ---------------------------------------------------------------------------
-- The metrics
-- ---------------------------------------------------------------------------

def accuracyForTarget (column : List ScoredRow) : ℚ := column.countP sameLabel / column.length

/-- Correct and total rows of each true class. -/
def countClass (perClass : BTreeMap Int (Nat × Nat)) (row : ScoredRow) : BTreeMap Int (Nat × Nat) :=
  let label := toI64 (round row.2)
  let entry := perClass[label]?.getD (0, 0)
  perClass.insert label (if sameLabel row then entry.1 + 1 else entry.1, entry.2 + 1)

def balancedAccuracyForTarget (column : List ScoredRow) : ℚ :=
  let perClass := column.foldl countClass ∅
  if perClass.isEmpty then 0
  else (perClass.toList.map fun entry => (entry.2.1 / entry.2.2 : ℚ)).sum / perClass.size

def countLabel (counts : BTreeMap Int LabelCounts) (row : ScoredRow) : BTreeMap Int LabelCounts :=
  let actual := toI64 (round row.2)
  let predicted := toI64 (round row.1)
  let entry := counts[actual]?.getD {}
  let counts := counts.insert actual { entry with support := entry.support + 1 }
  if actual = predicted then
    let entry := counts[actual]?.getD {}
    counts.insert actual { entry with truePositive := entry.truePositive + 1 }
  else
    let entry := counts[predicted]?.getD {}
    counts.insert predicted { entry with falsePositive := entry.falsePositive + 1 }

def labelF1 (c : LabelCounts) (total : ℚ) : ℚ :=
  let falseNegative := c.support - c.truePositive
  let denominator := 2 * c.truePositive + c.falsePositive + falseNegative
  if denominator = 0 then 0
  else (2 * c.truePositive : Nat) / denominator * (c.support / total)

def weightedF1ForTarget (column : List ScoredRow) : ℚ :=
  let counts := column.foldl countLabel ∅
  let total : ℚ := column.length
  (counts.toList.map fun entry => labelF1 entry.2 total).sum

-- ---------------------------------------------------------------------------
-- Integer labels
-- ---------------------------------------------------------------------------

/-- A row of integer class labels. -/
abbrev LabelRow := Int × Int

/-- The rows as numbers. -/
def columnOf (rows : List LabelRow) : List ScoredRow := rows.map fun row => (row.1, row.2)

/-- The labels fit in 64 bits. -/
def FitI64 (rows : List LabelRow) : Prop :=
  ∀ row ∈ rows, (-2 ^ 63 ≤ row.1 ∧ row.1 < 2 ^ 63) ∧ -2 ^ 63 ≤ row.2 ∧ row.2 < 2 ^ 63

theorem round_intCast (n : Int) : round n = n := by
  unfold round
  split
  · rw [Int.floor_intCast_add]
    norm_num
  · rw [← Int.cast_neg, Int.floor_intCast_add]
    norm_num

theorem toI64_of_fit (h : -2 ^ 63 ≤ n ∧ n < 2 ^ 63) : toI64 n = n := by
  unfold toI64
  omega

theorem sameLabel_intCast {row : LabelRow} : sameLabel ((row.1 : ℚ), (row.2 : ℚ)) = true ↔
    row.1 = row.2 := by
  simp [sameLabel, round_intCast]

theorem FitI64.append_singleton {rows : List LabelRow} {row : LabelRow}
    (h : FitI64 (rows ++ [row])) :
    FitI64 rows ∧ toI64 (round row.1) = row.1 ∧ toI64 (round row.2) = row.2 := by
  have hrow := h row (by simp)
  refine ⟨fun other hother => h other (List.mem_append_left _ hother), ?_, ?_⟩
  · rw [round_intCast, toI64_of_fit hrow.1]
  · rw [round_intCast, toI64_of_fit hrow.2]

theorem columnOf_append_singleton {rows : List LabelRow} {row : LabelRow} :
    columnOf (rows ++ [row]) = columnOf rows ++ [((row.1 : ℚ), (row.2 : ℚ))] := by
  simp [columnOf]

-- ---------------------------------------------------------------------------
-- The counts of one pass
-- ---------------------------------------------------------------------------

/-- After the pass a class that occurs has its correct rows and its rows. -/
theorem getElem?_countClass {rows : List LabelRow} (h : FitI64 rows) :
    ((columnOf rows).foldl countClass ∅)[c]? =
      if support rows c = 0 then none else some (truePositive rows c, support rows c) := by
  induction rows using List.reverseRecOn with
  | nil => simp [columnOf, support]
  | append_singleton rows row ih =>
    obtain ⟨hrows, -, hactual⟩ := h.append_singleton
    rw [columnOf_append_singleton, List.foldl_append, List.foldl_cons, List.foldl_nil, countClass,
      hactual, BTreeMap.getElem?_insert]
    have hsupport : support (rows ++ [row]) c = support rows c + if row.2 = c then 1 else 0 := by
      simp [support, List.countP_append, List.countP_cons]
    have htrue : truePositive (rows ++ [row]) c =
        truePositive rows c + if row.2 = c ∧ row.1 = c then 1 else 0 := by
      simp [truePositive, List.countP_append, List.countP_cons]
    by_cases hc : row.2 = c
    · subst hc
      rw [if_pos rfl, ih hrows, hsupport, htrue]
      have hle : truePositive rows row.2 ≤ support rows row.2 := truePositive_le
      simp only [sameLabel_intCast, true_and, if_true]
      by_cases hzero : support rows row.2 = 0
      · simp only [hzero, if_true, Option.getD_none, Nat.zero_add, Nat.one_ne_zero, if_false]
        split <;> simp_all
      · simp only [hzero, if_false, Option.getD_some, Nat.add_eq_zero_iff, false_and]
        split <;> rfl
    · simp [hc, ih hrows, hsupport, htrue]

/-- After the pass a label that occurs on either side has its three counts. -/
theorem getElem?_countLabel {rows : List LabelRow} (h : FitI64 rows) :
    ((columnOf rows).foldl countLabel ∅)[c]? =
      if support rows c = 0 ∧ falsePositive rows c = 0 then none
      else some ⟨truePositive rows c, falsePositive rows c, support rows c⟩ := by
  induction rows using List.reverseRecOn generalizing c with
  | nil => simp [columnOf, support, falsePositive]
  | append_singleton rows row ih =>
    obtain ⟨hrows, hpredicted, hactual⟩ := h.append_singleton
    have hdefault (d : Int) : ((columnOf rows).foldl countLabel ∅)[d]?.getD {} =
        ⟨truePositive rows d, falsePositive rows d, support rows d⟩ := by
      rw [ih hrows]
      split
      · rename_i hzero
        have hle : truePositive rows d ≤ support rows d := truePositive_le
        rw [hzero.1, Nat.le_zero] at hle
        rw [hzero.1, hzero.2, hle]
        rfl
      · rfl
    have hsupport (d : Int) :
        support (rows ++ [row]) d = support rows d + if row.2 = d then 1 else 0 := by
      simp [support, List.countP_append, List.countP_cons]
    have htrue (d : Int) : truePositive (rows ++ [row]) d =
        truePositive rows d + if row.2 = d ∧ row.1 = d then 1 else 0 := by
      simp [truePositive, List.countP_append, List.countP_cons]
    have hfalse (d : Int) : falsePositive (rows ++ [row]) d =
        falsePositive rows d + if row.1 = d ∧ row.2 ≠ d then 1 else 0 := by
      simp [falsePositive, List.countP_append, List.countP_cons]
    rw [columnOf_append_singleton, List.foldl_append, List.foldl_cons, List.foldl_nil, countLabel,
      hactual, hpredicted, hsupport, htrue, hfalse, hdefault]
    dsimp only
    by_cases hcorrect : row.2 = row.1
    · rw [if_pos hcorrect, BTreeMap.getElem?_insert, BTreeMap.getElem?_insert, if_pos rfl,
        Option.getD_some, ← hcorrect]
      by_cases hc : row.2 = c
      · subst hc
        simp
      · simp [hc, BTreeMap.getElem?_insert, ih hrows]
    · rw [if_neg hcorrect, BTreeMap.getElem?_insert, BTreeMap.getElem?_insert, if_neg hcorrect,
        hdefault]
      by_cases hp : row.1 = c
      · subst hp
        simp [hcorrect]
      · by_cases hc : row.2 = c
        · subst hc
          simp [hp]
        · simp [hp, hc, BTreeMap.getElem?_insert, ih hrows]

-- ---------------------------------------------------------------------------
-- The metrics as they are defined
-- ---------------------------------------------------------------------------

theorem toFinset_keys {V : Type} {m : BTreeMap Int V} {keys : Finset Int}
    (hkeys : ∀ k, k ∈ m ↔ k ∈ keys) : (m.toList.map Prod.fst).toFinset = keys := by
  ext k
  rw [← hkeys, BTreeMap.mem_iff, List.mem_toFinset, List.mem_map]
  constructor
  · rintro ⟨entry, hentry, rfl⟩
    exact ⟨entry.2, BTreeMap.mem_toList.mp hentry⟩
  · rintro ⟨v, hv⟩
    exact ⟨(k, v), BTreeMap.mem_toList.mpr hv, rfl⟩

/-- A sum over the entries of a map, as one over its keys. -/
theorem sum_toList_eq {V : Type} {m : BTreeMap Int V} {keys : Finset Int} {g : Int × V → ℚ}
    {value : Int → ℚ} (hkeys : ∀ k, k ∈ m ↔ k ∈ keys)
    (hvalue : ∀ k v, m[k]? = some v → g (k, v) = value k) :
    (m.toList.map g).sum = ∑ k ∈ keys, value k := by
  have hlist : m.toList.map g = (m.toList.map Prod.fst).map value := by
    rw [List.map_map]
    exact List.map_congr_left fun entry hentry =>
      hvalue entry.1 entry.2 (BTreeMap.mem_toList.mp hentry)
  rw [hlist, ← toFinset_keys hkeys, List.sum_toFinset _ (BTreeMap.nodup_keys_toList m)]

theorem size_eq_card {V : Type} {m : BTreeMap Int V} {keys : Finset Int}
    (hkeys : ∀ k, k ∈ m ↔ k ∈ keys) : m.size = keys.card := by
  rw [← toFinset_keys hkeys, List.toFinset_card_of_nodup (BTreeMap.nodup_keys_toList m),
    List.length_map, Std.ExtTreeMap.length_toList]

theorem accuracyForTarget_eq {rows : List LabelRow} :
    accuracyForTarget (columnOf rows) = accuracy rows := by
  rw [accuracyForTarget, accuracy, correct, columnOf, List.countP_map, List.length_map]
  congr 2
  refine List.countP_congr fun row _ => ?_
  simp [sameLabel, round_intCast]

theorem mem_countClass {rows : List LabelRow} (h : FitI64 rows) :
    c ∈ (columnOf rows).foldl countClass ∅ ↔ c ∈ classes rows := by
  rw [BTreeMap.mem_iff, getElem?_countClass h]
  constructor
  · rintro ⟨v, hv⟩
    split at hv
    · cases hv
    · rename_i hpos
      obtain ⟨row, hrow, hactual⟩ := List.countP_pos_iff.mp (Nat.pos_of_ne_zero hpos)
      exact mem_classes.mpr ⟨row, hrow, of_decide_eq_true hactual⟩
  · intro hc
    exact ⟨_, if_neg (support_pos hc).ne'⟩

theorem balancedAccuracyForTarget_eq {rows : List LabelRow} (h : FitI64 rows) :
    balancedAccuracyForTarget (columnOf rows) = balancedAccuracy rows := by
  have hkeys (c : Int) := mem_countClass h (c := c)
  have hsum : (((columnOf rows).foldl countClass ∅).toList.map fun entry =>
      (entry.2.1 / entry.2.2 : ℚ)).sum = ∑ c ∈ classes rows, classRecall rows c := by
    refine sum_toList_eq hkeys fun c v hv => ?_
    rw [getElem?_countClass h] at hv
    split at hv
    · cases hv
    · cases hv
      rfl
  rw [balancedAccuracyForTarget, hsum, size_eq_card hkeys]
  split
  · rename_i hempty
    have hnone : classes rows = ∅ := by
      rw [← Finset.card_eq_zero, ← size_eq_card hkeys]
      rw [Std.ExtTreeMap.isEmpty_iff.mp hempty]
      rfl
    rw [balancedAccuracy, hnone, Finset.sum_empty, zero_div]
  · rfl

theorem labelF1_eq {rows : List LabelRow} :
    labelF1 ⟨truePositive rows c, falsePositive rows c, support rows c⟩ rows.length =
      f1 rows c * (support rows c / rows.length) := by
  have hnegative : support rows c - truePositive rows c = falseNegative rows c := by
    rw [support_eq, Nat.add_sub_cancel_left]
  simp only [labelF1, hnegative]
  split
  · rename_i hzero
    have hnone : (2 * truePositive rows c + falsePositive rows c + falseNegative rows c : ℚ) = 0 := by
      exact_mod_cast hzero
    rw [f1, hnone, div_zero, zero_mul]
  · rw [f1]
    push_cast
    rfl

theorem weightedF1ForTarget_eq {rows : List LabelRow} (h : FitI64 rows) :
    weightedF1ForTarget (columnOf rows) = weightedF1 rows := by
  have hlength : (columnOf rows).length = rows.length := List.length_map _
  have hsum : (((columnOf rows).foldl countLabel ∅).toList.map fun entry =>
      labelF1 entry.2 rows.length).sum =
        ∑ c ∈ (((columnOf rows).foldl countLabel ∅).toList.map Prod.fst).toFinset,
          f1 rows c * (support rows c / rows.length) := by
    refine sum_toList_eq (fun k => ?_) fun c v hv => ?_
    · simp
    · rw [getElem?_countLabel h] at hv
      split at hv
      · cases hv
      · cases hv
        exact labelF1_eq
  rw [weightedF1ForTarget, hlength, hsum, weightedF1]
  refine (Finset.sum_subset (fun c hc => ?_) fun c _ hc => ?_).symm
  · have hget := getElem?_countLabel h (c := c)
    rw [if_neg fun hzero => (support_pos hc).ne' hzero.1] at hget
    exact List.mem_toFinset.mpr (List.mem_map.mpr ⟨(c, _), BTreeMap.mem_toList.mpr hget, rfl⟩)
  · have hzero : support rows c = 0 := by
      by_contra hpos
      obtain ⟨row, hrow, hactual⟩ := List.countP_pos_iff.mp (Nat.pos_of_ne_zero hpos)
      exact hc (mem_classes.mpr ⟨row, hrow, of_decide_eq_true hactual⟩)
    rw [hzero, Nat.cast_zero, zero_div, mul_zero]

-- ---------------------------------------------------------------------------
-- What a score says
-- ---------------------------------------------------------------------------

/-- A score is its definition, a fraction that is whole exactly when every row
is correct; neither the order of the rows nor the names of the classes matter. -/
structure IsClassScore (score definition : List LabelRow → ℚ) (rows : List LabelRow) : Prop where
  defined : score rows = definition rows
  fraction : score rows ∈ Set.Icc 0 1
  whole : score rows = 1 ↔ AllCorrect rows
  unordered : ∀ rows', rows.Perm rows' → score rows' = score rows
  unnamed : ∀ f : Int → Int, InjOnLabels f rows → FitI64 (rows.map (Prod.map f f)) →
    score (rows.map (Prod.map f f)) = score rows

theorem FitI64.perm {rows rows' : List LabelRow} (h : FitI64 rows) (hperm : rows.Perm rows') :
    FitI64 rows' := fun row hrow => h row (hperm.mem_iff.mpr hrow)

theorem accuracy_isClassScore {rows : List LabelRow} (h : rows ≠ []) :
    IsClassScore (fun rows => accuracyForTarget (columnOf rows)) accuracy rows where
  defined := accuracyForTarget_eq
  fraction := accuracyForTarget_eq ▸ accuracy_mem h
  whole := accuracyForTarget_eq ▸ accuracy_eq_one h
  unordered rows' hperm := by
    rw [accuracyForTarget_eq, accuracyForTarget_eq, accuracy_perm hperm]
  unnamed f hf _ := by rw [accuracyForTarget_eq, accuracyForTarget_eq, accuracy_map hf]

theorem balancedAccuracy_isClassScore {rows : List LabelRow} (h : rows ≠ []) (hfit : FitI64 rows) :
    IsClassScore (fun rows => balancedAccuracyForTarget (columnOf rows)) balancedAccuracy rows where
  defined := balancedAccuracyForTarget_eq hfit
  fraction := balancedAccuracyForTarget_eq hfit ▸ balancedAccuracy_mem h
  whole := balancedAccuracyForTarget_eq hfit ▸ balancedAccuracy_eq_one h
  unordered rows' hperm := by
    rw [balancedAccuracyForTarget_eq hfit, balancedAccuracyForTarget_eq (hfit.perm hperm),
      balancedAccuracy_perm hperm]
  unnamed f hf hmapped := by
    rw [balancedAccuracyForTarget_eq hfit, balancedAccuracyForTarget_eq hmapped,
      balancedAccuracy_map hf]

theorem weightedF1_isClassScore {rows : List LabelRow} (h : rows ≠ []) (hfit : FitI64 rows) :
    IsClassScore (fun rows => weightedF1ForTarget (columnOf rows)) weightedF1 rows where
  defined := weightedF1ForTarget_eq hfit
  fraction := weightedF1ForTarget_eq hfit ▸ weightedF1_mem h
  whole := weightedF1ForTarget_eq hfit ▸ weightedF1_eq_one h
  unordered rows' hperm := by
    rw [weightedF1ForTarget_eq hfit, weightedF1ForTarget_eq (hfit.perm hperm),
      weightedF1_perm hperm]
  unnamed f hf hmapped := by
    rw [weightedF1ForTarget_eq hfit, weightedF1ForTarget_eq hmapped, weightedF1_map hf]

/-- `support - true_positive` stays in range. -/
theorem countLabel_noUnderflow {rows : List LabelRow} {c : Int} {counts : LabelCounts}
    (h : FitI64 rows)
    (hget : ((columnOf rows).foldl countLabel ∅)[c]? = some counts) :
    counts.truePositive ≤ counts.support := by
  rw [getElem?_countLabel h] at hget
  split at hget
  · cases hget
  · cases hget
    exact truePositive_le

/-- The three scores of rows of 64-bit labels. -/
theorem classificationScores {rows : List LabelRow} (h : rows ≠ []) (hfit : FitI64 rows) :
    IsClassScore (fun rows => accuracyForTarget (columnOf rows)) accuracy rows ∧
    IsClassScore (fun rows => balancedAccuracyForTarget (columnOf rows)) balancedAccuracy rows ∧
    IsClassScore (fun rows => weightedF1ForTarget (columnOf rows)) weightedF1 rows ∧
    ∀ (c : Int) (counts : LabelCounts),
      ((columnOf rows).foldl countLabel ∅)[c]? = some counts → counts.truePositive ≤ counts.support :=
  ⟨accuracy_isClassScore h, balancedAccuracy_isClassScore h hfit, weightedF1_isClassScore h hfit,
    fun _ _ hget => countLabel_noUnderflow hfit hget⟩

theorem classificationScores_pair :
    IsClassScore (fun rows => accuracyForTarget (columnOf rows)) accuracy [(0, 1), (1, 1)] ∧
    IsClassScore (fun rows => balancedAccuracyForTarget (columnOf rows)) balancedAccuracy
      [(0, 1), (1, 1)] ∧
    IsClassScore (fun rows => weightedF1ForTarget (columnOf rows)) weightedF1 [(0, 1), (1, 1)] ∧
    ∀ (c : Int) (counts : LabelCounts),
      ((columnOf [(0, 1), (1, 1)]).foldl countLabel ∅)[c]? = some counts →
        counts.truePositive ≤ counts.support :=
  classificationScores (by simp) (by simp [FitI64])

/-- Two labels past the 64 bits are one class. -/
theorem weightedF1ForTarget_saturates :
    ¬∀ rows : List LabelRow, rows ≠ [] →
      (weightedF1ForTarget (columnOf rows) = 1 ↔ AllCorrect rows) := by
  intro h
  have hone : weightedF1ForTarget (columnOf [(2 ^ 63, 2 ^ 64)]) = 1 := by decide +kernel
  have hcorrect := (h [(2 ^ 63, 2 ^ 64)] (by simp)).mp hone
  exact absurd (hcorrect _ List.mem_cons_self) (by norm_num)

end Exact

end DagMl
