import Mathlib

/-!
# Classification scores

Rows pair a predicted class with the actual one. The three scores are means of
per-class fractions: they lie between zero and one, are one exactly when every
row is correct, and do not depend on the order of the rows or the names of the
classes.
-/

namespace ClassScores

variable {α β : Type} [DecidableEq α] (rows : List (α × α))

def correct : Nat := rows.countP fun row => row.1 = row.2

def support (c : α) : Nat := rows.countP fun row => row.2 = c

def truePositive (c : α) : Nat := rows.countP fun row => row.2 = c ∧ row.1 = c

def falsePositive (c : α) : Nat := rows.countP fun row => row.1 = c ∧ row.2 ≠ c

def falseNegative (c : α) : Nat := rows.countP fun row => row.2 = c ∧ row.1 ≠ c

/-- The classes that occur among the actual ones. -/
def classes : Finset α := (rows.map Prod.snd).toFinset

def accuracy : ℚ := correct rows / rows.length

def classRecall (c : α) : ℚ := truePositive rows c / support rows c

/-- The mean of the recalls. -/
def balancedAccuracy : ℚ := (∑ c ∈ classes rows, classRecall rows c) / (classes rows).card

def f1 (c : α) : ℚ :=
  2 * truePositive rows c / (2 * truePositive rows c + falsePositive rows c + falseNegative rows c)

/-- The mean of the F1 scores, each class weighted by its support. -/
def weightedF1 : ℚ := ∑ c ∈ classes rows, f1 rows c * (support rows c / rows.length)

/-- Every row is correct. -/
def AllCorrect : Prop := ∀ row ∈ rows, row.1 = row.2

variable {rows}

-- ---------------------------------------------------------------------------
-- Counts
-- ---------------------------------------------------------------------------

theorem mem_classes : c ∈ classes rows ↔ ∃ row ∈ rows, row.2 = c := by
  simp [classes]

theorem support_eq : support rows c = truePositive rows c + falseNegative rows c := by
  induction rows with
  | nil => rfl
  | cons row rows ih =>
    simp only [support, truePositive, falseNegative, List.countP_cons] at ih ⊢
    rw [ih]
    by_cases hactual : row.2 = c <;> by_cases hpredicted : row.1 = c <;>
      simp [hactual, hpredicted] <;> omega

theorem truePositive_le : truePositive rows c ≤ support rows c := by
  rw [support_eq]
  exact Nat.le_add_right _ _

theorem support_pos (h : c ∈ classes rows) : 0 < support rows c := by
  obtain ⟨row, hrow, hactual⟩ := mem_classes.mp h
  exact List.countP_pos_iff.mpr ⟨row, hrow, decide_eq_true hactual⟩

theorem falseNegative_eq_zero : falseNegative rows c = 0 ↔ ∀ row ∈ rows, row.2 = c → row.1 = c := by
  simp [falseNegative, List.countP_eq_zero]

theorem falsePositive_eq_zero (h : AllCorrect rows) : falsePositive rows c = 0 := by
  simp only [falsePositive, List.countP_eq_zero, decide_eq_true_eq, not_and, not_not]
  rintro row hrow rfl
  exact (h row hrow).symm

/-- Every row is correct when no class misses a row. -/
theorem allCorrect_iff : AllCorrect rows ↔ ∀ c ∈ classes rows, falseNegative rows c = 0 := by
  simp only [falseNegative_eq_zero]
  constructor
  · rintro h c - row hrow rfl
    exact h row hrow
  · intro h row hrow
    exact h row.2 (mem_classes.mpr ⟨row, hrow, rfl⟩) row hrow rfl

theorem sum_support : ∑ c ∈ classes rows, support rows c = rows.length := by
  have hcount (c : α) : support rows c = (rows.map Prod.snd).count c := by
    rw [support, List.count, List.countP_map]
    rfl
  rw [Finset.sum_congr rfl fun c _ => hcount c, classes, List.sum_toFinset_count_eq_length,
    List.length_map]

theorem classes_nonempty (h : rows ≠ []) : (classes rows).Nonempty := by
  obtain ⟨row, hrow⟩ := List.exists_mem_of_ne_nil rows h
  exact ⟨row.2, mem_classes.mpr ⟨row, hrow, rfl⟩⟩

-- ---------------------------------------------------------------------------
-- Accuracy
-- ---------------------------------------------------------------------------

theorem accuracy_mem (h : rows ≠ []) : accuracy rows ∈ Set.Icc 0 1 := by
  have hpos : (0 : ℚ) < rows.length := Nat.cast_pos.mpr (List.length_pos_iff.mpr h)
  have hle : (correct rows : ℚ) ≤ rows.length := Nat.cast_le.mpr List.countP_le_length
  exact ⟨by unfold accuracy; positivity, (div_le_one hpos).mpr hle⟩

theorem accuracy_eq_one (h : rows ≠ []) : accuracy rows = 1 ↔ AllCorrect rows := by
  have hpos : (rows.length : ℚ) ≠ 0 := Nat.cast_ne_zero.mpr (List.length_pos_iff.mpr h).ne'
  rw [accuracy, div_eq_one_iff_eq hpos, Nat.cast_inj, correct, List.countP_eq_length]
  simp [AllCorrect]

-- ---------------------------------------------------------------------------
-- Balanced accuracy
-- ---------------------------------------------------------------------------

theorem classRecall_nonneg : 0 ≤ classRecall rows c := by
  unfold classRecall
  positivity

theorem classRecall_le_one : classRecall rows c ≤ 1 :=
  div_le_one_of_le₀ (Nat.cast_le.mpr truePositive_le) (Nat.cast_nonneg _)

theorem classRecall_eq_one (h : c ∈ classes rows) : classRecall rows c = 1 ↔ falseNegative rows c = 0 := by
  have hpos : (support rows c : ℚ) ≠ 0 := Nat.cast_ne_zero.mpr (support_pos h).ne'
  rw [classRecall, div_eq_one_iff_eq hpos, Nat.cast_inj, support_eq, eq_comm, Nat.add_eq_left]

theorem balancedAccuracy_mem (h : rows ≠ []) : balancedAccuracy rows ∈ Set.Icc 0 1 := by
  have hpos : (0 : ℚ) < (classes rows).card := Nat.cast_pos.mpr (classes_nonempty h).card_pos
  constructor
  · exact div_nonneg (Finset.sum_nonneg fun _ _ => classRecall_nonneg) hpos.le
  · rw [balancedAccuracy, div_le_one hpos]
    calc ∑ c ∈ classes rows, classRecall rows c ≤ ∑ _c ∈ classes rows, (1 : ℚ) :=
          Finset.sum_le_sum fun _ _ => classRecall_le_one
      _ = (classes rows).card := by simp

theorem balancedAccuracy_eq_one (h : rows ≠ []) :
    balancedAccuracy rows = 1 ↔ AllCorrect rows := by
  have hpos : ((classes rows).card : ℚ) ≠ 0 :=
    Nat.cast_ne_zero.mpr (classes_nonempty h).card_pos.ne'
  have hcard : ((classes rows).card : ℚ) = ∑ _c ∈ classes rows, (1 : ℚ) := by simp
  rw [balancedAccuracy, div_eq_one_iff_eq hpos, hcard,
    Finset.sum_eq_sum_iff_of_le fun _ _ => classRecall_le_one, allCorrect_iff]
  exact forall₂_congr fun c hc => classRecall_eq_one hc

-- ---------------------------------------------------------------------------
-- Weighted F1
-- ---------------------------------------------------------------------------

theorem f1_nonneg : 0 ≤ f1 rows c := by
  unfold f1
  positivity

theorem f1_le_one : f1 rows c ≤ 1 := by
  have hfp : (0 : ℚ) ≤ falsePositive rows c := Nat.cast_nonneg _
  have hfn : (0 : ℚ) ≤ falseNegative rows c := Nat.cast_nonneg _
  refine div_le_one_of_le₀ ?_ (by positivity)
  linarith

theorem f1_eq_one (h : c ∈ classes rows) :
    f1 rows c = 1 ↔ falsePositive rows c = 0 ∧ falseNegative rows c = 0 := by
  have hsupport := support_pos h
  rw [support_eq] at hsupport
  have hpos : (2 * truePositive rows c + falsePositive rows c + falseNegative rows c : ℚ) ≠ 0 := by
    have : 0 < 2 * truePositive rows c + falsePositive rows c + falseNegative rows c := by omega
    exact_mod_cast this.ne'
  rw [f1, div_eq_one_iff_eq hpos, ← Nat.add_eq_zero_iff]
  constructor
  · intro heq
    have heq : 2 * truePositive rows c =
        2 * truePositive rows c + falsePositive rows c + falseNegative rows c := by
      exact_mod_cast heq
    omega
  · intro hzero
    have heq : 2 * truePositive rows c =
        2 * truePositive rows c + falsePositive rows c + falseNegative rows c := by omega
    exact_mod_cast heq

theorem sum_weights (h : rows ≠ []) :
    ∑ c ∈ classes rows, (support rows c / rows.length : ℚ) = 1 := by
  have hpos : (rows.length : ℚ) ≠ 0 := Nat.cast_ne_zero.mpr (List.length_pos_iff.mpr h).ne'
  rw [← Finset.sum_div, ← Nat.cast_sum, sum_support, div_self hpos]

theorem weight_nonneg : (0 : ℚ) ≤ support rows c / rows.length := by positivity

theorem f1_mul_weight_le : f1 rows c * (support rows c / rows.length) ≤ support rows c / rows.length :=
  mul_le_of_le_one_left weight_nonneg f1_le_one

theorem weightedF1_mem (h : rows ≠ []) : weightedF1 rows ∈ Set.Icc 0 1 := by
  constructor
  · exact Finset.sum_nonneg fun _ _ => mul_nonneg f1_nonneg weight_nonneg
  · rw [← sum_weights h]
    exact Finset.sum_le_sum fun _ _ => f1_mul_weight_le

theorem weightedF1_eq_one (h : rows ≠ []) : weightedF1 rows = 1 ↔ AllCorrect rows := by
  have hlength : (rows.length : ℚ) ≠ 0 := Nat.cast_ne_zero.mpr (List.length_pos_iff.mpr h).ne'
  have hterm : ∀ c ∈ classes rows, (f1 rows c * (support rows c / rows.length) =
      support rows c / rows.length ↔ falsePositive rows c = 0 ∧ falseNegative rows c = 0) := by
    intro c hc
    have hweight : (support rows c / rows.length : ℚ) ≠ 0 :=
      div_ne_zero (Nat.cast_ne_zero.mpr (support_pos hc).ne') hlength
    rw [mul_eq_right₀ hweight, f1_eq_one hc]
  rw [← sum_weights h, weightedF1, Finset.sum_eq_sum_iff_of_le fun _ _ => f1_mul_weight_le]
  constructor
  · intro hall
    exact allCorrect_iff.mpr fun c hc => ((hterm c hc).mp (hall c hc)).2
  · intro hcorrect c hc
    exact (hterm c hc).mpr ⟨falsePositive_eq_zero hcorrect, allCorrect_iff.mp hcorrect c hc⟩

-- ---------------------------------------------------------------------------
-- Order of the rows
-- ---------------------------------------------------------------------------

section

variable {rows' : List (α × α)} (h : rows.Perm rows')

include h

theorem classes_perm : classes rows = classes rows' := List.toFinset_eq_of_perm _ _ (h.map _)

theorem accuracy_perm : accuracy rows = accuracy rows' := by
  rw [accuracy, accuracy, correct, correct, h.countP_eq, h.length_eq]

theorem classRecall_perm : classRecall rows c = classRecall rows' c := by
  rw [classRecall, classRecall, truePositive, truePositive, support, support, h.countP_eq, h.countP_eq]

theorem balancedAccuracy_perm : balancedAccuracy rows = balancedAccuracy rows' := by
  rw [balancedAccuracy, balancedAccuracy, classes_perm h,
    Finset.sum_congr rfl fun c _ => classRecall_perm h]

theorem f1_perm : f1 rows c = f1 rows' c := by
  simp only [f1, truePositive, falsePositive, falseNegative, h.countP_eq]

theorem weightedF1_perm : weightedF1 rows = weightedF1 rows' := by
  simp only [weightedF1, classes_perm h, f1_perm h, support, h.countP_eq, h.length_eq]

end

-- ---------------------------------------------------------------------------
-- Names of the classes
-- ---------------------------------------------------------------------------

section

variable {f : α → β}

/-- The labels of the rows are told apart by their new names. -/
def InjOnLabels (f : α → β) (rows : List (α × α)) : Prop :=
  Set.InjOn f {c | ∃ row ∈ rows, row.1 = c ∨ row.2 = c}

theorem classes_map [DecidableEq β] : classes (rows.map (Prod.map f f)) = (classes rows).image f := by
  ext c
  simp only [mem_classes, Finset.mem_image, List.mem_map]
  constructor
  · rintro ⟨_, ⟨row, hrow, rfl⟩, rfl⟩
    exact ⟨row.2, ⟨row, hrow, rfl⟩, rfl⟩
  · rintro ⟨_, ⟨row, hrow, rfl⟩, rfl⟩
    exact ⟨_, ⟨row, hrow, rfl⟩, rfl⟩

variable (h : InjOnLabels f rows)

include h

omit [DecidableEq α] in
theorem InjOnLabels.eq_iff (hrow : row ∈ rows) (hrow' : row' ∈ rows) (hc : row.1 = c ∨ row.2 = c)
    (hd : row'.1 = d ∨ row'.2 = d) : f c = f d ↔ c = d :=
  ⟨fun hfd => h ⟨row, hrow, hc⟩ ⟨row', hrow', hd⟩ hfd, fun hcd => hcd ▸ rfl⟩

theorem accuracy_map [DecidableEq β] : accuracy (rows.map (Prod.map f f)) = accuracy rows := by
  rw [accuracy, accuracy, List.length_map, correct, correct, List.countP_map]
  congr 2
  refine List.countP_congr fun row hrow => ?_
  simp [h.eq_iff hrow hrow (.inl rfl) (.inr rfl)]

theorem classes_injOn : Set.InjOn f (classes rows) := by
  intro c hc d hd
  obtain ⟨row, hrow, hactual⟩ := mem_classes.mp hc
  obtain ⟨row', hrow', hactual'⟩ := mem_classes.mp hd
  exact h ⟨row, hrow, .inr hactual⟩ ⟨row', hrow', .inr hactual'⟩

section

variable {c : α} (hc : c ∈ classes rows)

include hc

theorem InjOnLabels.label_iff (hrow : row ∈ rows) :
    (f row.1 = f c ↔ row.1 = c) ∧ (f row.2 = f c ↔ row.2 = c) := by
  obtain ⟨row', hrow', hactual⟩ := mem_classes.mp hc
  exact ⟨h.eq_iff hrow hrow' (.inl rfl) (.inr hactual), h.eq_iff hrow hrow' (.inr rfl) (.inr hactual)⟩

theorem truePositive_map [DecidableEq β] : truePositive (rows.map (Prod.map f f)) (f c) = truePositive rows c := by
  rw [truePositive, truePositive, List.countP_map]
  refine List.countP_congr fun row hrow => ?_
  simp [h.label_iff hc hrow]

theorem falsePositive_map [DecidableEq β] :
    falsePositive (rows.map (Prod.map f f)) (f c) = falsePositive rows c := by
  rw [falsePositive, falsePositive, List.countP_map]
  refine List.countP_congr fun row hrow => ?_
  simp [h.label_iff hc hrow]

theorem falseNegative_map [DecidableEq β] :
    falseNegative (rows.map (Prod.map f f)) (f c) = falseNegative rows c := by
  rw [falseNegative, falseNegative, List.countP_map]
  refine List.countP_congr fun row hrow => ?_
  simp [h.label_iff hc hrow]

theorem support_map [DecidableEq β] : support (rows.map (Prod.map f f)) (f c) = support rows c := by
  rw [support_eq, support_eq, truePositive_map h hc, falseNegative_map h hc]

end

theorem balancedAccuracy_map [DecidableEq β] :
    balancedAccuracy (rows.map (Prod.map f f)) = balancedAccuracy rows := by
  rw [balancedAccuracy, balancedAccuracy, classes_map, Finset.sum_image (classes_injOn h),
    Finset.card_image_of_injOn (classes_injOn h)]
  congr 1
  refine Finset.sum_congr rfl fun c hc => ?_
  rw [classRecall, classRecall, truePositive_map h hc, support_map h hc]

theorem weightedF1_map [DecidableEq β] : weightedF1 (rows.map (Prod.map f f)) = weightedF1 rows := by
  rw [weightedF1, weightedF1, classes_map, Finset.sum_image (classes_injOn h)]
  refine Finset.sum_congr rfl fun c hc => ?_
  rw [f1, f1, truePositive_map h hc, falsePositive_map h hc, falseNegative_map h hc,
    support_map h hc, List.length_map]

end

end ClassScores
