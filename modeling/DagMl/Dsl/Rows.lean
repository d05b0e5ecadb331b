import DagMl.Dsl.Generator

/-!
# The rows of a selector

The recursive enumerators list the selections of a size in lexicographic
order, each one once, up to the cap. The first rows of a size are known: they
differ in their last index only.
-/

namespace DagMl

open Search

/-- The two selectors. -/
inductive SelectionKind
  | pick
  | arrange
  deriving DecidableEq

namespace SelectionKind

/-- `row` selects `size` of the options: a subset in ascending order, or an arrangement. -/
def Selects (kind : SelectionKind) (optionCount size : Nat) (row : List Nat) : Prop :=
  row.length = size ∧ (∀ i ∈ row, i < optionCount) ∧
    match kind with
    | .pick => row.Pairwise (· < ·)
    | .arrange => row.Nodup

def build (kind : SelectionKind) (count : Option Nat) : BuildRows :=
  match kind with
  | .pick => buildCombinations count
  | .arrange => buildPermutations count

/-- The rows of a size without a cap. -/
def rows (kind : SelectionKind) (optionCount size : Nat) : List (List Nat) :=
  match kind with
  | .pick => leaves (combinationIndices optionCount) (fun _ index => index + 1) size 0
  | .arrange => leaves (permutationIndices optionCount) (fun used index => insert index used) size ∅

theorem build_eq (kind : SelectionKind) {selections : List (List Nat)}
    (h : selections.length ≤ allocationLimit count) :
    kind.build count optionCount size selections =
      (selections ++ kind.rows optionCount size).take (allocationLimit count) := by
  cases kind with
  | pick => simpa [build, rows, buildCombinations] using search_eq [] h
  | arrange => simpa [build, rows, buildPermutations] using search_eq [] h

end SelectionKind

-- ---------------------------------------------------------------------------
-- Membership
-- ---------------------------------------------------------------------------

theorem mem_combinationIndices {n remaining start i : Nat} :
    i ∈ combinationIndices n remaining start ↔ start ≤ i ∧ i + remaining ≤ n := by
  unfold combinationIndices
  split
  · simp
    omega
  · simp only [List.mem_range'_1]
    omega

theorem length_le_of_ascending {row : List Nat} (h : row.Pairwise (· < ·))
    (hrange : ∀ i ∈ row, start ≤ i ∧ i < n) : row.length ≤ n - start := by
  have hsub : row.toFinset ⊆ Finset.Ico start n := by
    intro i hi
    exact Finset.mem_Ico.mpr (hrange i (List.mem_toFinset.mp hi))
  have hcard := Finset.card_le_card hsub
  rwa [List.toFinset_card_of_nodup (h.imp ne_of_lt), Nat.card_Ico] at hcard

theorem mem_combinations {row : List Nat} :
    row ∈ leaves (combinationIndices n) (fun _ index => index + 1) size start ↔
      row.length = size ∧ row.Pairwise (· < ·) ∧ ∀ i ∈ row, start ≤ i ∧ i < n := by
  induction size generalizing start row with
  | zero =>
    simp only [leaves, List.mem_singleton, List.length_eq_zero_iff]
    constructor
    · rintro rfl
      simp
    · exact fun h => h.1
  | succ size ih =>
    rw [mem_leaves_succ]
    constructor
    · rintro ⟨i, hi, rest, hrest, rfl⟩
      rw [mem_combinationIndices] at hi
      obtain ⟨hlength, hsorted, hrange⟩ := ih.mp hrest
      refine ⟨by simp [hlength], List.pairwise_cons.mpr ⟨fun j hj => ?_, hsorted⟩, ?_⟩
      · exact (hrange j hj).1
      · rw [List.forall_mem_cons]
        exact ⟨by omega, fun j hj => ⟨by have := hrange j hj; omega, (hrange j hj).2⟩⟩
    · rintro ⟨hlength, hsorted, hrange⟩
      cases row with
      | nil => simp at hlength
      | cons i rest =>
        obtain ⟨hlt, hsorted⟩ := List.pairwise_cons.mp hsorted
        obtain ⟨hi, hrange⟩ := List.forall_mem_cons.mp hrange
        have hrest (j : Nat) (hj : j ∈ rest) : i + 1 ≤ j ∧ j < n := ⟨hlt j hj, (hrange j hj).2⟩
        have hroom := length_le_of_ascending hsorted hrest
        rw [List.length_cons, Nat.add_right_cancel_iff] at hlength
        exact ⟨i, mem_combinationIndices.mpr (by omega), rest,
          ih.mpr ⟨hlength, hsorted, hrest⟩, rfl⟩

theorem mem_permutations {row : List Nat} {used : Finset Nat} :
    row ∈ leaves (permutationIndices n) (fun used index => insert index used) size used ↔
      row.length = size ∧ row.Nodup ∧ ∀ i ∈ row, i < n ∧ i ∉ used := by
  induction size generalizing used row with
  | zero =>
    simp only [leaves, List.mem_singleton, List.length_eq_zero_iff]
    constructor
    · rintro rfl
      simp
    · exact fun h => h.1
  | succ size ih =>
    rw [mem_leaves_succ]
    simp only [permutationIndices, List.mem_filter, List.mem_range, decide_eq_true_eq, ih]
    constructor
    · rintro ⟨i, hi, rest, ⟨hlength, hnodup, hrange⟩, rfl⟩
      refine ⟨by simp [hlength], List.nodup_cons.mpr ⟨fun hmem => ?_, hnodup⟩, ?_⟩
      · exact (hrange i hmem).2 (Finset.mem_insert_self i used)
      · rw [List.forall_mem_cons]
        exact ⟨hi, fun j hj => ⟨(hrange j hj).1, fun hu =>
          (hrange j hj).2 (Finset.mem_insert_of_mem hu)⟩⟩
    · rintro ⟨hlength, hnodup, hrange⟩
      cases row with
      | nil => simp at hlength
      | cons i rest =>
        obtain ⟨hnew, hnodup⟩ := List.nodup_cons.mp hnodup
        obtain ⟨hi, hrange⟩ := List.forall_mem_cons.mp hrange
        refine ⟨i, hi, rest, ⟨by simpa using hlength, hnodup, fun j hj => ⟨(hrange j hj).1, ?_⟩⟩, rfl⟩
        rw [Finset.mem_insert, not_or]
        exact ⟨fun h => hnew (h ▸ hj), (hrange j hj).2⟩

theorem mem_cartesian {stages : List (List α)} {row : List Nat} :
    row ∈ leaves stageIndices (fun (stages : List (List α)) _ => stages.tail) stages.length stages ↔
      List.Forall₂ (fun i options => i < options.length) row stages := by
  induction stages generalizing row with
  | nil => simp [leaves]
  | cons options stages ih =>
    rw [List.length_cons, mem_leaves_succ, List.forall₂_cons_right_iff]
    simp only [stageIndices, List.headD_cons, List.mem_range, List.tail_cons, ih]
    constructor
    · rintro ⟨i, hi, rest, hrest, rfl⟩
      exact ⟨i, rest, hi, hrest, rfl⟩
    · rintro ⟨i, rest, hi, hrest, rfl⟩
      exact ⟨i, hi, rest, hrest, rfl⟩

-- ---------------------------------------------------------------------------
-- Order
-- ---------------------------------------------------------------------------

theorem SelectionKind.rows_lists (kind : SelectionKind) (optionCount size : Nat) :
    Lists (kind.Selects optionCount size) (kind.rows optionCount size) := by
  cases kind with
  | pick =>
    refine ⟨pairwise_leaves (fun remaining start => ?_) size 0, fun row => ?_⟩
    · unfold combinationIndices
      split
      · exact .nil
      · exact List.pairwise_lt_range'
    · rw [rows, mem_combinations]
      simp only [Selects, Nat.zero_le, true_and]
      tauto
  | arrange =>
    refine ⟨pairwise_leaves (fun remaining used => ?_) size ∅, fun row => ?_⟩
    · exact List.pairwise_lt_range.filter _
    · rw [rows, mem_permutations]
      simp only [Selects, Finset.notMem_empty, not_false_eq_true, and_true]
      tauto

theorem cartesian_rows_lists (stages : List (List α)) :
    Lists (fun row => List.Forall₂ (fun i (options : List α) => i < options.length) row stages)
      (leaves stageIndices (fun (stages : List (List α)) _ => stages.tail) stages.length stages) where
  ordered := pairwise_leaves (fun _ _ => List.pairwise_lt_range) _ _
  mem_iff _ := mem_cartesian

-- ---------------------------------------------------------------------------
-- How many rows there are
-- ---------------------------------------------------------------------------

/-- The number of selections of a size. -/
def SelectionKind.rowCount (kind : SelectionKind) (optionCount size : Nat) : Nat :=
  match kind with
  | .pick => optionCount.choose size
  | .arrange => optionCount.descFactorial size

theorem length_permutations {used : Finset Nat} (h : used ⊆ Finset.range n) :
    (leaves (permutationIndices n) (fun used index => insert index used) size used).length =
      (n - used.card).descFactorial size := by
  induction size generalizing used with
  | zero => simp [leaves]
  | succ size ih =>
    have hindices : (permutationIndices n (size + 1) used).length = n - used.card := by
      rw [permutationIndices, ← List.toFinset_card_of_nodup (List.nodup_range.filter _),
        ← Finset.card_range n, ← Finset.card_sdiff_of_subset (by simpa using h)]
      congr 1
      ext i
      simp
    have hrest (i : Nat) (hi : i ∈ permutationIndices n (size + 1) used) :
        (leaves (permutationIndices n) (fun used index => insert index used) size
          (insert i used)).length = (n - used.card - 1).descFactorial size := by
      rw [permutationIndices, List.mem_filter, List.mem_range, decide_eq_true_eq] at hi
      rw [ih (Finset.insert_subset (Finset.mem_range.mpr hi.1) h), Finset.card_insert_of_notMem hi.2]
      rfl
    rw [leaves, List.length_flatMap]
    simp only [List.length_map]
    rw [List.map_congr_left hrest, List.map_const', List.sum_replicate, hindices, smul_eq_mul]
    cases n - used.card with
    | zero => simp
    | succ m => exact (Nat.succ_descFactorial_succ m size).symm

theorem SelectionKind.length_rows (kind : SelectionKind) :
    (kind.rows optionCount size).length = kind.rowCount optionCount size := by
  cases kind with
  | pick =>
    have hlists := SelectionKind.pick.rows_lists optionCount size
    have hsorted (row : List Nat) (h : row ∈ SelectionKind.pick.rows optionCount size) :
        ascending row.toFinset = row :=
      ascending_unique ((hlists.mem_iff row).mp h).2.2 fun _ => List.mem_toFinset.symm
    have hnodup : ((SelectionKind.pick.rows optionCount size).map List.toFinset).Nodup := by
      refine List.Nodup.map_on (fun row h row' h' heq => ?_) (hlists.ordered.imp ne_of_lt)
      rw [← hsorted row h, heq, hsorted row' h']
    have hsubsets : ((SelectionKind.pick.rows optionCount size).map List.toFinset).toFinset =
        (Finset.range optionCount).powersetCard size := by
      ext subset
      rw [List.mem_toFinset, List.mem_map, Finset.mem_powersetCard]
      constructor
      · rintro ⟨row, hrow, rfl⟩
        obtain ⟨hlength, hrange, hascending⟩ := (hlists.mem_iff row).mp hrow
        refine ⟨fun i hi => Finset.mem_range.mpr (hrange i (List.mem_toFinset.mp hi)), ?_⟩
        rw [List.toFinset_card_of_nodup (hascending.imp ne_of_lt), hlength]
      · rintro ⟨hsub, hcard⟩
        refine ⟨ascending subset, (hlists.mem_iff _).mpr ⟨?_, fun i hi => ?_, ?_⟩, ?_⟩
        · rw [← hcard, ← toFinset_ascending subset, List.toFinset_card_of_nodup (nodup_ascending _),
            toFinset_ascending]
        · exact Finset.mem_range.mp (hsub (mem_ascending.mp hi))
        · exact ascending_lt subset
        · exact toFinset_ascending subset
    rw [← List.length_map (f := List.toFinset), ← List.toFinset_card_of_nodup hnodup, hsubsets,
      Finset.card_powersetCard, Finset.card_range]
    rfl
  | arrange => simpa [rows, rowCount] using length_permutations (Finset.empty_subset (Finset.range optionCount))

-- ---------------------------------------------------------------------------
-- The first rows
-- ---------------------------------------------------------------------------

/-- Rows that start with `first`, `first + 1`, … and vary the last index only. -/
def openingRows (first size optionCount : Nat) : List (List Nat) :=
  (List.range' (first + size) (optionCount - (first + size))).map fun last =>
    List.range' first size ++ [last]

/-- The row after the opening ones. -/
def SelectionKind.nextRow (kind : SelectionKind) (first size : Nat) : List Nat :=
  List.range' first size ++ [first + size + 1,
    match kind with
    | .pick => first + size + 2
    | .arrange => first + size]

theorem map_cons_openingRows (first size optionCount : Nat) :
    (openingRows (first + 1) size optionCount).map (first :: ·) =
      openingRows first (size + 1) optionCount := by
  rw [openingRows, openingRows, List.map_map, List.range'_succ,
    show first + (size + 1) = first + 1 + size by omega]
  rfl

theorem SelectionKind.cons_nextRow (kind : SelectionKind) (first size : Nat) :
    first :: kind.nextRow (first + 1) size = kind.nextRow first (size + 1) := by
  have hfirst : first + 1 + size = first + (size + 1) := by omega
  cases kind with
  | pick => simp only [nextRow, List.range'_succ, List.cons_append, hfirst]
  | arrange => simp only [nextRow, List.range'_succ, List.cons_append, hfirst]

theorem combinationIndices_eq_cons (h : start + remaining < n) :
    combinationIndices n (remaining + 1) start =
      start :: List.range' (start + 1) (n - (start + remaining + 1)) := by
  have hn : ¬n < remaining + 1 := by omega
  rw [combinationIndices, if_neg hn,
    show n - (remaining + 1) + 1 - start = n - (start + remaining + 1) + 1 by omega,
    List.range'_succ]

theorem leaves_one {candidates : Nat → σ → List Nat} {advance : σ → Nat → σ} {state : σ} :
    leaves candidates advance 1 state = (candidates 1 state).map fun i => [i] := by
  rw [List.map_eq_flatMap]
  rfl

theorem combinationIndices_one (n start : Nat) :
    combinationIndices n 1 start = List.range' start (n - start) := by
  unfold combinationIndices
  split
  · rename_i h
    rw [Nat.lt_one_iff.mp h, Nat.zero_sub]
    rfl
  · congr 1
    omega

theorem combinations_opening (h : start + size + 1 < n) :
    ∃ others, leaves (combinationIndices n) (fun _ index => index + 1) (size + 2) start =
        openingRows start (size + 1) n ++ others ∧
      (others = [] ∧ n = start + size + 2 ∨
        ∃ more, others = SelectionKind.pick.nextRow start size :: more) := by
  induction size generalizing start with
  | zero =>
    rw [leaves, combinationIndices_eq_cons (by omega), List.flatMap_cons]
    refine ⟨_, congrArg (· ++ _) ?_, ?_⟩
    · rw [leaves_one, combinationIndices_one, List.map_map]
      rfl
    · by_cases hn : n = start + 2
      · left
        have hnone : n - (start + (0 + 1) + 1) = 0 := by omega
        rw [hnone]
        exact ⟨rfl, hn⟩
      · right
        have hsome : n - (start + (0 + 1) + 1) = n - (start + 3) + 1 := by omega
        have hrow : n - (start + 1 + 1) = n - (start + 3) + 1 := by omega
        rw [hsome, List.range'_succ, List.flatMap_cons, leaves_one, combinationIndices_one, hrow,
          List.range'_succ]
        exact ⟨_, rfl⟩
  | succ size ih =>
    obtain ⟨others, hleaves, hothers⟩ := @ih (start + 1) (by omega)
    rw [leaves, combinationIndices_eq_cons (by omega), List.flatMap_cons, hleaves, List.map_append,
      List.append_assoc]
    refine ⟨_, congrArg (· ++ _) (map_cons_openingRows start (size + 1) n), ?_⟩
    rcases hothers with ⟨rfl, hn⟩ | ⟨more, rfl⟩
    · left
      have hnone : n - (start + (size + 1 + 1) + 1) = 0 := by omega
      rw [hnone]
      exact ⟨rfl, by omega⟩
    · right
      rw [List.map_cons, SelectionKind.cons_nextRow]
      exact ⟨_, rfl⟩

theorem range_split (h : first < n) :
    List.range n = List.range first ++ first :: List.range' (first + 1) (n - (first + 1)) := by
  have hn : n = first + (n - (first + 1) + 1) := by omega
  conv_lhs => rw [hn, List.range_eq_range', ← List.range'_append_1, Nat.zero_add, List.range'_succ]
  rw [List.range_eq_range']

/-- The least unused index comes first. -/
theorem permutationIndices_eq_cons {used : Finset Nat} (hbelow : ∀ i < first, i ∈ used)
    (hfirst : first ∉ used) (h : first < n) :
    permutationIndices n remaining used =
      first :: (List.range' (first + 1) (n - (first + 1))).filter (· ∉ used) := by
  have hnone : (List.range first).filter (· ∉ used) = [] := by
    rw [List.filter_eq_nil_iff]
    intro i hi
    simpa using hbelow i (List.mem_range.mp hi)
  rw [permutationIndices, range_split h, List.filter_append, hnone, List.nil_append,
    List.filter_cons_of_pos (by simpa using hfirst)]

theorem permutationIndices_range (h : first < n) :
    permutationIndices n remaining (Finset.range first) = List.range' first (n - first) := by
  have hall : (List.range' (first + 1) (n - (first + 1))).filter (· ∉ Finset.range first) =
      List.range' (first + 1) (n - (first + 1)) := by
    rw [List.filter_eq_self]
    intro i hi
    rw [List.mem_range'_1] at hi
    simp
    omega
  rw [permutationIndices_eq_cons (fun i hi => Finset.mem_range.mpr hi) (by simp) h, hall,
    show n - first = n - (first + 1) + 1 by omega, List.range'_succ]

theorem permutations_opening (h : first + size + 1 < n) :
    ∃ more, leaves (permutationIndices n) (fun used index => insert index used) (size + 2)
        (Finset.range first) =
      openingRows first (size + 1) n ++ SelectionKind.arrange.nextRow first size :: more := by
  induction size generalizing first with
  | zero =>
    have hrow : n - first = n - (first + 2) + 1 + 1 := by omega
    have hused (i : Nat) (hi : i < first) : i ∈ insert (first + 1) (Finset.range first) :=
      Finset.mem_insert_of_mem (Finset.mem_range.mpr hi)
    rw [leaves, permutationIndices_range (by omega), hrow, List.range'_succ, List.range'_succ,
      List.flatMap_cons, List.flatMap_cons, leaves_one, ← Finset.range_add_one,
      permutationIndices_range (by omega), leaves_one,
      permutationIndices_eq_cons hused (by simp) (by omega), List.map_map]
    exact ⟨_, rfl⟩
  | succ size ih =>
    obtain ⟨more, hleaves⟩ := @ih (first + 1) (by omega)
    have hrow : n - first = n - (first + 1) + 1 := by omega
    rw [leaves, permutationIndices_range (by omega), hrow, List.range'_succ, List.flatMap_cons,
      ← Finset.range_add_one, hleaves, List.map_append, List.append_assoc, map_cons_openingRows,
      List.map_cons, SelectionKind.cons_nextRow]
    exact ⟨_, rfl⟩

/-- The rows of a size of at least two: `size + 2` here. -/
theorem SelectionKind.rows_opening (kind : SelectionKind) (h : size + 1 < n) :
    ∃ others, kind.rows n (size + 2) = openingRows 0 (size + 1) n ++ others ∧
      (others = [] ∧ n = size + 2 ∨ ∃ more, others = kind.nextRow 0 size :: more) := by
  cases kind with
  | pick =>
    obtain ⟨others, hleaves, hothers⟩ := combinations_opening (by omega : 0 + size + 1 < n)
    refine ⟨others, hleaves, hothers.imp_left fun hnone => ⟨hnone.1, by omega⟩⟩
  | arrange =>
    obtain ⟨more, hleaves⟩ := permutations_opening (by omega : 0 + size + 1 < n)
    exact ⟨_, hleaves, .inr ⟨more, rfl⟩⟩

-- ---------------------------------------------------------------------------
-- Neighbouring rows
-- ---------------------------------------------------------------------------

/-- Neither list is a prefix of the other. -/
def Diverge (left right : List α) : Prop := ¬left <+: right ∧ ¬right <+: left

theorem diverge_of_head {a b : α} (h : a ≠ b) (left right : List α) :
    Diverge (a :: left) (b :: right) := by
  constructor
  · exact fun hp => h (List.cons_prefix_cons.mp hp).1
  · exact fun hp => h (List.cons_prefix_cons.mp hp).1.symm

theorem diverge_of_length {left right : List α} (hlength : left.length = right.length)
    (h : left ≠ right) : Diverge left right := by
  constructor
  · exact fun hp => h (hp.eq_of_length hlength)
  · exact fun hp => h (hp.eq_of_length hlength.symm).symm

theorem Diverge.of_map {left right : List α} (f : α → β) (h : Diverge (left.map f) (right.map f)) :
    Diverge left right :=
  ⟨fun hp => h.1 (hp.map f), fun hp => h.2 (hp.map f)⟩

/-- Continuations of lists that diverge differ. -/
theorem Diverge.append_ne {left right : List α} (h : Diverge left right) (more more' : List α) :
    left ++ more ≠ right ++ more' := by
  intro heq
  have hleft : left <+: right ++ more' := heq ▸ List.prefix_append left more
  rcases List.prefix_or_prefix_of_prefix hleft (List.prefix_append right more') with hp | hp
  · exact h.1 hp
  · exact h.2 hp

theorem SelectionKind.range'_mem_rows (kind : SelectionKind) (h : first + size ≤ n) :
    List.range' first size ∈ kind.rows n size := by
  rw [(kind.rows_lists n size).mem_iff]
  refine ⟨by simp, fun i hi => ?_, ?_⟩
  · rw [List.mem_range'_1] at hi
    omega
  · cases kind with
    | pick => exact List.pairwise_lt_range'
    | arrange => exact List.nodup_range'

/-- The last row of a size does not start with `0`, as the first row of a larger size does. -/
theorem SelectionKind.diverge_across (kind : SelectionKind) (hpos : 0 < size) (hlt : size < size')
    (hle : size' ≤ n) (hlast : last ∈ (kind.rows n size).getLast?)
    (hfirst : row ∈ (kind.rows n size').head?) : Diverge last row := by
  obtain ⟨before, hbefore⟩ := List.getLast?_eq_some_iff.mp hlast
  obtain ⟨after, hafter⟩ := List.head?_eq_some_iff.mp hfirst
  have hlists := kind.rows_lists n size
  have hlists' := kind.rows_lists n size'
  have hlength : last.length = size := ((hlists.mem_iff last).mp (by simp [hbefore])).1
  have hlength' : row.length = size' := ((hlists'.mem_iff row).mp (by simp [hafter])).1
  have hone : ¬last < List.range' 1 size := by
    have hmem := kind.range'_mem_rows (by omega : 1 + size ≤ n)
    have hordered := hlists.ordered
    rw [hbefore, List.mem_append, List.mem_singleton] at hmem
    rw [hbefore, List.pairwise_append] at hordered
    rcases hmem with hmem | rfl
    · exact lt_asymm (hordered.2.2 _ hmem _ (List.mem_singleton_self last))
    · exact lt_irrefl _
  have hzero : ¬List.range' 0 size' < row := by
    have hmem := kind.range'_mem_rows (by omega : 0 + size' ≤ n)
    have hordered := hlists'.ordered
    rw [hafter, List.mem_cons] at hmem
    rw [hafter, List.pairwise_cons] at hordered
    rcases hmem with rfl | hmem
    · exact lt_irrefl _
    · exact lt_asymm (hordered.1 _ hmem)
  obtain ⟨size, rfl⟩ := Nat.exists_eq_succ_of_ne_zero hpos.ne'
  obtain ⟨size', rfl⟩ := Nat.exists_eq_succ_of_ne_zero (by omega : size' ≠ 0)
  obtain ⟨a, last, rfl⟩ := List.exists_cons_of_length_eq_add_one hlength
  obtain ⟨b, row, rfl⟩ := List.exists_cons_of_length_eq_add_one hlength'
  rw [List.range'_succ, List.cons_lt_cons_iff, not_or] at hone hzero
  apply diverge_of_head
  omega

/-- Rows of one size diverge, and so do neighbours of two sizes. -/
theorem SelectionKind.diverging_rows (kind : SelectionKind) {sizes : List Nat}
    (hsizes : ∀ size ∈ sizes, 0 < size ∧ size ≤ n) (hsorted : sizes.Pairwise (· < ·)) :
    (sizes.flatMap (kind.rows n)).IsChain Diverge := by
  have hne : [] ∉ sizes.map (kind.rows n) := by
    intro hmem
    obtain ⟨size, hsize, hnil⟩ := List.mem_map.mp hmem
    have hrow := kind.range'_mem_rows (by have := hsizes size hsize; omega : 0 + size ≤ n)
    rw [hnil] at hrow
    cases hrow
  rw [List.flatMap_def, List.isChain_flatten hne]
  constructor
  · intro rows hrows
    obtain ⟨size, -, rfl⟩ := List.mem_map.mp hrows
    have hlists := kind.rows_lists n size
    refine (hlists.ordered.imp_of_mem fun hleft hright hlt => ?_).isChain
    rw [hlists.mem_iff] at hleft hright
    exact diverge_of_length (hleft.1.trans hright.1.symm) (ne_of_lt hlt)
  · rw [List.isChain_map]
    refine (hsorted.imp_of_mem fun hleft hright hlt => ?_).isChain
    intro last hlast row hrow
    exact kind.diverge_across (hsizes _ hleft).1 hlt (hsizes _ hright).2 hlast hrow

end DagMl
