import DagMl.Lib.Checked

/-!
# Rows and columns

A table is written row by row into its columns and read back one row at a
time. For rows of one length the two are inverse to each other, whichever of
the two tables is the stored one.
-/

namespace Columns

variable {α : Type}

/-- `columns[index].push(value)` along a row as long as there are columns. -/
def pushRow (columns : List (List α)) (row : List α) : List (List α) :=
  List.zipWith (fun column value => column ++ [value]) columns row

def transposed (width : Nat) (rows : List (List α)) : List (List α) :=
  rows.foldl pushRow (List.replicate width [])

/-- `columns.iter().map(|column| column[index])`, when every column reaches the index. -/
def rowAt (columns : List (List α)) (index : Nat) : Option (List α) :=
  columns.mapM (·[index]?)

-- ---------------------------------------------------------------------------
-- A row on top
-- ---------------------------------------------------------------------------

/-- A row above the columns. -/
def atop (row : List α) (columns : List (List α)) : List (List α) :=
  List.zipWith List.cons row columns

@[simp] theorem length_atop {row : List α} {columns : List (List α)} :
    (atop row columns).length = min row.length columns.length := List.length_zipWith

theorem pushRow_atop {top row : List α} {columns : List (List α)} :
    pushRow (atop top columns) row = atop top (pushRow columns row) := by
  induction top generalizing columns row with
  | nil => rfl
  | cons value top ih =>
    cases columns with
    | nil => rfl
    | cons column columns =>
      cases row with
      | nil => rfl
      | cons value' row => exact congrArg _ ih

theorem foldl_pushRow_atop {top : List α} {columns rows : List (List α)} :
    rows.foldl pushRow (atop top columns) = atop top (rows.foldl pushRow columns) := by
  induction rows generalizing columns with
  | nil => rfl
  | cons row rows ih =>
    rw [List.foldl_cons, pushRow_atop, ih]
    rfl

theorem pushRow_replicate (row : List α) :
    pushRow (List.replicate row.length []) row = atop row (List.replicate row.length []) := by
  induction row with
  | nil => rfl
  | cons value row ih => exact congrArg _ ih

theorem transposed_cons (row : List α) (rows : List (List α)) :
    transposed row.length (row :: rows) = atop row (transposed row.length rows) := by
  unfold transposed
  rw [List.foldl_cons, pushRow_replicate, foldl_pushRow_atop]

theorem rowAt_atop_zero {row : List α} {columns : List (List α)}
    (h : row.length = columns.length) : rowAt (atop row columns) 0 = some row := by
  induction row generalizing columns with
  | nil => rfl
  | cons value row ih =>
    cases columns with
    | nil => cases h
    | cons column columns =>
      have hrest := ih (Nat.succ.inj h)
      simp_all [rowAt, atop]

theorem rowAt_atop_succ {row : List α} {columns : List (List α)}
    (h : row.length = columns.length) (index : Nat) :
    rowAt (atop row columns) (index + 1) = rowAt columns index := by
  induction row generalizing columns with
  | nil =>
    cases columns with
    | nil => rfl
    | cons column columns => cases h
  | cons value row ih =>
    cases columns with
    | nil => cases h
    | cons column columns =>
      have hrest := ih (Nat.succ.inj h)
      simp_all [rowAt, atop]

theorem atop_inj {row row' : List α} {columns columns' : List (List α)}
    (h : row.length = columns.length) (h' : row'.length = columns'.length) :
    atop row columns = atop row' columns' ↔ row = row' ∧ columns = columns' := by
  induction row generalizing row' columns columns' with
  | nil => cases columns <;> cases row' <;> cases columns' <;> simp_all [atop]
  | cons value row ih =>
    cases columns with
    | nil => cases h
    | cons column columns =>
      cases row' <;> cases columns'
      case cons.cons value' row' column' columns' =>
        have hrest := ih (Nat.succ.inj h) (Nat.succ.inj h')
        simp_all [atop]
        tauto
      all_goals simp_all [atop]

-- ---------------------------------------------------------------------------
-- Tables
-- ---------------------------------------------------------------------------

/-- So many lists, all of one length. -/
structure Table (width height : Nat) (columns : List (List α)) : Prop where
  width_eq : columns.length = width
  height_eq : ∀ column ∈ columns, column.length = height

theorem Table.atop {row : List α} {columns : List (List α)} (h : Table row.length n columns) :
    Table row.length (n + 1) (atop row columns) := by
  constructor
  · simp [h.width_eq]
  · intro column hcolumn
    obtain ⟨index, hindex, rfl⟩ := List.mem_iff_getElem.mp hcolumn
    simp [Columns.atop, h.height_eq _ (List.getElem_mem _)]

/-- Columns that are not empty have a row on top. -/
theorem Table.exists_atop {columns : List (List α)} (h : Table w (n + 1) columns) :
    ∃ row rest, row.length = w ∧ Table w n rest ∧ columns = Columns.atop row rest := by
  obtain ⟨rfl, hheight⟩ := h
  induction columns with
  | nil => exact ⟨[], [], rfl, ⟨rfl, by simp⟩, rfl⟩
  | cons column columns ih =>
    obtain ⟨row, rest, hrow, hrest, hcolumns⟩ := ih fun c hc => hheight c (List.mem_cons_of_mem _ hc)
    cases column with
    | nil => exact absurd (hheight [] List.mem_cons_self) (by simp)
    | cons value column =>
      refine ⟨value :: row, column :: rest, by simp [hrow], ⟨by simp [hrest.width_eq], ?_⟩, ?_⟩
      · rintro c (_ | ⟨_, hc⟩)
        · exact Nat.succ.inj (hheight _ List.mem_cons_self)
        · exact hrest.height_eq c hc
      · rw [hcolumns]
        rfl

theorem Table.sum_length {columns : List (List α)} (h : Table w n columns) :
    (columns.map List.length).sum = n * w := by
  have hconst : columns.map List.length = List.replicate columns.length n := by
    rw [List.eq_replicate_iff]
    simpa using h.height_eq
  rw [hconst, List.sum_replicate, h.width_eq, smul_eq_mul, mul_comm]

theorem table_transposed {rows : List (List α)} (h : ∀ row ∈ rows, row.length = w) :
    Table w rows.length (transposed w rows) := by
  induction rows with
  | nil => exact ⟨by simp [transposed], by simp [transposed]⟩
  | cons row rows ih =>
    obtain rfl := h row List.mem_cons_self
    rw [transposed_cons]
    exact (ih fun r hr => h r (List.mem_cons_of_mem _ hr)).atop

/-- What is read from the columns is what they were written from. -/
theorem forall₂_rowAt_iff {columns rows : List (List α)} (h : Table w n columns) :
    List.Forall₂ (fun index row => rowAt columns index = some row) (List.range n) rows ↔
      rows.length = n ∧ (∀ row ∈ rows, row.length = w) ∧ transposed w rows = columns := by
  induction n generalizing columns rows with
  | zero =>
    have hcolumns : columns = List.replicate w [] :=
      List.eq_replicate_iff.mpr ⟨h.width_eq, fun c hc => List.length_eq_zero_iff.mp (h.height_eq c hc)⟩
    cases rows with
    | nil => simp [transposed, hcolumns]
    | cons row rows => simp
  | succ n ih =>
    obtain ⟨top, rest, rfl, hrest, rfl⟩ := h.exists_atop
    have hlength := hrest.width_eq.symm
    cases rows with
    | nil => simp [List.range_succ_eq_map]
    | cons row rows =>
      rw [List.range_succ_eq_map, List.forall₂_cons, List.forall₂_map_left_iff,
        rowAt_atop_zero hlength]
      simp only [rowAt_atop_succ hlength, ih hrest, Option.some.injEq, List.length_cons,
        Nat.add_right_cancel_iff, List.forall_mem_cons]
      constructor
      · rintro ⟨rfl, hn, hrows, rfl⟩
        exact ⟨hn, ⟨rfl, hrows⟩, transposed_cons _ _⟩
      · rintro ⟨hn, ⟨hrow, hrows⟩, hcolumns⟩
        have htable := table_transposed hrows
        rw [← hrow, transposed_cons] at hcolumns
        rw [← hrow] at htable
        obtain ⟨rfl, hbelow⟩ := (atop_inj htable.width_eq.symm hlength).mp hcolumns
        exact ⟨rfl, hn, hrows, hbelow⟩

end Columns
