import Mathlib

/-!
# Limited depth-first search

A search that tries the candidates of each depth in turn and stops at a limit
returns the first rows of the unlimited one. Where the candidates come in
ascending order the unlimited rows are in lexicographic order, each one once.
-/

namespace Search

variable {α σ : Type}

-- ---------------------------------------------------------------------------
-- The search
-- ---------------------------------------------------------------------------

/-- A loop that is left once there are `limit` rows. -/
def untilFull (limit : Nat) (visit : α → List (List Nat) → List (List Nat)) :
    List α → List (List Nat) → List (List Nat)
  | [], rows => rows
  | x :: xs, rows =>
    let rows := visit x rows
    if limit ≤ rows.length then rows else untilFull limit visit xs rows

/-- Rows of `depth` more entries that continue `current`, added to `rows`. -/
def search (limit : Nat) (candidates : Nat → σ → List Nat) (advance : σ → Nat → σ) :
    Nat → σ → List Nat → List (List Nat) → List (List Nat)
  | 0, _, current, rows => if limit ≤ rows.length then rows else rows ++ [current]
  | depth + 1, state, current, rows =>
    if limit ≤ rows.length then rows
    else untilFull limit
      (fun i => search limit candidates advance depth (advance state i) (current ++ [i]))
      (candidates (depth + 1) state) rows

/-- The rows of the search without a limit. -/
def leaves (candidates : Nat → σ → List Nat) (advance : σ → Nat → σ) :
    Nat → σ → List (List Nat)
  | 0, _ => [[]]
  | depth + 1, state => (candidates (depth + 1) state).flatMap fun i =>
    (leaves candidates advance depth (advance state i)).map (i :: ·)

variable {limit : Nat} {candidates : Nat → σ → List Nat} {advance : σ → Nat → σ}

theorem take_eq_of_le {rows more : List α} (h : limit ≤ rows.length) (hle : rows.length ≤ limit) :
    (rows ++ more).take limit = rows := by
  rw [List.take_append_of_le_length h, List.take_of_length_le hle]

theorem take_take_append {rows more : List α} :
    (rows.take limit ++ more).take limit = (rows ++ more).take limit := by
  rcases le_total limit rows.length with h | h
  · rw [List.take_append_of_le_length (by rw [List.length_take]; omega), List.take_take,
      List.take_append_of_le_length h, min_self]
  · rw [List.take_of_length_le h]

theorem untilFull_eq {visit : α → List (List Nat) → List (List Nat)} {found : α → List (List Nat)}
    (hvisit : ∀ x rows, rows.length ≤ limit → visit x rows = (rows ++ found x).take limit)
    {xs : List α} {rows : List (List Nat)} (h : rows.length ≤ limit) :
    untilFull limit visit xs rows = (rows ++ xs.flatMap found).take limit := by
  induction xs generalizing rows with
  | nil => simp [untilFull, List.take_of_length_le h]
  | cons x xs ih =>
    have hrows := hvisit x rows h
    have hle : (visit x rows).length ≤ limit := by
      rw [hrows]
      exact List.length_take_le _ _
    rw [untilFull, List.flatMap_cons, ← List.append_assoc]
    split
    · rename_i hfull
      rw [hrows] at hfull ⊢
      rw [List.length_take, le_inf_iff] at hfull
      rw [List.take_append_of_le_length hfull.2]
    · rw [ih hle, hrows, take_take_append]

/-- The search stops early, and otherwise adds every row in turn. -/
theorem search_eq {depth : Nat} {state : σ} (current : List Nat) {rows : List (List Nat)}
    (h : rows.length ≤ limit) :
    search limit candidates advance depth state current rows =
      (rows ++ (leaves candidates advance depth state).map (current ++ ·)).take limit := by
  induction depth generalizing state current rows with
  | zero =>
    rw [search]
    split
    · rename_i hfull
      rw [take_eq_of_le hfull h]
    · rename_i hroom
      have hall : (rows ++ [current]).length ≤ limit := by simp; omega
      simp [leaves, List.take_of_length_le hall]
  | succ depth ih =>
    rw [search]
    split
    · rename_i hfull
      rw [take_eq_of_le hfull h]
    · have hvisit (i : Nat) (rows : List (List Nat)) (hrows : rows.length ≤ limit) :
          search limit candidates advance depth (advance state i) (current ++ [i]) rows =
            (rows ++ (leaves candidates advance depth (advance state i)).map
              (current ++ [i] ++ ·)).take limit := ih _ hrows
      rw [untilFull_eq hvisit h, leaves, List.map_flatMap]
      simp [List.map_map, Function.comp_def]

-- ---------------------------------------------------------------------------
-- The rows it finds
-- ---------------------------------------------------------------------------

theorem mem_leaves_succ {depth : Nat} {state : σ} {row : List Nat} :
    row ∈ leaves candidates advance (depth + 1) state ↔
      ∃ i ∈ candidates (depth + 1) state,
        ∃ rest ∈ leaves candidates advance depth (advance state i), i :: rest = row := by
  simp [leaves]

theorem pairwise_leaves (hsorted : ∀ depth state, (candidates depth state).Pairwise (· < ·))
    (depth : Nat) (state : σ) : (leaves candidates advance depth state).Pairwise (· < ·) := by
  induction depth generalizing state with
  | zero => exact List.pairwise_singleton _ _
  | succ depth ih =>
    rw [leaves, List.pairwise_flatMap]
    constructor
    · intro i _
      rw [List.pairwise_map]
      exact (ih _).imp fun hlt => List.cons_lt_cons_iff.mpr (.inr ⟨rfl, hlt⟩)
    · refine (hsorted _ _).imp fun hij => ?_
      intro _ hx _ hy
      obtain ⟨_, -, rfl⟩ := List.mem_map.mp hx
      obtain ⟨_, -, rfl⟩ := List.mem_map.mp hy
      exact List.cons_lt_cons_iff.mpr (.inl hij)

/-- The rows in `P`, each one once, in lexicographic order. -/
structure Lists (P : List Nat → Prop) (rows : List (List Nat)) : Prop where
  ordered : rows.Pairwise (· < ·)
  mem_iff : ∀ row, row ∈ rows ↔ P row

theorem Lists.unique {P : List Nat → Prop} {rows rows' : List (List Nat)} (h : Lists P rows)
    (h' : Lists P rows') : rows = rows' := by
  have hperm : rows.Perm rows' := by
    rw [List.perm_ext_iff_of_nodup (h.ordered.imp ne_of_lt) (h'.ordered.imp ne_of_lt)]
    intro row
    rw [h.mem_iff, h'.mem_iff]
  exact hperm.eq_of_pairwise (fun a b _ _ hab hba => absurd hab (lt_asymm hba)) h.ordered h'.ordered

end Search
