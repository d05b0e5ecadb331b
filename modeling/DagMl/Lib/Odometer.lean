import Mathlib

/-!
# Odometers

The positions below a list of widths, built one digit at a time. They come out
in lexicographic order, each one once.
-/

namespace Odometer

/-- Every head continued by every digit below `width`. -/
def extend (heads : List (List Nat)) (width : Nat) : List (List Nat) :=
  heads.flatMap fun head => (List.range width).map fun digit => head ++ [digit]

def positions (widths : List Nat) : List (List Nat) := widths.foldl extend [[]]

theorem positions_concat (widths : List Nat) (width : Nat) :
    positions (widths ++ [width]) = extend (positions widths) width := by
  rw [positions, List.foldl_append]
  rfl

theorem mem_extend {heads : List (List Nat)} {p : List Nat} :
    p ∈ extend heads width ↔ ∃ head ∈ heads, ∃ digit < width, p = head ++ [digit] := by
  simp [extend, eq_comm]

theorem mem_positions {p : List Nat} :
    p ∈ positions widths ↔ List.Forall₂ (· < ·) p widths := by
  induction widths using List.reverseRecOn generalizing p with
  | nil => simp [positions]
  | append_singleton widths width ih =>
    rw [positions_concat, mem_extend]
    constructor
    · rintro ⟨head, hhead, digit, hdigit, rfl⟩
      exact List.rel_append (ih.mp hhead) (.cons hdigit .nil)
    · intro h
      have hhead := List.forall₂_take_append p widths [width] h
      have htail := List.forall₂_drop_append p widths [width] h
      obtain ⟨digit, rest, hdigit, hrest, hdrop⟩ := List.forall₂_cons_right_iff.mp htail
      rw [List.forall₂_nil_right_iff] at hrest
      refine ⟨_, ih.mpr hhead, digit, hdigit, ?_⟩
      rw [← hrest, ← hdrop, List.take_append_drop]

theorem concat_lt_concat {p q : List Nat} (hlength : p.length = q.length) (h : p < q) (i j : Nat) :
    p ++ [i] < q ++ [j] := by
  induction p generalizing q with
  | nil =>
    cases q with
    | nil => exact absurd h (lt_irrefl _)
    | cons y ys => simp at hlength
  | cons x xs ih =>
    cases q with
    | nil => simp at hlength
    | cons y ys =>
      rw [List.cons_append, List.cons_append, List.cons_lt_cons_iff]
      rcases List.cons_lt_cons_iff.mp h with hlt | ⟨heq, hrest⟩
      · exact .inl hlt
      · exact .inr ⟨heq, ih (by simpa using hlength) hrest⟩

theorem pairwise_positions (widths : List Nat) : (positions widths).Pairwise (· < ·) := by
  induction widths using List.reverseRecOn with
  | nil => exact List.pairwise_singleton _ _
  | append_singleton widths width ih =>
    rw [positions_concat, extend, List.pairwise_flatMap]
    constructor
    · intro head _
      rw [List.pairwise_map]
      refine List.pairwise_lt_range.imp fun {i j} hij => ?_
      exact List.append_left_lt (List.cons_lt_cons_iff.mpr (.inl hij))
    · refine ih.imp_of_mem fun {p q} hp hq hlt => ?_
      simp only [List.mem_map, List.mem_range, forall_exists_index, and_imp]
      rintro _ i - rfl _ j - rfl
      have hlength : p.length = q.length :=
        (mem_positions.mp hp).length_eq.trans (mem_positions.mp hq).length_eq.symm
      exact concat_lt_concat hlength hlt i j

end Odometer
