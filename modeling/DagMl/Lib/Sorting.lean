import Mathlib

/-!
# Sorting by a comparator

A sort that takes its order from a comparator promises a sorted permutation
only when the comparator is a total order on the elements. Otherwise it may
return any permutation, or panic; `SortBy` allows exactly that.
-/

namespace Sorting

variable {α ε : Type} {cmp : α → α → Ordering} {l l' s : List α}

/-- `cmp` is a total order on the elements of `l`. -/
structure TotalOn (cmp : α → α → Ordering) (l : List α) : Prop where
  swap : ∀ a ∈ l, ∀ b ∈ l, cmp b a = (cmp a b).swap
  lt_trans : ∀ a ∈ l, ∀ b ∈ l, ∀ c ∈ l, cmp a b = .lt → cmp b c = .lt → cmp a c = .lt
  eq_trans : ∀ a ∈ l, ∀ b ∈ l, ∀ c ∈ l, cmp a b = .eq → cmp b c = .eq → cmp a c = .eq

/-- `a` need not move behind `b`. -/
def NotAfter (cmp : α → α → Ordering) (a b : α) : Prop := cmp a b ≠ .gt

instance (cmp : α → α → Ordering) : DecidableRel (NotAfter cmp) :=
  fun a b => inferInstanceAs (Decidable (cmp a b ≠ .gt))

/-- The outcomes of `l.sort_by(cmp)`; `panicked` is the panic. -/
inductive SortBy (panicked : ε) (cmp : α → α → Ordering) (l : List α) : Except ε (List α) → Prop
  | sorted (h : TotalOn cmp l) : SortBy panicked cmp l (.ok (l.insertionSort (NotAfter cmp)))
  | unspecified (h : ¬TotalOn cmp l) (hp : out.Perm l) : SortBy panicked cmp l (.ok out)
  | panic (h : ¬TotalOn cmp l) : SortBy panicked cmp l (.error panicked)

theorem TotalOn.of_subset (h : TotalOn cmp l) (hs : ∀ a ∈ l', a ∈ l) : TotalOn cmp l' where
  swap a ha b hb := h.swap a (hs a ha) b (hs b hb)
  lt_trans a ha b hb c hc := h.lt_trans a (hs a ha) b (hs b hb) c (hs c hc)
  eq_trans a ha b hb c hc := h.eq_trans a (hs a ha) b (hs b hb) c (hs c hc)

theorem TotalOn.perm (h : TotalOn cmp l) (hp : l'.Perm l) : TotalOn cmp l' :=
  h.of_subset fun _ ha => hp.mem_iff.mp ha

theorem TotalOn.notAfter_total (h : TotalOn cmp l) (ha : a ∈ l) (hb : b ∈ l) :
    NotAfter cmp a b ∨ NotAfter cmp b a := by
  unfold NotAfter
  rw [h.swap a ha b hb]
  cases cmp a b <;> simp

theorem TotalOn.notAfter_trans (h : TotalOn cmp l) (ha : a ∈ l) (hb : b ∈ l) (hc : c ∈ l)
    (hab : NotAfter cmp a b) (hbc : NotAfter cmp b c) : NotAfter cmp a c := by
  unfold NotAfter at *
  intro hac
  have hca : cmp c a = .lt := by rw [h.swap a ha c hc, hac, Ordering.swap_gt]
  cases hab' : cmp a b with
  | gt => exact hab hab'
  | lt =>
    have hcb := h.lt_trans c hc a ha b hb hca hab'
    rw [h.swap b hb c hc, Ordering.swap_eq_lt] at hcb
    exact hbc hcb
  | eq =>
    cases hbc' : cmp b c with
    | gt => exact hbc hbc'
    | lt =>
      have hba := h.lt_trans b hb c hc a ha hbc' hca
      rw [h.swap a ha b hb, hab'] at hba
      cases hba
    | eq =>
      have heq := h.eq_trans a ha b hb c hc hab' hbc'
      rw [hac] at heq
      cases heq

theorem TotalOn.orderedInsert (h : TotalOn cmp l) (ha : a ∈ l) (hs : ∀ b ∈ s, b ∈ l)
    (hsorted : s.Pairwise (NotAfter cmp)) :
    (s.orderedInsert (NotAfter cmp) a).Pairwise (NotAfter cmp) := by
  induction s with
  | nil => exact List.pairwise_singleton _ a
  | cons b s ih =>
    rw [List.forall_mem_cons] at hs
    obtain ⟨hb, hrest⟩ := List.pairwise_cons.mp hsorted
    rw [List.orderedInsert]
    split
    · rename_i hab
      refine List.pairwise_cons.mpr ⟨fun c hc => ?_, hsorted⟩
      rcases List.mem_cons.mp hc with rfl | hc
      · exact hab
      · exact h.notAfter_trans ha hs.1 (hs.2 c hc) hab (hb c hc)
    · rename_i hab
      refine List.pairwise_cons.mpr ⟨fun c hc => ?_, ih hs.2 hrest⟩
      rcases (List.mem_orderedInsert _).mp hc with rfl | hc
      · exact (h.notAfter_total hs.1 ha).resolve_right hab
      · exact hb c hc

theorem TotalOn.pairwise_insertionSort (h : TotalOn cmp l) :
    (l.insertionSort (NotAfter cmp)).Pairwise (NotAfter cmp) := by
  have general (s : List α) (hs : ∀ b ∈ s, b ∈ l) :
      (s.insertionSort (NotAfter cmp)).Pairwise (NotAfter cmp) := by
    induction s with
    | nil => exact List.Pairwise.nil
    | cons a s ih =>
      rw [List.forall_mem_cons] at hs
      rw [List.insertionSort_cons]
      refine h.orderedInsert hs.1 (fun b hb => ?_) (ih hs.2)
      exact hs.2 b ((List.perm_insertionSort _ s).mem_iff.mp hb)
  exact general l fun _ hb => hb

/-- When only equal elements compare equal, the sorted list does not depend on
the order of the elements. -/
theorem TotalOn.insertionSort_perm (h : TotalOn cmp l)
    (heq : ∀ a ∈ l, ∀ b ∈ l, cmp a b = .eq → a = b) (hp : l'.Perm l) :
    l'.insertionSort (NotAfter cmp) = l.insertionSort (NotAfter cmp) := by
  have hperm := (List.perm_insertionSort (NotAfter cmp) l').trans
    (hp.trans (List.perm_insertionSort (NotAfter cmp) l).symm)
  refine hperm.eq_of_pairwise (fun a b ha hb hab hba => ?_) (h.perm hp).pairwise_insertionSort
    h.pairwise_insertionSort
  have ha' : a ∈ l := hp.mem_iff.mp ((List.perm_insertionSort _ l').mem_iff.mp ha)
  have hb' : b ∈ l := (List.perm_insertionSort _ l).mem_iff.mp hb
  unfold NotAfter at hab hba
  rw [h.swap a ha' b hb'] at hba
  refine heq a ha' b hb' ?_
  cases hc : cmp a b <;> simp_all

/-- On a total order the sort has one outcome. -/
theorem SortBy.of_total {panicked : ε} (hs : SortBy panicked cmp l out) (h : TotalOn cmp l) :
    out = .ok (l.insertionSort (NotAfter cmp)) := by
  cases hs with
  | sorted => rfl
  | unspecified hn => exact absurd h hn
  | panic hn => exact absurd h hn

theorem SortBy.perm {panicked : ε} (hs : SortBy panicked cmp l (.ok out)) : out.Perm l := by
  cases hs with
  | sorted => exact List.perm_insertionSort _ l
  | unspecified _ hp => exact hp

end Sorting
