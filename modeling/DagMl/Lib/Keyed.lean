import Mathlib

/-!
# Keyed lists

Sorting by a key, and association lists with distinct keys. Lists that sort to
the same list are permutations of one another, and distinct keys make the
converse hold whatever else the elements carry.
-/

namespace Keyed

variable {K α β V : Type}

theorem sort_eq_iff [LinearOrder α] {l l' : List α} :
    l.insertionSort (· ≤ ·) = l'.insertionSort (· ≤ ·) ↔ l.Perm l' := by
  constructor
  · intro h
    exact (List.perm_insertionSort _ l).symm.trans (h ▸ List.perm_insertionSort _ l')
  · intro h
    exact ((List.perm_insertionSort _ l).trans (h.trans (List.perm_insertionSort _ l').symm)).eq_of_pairwise'
      (List.pairwise_insertionSort _ l) (List.pairwise_insertionSort _ l')

section SortBy

variable [LinearOrder K] {key : α → K} {l l' : List α}

/-- `l.sort_by(|a, b| key(a).cmp(&key(b)))`. -/
def sortBy (key : α → K) (l : List α) : List α := l.insertionSort (fun a b => key a ≤ key b)

theorem perm_sortBy (key : α → K) (l : List α) : (sortBy key l).Perm l :=
  List.perm_insertionSort _ l

@[simp] theorem mem_sortBy : a ∈ sortBy key l ↔ a ∈ l := (perm_sortBy key l).mem_iff

theorem pairwise_sortBy (key : α → K) (l : List α) :
    (sortBy key l).Pairwise (fun a b => key a ≤ key b) := by
  have : Std.Total (fun a b : α => key a ≤ key b) := ⟨fun a b => le_total (key a) (key b)⟩
  have : IsTrans α (fun a b => key a ≤ key b) := ⟨fun a b c => le_trans⟩
  exact List.pairwise_insertionSort _ l

theorem sortBy_of_sorted (h : l.Pairwise (fun a b => key a ≤ key b)) : sortBy key l = l :=
  h.insertionSort_eq

theorem sortBy_sortBy : sortBy key (sortBy key l) = sortBy key l :=
  sortBy_of_sorted (pairwise_sortBy key l)

/-- Distinct keys leave a sort no choice. -/
theorem sortBy_eq_of_perm (hn : (l.map key).Nodup) (h : l.Perm l') :
    sortBy key l = sortBy key l' := by
  refine ((perm_sortBy key l).trans (h.trans (perm_sortBy key l').symm)).eq_of_pairwise ?_
    (pairwise_sortBy key l) (pairwise_sortBy key l')
  intro a b ha hb hab hba
  exact List.inj_on_of_nodup_map hn (mem_sortBy.mp ha) (h.mem_iff.mpr (mem_sortBy.mp hb))
    (le_antisymm hab hba)

/-- Under an injective key equal multisets sort to equal lists. -/
theorem sortBy_eq_of_injective (hkey : ∀ a b, key a = key b → a = b) (h : l.Perm l') :
    sortBy key l = sortBy key l' := by
  have hperm := (perm_sortBy key l).trans (h.trans (perm_sortBy key l').symm)
  exact hperm.eq_of_pairwise (fun a b _ _ hab hba => hkey a b (le_antisymm hab hba))
    (pairwise_sortBy key l) (pairwise_sortBy key l')

theorem perm_of_sortBy_eq (h : sortBy key l = sortBy key l') : l.Perm l' :=
  (perm_sortBy key l).symm.trans (h ▸ perm_sortBy key l')

theorem sortBy_eq_iff (hn : (l.map key).Nodup) : sortBy key l = sortBy key l' ↔ l.Perm l' :=
  ⟨perm_of_sortBy_eq, sortBy_eq_of_perm hn⟩

theorem sortBy_map {f : β → α} {l : List β} :
    sortBy key (l.map f) = (sortBy (fun b => key (f b)) l).map f :=
  (List.map_insertionSort _ _ f l fun _ _ _ _ => Iff.rfl).symm

/-- `l.sort_by_key(key); l.dedup_by_key(key);`. -/
def sortDedup (key : α → K) (l : List α) : List α :=
  (sortBy key l).destutter (fun a b => key a ≠ key b)

theorem sublist_sortDedup : (sortDedup key l).Sublist (sortBy key l) := List.destutter_sublist _ _

theorem map_sortDedup : (sortDedup key l).map key = ((sortBy key l).map key).dedup := by
  have hmap : (sortDedup key l).map key = ((sortBy key l).map key).destutter (· ≠ ·) :=
    List.map_destutter fun a _ b _ => Iff.rfl
  rw [hmap]
  have hle : ((sortBy key l).map key).Pairwise (· ≤ ·) :=
    List.pairwise_map.mpr (pairwise_sortBy key l)
  exact hle.destutter_eq_dedup

theorem nodup_map_sortDedup : ((sortDedup key l).map key).Nodup := by
  rw [map_sortDedup]
  exact List.nodup_dedup _

theorem nodup_sortDedup : (sortDedup key l).Nodup := nodup_map_sortDedup.of_map key

/-- Where the key tells the elements apart, only repetitions go. -/
theorem mem_sortDedup (hkey : ∀ a ∈ l, ∀ b ∈ l, key a = key b → a = b) :
    a ∈ sortDedup key l ↔ a ∈ l := by
  constructor
  · exact fun ha => mem_sortBy.mp (sublist_sortDedup.subset ha)
  · intro ha
    have hmem : key a ∈ (sortDedup key l).map key := by
      rw [map_sortDedup, List.mem_dedup]
      exact List.mem_map_of_mem (mem_sortBy.mpr ha)
    obtain ⟨b, hb, heq⟩ := List.mem_map.mp hmem
    rwa [← hkey b (mem_sortBy.mp (sublist_sortDedup.subset hb)) a ha heq]

/-- The outcome depends on the set of the elements only. -/
theorem sortDedup_congr (hkey : ∀ a ∈ l, ∀ b ∈ l, key a = key b → a = b)
    (h : ∀ a, a ∈ l ↔ a ∈ l') : sortDedup key l = sortDedup key l' := by
  have hkey' : ∀ a ∈ l', ∀ b ∈ l', key a = key b → a = b := fun a ha b hb =>
    hkey a ((h a).mpr ha) b ((h b).mpr hb)
  have hperm : (sortDedup key l).Perm (sortDedup key l') := by
    refine (List.perm_ext_iff_of_nodup nodup_sortDedup nodup_sortDedup).mpr fun a => ?_
    rw [mem_sortDedup hkey, mem_sortDedup hkey', h]
  refine hperm.eq_of_pairwise ?_ ((pairwise_sortBy key l).sublist sublist_sortDedup)
    ((pairwise_sortBy key l').sublist sublist_sortDedup)
  intro a b ha hb hab hba
  exact hkey a ((mem_sortDedup hkey).mp ha) b ((h b).mpr ((mem_sortDedup hkey').mp hb))
    (le_antisymm hab hba)

/-- Sorted lists are related element by element when some order of the second is. -/
theorem forall₂_sortBy_iff {R : α → β → Prop} {key' : β → K} {l' : List β}
    (hkey : ∀ a b, R a b → key a = key' b) (hn : (l'.map key').Nodup) :
    List.Forall₂ R (sortBy key l) (sortBy key' l') ↔ ∃ m, m.Perm l' ∧ List.Forall₂ R l m := by
  constructor
  · intro h
    obtain ⟨m, hm, hperm⟩ := List.perm_comp_forall₂ (perm_sortBy key l).symm h
    exact ⟨m, hperm.trans (perm_sortBy key' l'), hm⟩
  · rintro ⟨m, hperm, hm⟩
    obtain ⟨m', hm', hperm'⟩ := List.perm_comp_forall₂ (perm_sortBy key l) hm
    have hsorted : m'.Pairwise (fun a b => key' a ≤ key' b) := by
      have hmap : (sortBy key l).map key = m'.map key' := by
        rw [← List.forall₂_eq_eq_eq, List.forall₂_map_left_iff, List.forall₂_map_right_iff]
        exact hm'.imp hkey
      have hle := List.pairwise_map.mpr (pairwise_sortBy key l)
      rw [hmap] at hle
      exact List.pairwise_map.mp hle
    have hsort : sortBy key' l' = m' := by
      rw [← sortBy_of_sorted hsorted]
      exact sortBy_eq_of_perm hn (hperm'.trans hperm).symm
    rw [hsort]
    exact hm'

/-- Sorting keeps the pairs of two lists that carry the same keys together. -/
theorem forall₂_sortBy {R : α → β → Prop} {key' : β → K} {l' : List β} (h : List.Forall₂ R l l')
    (hkey : ∀ a b, R a b → key a = key' b) : List.Forall₂ R (sortBy key l) (sortBy key' l') := by
  induction h with
  | nil => exact .nil
  | @cons a b l l' hab _ ih =>
    have insert {m : List α} {m' : List β} (hm : List.Forall₂ R m m') :
        List.Forall₂ R (m.orderedInsert (key · ≤ key ·) a)
          (m'.orderedInsert (key' · ≤ key' ·) b) := by
      induction hm with
      | nil => exact .cons hab .nil
      | cons hcd hrest ih =>
        simp only [List.orderedInsert_cons, hkey _ _ hab, hkey _ _ hcd]
        split
        · exact .cons hab (.cons hcd hrest)
        · exact .cons hcd ih
    exact insert ih

-- ---------------------------------------------------------------------------
-- Order statistics
-- ---------------------------------------------------------------------------

/-- In a sorted list the entry at `i` has the entries up to `i` at or below it. -/
theorem lt_countP_le_getElem (h : l.Pairwise (fun a b => key a ≤ key b)) (hi : i < l.length) :
    i < l.countP (fun a => key a ≤ key l[i]) := by
  induction l generalizing i with
  | nil => cases hi
  | cons a l ih =>
    rw [List.pairwise_cons] at h
    cases i with
    | zero => simp
    | succ i =>
      have hi : i < l.length := by simpa using hi
      have ha : key a ≤ key l[i] := h.1 _ (List.getElem_mem hi)
      simpa [ha] using ih h.2 hi

/-- Only the entries before `i` can be strictly below the entry at `i`. -/
theorem countP_lt_getElem_le (h : l.Pairwise (fun a b => key a ≤ key b)) (hi : i < l.length) :
    l.countP (fun a => key a < key l[i]) ≤ i := by
  induction l generalizing i with
  | nil => cases hi
  | cons a l ih =>
    rw [List.pairwise_cons] at h
    cases i with
    | zero =>
      have hnone : l.countP (fun b => key b < key a) = 0 := by
        rw [List.countP_eq_zero]
        intro b hb
        simpa using h.1 b hb
      simp [hnone]
    | succ i =>
      have hi : i < l.length := by simpa using hi
      have hcount := ih h.2 hi
      rw [List.countP_cons]
      simp only [List.getElem_cons_succ]
      split <;> omega

end SortBy

-- ---------------------------------------------------------------------------
-- Association lists
-- ---------------------------------------------------------------------------

variable [DecidableEq K]

theorem lookup_eq_some {l : List (K × V)} (hn : (l.map Prod.fst).Nodup) :
    l.lookup k = some v ↔ (k, v) ∈ l := by
  induction l with
  | nil => simp
  | cons e es ih =>
    obtain ⟨k', v'⟩ := e
    rw [List.map_cons, List.nodup_cons] at hn
    by_cases hk : k = k'
    · subst hk
      have hnot : (k, v) ∉ es := fun hm => hn.1 (List.mem_map.mpr ⟨(k, v), hm, rfl⟩)
      simp [List.lookup, hnot, eq_comm]
    · have hbeq : (k == k') = false := by simpa using hk
      simp [List.lookup, hbeq, hk, ih hn.2]

theorem lookup_isSome {l : List (K × V)} : (l.lookup k).isSome ↔ k ∈ l.map Prod.fst := by
  induction l with
  | nil => simp
  | cons e es ih =>
    by_cases hk : k = e.1
    · simp [hk]
    · have hbeq : (k == e.1) = false := by simpa using hk
      rw [List.lookup_cons, hbeq, ih, List.map_cons, List.mem_cons]
      simp [hk]

end Keyed
