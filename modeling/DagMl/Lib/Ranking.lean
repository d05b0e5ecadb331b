import Mathlib

/-!
# Ranking with ties

The runs of tied elements in a sorted list, and what their positions are: how
many elements lie below, and how many are tied. A list written slot by slot is
read back as what was written.
-/

namespace Ranking

variable {α ι : Type}

-- ---------------------------------------------------------------------------
-- Runs
-- ---------------------------------------------------------------------------

/-- The maximal runs of elements tied with their first one, each with the
positions of its first and last element; the list starts at position `i`. -/
def tieRuns (tied : α → α → Bool) (i : Nat) : List α → List (List α × Nat × Nat)
  | [] => []
  | a :: rest =>
    let run := rest.takeWhile (tied · a)
    (a :: run, i, i + run.length) :: tieRuns tied (i + run.length + 1) (rest.dropWhile (tied · a))
termination_by l => l.length
decreasing_by
  have := List.length_dropWhile_le (tied · a) rest
  simp only [List.length_cons]
  omega

section Counting

variable [LinearOrder ι] (key : α → ι)

def below (l : List α) (a : α) : Nat := l.countP (key · < key a)

def ties (l : List α) (a : α) : Nat := l.countP (key · = key a)

def above (l : List α) (a : α) : Nat := l.countP (key a < key ·)

variable {key} {l l' : List α}

theorem below_perm (h : l.Perm l') (a : α) : below key l a = below key l' a := h.countP_eq _

theorem ties_perm (h : l.Perm l') (a : α) : ties key l a = ties key l' a := h.countP_eq _

theorem ties_pos (h : a ∈ l) : 0 < ties key l a := List.countP_pos_iff.mpr ⟨a, h, by simp⟩

theorem length_eq (l : List α) (a : α) :
    l.length = below key l a + ties key l a + above key l a := by
  induction l with
  | nil => rfl
  | cons b l ih =>
    unfold below ties above at *
    rcases lt_trichotomy (key b) (key a) with h | h | h
    · simp [h, h.ne, h.not_gt]
      omega
    · simp [h]
      omega
    · simp [h, h.ne', h.not_gt]
      omega

/-- Everything at or below `a` lies below what is above it. -/
theorem below_add_ties_le_below (h : key a < key b) :
    below key l a + ties key l a ≤ below key l b := by
  induction l with
  | nil => simp [below, ties]
  | cons c l ih =>
    unfold below ties at *
    rcases lt_trichotomy (key c) (key a) with hc | hc | hc
    · simp [hc, hc.ne, hc.trans h]
      omega
    · simp [hc, h]
      omega
    · simp only [List.countP_cons, hc.not_gt, hc.ne', decide_false, Bool.false_eq_true, if_false]
      omega

theorem below_congr (h : key a = key b) : below key l a = below key l b := by
  unfold below
  rw [h]

theorem ties_congr (h : key a = key b) : ties key l a = ties key l b := by
  unfold ties
  rw [h]

/-- The first elements of a sorted list are the ones tied with its head. -/
theorem sorted_cons_split {a : α} {rest : List α}
    (h : (a :: rest).Pairwise fun x y => key x ≤ key y) :
    (∀ x ∈ rest.takeWhile (key · = key a), key x = key a) ∧
      ∀ x ∈ rest.dropWhile (key · = key a), key a < key x := by
  obtain ⟨hhead, hrest⟩ := List.pairwise_cons.mp h
  refine ⟨fun x hx => by simpa using List.mem_takeWhile_imp hx, ?_⟩
  clear h
  induction rest with
  | nil => simp
  | cons b rest ih =>
    rw [List.forall_mem_cons] at hhead
    obtain ⟨hb, hrest⟩ := List.pairwise_cons.mp hrest
    by_cases heq : key b = key a
    · rw [List.dropWhile_cons_of_pos (by simpa using heq)]
      exact ih hhead.2 hrest
    · rw [List.dropWhile_cons_of_neg (by simpa using heq)]
      have hlt : key a < key b := lt_of_le_of_ne hhead.1 (Ne.symm heq)
      intro x hx
      rcases List.mem_cons.mp hx with rfl | hx
      · exact hlt
      · exact hlt.trans_le (hb x hx)

/-- In a list of one run nothing lies below and everything is tied. -/
theorem below_eq_zero (h : ∀ x ∈ l, key a ≤ key x) : below key l a = 0 :=
  List.countP_eq_zero.mpr fun x hx => by simpa using h x hx

theorem ties_eq_length (h : ∀ x ∈ l, key x = key a) : ties key l a = l.length :=
  List.countP_eq_length.mpr fun x hx => by simpa using h x hx

theorem below_eq_length (h : ∀ x ∈ l, key x < key a) : below key l a = l.length :=
  List.countP_eq_length.mpr fun x hx => by simpa using h x hx

theorem ties_eq_zero (h : ∀ x ∈ l, key x ≠ key a) : ties key l a = 0 :=
  List.countP_eq_zero.mpr fun x hx => by simpa using h x hx

theorem below_append : below key (l ++ l') a = below key l a + below key l' a := List.countP_append

theorem ties_append : ties key (l ++ l') a = ties key l a + ties key l' a := List.countP_append

/-- The span of positions an element's run takes in the sorted order. -/
def span (key : α → ι) (i : Nat) (l : List α) (a : α) : α × Nat × Nat :=
  (a, i + below key l a, i + below key l a + ties key l a - 1)

omit [LinearOrder ι] in
theorem takeWhile_congr {p q : α → Bool} (h : ∀ x ∈ l, p x = q x) :
    l.takeWhile p = l.takeWhile q ∧ l.dropWhile p = l.dropWhile q := by
  induction l with
  | nil => exact ⟨rfl, rfl⟩
  | cons a l ih =>
    rw [List.forall_mem_cons] at h
    obtain ⟨htake, hdrop⟩ := ih h.2
    simp only [List.takeWhile_cons, List.dropWhile_cons, h.1, htake, hdrop, and_self]

/-- The runs of a sorted list are its elements with their spans. -/
theorem tieRuns_eq {tied : α → α → Bool} (htied : ∀ a ∈ l, ∀ b ∈ l, tied b a = decide (key b = key a))
    (h : l.Pairwise fun x y => key x ≤ key y) (i : Nat) :
    ((tieRuns tied i l).flatMap fun (run, first, last) => run.map fun a => (a, first, last)) =
      l.map (span key i l) := by
  induction i, l using tieRuns.induct tied with
  | case1 => simp [tieRuns]
  | case2 i a rest run ih =>
    have hpred (x : α) (hx : x ∈ rest) : tied x a = decide (key x = key a) :=
      htied a List.mem_cons_self x (List.mem_cons_of_mem _ hx)
    obtain ⟨htake, hdrop⟩ := takeWhile_congr hpred
    obtain ⟨hequal, hlater⟩ := sorted_cons_split h
    rw [← htake] at hequal
    rw [← hdrop] at hlater
    have hrun : rest.takeWhile (tied · a) = run := rfl
    rw [hrun] at hequal
    clear_value run
    generalize hrest : rest.dropWhile (tied · a) = later at *
    have hsplit : rest = run ++ later := by rw [← hrun, ← hrest, List.takeWhile_append_dropWhile]
    have hin (x : α) (hx : x ∈ later) : x ∈ a :: rest :=
      List.mem_cons_of_mem _ (hsplit ▸ List.mem_append_right _ hx)
    have hsorted : later.Pairwise fun x y => key x ≤ key y :=
      (List.pairwise_append.mp (hsplit ▸ (List.pairwise_cons.mp h).2)).2.1
    have hhead : ∀ x ∈ a :: run, key x = key a := List.forall_mem_cons.mpr ⟨rfl, hequal⟩
    rw [tieRuns, List.flatMap_cons, hrun, hrest,
      ih (fun x hx y hy => htied x (hin x hx) y (hin y hy)) hsorted, hsplit, ← List.cons_append,
      List.map_append]
    congr 1
    · refine List.map_congr_left fun x hx => ?_
      have hbelow : below key (a :: run ++ later) x = 0 := by
        refine below_eq_zero fun y hy => ?_
        rw [hhead x hx]
        rcases List.mem_append.mp hy with hy | hy
        · exact (hhead y hy).ge
        · exact (hlater y hy).le
      have hties : ties key (a :: run ++ later) x = run.length + 1 := by
        rw [ties_append, ties_eq_length fun y hy => (hhead y hy).trans (hhead x hx).symm,
          ties_eq_zero fun y hy => by rw [hhead x hx]; exact (hlater y hy).ne']
        simp
      rw [span, hbelow, hties]
      simp
    · refine List.map_congr_left fun x hx => ?_
      have hx := hlater x hx
      have hbelow : below key (a :: run) x = run.length + 1 := by
        rw [below_eq_length fun y hy => (hhead y hy).trans_lt hx, List.length_cons]
      have hties : ties key (a :: run) x = 0 := ties_eq_zero fun y hy => by
        rw [hhead y hy]
        exact hx.ne
      rw [span, span, below_append, ties_append, hbelow, hties]
      congr 2 <;> omega

end Counting

-- ---------------------------------------------------------------------------
-- Slots
-- ---------------------------------------------------------------------------

/-- `for (slot, value) in writes { list[slot] = value }`. -/
def writeSlots (list : List α) (writes : List (Nat × α)) : List α :=
  writes.foldl (fun list w => list.set w.1 w.2) list

theorem length_writeSlots (list : List α) (writes : List (Nat × α)) :
    (writeSlots list writes).length = list.length := by
  induction writes generalizing list with
  | nil => rfl
  | cons w ws ih =>
    rw [writeSlots, List.foldl_cons, ← writeSlots, ih, List.length_set]

theorem writeSlots_append (list : List α) (writes writes' : List (Nat × α)) :
    writeSlots list (writes ++ writes') = writeSlots (writeSlots list writes) writes' :=
  List.foldl_append

theorem writeSlots_flatMap {β : Type} (list : List α) (l : List β) (writes : β → List (Nat × α)) :
    l.foldl (fun list b => writeSlots list (writes b)) list =
      writeSlots list (l.flatMap writes) := by
  induction l generalizing list with
  | nil => rfl
  | cons b bs ih => rw [List.foldl_cons, ih, List.flatMap_cons, writeSlots_append]

theorem getElem?_writeSlots_of_not_mem {list : List α} {writes : List (Nat × α)}
    (h : slot ∉ writes.map Prod.fst) : (writeSlots list writes)[slot]? = list[slot]? := by
  induction writes generalizing list with
  | nil => rfl
  | cons w ws ih =>
    rw [List.map_cons, List.mem_cons, not_or] at h
    rw [writeSlots, List.foldl_cons, ← writeSlots, ih h.2, List.getElem?_set_ne (Ne.symm h.1)]

/-- Slots written once hold what was written. -/
theorem getElem?_writeSlots {list : List α} {writes : List (Nat × α)}
    (hn : (writes.map Prod.fst).Nodup) (hw : (slot, value) ∈ writes) (hs : slot < list.length) :
    (writeSlots list writes)[slot]? = some value := by
  induction writes generalizing list with
  | nil => cases hw
  | cons w ws ih =>
    obtain ⟨hfresh, hn⟩ := List.nodup_cons.mp hn
    rw [writeSlots, List.foldl_cons, ← writeSlots]
    rcases List.mem_cons.mp hw with rfl | hw
    · rw [getElem?_writeSlots_of_not_mem hfresh]
      exact List.getElem?_set_self hs
    · exact ih hn hw (by rwa [List.length_set])

/-- Writing every slot of a list once replaces it. -/
theorem writeSlots_eq {β : Type} {list : List α} {l : List β} {f : β → α} {writes : List (Nat × α)}
    (hlength : list.length = l.length)
    (hperm : writes.Perm (l.zipIdx.map fun e => (e.2, f e.1))) :
    writeSlots list writes = l.map f := by
  have hslots : (l.zipIdx.map fun e => (e.2, f e.1)).map Prod.fst = List.range l.length := by
    rw [List.map_map, List.range_eq_range', ← List.zipIdx_map_snd 0 l]
    rfl
  have hn : (writes.map Prod.fst).Nodup := by
    rw [(hperm.map Prod.fst).nodup_iff, hslots]
    exact List.nodup_range
  refine List.ext_getElem? fun i => ?_
  by_cases hi : i < l.length
  · have hmem : (i, f l[i]) ∈ writes := by
      refine hperm.mem_iff.mpr (List.mem_map.mpr ⟨(l[i], i), ?_, rfl⟩)
      rw [List.mem_zipIdx_iff_getElem?]
      exact List.getElem?_eq_getElem hi
    rw [getElem?_writeSlots hn hmem (hlength ▸ hi), List.getElem?_map,
      List.getElem?_eq_getElem hi]
    rfl
  · rw [List.getElem?_eq_none (by rw [length_writeSlots]; omega),
      List.getElem?_eq_none (by rw [List.length_map]; omega)]

end Ranking
