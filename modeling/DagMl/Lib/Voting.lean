import Mathlib

/-!
# Votes

A tally keeps one score for each class of a list, and adds to the class that is
looked up. The list of classes is a sorted list of labels in which neighbours that
a coarser equality identifies are merged; a label is found in it only if it is the
first of those it is merged with. The winner is the first class of the largest score.
-/

namespace Voting

variable {α K ι κ : Type}

-- ---------------------------------------------------------------------------
-- Merging neighbours
-- ---------------------------------------------------------------------------

section Merge

variable [LinearOrder ι] [LinearOrder κ] {fine : α → ι} {coarse : α → κ}
  {same : α → α → Prop} [DecidableRel same] {l : List α}

theorem mem_destutter'_iff {a : α} (hfine : Function.Injective fine)
    (hmono : ∀ a b, fine a ≤ fine b → coarse a ≤ coarse b)
    (hsame : ∀ b ∈ a :: l, ∀ c ∈ a :: l, same b c ↔ coarse b = coarse c)
    (hsorted : (a :: l).Pairwise fun a b => fine a ≤ fine b) :
    x ∈ l.destutter' (fun a b => ¬same a b) a ↔
      x ∈ a :: l ∧ ∀ b ∈ a :: l, coarse b = coarse x → fine x ≤ fine b := by
  induction l generalizing a with
  | nil =>
    simp only [List.destutter'_nil, List.mem_singleton, forall_eq, iff_self_and]
    rintro rfl -
    exact le_rfl
  | cons b l ih =>
    obtain ⟨hfirst, htail⟩ := List.pairwise_cons.mp hsorted
    obtain ⟨hsecond, hrest⟩ := List.pairwise_cons.mp htail
    rw [List.forall_mem_cons] at hfirst
    rw [List.destutter'_cons]
    by_cases hab : same a b
    · have hcoarse : coarse a = coarse b := (hsame a (by simp) b (by simp)).mp hab
      have hsorted' : (a :: l).Pairwise fun a b => fine a ≤ fine b :=
        List.pairwise_cons.mpr ⟨hfirst.2, hrest⟩
      have hsame' : ∀ b ∈ a :: l, ∀ c ∈ a :: l, same b c ↔ coarse b = coarse c := by
        intro c hc d hd
        refine hsame c ?_ d ?_
        · exact List.cons_subset_cons a (List.subset_cons_self b l) hc
        · exact List.cons_subset_cons a (List.subset_cons_self b l) hd
      rw [if_neg (not_not.mpr hab), ih hsame' hsorted', List.forall_mem_cons, List.forall_mem_cons,
        List.forall_mem_cons, List.mem_cons, List.mem_cons, List.mem_cons]
      constructor
      · rintro ⟨hx, hleast, hothers⟩
        refine ⟨?_, hleast, fun heq => (hleast (hcoarse.trans heq)).trans hfirst.1, hothers⟩
        exact hx.imp_right .inr
      · rintro ⟨rfl | rfl | hx, hleast, hleast', hothers⟩
        · exact ⟨.inl rfl, hleast, hothers⟩
        · exact ⟨.inl (hfine (le_antisymm (hleast hcoarse) hfirst.1)), hleast, hothers⟩
        · exact ⟨.inr hx, hleast, hothers⟩
    · have hcoarse : coarse a < coarse b := by
        refine lt_of_le_of_ne (hmono a b hfirst.1) fun heq => hab ?_
        exact (hsame a (by simp) b (by simp)).mpr heq
      have hlater : ∀ y ∈ b :: l, coarse a < coarse y := by
        rw [List.forall_mem_cons]
        exact ⟨hcoarse, fun y hy => hcoarse.trans_le (hmono b y (hsecond y hy))⟩
      have hsame' : ∀ c ∈ b :: l, ∀ d ∈ b :: l, same c d ↔ coarse c = coarse d := fun c hc d hd =>
        hsame c (List.mem_cons_of_mem a hc) d (List.mem_cons_of_mem a hd)
      rw [if_pos hab, List.mem_cons, ih hsame' htail, List.mem_cons (b := a)]
      constructor
      · rintro (rfl | ⟨hx, hleast⟩)
        · refine ⟨.inl rfl, List.forall_mem_cons.mpr ⟨fun _ => le_rfl, fun y hy heq => ?_⟩⟩
          exact absurd heq (hlater y hy).ne'
        · refine ⟨.inr hx, List.forall_mem_cons.mpr ⟨fun heq => ?_, hleast⟩⟩
          exact absurd heq (hlater x hx).ne
      · rintro ⟨rfl | hx, hleast⟩
        · exact .inl rfl
        · exact .inr ⟨hx, fun y hy => hleast y (List.mem_cons_of_mem a hy)⟩

/-- A label survives exactly if it is the least, in the fine order, of those it is
identified with. -/
theorem mem_destutter_iff (hfine : Function.Injective fine)
    (hmono : ∀ a b, fine a ≤ fine b → coarse a ≤ coarse b)
    (hsame : ∀ b ∈ l, ∀ c ∈ l, same b c ↔ coarse b = coarse c)
    (hsorted : l.Pairwise fun a b => fine a ≤ fine b) :
    x ∈ l.destutter (fun a b => ¬same a b) ↔
      x ∈ l ∧ ∀ b ∈ l, coarse b = coarse x → fine x ≤ fine b := by
  cases l with
  | nil => simp
  | cons a l => exact mem_destutter'_iff hfine hmono hsame hsorted

/-- The survivors ascend in the coarse order. -/
theorem pairwise_destutter (hmono : ∀ a b, fine a ≤ fine b → coarse a ≤ coarse b)
    (hsame : ∀ b ∈ l, ∀ c ∈ l, same b c ↔ coarse b = coarse c)
    (hsorted : l.Pairwise fun a b => fine a ≤ fine b) :
    (l.destutter (fun a b => ¬same a b)).Pairwise fun a b => coarse a < coarse b := by
  have hsub := List.destutter_sublist (fun a b => ¬same a b) l
  have hle := (hsorted.sublist hsub).imp fun {a b} hab => hmono a b hab
  have hchain := List.isChain_destutter (fun a b => ¬same a b) l
  have hlt : (l.destutter (fun a b => ¬same a b)).IsChain fun a b => coarse a < coarse b := by
    refine (List.isChain_iff_getElem).mpr fun i hi => ?_
    have hne := List.isChain_iff_getElem.mp hchain i hi
    have hij := List.pairwise_iff_getElem.mp hle i (i + 1) (by omega) hi (by omega)
    refine lt_of_le_of_ne hij fun heq => hne ?_
    exact (hsame _ (hsub.subset (List.getElem_mem _)) _ (hsub.subset (List.getElem_mem _))).mpr heq
  have : IsTrans α fun a b => coarse a < coarse b := ⟨fun _ _ _ => lt_trans⟩
  exact List.isChain_iff_pairwise.mp hlt

end Merge

-- ---------------------------------------------------------------------------
-- First met
-- ---------------------------------------------------------------------------

section FirstMet

variable [DecidableEq α] {l : List α}

/-- `for x in xs { if seen.insert(x) { ids.push(x) } }`. -/
def firstMet (l : List α) : List α := l.foldl (fun met x => if x ∈ met then met else met ++ [x]) []

theorem firstMet_concat (l : List α) (x : α) :
    firstMet (l ++ [x]) = if x ∈ firstMet l then firstMet l else firstMet l ++ [x] := by
  rw [firstMet, List.foldl_append]
  rfl

@[simp] theorem mem_firstMet : x ∈ firstMet l ↔ x ∈ l := by
  induction l using List.reverseRecOn with
  | nil => simp [firstMet]
  | append_singleton l y ih =>
    rw [firstMet_concat]
    split
    · rename_i hy
      simp only [ih, List.mem_append, List.mem_singleton]
      constructor
      · exact .inl
      · rintro (hx | rfl)
        · exact hx
        · exact ih.mp hy
    · simp [ih]

theorem nodup_firstMet (l : List α) : (firstMet l).Nodup := by
  induction l using List.reverseRecOn with
  | nil => exact .nil
  | append_singleton l y ih =>
    rw [firstMet_concat]
    split
    · exact ih
    · rename_i hy
      exact List.nodup_append'.mpr ⟨ih, List.nodup_singleton y, List.disjoint_singleton.mpr hy⟩

end FirstMet

-- ---------------------------------------------------------------------------
-- Scores
-- ---------------------------------------------------------------------------

section Scores

/-- Adding to the score of one class. -/
theorem modify_map [AddZeroClass K] [DecidableEq α] {classes : List α} (hn : classes.Nodup)
    (f : α → K) {i : Nat} {c : α} (hi : classes[i]? = some c) (x : K) :
    (classes.map f).modify i (· + x) = classes.map fun d => f d + if d = c then x else 0 := by
  obtain ⟨hlt, rfl⟩ := List.getElem?_eq_some_iff.mp hi
  refine List.ext_getElem (by simp) fun j hj hj' => ?_
  simp only [List.length_modify, List.length_map] at hj
  rw [List.getElem_modify, List.getElem_map, List.getElem_map]
  by_cases hij : i = j
  · subst hij
    simp
  · have hne : classes[j] ≠ classes[i] := fun heq => hij ((hn.getElem_inj_iff).mp heq).symm
    simp [hij, hne]

/-- An indexed element is found at its own index. -/
theorem idxOf_zipIdx [DecidableEq (K × Nat)] {scores : List K}
    (h : scores[i]? = some x) : scores.zipIdx.idxOf (x, i) = i := by
  obtain ⟨hi, rfl⟩ := List.getElem?_eq_some_iff.mp h
  have hnodup : scores.zipIdx.Nodup := by
    refine List.Nodup.of_map Prod.snd ?_
    rw [List.zipIdx_map_snd]
    exact List.nodup_range'
  have hi' : i < scores.zipIdx.length := by simpa using hi
  have hget : scores.zipIdx[i] = (scores[i], i) := by simp
  rw [← hget, hnodup.idxOf_getElem]

variable [LinearOrder K]

/-- `scores.iter().enumerate().max_by(..)`: the index of the first of the largest scores. -/
def winner (scores : List K) : Option Nat := (scores.zipIdx.argmax Prod.fst).map Prod.snd

theorem winner_isSome {scores : List K} (h : scores ≠ []) : (winner scores).isSome := by
  rw [winner, Option.isSome_map, Option.isSome_iff_ne_none, Ne, List.argmax_eq_none,
    List.zipIdx_eq_nil_iff]
  exact h

/-- The winner's score is the largest, and those before it are smaller. -/
theorem winner_eq_some {scores : List K} (h : winner scores = some i) :
    ∃ x, scores[i]? = some x ∧ ∀ j y, scores[j]? = some y → y ≤ x ∧ (y = x → i ≤ j) := by
  obtain ⟨⟨x, i⟩, hmax, rfl⟩ := Option.map_eq_some_iff.mp h
  obtain ⟨hmem, hle, hfirst⟩ := List.argmax_eq_some_iff.mp hmax
  have hx : scores[i]? = some x := List.mem_zipIdx_iff_getElem?.mp hmem
  refine ⟨x, hx, fun j y hy => ?_⟩
  have hmem' := List.mem_zipIdx_iff_getElem?.mpr (show scores[(y, j).2]? = some (y, j).1 from hy)
  refine ⟨hle (y, j) hmem', fun heq => ?_⟩
  have hle := hfirst (y, j) hmem' heq.ge
  rwa [idxOf_zipIdx hx, idxOf_zipIdx hy] at hle

/-- Of classes in ascending order, with a score each, the winner is the smallest of
the largest score. -/
theorem winner_map {classes : List α} {key : α → ι} [LinearOrder ι] {score : α → K}
    (hsorted : classes.Pairwise fun a b => key a < key b) (h : winner (classes.map score) = some i) :
    ∃ c, classes[i]? = some c ∧
      ∀ d ∈ classes, score d ≤ score c ∧ (score d = score c → key c ≤ key d) := by
  obtain ⟨x, hx, hbest⟩ := winner_eq_some h
  rw [List.getElem?_map] at hx
  obtain ⟨c, hc, rfl⟩ := Option.map_eq_some_iff.mp hx
  refine ⟨c, hc, fun d hd => ?_⟩
  obtain ⟨j, hj, rfl⟩ := List.getElem_of_mem hd
  obtain ⟨hle, hfirst⟩ := hbest j (score classes[j]) (by simp [hj])
  refine ⟨hle, fun heq => ?_⟩
  obtain ⟨hi, rfl⟩ := List.getElem?_eq_some_iff.mp hc
  rcases (hfirst heq).lt_or_eq with hlt | rfl
  · exact (List.pairwise_iff_getElem.mp hsorted i j hi hj hlt).le
  · exact le_rfl

end Scores

end Voting
