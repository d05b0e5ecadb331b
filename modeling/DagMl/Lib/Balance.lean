import Mathlib

/-!
# Even distribution

Two ways of handing out a list. Dealing gives position `p` to part `p % k`: of
any stretch of consecutive positions two parts get as many, up to one. Placing
puts each block whole on a part that is shortest: two parts differ by at most
the largest block, and no part stays empty while blocks are left.
-/

namespace Balance

variable {α : Type} {k i j a n M : Nat} {l : List α}

-- ---------------------------------------------------------------------------
-- Dealing
-- ---------------------------------------------------------------------------

/-- How many of `n` positions from `a` on go to part `i` of `k`. -/
def hits (k i a n : Nat) : Nat := (List.range' a n).countP (· % k = i)

theorem hits_succ : hits k i a (n + 1) = (if a % k = i then 1 else 0) + hits k i (a + 1) n := by
  rw [hits, List.range'_succ, List.countP_cons, hits, Nat.add_comm]
  by_cases h : a % k = i <;> simp [h]

theorem hits_add (m : Nat) : hits k i a (n + m) = hits k i a n + hits k i (a + n) m := by
  rw [hits, ← List.range'_append_1, List.countP_append]
  rfl

theorem hits_zero (hi : i < k) : hits k i 0 n = n / k + if i < n % k then 1 else 0 := by
  have hcount := Nat.count_modEq_card n (Nat.zero_lt_of_lt hi) i
  simp only [Nat.ModEq, Nat.mod_eq_of_lt hi, Nat.count] at hcount
  rw [← hcount, hits, List.range_eq_range']

/-- Two parts get as many positions of a stretch, up to one. -/
theorem hits_le (hi : i < k) (hj : j < k) : hits k i a n ≤ hits k j a n + 1 := by
  have hsplit (i : Nat) := hits_add (k := k) (i := i) (a := 0) (n := a) n
  have hi' := hsplit i
  have hj' := hsplit j
  rw [Nat.zero_add, hits_zero hi, hits_zero hi] at hi'
  rw [Nat.zero_add, hits_zero hj, hits_zero hj] at hj'
  split_ifs at hi' hj' <;> omega

/-- Part `i` of a list dealt from position `a` on. -/
def dealtFrom (a k i : Nat) (l : List α) : List α :=
  (l.zipIdx a).filterMap fun e => if e.2 % k = i then some e.1 else none

theorem length_dealtFrom : (dealtFrom a k i l).length = hits k i a l.length := by
  induction l generalizing a with
  | nil => rfl
  | cons x l ih =>
    rw [List.length_cons, hits_succ, ← ih]
    by_cases h : a % k = i
    · simp [dealtFrom, List.zipIdx_cons, h, Nat.add_comm]
    · simp [dealtFrom, List.zipIdx_cons, h]

theorem sublist_dealtFrom : (dealtFrom a k i l).Sublist l := by
  induction l generalizing a with
  | nil => exact .slnil
  | cons x l ih =>
    by_cases h : a % k = i
    · simpa [dealtFrom, List.zipIdx_cons, h] using ih
    · simpa [dealtFrom, List.zipIdx_cons, h] using ih.cons x

theorem mem_dealtFrom : x ∈ dealtFrom 0 k i l ↔ ∃ p, l[p]? = some x ∧ p % k = i := by
  simp only [dealtFrom, List.mem_filterMap, Prod.exists, List.mk_mem_zipIdx_iff_getElem?,
    Option.ite_none_right_eq_some, Option.some.injEq]
  constructor
  · rintro ⟨y, p, hp, hmod, rfl⟩
    exact ⟨p, hp, hmod⟩
  · rintro ⟨p, hp, hmod⟩
    exact ⟨x, p, hp, hmod, rfl⟩

theorem mem_dealtFrom_of_nodup [DecidableEq α] (hn : l.Nodup) :
    x ∈ dealtFrom 0 k i l ↔ x ∈ l ∧ l.idxOf x % k = i := by
  rw [mem_dealtFrom]
  constructor
  · rintro ⟨p, hp, hmod⟩
    obtain ⟨hlt, rfl⟩ := List.getElem?_eq_some_iff.mp hp
    exact ⟨List.getElem_mem hlt, by rwa [hn.idxOf_getElem]⟩
  · rintro ⟨hx, hmod⟩
    exact ⟨l.idxOf x, List.getElem?_idxOf hx, hmod⟩

/-- Parts that a number below `k` tells apart make up the list. -/
theorem perm_flatMap_range {parts : Nat → List α} (number : α → Nat) (hn : l.Nodup)
    (hparts : ∀ i < k, (parts i).Nodup ∧ ∀ x, x ∈ parts i ↔ x ∈ l ∧ number x = i)
    (hnumber : ∀ x ∈ l, number x < k) : ((List.range k).flatMap parts).Perm l := by
  have hnodup : ((List.range k).flatMap parts).Nodup := by
    rw [List.nodup_flatMap]
    refine ⟨fun i hi => (hparts i (List.mem_range.mp hi)).1, ?_⟩
    refine List.Pairwise.imp_of_mem ?_ List.nodup_range
    intro i j hi hj hne x hxi hxj
    have hxi' := ((hparts i (List.mem_range.mp hi)).2 x).mp hxi
    have hxj' := ((hparts j (List.mem_range.mp hj)).2 x).mp hxj
    exact hne (hxi'.2.symm.trans hxj'.2)
  rw [List.perm_ext_iff_of_nodup hnodup hn]
  intro x
  rw [List.mem_flatMap]
  constructor
  · rintro ⟨i, hi, hx⟩
    exact (((hparts i (List.mem_range.mp hi)).2 x).mp hx).1
  · intro hx
    exact ⟨number x, List.mem_range.mpr (hnumber x hx),
      ((hparts _ (hnumber x hx)).2 x).mpr ⟨hx, rfl⟩⟩

theorem dealtFrom_append {l' : List α} :
    dealtFrom a k i (l ++ l') = dealtFrom a k i l ++ dealtFrom (a + l.length) k i l' := by
  rw [dealtFrom, List.zipIdx_append, List.filterMap_append]
  rfl

/-- What part `i` gets of the members of a property that form a block. -/
theorem countP_dealtFrom_block {p : α → Bool} {before block after : List α}
    (hout : ∀ x ∈ before ++ after, p x = false) (hblock : ∀ x ∈ block, p x = true) :
    (dealtFrom a k i (before ++ block ++ after)).countP p =
      hits k i (a + before.length) block.length := by
  have hnone (l : List α) (b : Nat) (hl : ∀ x ∈ l, p x = false) :
      (dealtFrom b k i l).countP p = 0 := by
    rw [List.countP_eq_zero]
    intro x hx
    simp [hl x (sublist_dealtFrom.subset hx)]
  have hall : (dealtFrom (a + before.length) k i block).countP p =
      (dealtFrom (a + before.length) k i block).length := by
    rw [List.countP_eq_length]
    exact fun x hx => hblock x (sublist_dealtFrom.subset hx)
  rw [dealtFrom_append, dealtFrom_append, List.countP_append, List.countP_append, hall,
    length_dealtFrom, hnone _ _ fun x hx => hout x (List.mem_append_left _ hx),
    hnone _ _ fun x hx => hout x (List.mem_append_right _ hx), Nat.zero_add, Nat.add_zero]

-- ---------------------------------------------------------------------------
-- Placing blocks
-- ---------------------------------------------------------------------------

variable {parts parts' : List (List α)} {part block : List α}

theorem exists_split_of_getElem? (h : parts[i]? = some part) :
    ∃ before after, parts = before ++ part :: after ∧ before.length = i := by
  obtain ⟨hi, rfl⟩ := List.getElem?_eq_some_iff.mp h
  exact ⟨parts.take i, parts.drop (i + 1), by simp, by simp [hi.le]⟩

theorem modify_split {f : α → α} {before after : List α} {x : α} :
    (before ++ x :: after).modify before.length f = before ++ f x :: after := by
  induction before with
  | nil => rfl
  | cons y before ih => simp [ih]

/-- The parts after some blocks have been placed on `k` of them. -/
structure Placed (k M : Nat) (blocks parts : List (List α)) : Prop where
  length : parts.length = k
  perm : parts.flatten.Perm blocks.flatten
  whole : ∀ block ∈ blocks, ∃ part ∈ parts, block ⊆ part
  balanced : ∀ part ∈ parts, ∀ other ∈ parts, part.length ≤ other.length + M
  filled : parts.countP (·.isEmpty) + blocks.length ≤ k ∨ parts.countP (·.isEmpty) = 0

theorem Placed.start (k M : Nat) : Placed k M [] (List.replicate k ([] : List α)) where
  length := List.length_replicate
  perm := by simp
  whole := by simp
  balanced := by
    intro part hpart other hother
    rw [List.eq_of_mem_replicate hpart, List.eq_of_mem_replicate hother]
    simp
  filled := by
    have hle := List.countP_le_length (p := List.isEmpty) (l := List.replicate k ([] : List α))
    rw [List.length_replicate] at hle
    exact .inl hle

/-- One more block, on a part that no other is shorter than. -/
theorem Placed.place {blocks : List (List α)} (h : Placed k M blocks parts)
    (hpart : parts[i]? = some part) (hleast : ∀ other ∈ parts, part.length ≤ other.length)
    (hne : block ≠ []) (hM : block.length ≤ M) :
    Placed k M (blocks ++ [block]) (parts.modify i (· ++ block)) := by
  obtain ⟨before, after, rfl, rfl⟩ := exists_split_of_getElem? hpart
  rw [modify_split]
  have hother (other : List α) (hmem : other ∈ before ++ after) :
      other ∈ before ++ part :: after := by
    rcases List.mem_append.mp hmem with hmem | hmem
    · exact List.mem_append_left _ hmem
    · exact List.mem_append_right _ (List.mem_cons_of_mem part hmem)
  have hcases (q : List α) (hq : q ∈ before ++ (part ++ block) :: after) :
      q = part ++ block ∨ q ∈ before ++ after := by
    rcases List.mem_append.mp hq with hq | hq
    · exact .inr (List.mem_append_left _ hq)
    · rcases List.mem_cons.mp hq with rfl | hq
      · exact .inl rfl
      · exact .inr (List.mem_append_right _ hq)
  refine ⟨?_, ?_, ?_, ?_, ?_⟩
  · rw [← h.length]
    simp
  · have hflat : (blocks ++ [block]).flatten = blocks.flatten ++ block := by simp
    rw [hflat]
    refine .trans ?_ (h.perm.append_right block)
    rw [List.flatten_append, List.flatten_append, List.flatten_cons, List.flatten_cons]
    simp only [List.append_assoc]
    exact (List.perm_append_comm.append_left part).append_left _
  · intro b hb
    rcases List.mem_append.mp hb with hb | hb
    · obtain ⟨q, hq, hsub⟩ := h.whole b hb
      rcases List.mem_append.mp hq with hq | hq
      · exact ⟨q, List.mem_append_left _ hq, hsub⟩
      · rcases List.mem_cons.mp hq with rfl | hq
        · exact ⟨q ++ block, by simp, List.subset_append_of_subset_left block hsub⟩
        · exact ⟨q, List.mem_append_right _ (List.mem_cons_of_mem _ hq), hsub⟩
    · rw [List.mem_singleton] at hb
      exact ⟨part ++ block, by simp, hb ▸ List.subset_append_right part block⟩
  · intro p hp q hq
    rcases hcases p hp with rfl | hp <;> rcases hcases q hq with rfl | hq
    · exact Nat.le_add_right _ _
    · have hq' := hleast q (hother q hq)
      rw [List.length_append]
      omega
    · have hp' := h.balanced p (hother p hp) part (by simp)
      rw [List.length_append]
      omega
    · exact h.balanced p (hother p hp) q (hother q hq)
  · -- an empty part, if there is one, is shortest, and is the one that is filled
    have hfilled := h.filled
    have hblock : (part ++ block).isEmpty = false := by simp [hne]
    simp only [List.countP_append, List.countP_cons, List.length_append, List.length_singleton,
      hblock, Bool.false_eq_true, if_false] at hfilled ⊢
    cases hempty : part.isEmpty with
    | true =>
      simp only [hempty, if_true] at hfilled
      omega
    | false =>
      right
      have hnone : ∀ q ∈ before ++ after, ¬q.isEmpty = true := by
        intro q hq hqe
        have hlen := hleast q (hother q hq)
        rw [List.isEmpty_iff] at hqe
        rw [hqe, List.length_nil, Nat.le_zero, List.length_eq_zero_iff] at hlen
        rw [hlen] at hempty
        cases hempty
      rw [List.forall_mem_append] at hnone
      simp [List.countP_eq_zero.mpr hnone.1, List.countP_eq_zero.mpr hnone.2]

/-- A part that has a member of a block has all of it. -/
theorem Placed.closed {blocks : List (List α)} (h : Placed k M blocks parts)
    (hn : blocks.flatten.Nodup) (hpart : part ∈ parts) (hblock : block ∈ blocks) (hx : x ∈ part)
    (hx' : x ∈ block) : block ⊆ part := by
  obtain ⟨other, hother, hsub⟩ := h.whole block hblock
  have hflat : parts.flatten.Nodup := h.perm.nodup_iff.mpr hn
  have hdisjoint := (List.nodup_flatten.mp hflat).2
  have heq : part = other := by
    by_contra hne
    have : Std.Symm (List.Disjoint (α := α)) := ⟨fun _ _ h => h.symm⟩
    exact hdisjoint.forall hpart hother hne hx (hsub hx')
  exact heq ▸ hsub

/-- With as many blocks as parts no part is empty. -/
theorem Placed.ne_nil {blocks : List (List α)} (h : Placed k M blocks parts)
    (hk : k ≤ blocks.length) (hpart : part ∈ parts) : part ≠ [] := by
  have hzero : parts.countP (·.isEmpty) = 0 := by
    rcases h.filled with hle | hzero
    · omega
    · exact hzero
  simpa using List.countP_eq_zero.mp hzero part hpart

end Balance
