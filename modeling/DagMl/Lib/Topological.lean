import Mathlib
import DagMl.Lib.Collections

/-!
# Topological orders

A finite graph given by its nodes and a list of arcs, in which an arc may be
listed several times. A run that always takes the least ready node lists the
lexicographically least order; a run that takes all ready nodes at once lists
the layers by longest path; both stop short exactly on a cycle.
-/

namespace Topological

variable {α : Type} [LinearOrder α] {arcs : List (α × α)} {nodes done : Finset α}
  {batch order other pre post : List α} {levels : List (List α)}

-- ---------------------------------------------------------------------------
-- Ready nodes
-- ---------------------------------------------------------------------------

/-- The number of arcs into `v` whose source is not done. -/
def pending (arcs : List (α × α)) (done : Finset α) (v : α) : Nat :=
  arcs.countP fun a => a.2 = v ∧ a.1 ∉ done

/-- The ends of the arcs out of `u`. -/
def targets (arcs : List (α × α)) (u : α) : List α := (arcs.filter (·.1 = u)).map (·.2)

/-- The nodes whose predecessors are all done. -/
def ready (arcs : List (α × α)) (nodes done : Finset α) : Finset α :=
  (nodes \ done).filter fun v => pending arcs done v = 0

/-- What is done has only predecessors that are done. -/
def Closed (arcs : List (α × α)) (done : Finset α) : Prop :=
  ∀ u v, (u, v) ∈ arcs → v ∈ done → u ∈ done

theorem mem_targets : v ∈ targets arcs u ↔ (u, v) ∈ arcs := by
  simp only [targets, List.mem_map, List.mem_filter, decide_eq_true_eq]
  constructor
  · rintro ⟨⟨a, b⟩, ⟨hm, rfl⟩, rfl⟩
    exact hm
  · intro h
    exact ⟨(u, v), ⟨h, rfl⟩, rfl⟩

theorem pending_eq_zero : pending arcs done v = 0 ↔ ∀ u, (u, v) ∈ arcs → u ∈ done := by
  simp only [pending, List.countP_eq_zero, decide_eq_true_eq, not_and, not_not]
  constructor
  · intro h u hm
    exact h (u, v) hm rfl
  · rintro h ⟨a, b⟩ hm rfl
    exact h a hm

theorem mem_ready :
    v ∈ ready arcs nodes done ↔ v ∈ nodes ∧ v ∉ done ∧ ∀ u, (u, v) ∈ arcs → u ∈ done := by
  rw [ready, Finset.mem_filter, Finset.mem_sdiff, pending_eq_zero, and_assoc]

theorem targets_append_singleton :
    targets (arcs ++ [a]) u = targets arcs u ++ if a.1 = u then [a.2] else [] := by
  by_cases ha : a.1 = u <;> simp [targets, ha]

theorem pending_append_singleton : pending (arcs ++ [a]) done v =
    pending arcs done v + if a.2 = v ∧ a.1 ∉ done then 1 else 0 := by
  simp [pending]

theorem pending_insert (hu : u ∉ done) (v : α) :
    pending arcs (insert u done) v + (targets arcs u).count v = pending arcs done v := by
  induction arcs with
  | nil => rfl
  | cons a arcs ih =>
    have hcount : (targets (a :: arcs) u).count v =
        (targets arcs u).count v + if a.1 = u ∧ a.2 = v then 1 else 0 := by
      by_cases ha : a.1 = u <;> by_cases hv : a.2 = v <;> simp [targets, ha, hv]
    rw [hcount]
    simp only [pending, List.countP_cons, Finset.mem_insert, not_or, decide_eq_true_eq] at ih ⊢
    by_cases hv : a.2 = v
    · by_cases ha : a.1 = u
      · simp only [ha, hu, hv, not_true_eq_false, and_false, not_false_eq_true, and_true,
          if_true, if_false]
        omega
      · by_cases hd : a.1 ∈ done
        · simp only [ha, hd, hv, not_true_eq_false, and_false, false_and, if_false]
          omega
        · simp only [ha, hd, hv, not_false_eq_true, and_true, if_true, if_false]
          omega
    · simp only [hv, false_and, and_false, if_false]
      omega

/-- Taking a batch of nodes off accounts for the arcs out of it. -/
theorem pending_union (hn : batch.Nodup) (hd : ∀ u ∈ batch, u ∉ done) (v : α) :
    pending arcs (done ∪ batch.toFinset) v + (batch.flatMap (targets arcs)).count v =
      pending arcs done v := by
  induction batch generalizing done with
  | nil => simp
  | cons u us ih =>
    obtain ⟨hu, hus⟩ := List.nodup_cons.mp hn
    rw [List.forall_mem_cons] at hd
    have hunion : done ∪ (u :: us).toFinset = insert u done ∪ us.toFinset := by
      ext x
      simp
    have hnew : ∀ x ∈ us, x ∉ insert u done := by
      intro x hx
      rw [Finset.mem_insert, not_or]
      exact ⟨fun he => hu (he ▸ hx), hd.2 x hx⟩
    have hrest := ih hus hnew
    rw [hunion, List.flatMap_cons, List.count_append]
    have hfirst : pending arcs (insert u done) v + _ = _ := pending_insert hd.1 v
    omega

theorem Closed.union (hc : Closed arcs done) (hb : ∀ u ∈ batch, u ∈ ready arcs nodes done) :
    Closed arcs (done ∪ batch.toFinset) := by
  intro u v ha hv
  rw [Finset.mem_union] at hv ⊢
  left
  rcases hv with hv | hv
  · exact hc u v ha hv
  · exact (mem_ready.mp (hb v (List.mem_toFinset.mp hv))).2.2 u ha

/-- Who is ready after a batch: who was, less the batch, and the ends of its
arcs that wait for nothing more. -/
theorem ready_union (harcs : ∀ a ∈ arcs, a.2 ∈ nodes) (hc : Closed arcs done)
    (hb : ∀ u ∈ batch, u ∈ ready arcs nodes done) :
    ready arcs nodes (done ∪ batch.toFinset) = (ready arcs nodes done \ batch.toFinset) ∪
      (batch.flatMap (targets arcs)).toFinset.filter
        fun v => pending arcs (done ∪ batch.toFinset) v = 0 := by
  have hnew (u : α) (hu : u ∈ batch) : u ∉ done := (mem_ready.mp (hb u hu)).2.1
  ext v
  simp only [Finset.mem_union, Finset.mem_sdiff, Finset.mem_filter, List.mem_toFinset,
    List.mem_flatMap, mem_targets]
  constructor
  · intro hv
    obtain ⟨hvn, hvd, hpred⟩ := mem_ready.mp hv
    rw [Finset.mem_union, not_or, List.mem_toFinset] at hvd
    by_cases hin : ∃ u ∈ batch, (u, v) ∈ arcs
    · exact .inr ⟨hin, pending_eq_zero.mpr hpred⟩
    · refine .inl ⟨mem_ready.mpr ⟨hvn, hvd.1, fun u ha => ?_⟩, hvd.2⟩
      rcases Finset.mem_union.mp (hpred u ha) with hu | hu
      · exact hu
      · exact absurd ⟨u, List.mem_toFinset.mp hu, ha⟩ hin
  · rintro (⟨hv, hvb⟩ | ⟨⟨u, hu, ha⟩, hp⟩)
    · obtain ⟨hvn, hvd, hpred⟩ := mem_ready.mp hv
      refine mem_ready.mpr ⟨hvn, ?_, fun u ha => Finset.mem_union_left _ (hpred u ha)⟩
      rw [Finset.mem_union, not_or, List.mem_toFinset]
      exact ⟨hvd, hvb⟩
    · refine mem_ready.mpr ⟨harcs _ ha, ?_, pending_eq_zero.mp hp⟩
      rw [Finset.mem_union, List.mem_toFinset]
      rintro (hvd | hvb)
      · exact hnew u hu (hc u v ha hvd)
      · exact hnew u hu ((mem_ready.mp (hb v hvb)).2.2 u ha)

-- ---------------------------------------------------------------------------
-- Cycles
-- ---------------------------------------------------------------------------

def HasCycle (arcs : List (α × α)) : Prop :=
  ∃ v, Relation.TransGen (fun a b => (a, b) ∈ arcs) v v

/-- Nodes are left and none is ready: going backwards never ends. -/
theorem hasCycle_of_stuck (harcs : ∀ a ∈ arcs, a.1 ∈ nodes) (hleft : ¬nodes ⊆ done)
    (hstuck : ready arcs nodes done = ∅) : HasCycle arcs := by
  obtain ⟨w, hw, hwd⟩ := Finset.not_subset.mp hleft
  have hback (v : {x // x ∈ nodes \ done}) : ∃ u : {x // x ∈ nodes \ done}, (u.1, v.1) ∈ arcs := by
    obtain ⟨v, hv⟩ := v
    rw [Finset.mem_sdiff] at hv
    have hnot : v ∉ ready arcs nodes done := hstuck ▸ Finset.notMem_empty v
    simp only [mem_ready, hv, not_false_eq_true, true_and, not_forall] at hnot
    obtain ⟨u, ha, hu⟩ := hnot
    exact ⟨⟨u, Finset.mem_sdiff.mpr ⟨harcs _ ha, hu⟩⟩, ha⟩
  by_contra hacyclic
  let r (a b : {x // x ∈ nodes \ done}) : Prop :=
    Relation.TransGen (fun a b => (a, b) ∈ arcs) a.1 b.1
  have htrans : IsTrans _ r := ⟨fun _ _ _ => Relation.TransGen.trans⟩
  have hirrefl : Std.Irrefl r := ⟨fun a h => hacyclic ⟨a.1, h⟩⟩
  have hwf : WellFounded r := Finite.wellFounded_of_trans_of_irrefl r
  obtain ⟨m, -, hmin⟩ := hwf.has_min Set.univ ⟨⟨w, Finset.mem_sdiff.mpr ⟨hw, hwd⟩⟩, trivial⟩
  obtain ⟨u, ha⟩ := hback m
  exact hmin u trivial (.single ha)

-- ---------------------------------------------------------------------------
-- Orders
-- ---------------------------------------------------------------------------

/-- Every node once, and the source of an arc before its target. -/
structure IsOrder (arcs : List (α × α)) (nodes : Finset α) (order : List α) : Prop where
  nodup : order.Nodup
  mem : ∀ v, v ∈ order ↔ v ∈ nodes
  before : ∀ a ∈ arcs, order.idxOf a.1 < order.idxOf a.2

theorem IsOrder.not_hasCycle (h : IsOrder arcs nodes order) : ¬HasCycle arcs := by
  rintro ⟨v, hv⟩
  have hlt (a b : α) (hab : Relation.TransGen (fun a b => (a, b) ∈ arcs) a b) :
      order.idxOf a < order.idxOf b := by
    induction hab with
    | single ha => exact h.before _ ha
    | tail _ ha ih => exact ih.trans (h.before _ ha)
  exact lt_irrefl _ (hlt v v hv)

/-- What precedes a node in an order contains its predecessors. -/
theorem IsOrder.ready_of_split (h : IsOrder arcs nodes (pre ++ v :: post)) :
    v ∈ ready arcs nodes pre.toFinset := by
  have hnew : v ∉ pre := fun hm =>
    (List.nodup_append.mp h.nodup).2.2 v hm v (by simp) rfl
  refine mem_ready.mpr ⟨(h.mem v).mp (by simp), by simpa using hnew, fun u ha => ?_⟩
  have hlt := h.before _ ha
  rw [List.idxOf_append_of_notMem hnew, List.idxOf_cons_self, Nat.add_zero] at hlt
  by_contra hu
  rw [List.mem_toFinset] at hu
  rw [List.idxOf_append_of_notMem hu] at hlt
  omega

/-- Each node is the least of those that were ready. -/
def Greedy (arcs : List (α × α)) (nodes : Finset α) (order : List α) : Prop :=
  ∀ i v, order[i]? = some v → v ∈ ready arcs nodes (order.take i).toFinset ∧
    ∀ w ∈ ready arcs nodes (order.take i).toFinset, v ≤ w

theorem Greedy.nil : Greedy arcs nodes ([] : List α) := by
  intro i v h
  simp at h

theorem Greedy.append (h : Greedy arcs nodes order) (hv : v ∈ ready arcs nodes order.toFinset)
    (hmin : ∀ w ∈ ready arcs nodes order.toFinset, v ≤ w) :
    Greedy arcs nodes (order ++ [v]) := by
  intro i w hw
  by_cases hi : i < order.length
  · rw [List.getElem?_append_left hi] at hw
    rw [List.take_append_of_le_length hi.le]
    exact h i w hw
  · obtain ⟨hlt, hget⟩ := List.getElem?_eq_some_iff.mp hw
    have hi' : i = order.length := by
      rw [List.length_append, List.length_singleton] at hlt
      omega
    subst hi'
    have hwv : w = v := by simpa using hget.symm
    rw [hwv, List.take_left']
    · exact ⟨hv, hmin⟩
    · rfl

theorem Greedy.isOrder (h : Greedy arcs nodes order) (harcs : ∀ a ∈ arcs, a.2 ∈ nodes)
    (hn : order.Nodup) (hall : nodes ⊆ order.toFinset) : IsOrder arcs nodes order where
  nodup := hn
  mem v := by
    constructor
    · intro hv
      obtain ⟨i, hi⟩ := List.getElem?_of_mem hv
      exact (mem_ready.mp (h i v hi).1).1
    · exact fun hv => List.mem_toFinset.mp (hall hv)
  before a ha := by
    have hv : a.2 ∈ order := List.mem_toFinset.mp (hall (harcs a ha))
    have hlt : order.idxOf a.2 < order.length := List.idxOf_lt_length_iff.mpr hv
    have hget : order[order.idxOf a.2]? = some a.2 := by
      rw [List.getElem?_eq_some_iff]
      exact ⟨hlt, List.getElem_idxOf hlt⟩
    have hpred := (mem_ready.mp (h _ _ hget).1).2.2 a.1 ha
    rw [List.mem_toFinset] at hpred
    obtain ⟨j, hj⟩ := List.getElem?_of_mem hpred
    obtain ⟨hjt, hju⟩ := List.getElem?_eq_some_iff.mp hj
    rw [List.length_take] at hjt
    rw [List.getElem_take] at hju
    rw [← hju, hn.idxOf_getElem]
    omega

/-- A greedy order is the lexicographically least one. -/
theorem Greedy.le (h : Greedy arcs nodes order) (ho : IsOrder arcs nodes order)
    (ho' : IsOrder arcs nodes other) : order = other ∨ order < other := by
  -- Along a common prefix both continue with a ready node, `order` with the least.
  have general (s s' pre : List α) (hs : order = pre ++ s) (hs' : other = pre ++ s') :
      s = s' ∨ s < s' := by
    induction s generalizing pre s' with
    | nil =>
      cases s' with
      | nil => exact .inl rfl
      | cons w t =>
        have hw : w ∈ pre := by
          rw [← List.append_nil pre, ← hs, ho.mem, ← ho'.mem, hs']
          simp
        rw [hs'] at ho'
        exact absurd rfl ((List.nodup_append.mp ho'.nodup).2.2 w hw w (by simp))
    | cons v t ih =>
      cases s' with
      | nil =>
        have hv : v ∈ pre := by
          rw [← List.append_nil pre, ← hs', ho'.mem, ← ho.mem, hs]
          simp
        rw [hs] at ho
        exact absurd rfl ((List.nodup_append.mp ho.nodup).2.2 v hv v (by simp))
      | cons w t' =>
        have hget : order[pre.length]? = some v := by simp [hs]
        have htake : order.take pre.length = pre := by simp [hs]
        have hw := (hs' ▸ ho').ready_of_split
        have hle : v ≤ w := (h _ _ hget).2 w (htake.symm ▸ hw)
        rcases hle.lt_or_eq with hlt | rfl
        · exact .inr (List.cons_lt_cons_iff.mpr (.inl hlt))
        · rcases ih t' (pre ++ [v]) (by simpa using hs) (by simpa using hs') with heq | hlt
          · exact .inl (heq ▸ rfl)
          · exact .inr (List.cons_lt_cons_iff.mpr (.inr ⟨rfl, hlt⟩))
  exact general order other [] rfl rfl

-- ---------------------------------------------------------------------------
-- Layers
-- ---------------------------------------------------------------------------

/-- A path of `n` arcs that ends at a node. -/
inductive PathTo (arcs : List (α × α)) : Nat → α → Prop
  | here (v : α) : PathTo arcs 0 v
  | arc (h : PathTo arcs n u) (ha : (u, v) ∈ arcs) : PathTo arcs (n + 1) v

/-- Each layer lists the nodes that the earlier layers make ready. -/
def Layered (arcs : List (α × α)) (nodes : Finset α) (levels : List (List α)) : Prop :=
  ∀ i level, levels[i]? = some level → level ≠ [] ∧
    level = ascending (ready arcs nodes (levels.take i).flatten.toFinset)

theorem Layered.nil : Layered arcs nodes ([] : List (List α)) := by
  intro i level h
  simp at h

theorem Layered.append (h : Layered arcs nodes levels)
    (hne : ready arcs nodes levels.flatten.toFinset ≠ ∅) :
    Layered arcs nodes (levels ++ [ascending (ready arcs nodes levels.flatten.toFinset)]) := by
  intro i level hl
  by_cases hi : i < levels.length
  · rw [List.getElem?_append_left hi] at hl
    rw [List.take_append_of_le_length hi.le]
    exact h i level hl
  · obtain ⟨hlt, hget⟩ := List.getElem?_eq_some_iff.mp hl
    have hi' : i = levels.length := by
      rw [List.length_append, List.length_singleton] at hlt
      omega
    subst hi'
    have hlevel : level = ascending (ready arcs nodes levels.flatten.toFinset) := by
      simpa using hget.symm
    rw [List.take_left' rfl]
    refine ⟨?_, hlevel⟩
    rw [hlevel]
    intro hnil
    refine hne ?_
    rw [← toFinset_ascending (ready arcs nodes levels.flatten.toFinset), hnil]
    rfl

theorem Layered.mem_level (h : Layered arcs nodes levels) (hl : levels[i]? = some level) :
    v ∈ level ↔ v ∈ nodes ∧ v ∉ (levels.take i).flatten ∧
      ∀ u, (u, v) ∈ arcs → u ∈ (levels.take i).flatten := by
  rw [(h i level hl).2, mem_ascending, mem_ready]
  simp only [List.mem_toFinset]

theorem Layered.path_le (h : Layered arcs nodes levels) (hp : PathTo arcs n v)
    (hl : levels[i]? = some level) (hv : v ∈ level) : n ≤ i := by
  induction hp generalizing i level with
  | here v => exact Nat.zero_le i
  | arc _ ha ih =>
    have hu := ((h.mem_level hl).mp hv).2.2 _ ha
    obtain ⟨l, hlm, hul⟩ := List.mem_flatten.mp hu
    obtain ⟨j, hj⟩ := List.getElem?_of_mem hlm
    obtain ⟨hjt, hjl⟩ := List.getElem?_eq_some_iff.mp hj
    rw [List.length_take] at hjt
    rw [List.getElem?_take_of_lt (by omega)] at hj
    have hle := ih hj hul
    omega

theorem Layered.exists_path (h : Layered arcs nodes levels) (hl : levels[i]? = some level)
    (hv : v ∈ level) : PathTo arcs i v := by
  induction i generalizing level v with
  | zero => exact .here v
  | succ i ih =>
    obtain ⟨hlt, -⟩ := List.getElem?_eq_some_iff.mp hl
    have hprev : levels[i]? = some levels[i] := List.getElem?_eq_getElem (by omega)
    have htake : (levels.take (i + 1)).flatten = (levels.take i).flatten ++ levels[i] := by
      rw [List.take_add_one, hprev, Option.toList_some, List.flatten_append, List.flatten_singleton]
    obtain ⟨hvn, hvnew, hpred⟩ := (h.mem_level hl).mp hv
    rw [htake, List.mem_append, not_or] at hvnew
    -- Some predecessor was not there one layer earlier, or `v` would have been ready.
    have hlate : ∃ u, (u, v) ∈ arcs ∧ u ∉ (levels.take i).flatten := by
      by_contra hno
      refine hvnew.2 ((h.mem_level hprev).mpr ⟨hvn, hvnew.1, fun u ha => ?_⟩)
      by_contra hu
      exact hno ⟨u, ha, hu⟩
    obtain ⟨u, ha, hu⟩ := hlate
    have hmem := hpred u ha
    rw [htake, List.mem_append] at hmem
    exact .arc (ih hprev (hmem.resolve_left hu)) ha

/-- The layer of a node is the length of the longest path to it. -/
theorem Layered.isGreatest (h : Layered arcs nodes levels) (hl : levels[i]? = some level)
    (hv : v ∈ level) : IsGreatest {n | PathTo arcs n v} i :=
  ⟨h.exists_path hl hv, fun _ hp => h.path_le hp hl hv⟩

/-- Every node in one sorted layer, at the length of the longest path to it, so
that every arc goes to a later layer. -/
structure IsLeveling (arcs : List (α × α)) (nodes : Finset α) (levels : List (List α)) : Prop where
  nonempty : ∀ level ∈ levels, level ≠ []
  sorted : ∀ level ∈ levels, level.Pairwise (· < ·)
  nodup : levels.flatten.Nodup
  mem : ∀ v, v ∈ levels.flatten ↔ v ∈ nodes
  depth : ∀ (i : Nat) level, levels[i]? = some level → ∀ v ∈ level, IsGreatest {n | PathTo arcs n v} i
  later : ∀ a ∈ arcs, ∀ (i : Nat) level, levels[i]? = some level → a.1 ∈ level →
    ∀ (j : Nat) level', levels[j]? = some level' → a.2 ∈ level' → i < j

theorem Layered.isLeveling (h : Layered arcs nodes levels) (hn : levels.flatten.Nodup)
    (hall : levels.flatten.toFinset = nodes) : IsLeveling arcs nodes levels where
  nonempty level hl := by
    obtain ⟨i, hi⟩ := List.getElem?_of_mem hl
    exact (h i level hi).1
  sorted level hl := by
    obtain ⟨i, hi⟩ := List.getElem?_of_mem hl
    rw [(h i level hi).2]
    exact ascending_lt _
  nodup := hn
  mem v := by rw [← hall, List.mem_toFinset]
  depth i level hi v hv := h.isGreatest hi hv
  later a ha i level hi hu j level' hj hv := h.path_le (.arc (h.exists_path hi hu) ha) hj hv

/-- Layers that leave nothing out are the only ones. -/
theorem Layered.unique {levels' : List (List α)} (h : Layered arcs nodes levels)
    (h' : Layered arcs nodes levels') (hall : nodes ⊆ levels.flatten.toFinset)
    (hall' : nodes ⊆ levels'.flatten.toFinset) : levels = levels' := by
  -- A layer after the whole graph would be empty.
  have stop {a b : List (List α)} {i : Nat} (hb : Layered arcs nodes b)
      (ha : nodes ⊆ a.flatten.toFinset) (htake : a.take i = b.take i) (hend : a[i]? = none) :
      b[i]? = none := by
    cases hget : b[i]? with
    | none => rfl
    | some level =>
      rw [List.getElem?_eq_none_iff] at hend
      obtain ⟨hne, hlevel⟩ := hb i level hget
      have hempty : ready arcs nodes (b.take i).flatten.toFinset = ∅ := by
        rw [← htake, List.take_of_length_le hend, ready, Finset.sdiff_eq_empty_iff_subset.mpr ha,
          Finset.filter_empty]
      rw [hempty] at hlevel
      exact absurd hlevel hne
  have htake (i : Nat) : levels.take i = levels'.take i := by
    induction i with
    | zero => rfl
    | succ i ih =>
      rw [List.take_add_one, List.take_add_one, ih]
      congr 2
      cases hl : levels[i]? with
      | none => exact (stop h' hall ih hl).symm
      | some level =>
        cases hl' : levels'[i]? with
        | none => exact hl.symm.trans (stop h hall' ih.symm hl')
        | some level' => rw [(h i level hl).2, (h' i level' hl').2, ih]
  have heq := htake (levels.length + levels'.length)
  rwa [List.take_of_length_le (by omega), List.take_of_length_le (by omega)] at heq

-- ---------------------------------------------------------------------------
-- Reordered arcs
-- ---------------------------------------------------------------------------

variable {arcs' : List (α × α)}

theorem ready_congr (h : ∀ a, a ∈ arcs ↔ a ∈ arcs') :
    ready arcs nodes done = ready arcs' nodes done := by
  ext v
  simp only [mem_ready, h]

theorem Greedy.congr (h : ∀ a, a ∈ arcs ↔ a ∈ arcs') (hg : Greedy arcs nodes order) :
    Greedy arcs' nodes order := by
  intro i v hv
  rw [← ready_congr h]
  exact hg i v hv

theorem IsOrder.congr (h : ∀ a, a ∈ arcs ↔ a ∈ arcs') (ho : IsOrder arcs nodes order) :
    IsOrder arcs' nodes order where
  nodup := ho.nodup
  mem := ho.mem
  before a ha := ho.before a ((h a).mpr ha)

theorem Layered.congr (h : ∀ a, a ∈ arcs ↔ a ∈ arcs') (hl : Layered arcs nodes levels) :
    Layered arcs' nodes levels := by
  intro i level hi
  rw [← ready_congr h]
  exact hl i level hi

theorem Greedy.unique (h : Greedy arcs nodes order) (ho : IsOrder arcs nodes order)
    (h' : Greedy arcs nodes other) (ho' : IsOrder arcs nodes other) : order = other := by
  rcases h.le ho ho' with heq | hlt
  · exact heq
  · rcases h'.le ho' ho with heq | hgt
    · exact heq.symm
    · exact absurd hgt (List.lt_asymm hlt)

end Topological
