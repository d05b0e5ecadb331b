import Mathlib
import DagMl.Graph.Spec
import DagMl.Lib.Topological

/-!
# Topological order and levels

The two loops that take ready nodes off a graph: one node at a time, and one
level at a time. Both lower in-degrees arc by arc, a repeated arc as often as
it is listed, and put a node in the queue when its degree reaches zero.
-/

namespace DagMl

open Checked Topological

/-- The in-degrees still open, and the nodes that can be taken. -/
structure Frontier where
  indegree : BTreeMap NodeId Nat
  queue : Finset NodeId

/-- One turn of the loop over the arcs of a node. -/
def Frontier.lower (self : Frontier) (next : NodeId) : Result Frontier := do
  let degree ← need self.indegree[next]? (.panicked "node exists")
  refuseIf (degree = 0) (.panicked "attempt to subtract with overflow")
  pure {
    indegree := self.indegree.insert next (degree - 1)
    queue := if degree - 1 = 0 then insert next self.queue else self.queue }

/-- The nodes without an inbound arc. -/
def Frontier.start (indegree : BTreeMap NodeId Nat) : Frontier where
  indegree := indegree
  queue := (indegree.keys.filter fun id => indegree[id]? = some 0).toFinset

/-- `pop_first`. -/
def popFirst (queue : Finset NodeId) : Option (NodeId × Finset NodeId) :=
  if h : queue.Nonempty then some (queue.min' h, queue.erase (queue.min' h)) else none

def cycleError : DagMlError := .graphValidation "graph contains at least one cycle"

/-- The check behind both loops: whether every node was taken. -/
def complete (visited : Nat) (indegree : BTreeMap NodeId Nat) (result : α) : Result α :=
  if visited = indegree.size then .ok result else .error cycleError

/-- The `while let` loop. The fuel bounds the number of turns. -/
def orderLoop (adjacency : BTreeMap NodeId (List NodeId)) (fuel : Nat) (order : List NodeId)
    (s : Frontier) : Result (List NodeId) :=
  match popFirst s.queue, fuel with
  | none, _ => .ok order
  | some _, 0 => .error (.panicked "out of fuel")
  | some (node, queue), fuel + 1 => do
    let s ← loop Frontier.lower ⟨s.indegree, queue⟩ (adjacency[node]?.getD [])
    orderLoop adjacency fuel (order ++ [node]) s

def topologicalOrder (maps : ArcMaps) : Result (List NodeId) := do
  let order ← orderLoop maps.adjacency maps.indegree.size [] (.start maps.indegree)
  complete order.length maps.indegree order

def ensureAcyclic (maps : ArcMaps) : Result Unit := do
  let _ ← topologicalOrder maps
  pure ()

/-- The `while` loop over whole queues. -/
def levelLoop (adjacency : BTreeMap NodeId (List NodeId)) (fuel : Nat) (levels : List (List NodeId))
    (s : Frontier) : Result (List (List NodeId)) :=
  match ascending s.queue, fuel with
  | [], _ => .ok levels
  | _ :: _, 0 => .error (.panicked "out of fuel")
  | level@(_ :: _), fuel + 1 => do
    let s ← loop (fun s node => loop Frontier.lower s (adjacency[node]?.getD []))
      ⟨s.indegree, ∅⟩ level
    levelLoop adjacency fuel (levels ++ [level]) s

def topologicalLevels (maps : ArcMaps) : Result (List (List NodeId)) := do
  let levels ← levelLoop maps.adjacency maps.indegree.size [] (.start maps.indegree)
  complete levels.flatten.length maps.indegree levels

-- ---------------------------------------------------------------------------
-- The inner loop
-- ---------------------------------------------------------------------------

/-- What a list of arc ends does: each end is counted off as often as it is
listed, and those that reach zero join the queue. -/
theorem lower_loop (s : Frontier) (ends : List NodeId)
    (h : ∀ v ∈ ends, ∃ d, s.indegree[v]? = some d ∧ ends.count v ≤ d) :
    ∃ s', loop Frontier.lower s ends = .ok s' ∧
      (∀ v : NodeId, s'.indegree[v]? = s.indegree[v]?.map (· - ends.count v)) ∧
      s'.queue = s.queue ∪ ends.toFinset.filter fun v => s'.indegree[v]? = some 0 := by
  induction ends generalizing s with
  | nil => exact ⟨s, rfl, by simp, by simp⟩
  | cons x xs ih =>
    obtain ⟨d, hd, hle⟩ := h x List.mem_cons_self
    rw [List.count_cons_self] at hle
    have hstep : s.lower x = .ok ⟨s.indegree.insert x (d - 1),
        if d - 1 = 0 then insert x s.queue else s.queue⟩ := by
      simp only [Frontier.lower, bind_ok, need_ok, refuseIf_ok, pure_ok]
      exact ⟨d, hd, (), by omega, rfl⟩
    obtain ⟨s', hrun, hdeg, hqueue⟩ := ih ⟨s.indegree.insert x (d - 1), _⟩ (by
      intro v hv
      obtain ⟨e, he, hle'⟩ := h v (List.mem_cons_of_mem _ hv)
      by_cases hx : x = v
      · subst hx
        exact ⟨d - 1, by rw [BTreeMap.getElem?_insert, if_pos rfl], by omega⟩
      · rw [List.count_cons_of_ne hx] at hle'
        exact ⟨e, by rw [BTreeMap.getElem?_insert, if_neg hx, he], hle'⟩)
    have hdeg' (v : NodeId) :
        s'.indegree[v]? = s.indegree[v]?.map (· - (x :: xs).count v) := by
      rw [hdeg, BTreeMap.getElem?_insert]
      by_cases hx : x = v
      · subst hx
        simp only [if_pos, hd, Option.map_some, List.count_cons_self, Option.some.injEq]
        omega
      · rw [if_neg hx, List.count_cons_of_ne hx]
    refine ⟨s', loop_cons.mpr ⟨_, hstep, hrun⟩, hdeg', ?_⟩
    -- `x` joins at its last occurrence, here or later.
    rw [hqueue, List.toFinset_cons]
    have hx : s'.indegree[x]? = some (d - 1 - xs.count x) := by
      rw [hdeg, BTreeMap.getElem?_insert, if_pos rfl, Option.map_some]
    ext v
    simp only [Finset.mem_union, Finset.mem_filter, Finset.mem_insert, List.mem_toFinset]
    by_cases hv : v = x
    · subst hv
      by_cases hzero : d - 1 = 0
      · simp [hx, hzero]
      · by_cases hm : v ∈ xs
        · simp [hzero, hm]
        · simp [hx, hzero, hm, List.count_eq_zero_of_not_mem hm]
    · split <;> simp [hv]

-- ---------------------------------------------------------------------------
-- Runs
-- ---------------------------------------------------------------------------

variable {arcs : List (NodeId × NodeId)} {nodes done : Finset NodeId} {maps : ArcMaps}

/-- The maps of a graph that has arcs between its nodes only. -/
structure Represents (maps : ArcMaps) (nodes : Finset NodeId) (arcs : List (NodeId × NodeId)) :
    Prop where
  source : ∀ a ∈ arcs, a.1 ∈ nodes
  target : ∀ a ∈ arcs, a.2 ∈ nodes
  adjacency : ∀ u ∈ nodes, maps.adjacency[u]? = some (targets arcs u)
  indegree : ∀ v, maps.indegree[v]? = if v ∈ nodes then some (pending arcs ∅ v) else none

/-- The frontier once `done` has been taken off. -/
structure Frontier.Tracks (s : Frontier) (arcs : List (NodeId × NodeId))
    (nodes done : Finset NodeId) : Prop where
  indegree : ∀ v ∈ nodes, s.indegree[v]? = some (pending arcs done v)
  queue : s.queue = ready arcs nodes done

theorem Frontier.Tracks.ready_eq_empty {s : Frontier} (h : s.Tracks arcs nodes done)
    (hnil : ascending s.queue = []) : ready arcs nodes done = ∅ := by
  rw [← h.queue, ← toFinset_ascending s.queue, hnil, List.toFinset_nil]

theorem Represents.size (h : Represents maps nodes arcs) : maps.indegree.size = nodes.card := by
  have hkeys : maps.indegree.keys.toFinset = nodes := by
    ext v
    rw [List.mem_toFinset, Std.ExtTreeMap.mem_keys, BTreeMap.mem_iff, h.indegree]
    by_cases hv : v ∈ nodes <;> simp [hv]
  rw [← hkeys, List.toFinset_card_of_nodup Std.ExtTreeMap.nodup_keys, Std.ExtTreeMap.length_keys]

theorem Represents.start (h : Represents maps nodes arcs) :
    (Frontier.start maps.indegree).Tracks arcs nodes ∅ where
  indegree v hv := by rw [Frontier.start, h.indegree, if_pos hv]
  queue := by
    ext v
    rw [mem_ready, ← pending_eq_zero, Frontier.start, List.mem_toFinset, List.mem_filter,
      Std.ExtTreeMap.mem_keys, BTreeMap.mem_iff, h.indegree]
    by_cases hv : v ∈ nodes <;> simp [hv]

/-- One batch of ready nodes, taken off a frontier that no longer holds it. -/
theorem lower_batch {batch : List NodeId} {s : Frontier} (h : Represents maps nodes arcs)
    (hc : Closed arcs done) (ht : s.Tracks arcs nodes done) (hn : batch.Nodup)
    (hb : ∀ u ∈ batch, u ∈ ready arcs nodes done) :
    ∃ s', loop (fun s node => loop Frontier.lower s (maps.adjacency[node]?.getD []))
        ⟨s.indegree, s.queue \ batch.toFinset⟩ batch = .ok s' ∧
      s'.Tracks arcs nodes (done ∪ batch.toFinset) := by
  have hnew (u : NodeId) (hu : u ∈ batch) : u ∉ done := (mem_ready.mp (hb u hu)).2.1
  have hnodes (u : NodeId) (hu : u ∈ batch) : u ∈ nodes := (mem_ready.mp (hb u hu)).1
  have hends (v : NodeId) (hv : v ∈ batch.flatMap (targets arcs)) : v ∈ nodes := by
    obtain ⟨u, -, hv⟩ := List.mem_flatMap.mp hv
    exact h.target _ (mem_targets.mp hv)
  have hpending (v : NodeId) : pending arcs (done ∪ batch.toFinset) v + _ = _ :=
    pending_union hn hnew v
  obtain ⟨s', hrun, hdeg, hqueue⟩ := lower_loop ⟨s.indegree, s.queue \ batch.toFinset⟩
    (batch.flatMap (targets arcs)) (by
      intro v hv
      exact ⟨_, ht.indegree v (hends v hv), by have := hpending v; omega⟩)
  have hdeg' (v : NodeId) (hv : v ∈ nodes) :
      s'.indegree[v]? = some (pending arcs (done ∪ batch.toFinset) v) := by
    rw [hdeg, ht.indegree v hv, Option.map_some, ← hpending v, Nat.add_sub_cancel]
  refine ⟨s', ?_, hdeg', ?_⟩
  · have hagree := loop_agree (s := (⟨s.indegree, s.queue \ batch.toFinset⟩ : Frontier))
      (f := fun s node => loop Frontier.lower s (maps.adjacency[node]?.getD []))
      (g := fun s node => loop Frontier.lower s (targets arcs node)) (l := batch) (by
        intro t u hu
        rw [h.adjacency u (hnodes u hu), Option.getD_some]
        exact Agree.rfl)
    exact (agree_iff.mp hagree s').mpr (loop_flatMap.mp hrun)
  · rw [hqueue, ready_union h.target hc hb, ht.queue]
    congr 1
    refine Finset.filter_congr fun v hv => ?_
    rw [hdeg' v (hends v (List.mem_toFinset.mp hv)), Option.some.injEq]

/-- Nodes already taken, as the loop over single nodes knows them. -/
structure OrderInvariant (arcs : List (NodeId × NodeId)) (nodes : Finset NodeId)
    (order : List NodeId) (s : Frontier) : Prop where
  nodup : order.Nodup
  greedy : Greedy arcs nodes order
  closed : Closed arcs order.toFinset
  tracks : s.Tracks arcs nodes order.toFinset

theorem OrderInvariant.subset (hi : OrderInvariant arcs nodes order s) : order.toFinset ⊆ nodes := by
  intro v hv
  obtain ⟨i, hget⟩ := List.getElem?_of_mem (List.mem_toFinset.mp hv)
  exact (mem_ready.mp (hi.greedy i v hget).1).1

theorem popFirst_eq_none : popFirst queue = none ↔ queue = ∅ := by
  unfold popFirst
  split
  · rename_i h
    simp [h.ne_empty]
  · rename_i h
    simpa using h

theorem popFirst_eq_some (h : popFirst queue = some (node, rest)) :
    node ∈ queue ∧ (∀ w ∈ queue, node ≤ w) ∧ rest = queue \ [node].toFinset := by
  unfold popFirst at h
  split at h
  · rename_i hne
    cases h
    refine ⟨queue.min'_mem hne, fun w hw => queue.min'_le w hw, ?_⟩
    ext v
    simp [and_comm]
  · cases h

/-- One turn of the outer loop keeps the invariant. -/
theorem OrderInvariant.step (h : Represents maps nodes arcs)
    (hi : OrderInvariant arcs nodes order s) (hpop : popFirst s.queue = some (node, queue)) :
    ∃ s', loop Frontier.lower ⟨s.indegree, queue⟩ (maps.adjacency[node]?.getD []) = .ok s' ∧
      OrderInvariant arcs nodes (order ++ [node]) s' := by
  obtain ⟨hmem, hmin, rfl⟩ := popFirst_eq_some hpop
  rw [hi.tracks.queue] at hmem hmin
  have hbatch : ∀ u ∈ [node], u ∈ ready arcs nodes order.toFinset := by simpa using hmem
  obtain ⟨s', hrun, htracks⟩ :=
    lower_batch h hi.closed hi.tracks (List.nodup_singleton node) hbatch
  obtain ⟨s'', hrun, hnil⟩ := loop_cons.mp hrun
  cases hnil
  have hunion : (order ++ [node]).toFinset = order.toFinset ∪ [node].toFinset :=
    List.toFinset_append
  have hnew : node ∉ order := by simpa using (mem_ready.mp hmem).2.1
  refine ⟨s', hrun, ?_, hi.greedy.append hmem hmin, ?_, ?_⟩
  · rw [List.nodup_append]
    refine ⟨hi.nodup, List.nodup_singleton node, ?_⟩
    rintro a ha b hb rfl
    exact hnew (List.mem_singleton.mp hb ▸ ha)
  · rw [hunion]
    exact hi.closed.union hbatch
  · rw [hunion]
    exact htracks

/-- The loop ends with the queue empty, whatever was taken before. -/
theorem orderLoop_spec (h : Represents maps nodes arcs) (fuel : Nat)
    (hi : OrderInvariant arcs nodes order s) (hfuel : nodes.card ≤ order.length + fuel) :
    ∃ order' s', orderLoop maps.adjacency fuel order s = .ok order' ∧
      OrderInvariant arcs nodes order' s' ∧ ready arcs nodes order'.toFinset = ∅ := by
  induction fuel generalizing order s with
  | zero =>
    have hall : order.toFinset = nodes := by
      refine Finset.eq_of_subset_of_card_le hi.subset ?_
      rwa [List.toFinset_card_of_nodup hi.nodup]
    have hempty : ready arcs nodes order.toFinset = ∅ := by
      rw [ready, hall, Finset.sdiff_self, Finset.filter_empty]
    refine ⟨order, s, ?_, hi, hempty⟩
    have hpop := popFirst_eq_none.mpr (hi.tracks.queue.trans hempty)
    unfold orderLoop
    rw [hpop]
  | succ fuel ih =>
    unfold orderLoop
    cases hpop : popFirst s.queue with
    | none =>
      rw [popFirst_eq_none, hi.tracks.queue] at hpop
      exact ⟨order, s, rfl, hi, hpop⟩
    | some taken =>
      obtain ⟨s', hrun, hi'⟩ := hi.step h hpop
      obtain ⟨order', s'', hloop, hend⟩ := ih hi' (by
        rw [List.length_append, List.length_singleton]
        omega)
      refine ⟨order', s'', ?_, hend⟩
      simp only [bind_ok]
      exact ⟨s', hrun, hloop⟩

/-- Without a cycle the result is the greedy order of all nodes; with one it
is the cycle error. -/
theorem topologicalOrder_spec (h : Represents maps nodes arcs) :
    (∃ order, topologicalOrder maps = .ok order ∧ Greedy arcs nodes order ∧
      IsOrder arcs nodes order) ∨
    (topologicalOrder maps = .error cycleError ∧ HasCycle arcs) := by
  have hstart : OrderInvariant arcs nodes [] (.start maps.indegree) :=
    ⟨List.nodup_nil, Greedy.nil, by intro u v _ hv; simp at hv, by simpa using h.start⟩
  obtain ⟨order, s, hloop, hi, hempty⟩ := orderLoop_spec h maps.indegree.size hstart
    (by rw [h.size, List.length_nil, Nat.zero_add])
  have hresult : topologicalOrder maps = complete order.length maps.indegree order := by
    unfold topologicalOrder
    rw [hloop]
    rfl
  rw [hresult]
  have hcard : order.toFinset.card = order.length := List.toFinset_card_of_nodup hi.nodup
  by_cases hlen : order.length = maps.indegree.size
  · left
    have hall : order.toFinset = nodes :=
      Finset.eq_of_subset_of_card_le hi.subset (by rw [hcard, hlen, h.size])
    exact ⟨order, if_pos hlen, hi.greedy, hi.greedy.isOrder h.target hi.nodup hall.ge⟩
  · right
    refine ⟨if_neg hlen, hasCycle_of_stuck h.source (fun hall => hlen ?_) hempty⟩
    rw [h.size, ← hcard, hall.antisymm hi.subset]

theorem ensureAcyclic_spec (h : Represents maps nodes arcs) :
    ensureAcyclic maps = .ok () ∧ ¬HasCycle arcs ∨
      ensureAcyclic maps = .error cycleError ∧ HasCycle arcs := by
  unfold ensureAcyclic
  rcases topologicalOrder_spec h with ⟨order, hrun, -, ho⟩ | ⟨hrun, hc⟩
  · rw [hrun]
    exact .inl ⟨rfl, ho.not_hasCycle⟩
  · rw [hrun]
    exact .inr ⟨rfl, hc⟩

-- ---------------------------------------------------------------------------
-- Levels
-- ---------------------------------------------------------------------------

/-- Levels already taken, as the loop over levels knows them. -/
structure LevelInvariant (arcs : List (NodeId × NodeId)) (nodes : Finset NodeId)
    (levels : List (List NodeId)) (s : Frontier) : Prop where
  nodup : levels.flatten.Nodup
  layered : Layered arcs nodes levels
  closed : Closed arcs levels.flatten.toFinset
  tracks : s.Tracks arcs nodes levels.flatten.toFinset

theorem LevelInvariant.subset (hi : LevelInvariant arcs nodes levels s) :
    levels.flatten.toFinset ⊆ nodes := by
  intro v hv
  obtain ⟨level, hl, hv⟩ := List.mem_flatten.mp (List.mem_toFinset.mp hv)
  obtain ⟨i, hget⟩ := List.getElem?_of_mem hl
  exact ((hi.layered.mem_level hget).mp hv).1

theorem LevelInvariant.step (h : Represents maps nodes arcs)
    (hi : LevelInvariant arcs nodes levels s) (hne : ascending s.queue ≠ []) :
    ∃ s', loop (fun s node => loop Frontier.lower s (maps.adjacency[node]?.getD []))
        ⟨s.indegree, ∅⟩ (ascending s.queue) = .ok s' ∧
      LevelInvariant arcs nodes (levels ++ [ascending s.queue]) s' := by
  have hqueue := hi.tracks.queue
  have hbatch : ∀ u ∈ ascending s.queue, u ∈ ready arcs nodes levels.flatten.toFinset := by
    intro u hu
    rw [← hqueue]
    exact mem_ascending.mp hu
  obtain ⟨s', hrun, htracks⟩ := lower_batch h hi.closed hi.tracks (nodup_ascending s.queue) hbatch
  rw [toFinset_ascending, Finset.sdiff_self] at hrun
  have hflat : (levels ++ [ascending s.queue]).flatten = levels.flatten ++ ascending s.queue := by
    rw [List.flatten_append, List.flatten_singleton]
  have hunion : (levels ++ [ascending s.queue]).flatten.toFinset =
      levels.flatten.toFinset ∪ (ascending s.queue).toFinset := by
    rw [hflat, List.toFinset_append]
  refine ⟨s', hrun, ?_, ?_, ?_, ?_⟩
  · rw [hflat, List.nodup_append]
    refine ⟨hi.nodup, nodup_ascending _, ?_⟩
    rintro a ha b hb rfl
    exact (mem_ready.mp (hbatch a hb)).2.1 (List.mem_toFinset.mpr ha)
  · rw [hqueue]
    refine hi.layered.append fun hempty => hne ?_
    rw [hqueue, hempty]
    rfl
  · rw [hunion]
    exact hi.closed.union hbatch
  · rw [hunion]
    exact htracks

theorem levelLoop_spec (h : Represents maps nodes arcs) (fuel : Nat)
    (hi : LevelInvariant arcs nodes levels s) (hfuel : nodes.card ≤ levels.flatten.length + fuel) :
    ∃ levels' s', levelLoop maps.adjacency fuel levels s = .ok levels' ∧
      LevelInvariant arcs nodes levels' s' ∧ ready arcs nodes levels'.flatten.toFinset = ∅ := by
  induction fuel generalizing levels s with
  | zero =>
    have hall : levels.flatten.toFinset = nodes := by
      refine Finset.eq_of_subset_of_card_le hi.subset ?_
      rwa [List.toFinset_card_of_nodup hi.nodup]
    have hempty : ready arcs nodes levels.flatten.toFinset = ∅ := by
      rw [ready, hall, Finset.sdiff_self, Finset.filter_empty]
    refine ⟨levels, s, ?_, hi, hempty⟩
    have hnil : ascending s.queue = [] := by
      rw [hi.tracks.queue, hempty]
      rfl
    unfold levelLoop
    rw [hnil]
  | succ fuel ih =>
    unfold levelLoop
    cases hlevel : ascending s.queue with
    | nil => exact ⟨levels, s, rfl, hi, hi.tracks.ready_eq_empty hlevel⟩
    | cons node rest =>
      have hne : ascending s.queue ≠ [] := hlevel ▸ List.cons_ne_nil node rest
      obtain ⟨s', hrun, hi'⟩ := hi.step h hne
      rw [hlevel] at hrun hi'
      obtain ⟨levels', s'', hloop, hend⟩ := ih hi' (by
        rw [List.flatten_append, List.flatten_singleton, List.length_append, List.length_cons]
        omega)
      refine ⟨levels', s'', ?_, hend⟩
      simp only [bind_ok]
      exact ⟨s', hrun, hloop⟩

theorem topologicalLevels_spec (h : Represents maps nodes arcs) :
    (∃ levels, topologicalLevels maps = .ok levels ∧ Layered arcs nodes levels ∧
      levels.flatten.Nodup ∧ levels.flatten.toFinset = nodes) ∨
    (topologicalLevels maps = .error cycleError ∧ HasCycle arcs) := by
  have hstart : LevelInvariant arcs nodes [] (.start maps.indegree) :=
    ⟨List.nodup_nil, Layered.nil, by intro u v _ hv; simp at hv, by simpa using h.start⟩
  obtain ⟨levels, s, hloop, hi, hempty⟩ := levelLoop_spec h maps.indegree.size hstart
    (by rw [h.size, List.flatten_nil, List.length_nil, Nat.zero_add])
  have hresult :
      topologicalLevels maps = complete levels.flatten.length maps.indegree levels := by
    unfold topologicalLevels
    rw [hloop]
    rfl
  rw [hresult]
  have hcard : levels.flatten.toFinset.card = levels.flatten.length :=
    List.toFinset_card_of_nodup hi.nodup
  by_cases hlen : levels.flatten.length = maps.indegree.size
  · left
    have hall : levels.flatten.toFinset = nodes :=
      Finset.eq_of_subset_of_card_le hi.subset (by rw [hcard, hlen, h.size])
    exact ⟨levels, if_pos hlen, hi.layered, hi.nodup, hall⟩
  · right
    refine ⟨if_neg hlen, hasCycle_of_stuck h.source (fun hall => hlen ?_) hempty⟩
    rw [h.size, ← hcard, hall.antisymm hi.subset]

end DagMl
