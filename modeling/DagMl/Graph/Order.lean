import DagMl.Graph.Topology

/-!
# Execution order of a graph

`GraphSpec.validate`, `topologicalOrder` and `parallelLevels`. What the
structural checks accept is `Wellformed`, a rule about the nodes and edges as
sets; the rest is the theory of topological orders.
-/

namespace DagMl

open Checked Topological

namespace GraphSpec

def validate (self : GraphSpec) : Result Unit := do
  let maps ← self.checkStructure
  ensureAcyclic maps

/-- The maps as the two listings build them, once `validate` has passed. -/
def arcMaps (self : GraphSpec) : Result ArcMaps :=
  loop (fun maps edge => maps.add " after validate" edge)
    (.start (ascending (self.nodes.map (·.id)).toFinset)) self.edges

def topologicalOrder (self : GraphSpec) : Result (List NodeId) := do
  self.validate
  let maps ← self.arcMaps
  DagMl.topologicalOrder maps

def parallelLevels (self : GraphSpec) : Result (List (List NodeId)) := do
  self.validate
  let maps ← self.arcMaps
  topologicalLevels maps

def nodeIds (self : GraphSpec) : Finset NodeId := (self.nodes.map (·.id)).toFinset

end GraphSpec

/-- An edge of the graph between nodes, without its ports. -/
def EdgeSpec.arc (self : EdgeSpec) : NodeId × NodeId := (self.source.nodeId, self.target.nodeId)

def GraphSpec.arcs (self : GraphSpec) : List (NodeId × NodeId) := self.edges.map (·.arc)

-- ---------------------------------------------------------------------------
-- Building the maps
-- ---------------------------------------------------------------------------

/-- The maps of the edges visited so far. -/
structure Built (nodes : List NodeId) (done : List EdgeSpec) (maps : ArcMaps) : Prop where
  adjacency : ∀ u, maps.adjacency[u]? =
    if u ∈ nodes then some (targets (done.map (·.arc)) u) else none
  indegree : ∀ v, maps.indegree[v]? =
    if v ∈ nodes then some (pending (done.map (·.arc)) ∅ v) else none

theorem Built.start (nodes : List NodeId) : Built nodes [] (.start nodes) where
  adjacency _ := BTreeMap.getElem?_tabulate
  indegree _ := BTreeMap.getElem?_tabulate

theorem Built.add {maps : ArcMaps} (h : Built nodes done maps) (text : String)
    (hs : edge.source.nodeId ∈ nodes) (ht : edge.target.nodeId ∈ nodes) :
    ∃ maps', maps.add text edge = .ok maps' ∧ Built nodes (done ++ [edge]) maps' := by
  have hnext := h.adjacency edge.source.nodeId
  have hdegree := h.indegree edge.target.nodeId
  rw [if_pos hs] at hnext
  rw [if_pos ht] at hdegree
  simp only [ArcMaps.add, bind_ok, need_ok, pure_ok, hnext, hdegree, Option.some.injEq,
    exists_eq_left']
  refine ⟨fun u => ?_, fun v => ?_⟩
  · rw [BTreeMap.getElem?_insert, List.map_append, List.map_singleton, targets_append_singleton]
    by_cases hu : edge.source.nodeId = u
    · subst hu
      simp [EdgeSpec.arc, hs]
    · simp [EdgeSpec.arc, hu, h.adjacency]
  · rw [BTreeMap.getElem?_insert, List.map_append, List.map_singleton, pending_append_singleton]
    by_cases hv : edge.target.nodeId = v
    · subst hv
      simp [EdgeSpec.arc, ht]
    · simp [EdgeSpec.arc, hv, h.indegree]

theorem Built.run {maps : ArcMaps} (h : Built nodes done maps) (text : String)
    (hends : ∀ e ∈ edges, e.source.nodeId ∈ nodes ∧ e.target.nodeId ∈ nodes) :
    ∃ maps', loop (fun maps edge => ArcMaps.add maps text edge) maps edges = .ok maps' ∧
      Built nodes (done ++ edges) maps' := by
  induction edges generalizing done maps with
  | nil => exact ⟨maps, rfl, by simpa using h⟩
  | cons e es ih =>
    rw [List.forall_mem_cons] at hends
    obtain ⟨maps₁, hadd, h₁⟩ := h.add text hends.1.1 hends.1.2
    obtain ⟨maps', hrun, h'⟩ := ih h₁ hends.2
    exact ⟨maps', loop_cons.mpr ⟨maps₁, hadd, hrun⟩, by simpa using h'⟩

theorem Built.represents {maps : ArcMaps} (h : Built ids edges maps)
    (hids : ∀ v, v ∈ ids ↔ v ∈ nodes)
    (hends : ∀ e ∈ edges, e.source.nodeId ∈ nodes ∧ e.target.nodeId ∈ nodes) :
    Represents maps nodes (edges.map (·.arc)) where
  source a ha := by
    obtain ⟨e, he, rfl⟩ := List.mem_map.mp ha
    exact (hends e he).1
  target a ha := by
    obtain ⟨e, he, rfl⟩ := List.mem_map.mp ha
    exact (hends e he).2
  adjacency u hu := by rw [h.adjacency, if_pos ((hids u).mpr hu)]
  indegree v := by simp only [h.indegree, hids]

-- ---------------------------------------------------------------------------
-- The structural rule
-- ---------------------------------------------------------------------------

/-- The nodes under their ids. -/
def GraphSpec.nodeMap (self : GraphSpec) : BTreeMap NodeId NodeSpec :=
  BTreeMap.collect (self.nodes.map fun n => (n.id, n))

def targetCardinality (nodes : BTreeMap NodeId NodeSpec) (ref : PortRef) :
    Option PortCardinality :=
  (nodes[ref.nodeId]?.bind fun node => findPort node.ports.inputs ref.portName).map (·.cardinality)

/-- An edge that passes its own checks. -/
structure EdgeValid (nodes : BTreeMap NodeId NodeSpec) (e : EdgeSpec) : Prop where
  ports : ∃ p, checkEdge nodes e = .ok p ∧ validateEdgeContract e p.1 p.2 = .ok ()
  oof : e.contract.requiresOof = true → e.contract.kind = .prediction

/-- Two edges that may stand in one graph. -/
structure EdgesCompatible (nodes : BTreeMap NodeId NodeSpec) (a b : EdgeSpec) : Prop where
  key : (a.source, a.target) ≠ (b.source, b.target)
  shared : a.target = b.target → targetCardinality nodes b.target = some .many

theorem EdgesCompatible.symm (h : EdgesCompatible nodes a b) : EdgesCompatible nodes b a where
  key := h.key.symm
  shared he := he ▸ h.shared he.symm

structure GraphSpec.Wellformed (g : GraphSpec) : Prop where
  header : g.checkHeader = .ok ()
  ids_nodup : (g.nodes.map (·.id)).Nodup
  nodes_valid : ∀ n ∈ g.nodes, n.validate = .ok ()
  edges_valid : ∀ e ∈ g.edges, EdgeValid g.nodeMap e
  edges_compatible : g.edges.Pairwise (EdgesCompatible g.nodeMap)

theorem checkEdge_ok (h : checkEdge nodes e = .ok p) :
    e.source.nodeId ∈ nodes ∧ e.target.nodeId ∈ nodes ∧
      targetCardinality nodes e.target = some p.2.cardinality := by
  simp only [checkEdge, bind_ok, need_ok, refuseIf_ok, pure_ok] at h
  obtain ⟨source, hs, target, ht, sourcePort, -, targetPort, hport, _, -, rfl⟩ := h
  refine ⟨BTreeMap.mem_iff.mpr ⟨source, hs⟩, BTreeMap.mem_iff.mpr ⟨target, ht⟩, ?_⟩
  simp [targetCardinality, ht, hport]

theorem addNode_loop {nodes : BTreeMap NodeId NodeSpec} :
    loop addNode nodes l = .ok nodes' ↔ (l.map (·.id)).Nodup ∧ (∀ n ∈ l, n.id ∉ nodes) ∧
      (∀ n ∈ l, n.validate = .ok ()) ∧ nodes' = l.foldl (fun m n => m.insert n.id n) nodes := by
  induction l generalizing nodes with
  | nil => simp [eq_comm]
  | cons n ns ih =>
    have hstep {m : BTreeMap NodeId NodeSpec} : addNode nodes n = .ok m ↔
        n.id ∉ nodes ∧ n.validate = .ok () ∧ m = nodes.insert n.id n := by
      simp only [addNode, bind_ok, refuseIf_ok, pure_ok, eq_comm (a := m)]
      constructor
      · rintro ⟨_, hd, _, hv, he⟩
        exact ⟨hd, hv, he⟩
      · rintro ⟨hd, hv, he⟩
        exact ⟨(), hd, (), hv, he⟩
    have hmem (x : NodeId) : x ∈ nodes.insert n.id n ↔ n.id = x ∨ x ∈ nodes := by
      rw [Std.ExtTreeMap.mem_insert, Std.LawfulEqCmp.compare_eq_iff_eq]
    simp only [loop_cons, hstep, ih, List.map_cons, List.nodup_cons, List.forall_mem_cons,
      List.foldl_cons, List.mem_map, not_exists, not_and]
    constructor
    · rintro ⟨_, ⟨hd, hv, rfl⟩, hn, hds, hvs, rfl⟩
      refine ⟨⟨fun m hm he => ?_, hn⟩, ⟨hd, fun m hm h => ?_⟩, ⟨hv, hvs⟩, rfl⟩
      · exact hds m hm ((hmem _).mpr (.inl he.symm))
      · exact hds m hm ((hmem _).mpr (.inr h))
    · rintro ⟨⟨hnew, hn⟩, ⟨hd, hds⟩, ⟨hv, hvs⟩, rfl⟩
      refine ⟨_, ⟨hd, hv, rfl⟩, hn, fun m hm h => ?_, hvs, rfl⟩
      rcases (hmem _).mp h with he | h
      · exact hnew m hm he.symm
      · exact hds m hm h

/-- The loop state that accounts for the edges already visited. -/
structure EdgesSeen (nodes : BTreeMap NodeId NodeSpec) (done : List EdgeSpec)
    (progress : EdgeProgress) : Prop where
  edgeKeys : ∀ k, k ∈ progress.edgeKeys ↔ ∃ d ∈ done, (d.source, d.target) = k
  inbound : progress.inbound = done.map (·.target)
  maps : Built nodes.keys done progress.maps

theorem mem_keys {m : BTreeMap NodeId V} {k : NodeId} : k ∈ m.keys ↔ k ∈ m :=
  Std.ExtTreeMap.mem_keys

/-- One edge is added when it is valid and fits those before it. -/
theorem addEdge_iff (hs : EdgesSeen nodes done progress) :
    (∃ progress', addEdge nodes progress e = .ok progress') ↔
      EdgeValid nodes e ∧ ∀ d ∈ done, EdgesCompatible nodes d e := by
  have hcount : 1 < (progress.inbound ++ [e.target]).count e.target ↔
      ∃ d ∈ done, d.target = e.target := by
    rw [hs.inbound, List.count_append, List.count_singleton_self, Nat.lt_add_left_iff_pos,
      List.count_pos_iff, List.mem_map]
  have hkey : (e.source, e.target) ∉ progress.edgeKeys ↔
      ∀ d ∈ done, (d.source, d.target) ≠ (e.source, e.target) := by
    rw [hs.edgeKeys]
    simp only [not_exists, not_and, ne_eq]
  have hmany (c : PortCardinality) : ¬(c = .one ∨ c = .optional) ↔ c = .many := by
    cases c <;> simp
  simp only [addEdge, bind_ok, refuseIf_ok, pure_ok, hkey, hcount]
  constructor
  · rintro ⟨_, _, hk, p, hp, _, hin, _, hcontract, _, hoof, _, -, -⟩
    refine ⟨⟨⟨p, hp, hcontract⟩, by simpa using hoof⟩, fun d hd => ⟨hk d hd, fun he => ?_⟩⟩
    rw [(checkEdge_ok hp).2.2]
    exact congrArg some ((hmany _).mp fun hc => hin ⟨⟨d, hd, he⟩, hc⟩)
  · rintro ⟨⟨⟨p, hp, hcontract⟩, hoof⟩, hcompat⟩
    obtain ⟨hsource, htarget, hcard⟩ := checkEdge_ok hp
    obtain ⟨maps', hadd, -⟩ :=
      hs.maps.add "" (mem_keys.mpr hsource) (mem_keys.mpr htarget)
    refine ⟨_, (), fun d hd => (hcompat d hd).key, p, hp, (), ?_, (), hcontract, (),
      by simpa using hoof, maps', hadd, rfl⟩
    rintro ⟨⟨d, hd, he⟩, hc⟩
    have hmany' := hcard.symm.trans ((hcompat d hd).shared he)
    exact (hmany _).mpr (Option.some.inj hmany') hc

theorem addEdge_seen (hs : EdgesSeen nodes done progress)
    (h : addEdge nodes progress e = .ok progress') : EdgesSeen nodes (done ++ [e]) progress' := by
  simp only [addEdge, bind_ok, refuseIf_ok, pure_ok] at h
  obtain ⟨_, -, p, hp, _, -, _, -, _, -, maps, hadd, rfl⟩ := h
  obtain ⟨hsource, htarget, -⟩ := checkEdge_ok hp
  obtain ⟨maps', hadd', hbuilt⟩ :=
    hs.maps.add "" (mem_keys.mpr hsource) (mem_keys.mpr htarget)
  cases hadd.symm.trans hadd'
  refine ⟨fun k => ?_, ?_, hbuilt⟩
  · rw [Finset.mem_insert, hs.edgeKeys]
    simp [or_comm, eq_comm]
  · rw [hs.inbound, List.map_append, List.map_singleton]

theorem addEdge_loop (hs : EdgesSeen nodes done progress) :
    (∃ progress', loop (addEdge nodes) progress edges = .ok progress') ↔
      (∀ e ∈ edges, EdgeValid nodes e) ∧ edges.Pairwise (EdgesCompatible nodes) ∧
        ∀ d ∈ done, ∀ e ∈ edges, EdgesCompatible nodes d e := by
  induction edges generalizing done progress with
  | nil => simp
  | cons e es ih =>
    simp only [loop_cons, List.forall_mem_cons, List.pairwise_cons]
    constructor
    · rintro ⟨progress', p, hstep, hrest⟩
      obtain ⟨hv, hc⟩ := (addEdge_iff hs).mp ⟨p, hstep⟩
      obtain ⟨hvs, hps, hds⟩ := (ih (addEdge_seen hs hstep)).mp ⟨progress', hrest⟩
      refine ⟨⟨hv, hvs⟩, ⟨hds e (by simp), hps⟩, fun d hd => ⟨hc d hd, hds d (by simp [hd])⟩⟩
    · rintro ⟨⟨hv, hvs⟩, ⟨he, hps⟩, hds⟩
      obtain ⟨p, hstep⟩ := (addEdge_iff hs).mpr ⟨hv, fun d hd => (hds d hd).1⟩
      obtain ⟨progress', hrest⟩ := (ih (addEdge_seen hs hstep)).mpr ⟨hvs, hps, fun d hd => by
        rcases List.mem_append.mp hd with hd | hd
        · exact (hds d hd).2
        · exact List.mem_singleton.mp hd ▸ he⟩
      exact ⟨progress', p, hstep, hrest⟩

theorem EdgesSeen.run (hs : EdgesSeen nodes done progress)
    (h : loop (addEdge nodes) progress edges = .ok progress') :
    EdgesSeen nodes (done ++ edges) progress' := by
  induction edges generalizing done progress with
  | nil =>
    cases h
    simpa using hs
  | cons e es ih =>
    obtain ⟨p, hstep, hrest⟩ := loop_cons.mp h
    simpa using ih (addEdge_seen hs hstep) hrest

namespace GraphSpec

variable {g : GraphSpec}

theorem mem_nodeMap (hn : (g.nodes.map (·.id)).Nodup) : v ∈ g.nodeMap ↔ v ∈ g.nodeIds := by
  have hfst : ((g.nodes.map fun n => (n.id, n)).map Prod.fst).Nodup := by
    rwa [List.map_map]
  simp only [BTreeMap.mem_iff, nodeMap, BTreeMap.getElem?_collect (BTreeMap.functional_of_nodup hfst),
    nodeIds, List.mem_toFinset, List.mem_map, Prod.mk.injEq]
  constructor
  · rintro ⟨_, n, hn, rfl, rfl⟩
    exact ⟨n, hn, rfl⟩
  · rintro ⟨n, hn, rfl⟩
    exact ⟨n, n, hn, rfl, rfl⟩

theorem checkStructure_nodes :
    loop addNode ∅ g.nodes = .ok found ↔
      (g.nodes.map (·.id)).Nodup ∧ (∀ n ∈ g.nodes, n.validate = .ok ()) ∧ found = g.nodeMap := by
  rw [addNode_loop, nodeMap, BTreeMap.collect, List.foldl_map]
  simp

theorem edges_start (found : BTreeMap NodeId NodeSpec) :
    EdgesSeen found [] ⟨∅, [], .start found.keys⟩ :=
  ⟨by simp, rfl, .start _⟩

/-- The structural checks decide the rule. -/
theorem checkStructure_iff : (∃ maps, g.checkStructure = .ok maps) ↔ g.Wellformed := by
  simp only [checkStructure, bind_ok, pure_ok, checkStructure_nodes]
  constructor
  · rintro ⟨_, _, hh, _, ⟨hn, hv, rfl⟩, progress, hloop, -⟩
    obtain ⟨he, hc, -⟩ := (addEdge_loop (edges_start _)).mp ⟨progress, hloop⟩
    exact ⟨hh, hn, hv, he, hc⟩
  · intro h
    obtain ⟨progress, hloop⟩ := (addEdge_loop (edges_start _)).mpr
      ⟨h.edges_valid, h.edges_compatible, by simp⟩
    exact ⟨progress.maps, (), h.header, _, ⟨h.ids_nodup, h.nodes_valid, rfl⟩, progress, hloop, rfl⟩

theorem Wellformed.ends (h : g.Wellformed) :
    ∀ e ∈ g.edges, e.source.nodeId ∈ g.nodeIds ∧ e.target.nodeId ∈ g.nodeIds := by
  intro e he
  obtain ⟨p, hp, -⟩ := (h.edges_valid e he).ports
  obtain ⟨hs, ht, -⟩ := checkEdge_ok hp
  exact ⟨(mem_nodeMap h.ids_nodup).mp hs, (mem_nodeMap h.ids_nodup).mp ht⟩

theorem checkStructure_represents (h : g.checkStructure = .ok maps) :
    Represents maps g.nodeIds g.arcs := by
  have hw : g.Wellformed := checkStructure_iff.mp ⟨maps, h⟩
  simp only [checkStructure, bind_ok, pure_ok, checkStructure_nodes] at h
  obtain ⟨_, -, _, ⟨-, -, rfl⟩, progress, hloop, rfl⟩ := h
  have hbuilt := ((edges_start _).run hloop).maps
  refine hbuilt.represents (fun v => ?_) hw.ends
  rw [mem_keys, mem_nodeMap hw.ids_nodup]

theorem arcMaps_represents (h : g.Wellformed) :
    ∃ maps, g.arcMaps = .ok maps ∧ Represents maps g.nodeIds g.arcs := by
  have hends : ∀ e ∈ g.edges,
      e.source.nodeId ∈ ascending g.nodeIds ∧ e.target.nodeId ∈ ascending g.nodeIds := by
    simpa only [mem_ascending] using h.ends
  obtain ⟨maps, hrun, hbuilt⟩ := (Built.start (ascending g.nodeIds)).run
    " after validate" hends
  exact ⟨maps, hrun, hbuilt.represents (fun v => mem_ascending) h.ends⟩

-- ---------------------------------------------------------------------------
-- Order and levels
-- ---------------------------------------------------------------------------

/-- A graph that passes the structural checks fails on a cycle only. -/
theorem validate_of_structure (h : g.checkStructure = .ok maps) :
    g.validate = .ok () ∧ ¬HasCycle g.arcs ∨
      g.validate = .error cycleError ∧ HasCycle g.arcs := by
  have heq : g.validate = ensureAcyclic maps := by
    unfold validate
    rw [h]
    rfl
  rw [heq]
  exact ensureAcyclic_spec (checkStructure_represents h)

theorem validate_ok : g.validate = .ok () ↔ g.Wellformed ∧ ¬HasCycle g.arcs := by
  constructor
  · intro h
    obtain ⟨maps, hmaps, -⟩ := bind_ok.mp h
    refine ⟨checkStructure_iff.mp ⟨maps, hmaps⟩, ?_⟩
    rcases validate_of_structure hmaps with ⟨-, hc⟩ | ⟨he, -⟩
    · exact hc
    · cases h.symm.trans he
  · rintro ⟨hw, hc⟩
    obtain ⟨maps, hmaps⟩ := checkStructure_iff.mpr hw
    rcases validate_of_structure hmaps with ⟨h, -⟩ | ⟨-, hcycle⟩
    · exact h
    · exact absurd hcycle hc

theorem topologicalOrder_ok : g.topologicalOrder = .ok order ↔
    g.validate = .ok () ∧ Greedy g.arcs g.nodeIds order ∧ IsOrder g.arcs g.nodeIds order := by
  simp only [topologicalOrder, bind_ok]
  constructor
  · rintro ⟨_, hv, maps, hmaps, horder⟩
    obtain ⟨maps', hmaps', hr⟩ := arcMaps_represents (validate_ok.mp hv).1
    cases hmaps.symm.trans hmaps'
    rcases topologicalOrder_spec hr with ⟨order', hrun, hg, ho⟩ | ⟨hrun, -⟩
    · cases horder.symm.trans hrun
      exact ⟨hv, hg, ho⟩
    · cases horder.symm.trans hrun
  · rintro ⟨hv, hg, ho⟩
    obtain ⟨maps, hmaps, hr⟩ := arcMaps_represents (validate_ok.mp hv).1
    refine ⟨(), hv, maps, hmaps, ?_⟩
    rcases topologicalOrder_spec hr with ⟨order', hrun, hg', ho'⟩ | ⟨-, hc⟩
    · rw [hrun, hg'.unique ho' hg ho]
    · exact absurd hc ho.not_hasCycle

theorem parallelLevels_ok : g.parallelLevels = .ok levels ↔
    g.validate = .ok () ∧ Layered g.arcs g.nodeIds levels ∧ levels.flatten.Nodup ∧
      levels.flatten.toFinset = g.nodeIds := by
  simp only [parallelLevels, bind_ok]
  constructor
  · rintro ⟨_, hv, maps, hmaps, hlevels⟩
    obtain ⟨maps', hmaps', hr⟩ := arcMaps_represents (validate_ok.mp hv).1
    cases hmaps.symm.trans hmaps'
    rcases topologicalLevels_spec hr with ⟨levels', hrun, hl⟩ | ⟨hrun, -⟩
    · cases hlevels.symm.trans hrun
      exact ⟨hv, hl⟩
    · cases hlevels.symm.trans hrun
  · rintro ⟨hv, hl, -, hall⟩
    obtain ⟨hw, hacyclic⟩ := validate_ok.mp hv
    obtain ⟨maps, hmaps, hr⟩ := arcMaps_represents hw
    refine ⟨(), hv, maps, hmaps, ?_⟩
    rcases topologicalLevels_spec hr with ⟨levels', hrun, hl', -, hall'⟩ | ⟨-, hc⟩
    · rw [hrun, hl'.unique hl hall'.ge hall.ge]
    · exact absurd hc hacyclic

/-- The same graph with its two lists in another order. -/
structure Reordered (g' g : GraphSpec) : Prop where
  id : g'.id = g.id
  interface : g'.interface = g.interface
  searchSpaceFingerprint : g'.searchSpaceFingerprint = g.searchSpaceFingerprint
  nodes : g'.nodes.Perm g.nodes
  edges : g'.edges.Perm g.edges

theorem Reordered.symm (h : Reordered g' g) : Reordered g g' :=
  ⟨h.id.symm, h.interface.symm, h.searchSpaceFingerprint.symm, h.nodes.symm, h.edges.symm⟩

theorem Reordered.nodeMap (h : Reordered g' g) (hn : (g.nodes.map (·.id)).Nodup) :
    g'.nodeMap = g.nodeMap := by
  have hentries := h.nodes.map fun n => (n.id, n)
  have hfst : ((g.nodes.map fun n => (n.id, n)).map Prod.fst).Nodup := by
    rwa [List.map_map]
  have hfst' : ((g'.nodes.map fun n => (n.id, n)).map Prod.fst).Nodup :=
    (hentries.map Prod.fst).nodup_iff.mpr hfst
  refine BTreeMap.eq_iff.mpr fun v n => ?_
  rw [GraphSpec.nodeMap, GraphSpec.nodeMap,
    BTreeMap.getElem?_collect (BTreeMap.functional_of_nodup hfst),
    BTreeMap.getElem?_collect (BTreeMap.functional_of_nodup hfst'), hentries.mem_iff]

theorem Reordered.header (h : Reordered g' g) (hh : g.checkHeader = .ok ()) :
    g'.checkHeader = .ok () := by
  have hnil : g'.nodes = [] ↔ g.nodes = [] := by
    rw [← List.length_eq_zero_iff, ← List.length_eq_zero_iff, h.nodes.length_eq]
  simp only [checkHeader, bind_ok, refuseIf_ok, whenSome_ok, h.id, h.interface,
    h.searchSpaceFingerprint, hnil] at hh ⊢
  exact hh

theorem Reordered.wellformed (h : Reordered g' g) (hw : g.Wellformed) : g'.Wellformed where
  header := h.header hw.header
  ids_nodup := (h.nodes.map _).nodup_iff.mpr hw.ids_nodup
  nodes_valid n hn := hw.nodes_valid n (h.nodes.mem_iff.mp hn)
  edges_valid e he := by
    rw [h.nodeMap hw.ids_nodup]
    exact hw.edges_valid e (h.edges.mem_iff.mp he)
  edges_compatible := by
    rw [h.nodeMap hw.ids_nodup]
    exact (h.edges.symm.pairwise_iff EdgesCompatible.symm).mp hw.edges_compatible

theorem Reordered.mem_arcs (h : Reordered g' g) (a : NodeId × NodeId) :
    a ∈ g'.arcs ↔ a ∈ g.arcs := (h.edges.map _).mem_iff

theorem Reordered.nodeIds (h : Reordered g' g) : g'.nodeIds = g.nodeIds :=
  List.toFinset_eq_of_perm _ _ (h.nodes.map _)

theorem Reordered.validate (h : Reordered g' g) (hv : g.validate = .ok ()) :
    g'.validate = .ok () := by
  obtain ⟨hw, hc⟩ := validate_ok.mp hv
  refine validate_ok.mpr ⟨h.wellformed hw, fun ⟨v, hcycle⟩ => hc ⟨v, ?_⟩⟩
  exact Relation.TransGen.mono (fun a b ha => (h.mem_arcs _).mp ha) _ _ hcycle

theorem Reordered.topologicalOrder (h : Reordered g' g) (ho : g.topologicalOrder = .ok order) :
    g'.topologicalOrder = .ok order := by
  obtain ⟨hv, hg, ho⟩ := topologicalOrder_ok.mp ho
  have harcs (a : NodeId × NodeId) : a ∈ g.arcs ↔ a ∈ g'.arcs := (h.mem_arcs a).symm
  rw [topologicalOrder_ok, h.nodeIds]
  exact ⟨h.validate hv, hg.congr harcs, ho.congr harcs⟩

theorem Reordered.parallelLevels (h : Reordered g' g) (hl : g.parallelLevels = .ok levels) :
    g'.parallelLevels = .ok levels := by
  obtain ⟨hv, hl, hn, hall⟩ := parallelLevels_ok.mp hl
  rw [parallelLevels_ok, h.nodeIds]
  exact ⟨h.validate hv, hl.congr fun a => (h.mem_arcs a).symm, hn, hall⟩

/-- The order and the levels of an accepted graph are what they should be,
nothing depends on how the two lists are written, and past the structural
checks only a cycle is refused. -/
theorem execution_order (g : GraphSpec) :
    (g.validate = .ok () →
      (∃ order, g.topologicalOrder = .ok order ∧ IsOrder g.arcs g.nodeIds order ∧
        ∀ other, IsOrder g.arcs g.nodeIds other → order = other ∨ order < other) ∧
      (∃ levels, g.parallelLevels = .ok levels ∧ IsLeveling g.arcs g.nodeIds levels)) ∧
    (∀ g' : GraphSpec, Reordered g' g → Agree g'.validate g.validate ∧
      Agree g'.topologicalOrder g.topologicalOrder ∧ Agree g'.parallelLevels g.parallelLevels) ∧
    (∀ maps, g.checkStructure = .ok maps →
      ((∃ e, g.validate = .error e) ↔ HasCycle g.arcs)) := by
  refine ⟨fun hv => ?_, fun g' h => ?_, fun maps hmaps => ?_⟩
  · obtain ⟨hw, hacyclic⟩ := validate_ok.mp hv
    obtain ⟨maps, hmaps, hr⟩ := arcMaps_represents hw
    constructor
    · rcases topologicalOrder_spec hr with ⟨order, -, hg, ho⟩ | ⟨-, hc⟩
      · exact ⟨order, topologicalOrder_ok.mpr ⟨hv, hg, ho⟩, ho, fun other => hg.le ho⟩
      · exact absurd hc hacyclic
    · rcases topologicalLevels_spec hr with ⟨levels, -, hl, hn, hall⟩ | ⟨-, hc⟩
      · exact ⟨levels, parallelLevels_ok.mpr ⟨hv, hl, hn, hall⟩, hl.isLeveling hn hall⟩
      · exact absurd hc hacyclic
  · simp only [agree_iff]
    exact ⟨fun _ => ⟨h.symm.validate, h.validate⟩,
      fun _ => ⟨h.symm.topologicalOrder, h.topologicalOrder⟩,
      fun _ => ⟨h.symm.parallelLevels, h.parallelLevels⟩⟩
  · rcases validate_of_structure hmaps with ⟨hv, hc⟩ | ⟨hv, hc⟩
    · simp [hv, hc]
    · simp [hv, hc]

/-- Two models, joined by two arcs between different ports. -/
def doubleEdgeGraph : GraphSpec :=
  let port (name : String) : PortSpec := ⟨name, .prediction, none, .one, none, none, none⟩
  let a : NodeId := ⟨"model:a", by decide⟩
  let b : NodeId := ⟨"model:b", by decide⟩
  { id := "g"
    interface := ⟨[], []⟩
    nodes :=
      [⟨b, .model, none, ⟨[port "x", port "y"], []⟩, ∅⟩,
        ⟨a, .model, none, ⟨[], [port "x", port "y"]⟩, ∅⟩]
    edges := [⟨⟨a, "x"⟩, ⟨b, "x"⟩, .new .prediction none⟩, ⟨⟨a, "y"⟩, ⟨b, "y"⟩, .new .prediction none⟩]
    searchSpaceFingerprint := none
    metadata := ∅ }

theorem execution_order_doubleEdge :
    ∃ order, doubleEdgeGraph.topologicalOrder = .ok order ∧
      IsOrder doubleEdgeGraph.arcs doubleEdgeGraph.nodeIds order := by
  have haccepted : doubleEdgeGraph.validate = .ok () := by decide
  obtain ⟨order, horder, ho, -⟩ := ((execution_order doubleEdgeGraph).1 haccepted).1
  exact ⟨order, horder, ho⟩

end GraphSpec

end DagMl
