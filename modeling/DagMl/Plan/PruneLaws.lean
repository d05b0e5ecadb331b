import DagMl.Plan.Prune

/-!
# What a pruned plan is

The nodes of a pruned plan are the active ones and those of their ancestors
that belong to no choice. `prunePlanToActive_laws` states the rest of the plan
by that set, and that a set which leaves a fed port without a source is refused.
-/

namespace DagMl

open Checked Worklist

-- ---------------------------------------------------------------------------
-- The kept nodes
-- ---------------------------------------------------------------------------

section

variable {graph : GraphSpec} {activeNodes allChoiceNodes keep : Finset NodeId}

theorem GraphSpec.mem_upstreamNodes : u ∈ graph.upstreamNodes v ↔ (u, v) ∈ graph.arcs := by
  simp only [upstreamNodes, mem_ascending, List.mem_toFinset, List.mem_map, List.mem_filter,
    decide_eq_true_eq, arcs, EdgeSpec.arc, Prod.mk.injEq]
  constructor
  · rintro ⟨edge, ⟨hedge, rfl⟩, rfl⟩
    exact ⟨edge, hedge, rfl, rfl⟩
  · rintro ⟨edge, hedge, rfl, rfl⟩
    exact ⟨edge, ⟨hedge, rfl⟩, rfl⟩

theorem GraphSpec.mem_ancestors : u ∈ graph.ancestors activeNodes ↔
    ∃ a ∈ activeNodes, StrictAncestor graph.arcs u a := by
  refine mem_above _ (fun _ _ => mem_upstreamNodes) (fun w => ?_) ?_
  · rw [List.mem_reverse, mem_ascending]
  · rw [List.length_reverse, length_ascending, arcs, List.length_map]

/-- What a selection keeps: an active node, or an ancestor of one in no choice. -/
def Kept (graph : GraphSpec) (activeNodes allChoiceNodes : Finset NodeId) (n : NodeId) : Prop :=
  n ∈ activeNodes ∨ n ∉ allChoiceNodes ∧ ∃ a ∈ activeNodes, Ancestor graph.arcs n a

theorem mem_keptNodes : n ∈ keptNodes graph activeNodes allChoiceNodes ↔
    Kept graph activeNodes allChoiceNodes n := by
  rw [keptNodes, Finset.mem_union, Finset.mem_filter, GraphSpec.mem_ancestors]
  constructor
  · rintro (⟨⟨a, ha, hpath⟩, hn⟩ | hn)
    · exact .inr ⟨hn, a, ha, hpath.ancestor⟩
    · exact .inl hn
  · rintro (hn | ⟨hn, a, ha, hpath⟩)
    · exact .inr hn
    · rcases Relation.reflTransGen_iff_eq_or_transGen.mp hpath with rfl | hpath
      · exact .inr ha
      · exact .inl ⟨⟨a, ha, hpath⟩, hn⟩

theorem GraphSpec.mem_nodeIds_induced :
    n ∈ (graph.induced keep).nodeIds ↔ n ∈ graph.nodeIds ∧ n ∈ keep := by
  simp only [nodeIds, induced, List.mem_toFinset, List.mem_map, List.mem_filter, decide_eq_true_eq]
  constructor
  · rintro ⟨node, ⟨hnode, hkeep⟩, rfl⟩
    exact ⟨⟨node, hnode, rfl⟩, hkeep⟩
  · rintro ⟨⟨node, hnode, rfl⟩, hkeep⟩
    exact ⟨node, ⟨hnode, hkeep⟩, rfl⟩

/-- The kept nodes of a wellformed graph are nodes of it. -/
theorem Kept.mem_nodeIds (hgraph : graph.Wellformed) (hactive : activeNodes ⊆ graph.nodeIds)
    (h : Kept graph activeNodes allChoiceNodes n) : n ∈ graph.nodeIds := by
  rcases h with hn | ⟨-, a, ha, hpath⟩
  · exact hactive hn
  · rcases Relation.ReflTransGen.cases_head hpath with rfl | ⟨v, harc, -⟩
    · exact hactive ha
    · obtain ⟨edge, hedge, harc⟩ := List.mem_map.mp harc
      cases harc
      exact (hgraph.ends edge hedge).1

end

-- ---------------------------------------------------------------------------
-- The checks
-- ---------------------------------------------------------------------------

section

variable {graphFingerprint : GraphSpec → String} {contracts : CompiledPlan → Result Unit}
  {plan pruned : CompiledPlan} {unionGraph : GraphSpec}

/-- The edges into an input port. -/
def GraphSpec.sourcesOf (graph : GraphSpec) (port : NodeId ×ₗ String) : List EdgeSpec :=
  graph.edges.filter (·.inputPort = port)

theorem mem_groupBy_inputPort {edges : List EdgeSpec} :
    (port, feeding) ∈ (BTreeMap.groupBy EdgeSpec.inputPort edges).toList ↔
      edges.filter (·.inputPort = port) ≠ [] ∧ feeding = edges.filter (·.inputPort = port) := by
  rw [BTreeMap.mem_toList, BTreeMap.getElem?_groupBy]
  by_cases hnil : edges.filter (·.inputPort = port) = []
  · simp [hnil]
  · simp only [if_neg hnil, Option.some.injEq]
    exact ⟨fun h => ⟨hnil, h.symm⟩, fun h => h.2.symm⟩

theorem length_groupBy_inputPort {edges : List EdgeSpec} :
    ((BTreeMap.groupBy EdgeSpec.inputPort edges)[port]?.getD []).length =
      (edges.filter (·.inputPort = port)).length := by
  rw [BTreeMap.getElem?_groupBy]
  by_cases hnil : edges.filter (·.inputPort = port) = [] <;> simp [hnil]

/-- The input ports of the kept nodes that were fed have one source each. -/
theorem validateActiveInputs_ok : validateActiveInputs pruned unionGraph = .ok u ↔
    ∀ port, (ofLex port).1 ∈ pruned.graphPlan.graph.nodeIds → unionGraph.sourcesOf port ≠ [] →
      (pruned.graphPlan.graph.sourcesOf port).length = 1 := by
  have hunion (port : NodeId ×ₗ String) :
      (unionGraph.edges.filter (·.target.nodeId ∈ pruned.graphPlan.graph.nodeIds)).filter
        (·.inputPort = port) =
      if (ofLex port).1 ∈ pruned.graphPlan.graph.nodeIds then unionGraph.sourcesOf port else [] := by
    rw [List.filter_filter, GraphSpec.sourcesOf]
    split
    · rename_i hmem
      refine List.filter_congr fun edge _ => ?_
      by_cases hport : edge.inputPort = port
      · subst hport
        have hnode : edge.target.nodeId ∈ pruned.graphPlan.graph.nodeIds := hmem
        simp [hnode]
      · simp [hport]
    · rename_i hmem
      refine List.filter_eq_nil_iff.mpr fun edge _ hedge => hmem ?_
      obtain ⟨hport, htarget⟩ := by simpa using hedge
      rw [← hport]
      exact htarget
  simp only [validateActiveInputs, each_ok, bind_ok, refuseIf_ok, length_groupBy_inputPort, Prod.forall,
    mem_groupBy_inputPort, hunion]
  constructor
  · intro h port hnode hfed
    obtain ⟨_, hdangling, hambiguous⟩ := h port _ ⟨by simpa [hnode] using hfed, rfl⟩
    rw [if_pos hnode, not_and] at hdangling
    have hpositive := hdangling (List.length_pos_of_ne_nil hfed)
    rw [GraphSpec.sourcesOf]
    omega
  · rintro h port feeding ⟨hfed, rfl⟩
    split at hfed
    · rename_i hnode
      have hone := h port hnode hfed
      rw [GraphSpec.sourcesOf] at hone
      exact ⟨(), by omega, by omega⟩
    · exact absurd rfl hfed

theorem CompiledPlan.validate_ok (h : plan.validate graphFingerprint contracts = .ok u) :
    plan.graphPlan.graph.validate = .ok () ∧
      ∀ n, n ∈ plan.nodePlans ↔ n ∈ plan.graphPlan.graph.nodeIds := by
  simp only [validate, bind_ok, refuseIf_ok, not_not] at h
  obtain ⟨_, hgraph, _, -, _, -, _, -, _, hkeys, -⟩ := h
  refine ⟨hgraph, fun n => ?_⟩
  rw [← hkeys, List.mem_toFinset, Std.ExtTreeMap.mem_keys]

-- ---------------------------------------------------------------------------
-- The pruned plan
-- ---------------------------------------------------------------------------

/-- A valid plan over the kept nodes, with everything derived from its graph
made anew. -/
structure PrunedTo (graphFingerprint : GraphSpec → String) (contracts : CompiledPlan → Result Unit)
    (plan : CompiledPlan) (activeNodes allChoiceNodes : Finset NodeId) (variant : VariantPlan)
    (pruned : CompiledPlan) : Prop where
  valid : pruned.validate graphFingerprint contracts = .ok ()
  nodeIds : ∀ n, n ∈ pruned.graphPlan.graph.nodeIds ↔
    Kept plan.graphPlan.graph activeNodes allChoiceNodes n
  /-- The nodes and edges of the union among the kept nodes. -/
  graph : pruned.graphPlan.graph = plan.graphPlan.graph.induced pruned.graphPlan.graph.nodeIds
  fed : ∀ port, (ofLex port).1 ∈ pruned.graphPlan.graph.nodeIds →
    plan.graphPlan.graph.sourcesOf port ≠ [] → (pruned.graphPlan.graph.sourcesOf port).length = 1
  /-- Other choices go, and so does whatever feeds no active node. -/
  elided : ∀ n, n ∉ activeNodes →
    (n ∈ allChoiceNodes ∨ ∀ a ∈ activeNodes, ¬Ancestor plan.graphPlan.graph.arcs n a) →
    n ∉ pruned.graphPlan.graph.nodeIds
  graphPlan : CompiledGraphPlan.fromGraph pruned.graphPlan.graph = .ok pruned.graphPlan
  nodePlans : ∀ n nodePlan, pruned.nodePlans[n]? = some nodePlan ↔
    n ∈ pruned.graphPlan.graph.nodeIds ∧ ∃ unionPlan, plan.nodePlans[n]? = some unionPlan ∧
      nodePlan = unionPlan.within pruned.graphPlan.graph n
  graphFingerprint : pruned.graphFingerprint = graphFingerprint pruned.graphPlan.graph
  variants : pruned.variants = [variant]

theorem CompiledGraphPlan.fromGraph_graph (h : fromGraph graph = .ok graphPlan) :
    graphPlan.graph = graph := by
  simp only [fromGraph, bind_ok, pure_ok] at h
  obtain ⟨_, -, _, -, rfl⟩ := h
  rfl

theorem getElem?_prunedNodePlans {nodePlans : BTreeMap NodeId CompiledNodePlan}
    {keep : Finset NodeId} {graph : GraphSpec} {nodePlan : CompiledNodePlan} :
    (BTreeMap.collect ((nodePlans.toList.filter (·.1 ∈ keep)).map fun entry =>
      (entry.1, entry.2.within graph entry.1)))[n]? = some nodePlan ↔
      n ∈ keep ∧ ∃ unionPlan, nodePlans[n]? = some unionPlan ∧
        nodePlan = unionPlan.within graph n := by
  have hkeys : (((nodePlans.toList.filter (·.1 ∈ keep)).map fun entry =>
      (entry.1, entry.2.within graph entry.1)).map Prod.fst).Nodup := by
    rw [List.map_map]
    exact (BTreeMap.nodup_keys_toList nodePlans).sublist (List.filter_sublist.map _)
  rw [BTreeMap.getElem?_collect (BTreeMap.functional_of_nodup hkeys)]
  simp only [List.mem_map, List.mem_filter, decide_eq_true_eq, Prod.exists, Prod.mk.injEq,
    BTreeMap.mem_toList]
  constructor
  · rintro ⟨_, unionPlan, ⟨hplan, hkeep⟩, rfl, rfl⟩
    exact ⟨hkeep, unionPlan, hplan, rfl⟩
  · rintro ⟨hkeep, unionPlan, hplan, rfl⟩
    exact ⟨n, unionPlan, ⟨hplan, hkeep⟩, rfl, rfl⟩

theorem prunePlanToActive_ok {activeNodes allChoiceNodes : Finset NodeId} {variant : VariantPlan}
    (h : prunePlanToActive graphFingerprint contracts plan activeNodes allChoiceNodes variant =
      .ok pruned) :
    PrunedTo graphFingerprint contracts plan activeNodes allChoiceNodes variant pruned := by
  simp only [prunePlanToActive, bind_ok, each_ok, refuseIf_ok, not_not, pure_ok, mem_ascending] at h
  obtain ⟨_, hplan, _, -, _, hactive, _, -, graphPlan, hgraphPlan, _, hvalid, _, hfed, rfl⟩ := h
  obtain ⟨hgraph, hkeys⟩ := CompiledPlan.validate_ok hplan
  have hinduced := CompiledGraphPlan.fromGraph_graph hgraphPlan
  have hactive : activeNodes ⊆ plan.graphPlan.graph.nodeIds :=
    fun n hn => (hkeys n).mp (hactive n hn)
  have hkept (n : NodeId) : n ∈ graphPlan.graph.nodeIds ↔
      n ∈ keptNodes plan.graphPlan.graph activeNodes allChoiceNodes := by
    rw [hinduced, GraphSpec.mem_nodeIds_induced, mem_keptNodes, and_iff_right_iff_imp]
    exact fun hn => hn.mem_nodeIds (GraphSpec.validate_ok.mp hgraph).1 hactive
  refine ⟨hvalid, fun n => (hkept n).trans mem_keptNodes, ?_, validateActiveInputs_ok.mp hfed, ?_,
    ?_, fun n nodePlan => ?_, rfl, rfl⟩
  · have hnodes : graphPlan.graph.nodeIds =
        keptNodes plan.graphPlan.graph activeNodes allChoiceNodes := Finset.ext hkept
    dsimp only
    rw [hnodes, hinduced]
  · intro n hn hgone hmem
    rcases mem_keptNodes.mp ((hkept n).mp hmem) with hmem | ⟨hchoice, a, ha, hpath⟩
    · exact hn hmem
    · rcases hgone with hgone | hgone
      · exact hchoice hgone
      · exact hgone a ha hpath
  · dsimp only
    rw [hinduced, hgraphPlan]
  · rw [getElem?_prunedNodePlans, hkept]

end

/-- A pruned plan holds the active nodes and their ancestors outside every
choice, and a selection that leaves a fed port without a source is refused. -/
theorem prunePlanToActive_laws (graphFingerprint : GraphSpec → String)
    (contracts : CompiledPlan → Result Unit) (plan : CompiledPlan)
    (activeNodes allChoiceNodes : Finset NodeId) (variant : VariantPlan) :
    (∀ pruned, prunePlanToActive graphFingerprint contracts plan activeNodes allChoiceNodes variant =
        .ok pruned →
      PrunedTo graphFingerprint contracts plan activeNodes allChoiceNodes variant pruned) ∧
    ((∃ port, Kept plan.graphPlan.graph activeNodes allChoiceNodes (ofLex port).1 ∧
        plan.graphPlan.graph.sourcesOf port ≠ [] ∧
        ∀ edge ∈ plan.graphPlan.graph.sourcesOf port,
          ¬Kept plan.graphPlan.graph activeNodes allChoiceNodes edge.source.nodeId) →
      ∃ e, prunePlanToActive graphFingerprint contracts plan activeNodes allChoiceNodes variant =
        .error e) := by
  refine ⟨fun pruned h => prunePlanToActive_ok h, ?_⟩
  rintro ⟨port, hport, hfed, hdangling⟩
  cases hrun : prunePlanToActive graphFingerprint contracts plan activeNodes allChoiceNodes variant with
  | error e => exact ⟨e, rfl⟩
  | ok pruned =>
    have hpruned := prunePlanToActive_ok hrun
    have hone := hpruned.fed port ((hpruned.nodeIds _).mpr hport) hfed
    obtain ⟨edge, hedge⟩ := List.length_eq_one_iff.mp hone
    have hmem : edge ∈ pruned.graphPlan.graph.sourcesOf port := hedge ▸ List.mem_singleton_self edge
    obtain ⟨hmem, htarget⟩ := List.mem_filter.mp hmem
    rw [hpruned.graph] at hmem
    obtain ⟨hunion, hends⟩ := List.mem_filter.mp hmem
    have hsource := (of_decide_eq_true hends).1
    exact absurd ((hpruned.nodeIds _).mp hsource)
      (hdangling edge (List.mem_filter.mpr ⟨hunion, htarget⟩))

-- ---------------------------------------------------------------------------
-- A join between two choices
-- ---------------------------------------------------------------------------

/-- Two options meet in a join that feeds a third. -/
def optionGraph : GraphSpec :=
  let port (cardinality : PortCardinality) : PortSpec :=
    ⟨"x", .data, none, cardinality, none, none, none⟩
  let first : NodeId := ⟨"option:first", by decide⟩
  let second : NodeId := ⟨"option:second", by decide⟩
  let join : NodeId := ⟨"join:options", by decide⟩
  let tail : NodeId := ⟨"option:tail", by decide⟩
  { id := "graph:options"
    interface := ⟨[], []⟩
    nodes := [
      ⟨first, .transform, none, ⟨[], [port .one]⟩, ∅⟩,
      ⟨second, .transform, none, ⟨[], [port .one]⟩, ∅⟩,
      ⟨join, .featureJoin, none, ⟨[port .many], [port .one]⟩, ∅⟩,
      ⟨tail, .transform, none, ⟨[port .one], []⟩, ∅⟩]
    edges := [
      ⟨⟨first, "x"⟩, ⟨join, "x"⟩, .new .data none⟩,
      ⟨⟨second, "x"⟩, ⟨join, "x"⟩, .new .data none⟩,
      ⟨⟨join, "x"⟩, ⟨tail, "x"⟩, .new .data none⟩]
    searchSpaceFingerprint := none
    metadata := ∅ }

def optionNodePlan (node : NodeSpec) : CompiledNodePlan where
  nodeId := node.id
  kind := node.kind
  controllerId := ⟨"controller:options", by decide⟩
  controllerVersion := "1"
  supportedPhases := {.fitCv}
  trainingLosses := []
  inputNodes := optionGraph.upstreamNodes node.id
  shapePlan := none
  dataBindings := []
  innerCv := none
  paramsFingerprint := ""
  outputNodes := optionGraph.downstreamNodes node.id

def optionPlan : CompiledPlan where
  id := "plan:options"
  graphPlan := ⟨⟨optionGraph, []⟩, [⟨"option:first", by decide⟩, ⟨"option:second", by decide⟩,
    ⟨"join:options", by decide⟩, ⟨"option:tail", by decide⟩]⟩
  campaign := ⟨none, none⟩
  nodePlans := .collect (optionGraph.nodes.map fun node => (node.id, optionNodePlan node))
  controllerManifests := ∅
  variants := [⟨⟨"variant:options", by decide⟩, ∅, "options", none⟩]
  foldSet := none
  graphFingerprint := "graph"
  campaignFingerprint := ""
  controllerFingerprint := ""

def optionChoices : Finset NodeId :=
  {⟨"option:first", by decide⟩, ⟨"option:second", by decide⟩, ⟨"option:tail", by decide⟩}

def optionActive : Finset NodeId :=
  {⟨"option:first", by decide⟩, ⟨"option:tail", by decide⟩}

def optionRun : Result CompiledPlan :=
  prunePlanToActive (fun _ => "graph") (fun _ => .ok ()) optionPlan optionActive optionChoices
    ⟨⟨"variant:option:first", by decide⟩, ∅, "first", none⟩

theorem optionRun_ok : ∃ pruned, optionRun = .ok pruned ∧
    ⟨"join:options", by decide⟩ ∈ pruned.graphPlan.graph.nodeIds := by
  have hrun : optionRun.toOption.any (fun pruned =>
      decide (⟨"join:options", by decide⟩ ∈ pruned.graphPlan.graph.nodeIds)) = true := by
    decide +kernel
  obtain ⟨pruned, hpruned, hjoin⟩ := toOption_any.mp hrun
  exact ⟨pruned, hpruned, of_decide_eq_true hjoin⟩

theorem prunePlanToActive_laws_options : ∃ pruned, optionRun = .ok pruned ∧
    PrunedTo (fun _ => "graph") (fun _ => .ok ()) optionPlan optionActive optionChoices
      ⟨⟨"variant:option:first", by decide⟩, ∅, "first", none⟩ pruned := by
  obtain ⟨pruned, hrun, -⟩ := optionRun_ok
  exact ⟨pruned, hrun, (prunePlanToActive_laws (fun _ => "graph") (fun _ => .ok ()) optionPlan
    optionActive optionChoices ⟨⟨"variant:option:first", by decide⟩, ∅, "first", none⟩).1 pruned hrun⟩

/-- A join downstream of a choice stays when another active node reads it. -/
theorem join_of_choices_kept : ∃ pruned, optionRun = .ok pruned ∧
    ∃ join ∈ pruned.graphPlan.graph.nodeIds, join ∉ optionChoices ∧
      ∃ choice ∈ optionChoices, Ancestor optionPlan.graphPlan.graph.arcs choice join := by
  obtain ⟨pruned, hrun, hjoin⟩ := optionRun_ok
  refine ⟨pruned, hrun, _, hjoin, by decide, ⟨"option:first", by decide⟩, by decide, .of_arc ?_⟩
  exact List.mem_cons_self

end DagMl
