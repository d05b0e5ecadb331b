import DagMl.Lib.Ledger
import DagMl.Lib.Worklist
import DagMl.Runtime.Stacking

/-!
# Which meta nodes a stacking campaign fits

The campaigns of the terminal metas run one after another. A campaign first
runs the metas it depends on, in the fold set of the plan and again in every
inner fold set, and passes over a meta whose validation rows of that fold set
are already stored. The model keeps the fits of the meta nodes alone, for one
variant: each stores the validation rows of its fold.
-/

namespace DagMl

open Checked Ledger Worklist

/-- One fit of a meta node. -/
structure MetaFit where
  /-- The folds the scope is nested in, the outermost first. -/
  parents : List FoldId
  node : NodeId
  fold : FoldId
  deriving DecidableEq

/-- The number of folds of the set in which rows of the node are stored. -/
def presentFolds (fits : List MetaFit) (nodeId : NodeId) (foldSet : FoldSet) : Nat :=
  foldSet.folds.countP fun fold => fits.any fun fit => fit.node = nodeId ∧ fit.fold = fold.foldId

namespace ExecutionPlan

variable (externals : Externals) (plan : ExecutionPlan)

-- ---------------------------------------------------------------------------
-- The terminal metas
-- ---------------------------------------------------------------------------

/-- `requested`. -/
def nestedStackingMetaNodes : Result (List NodeId) := do
  let requested ← collect plan.graphPlan.graph.nodes fun node => do
    let nested ← plan.isNestedStackingMetaNode node.id
    pure (if nested then some node.id else none)
  pure requested.reduceOption

def terminalMetas (requested : List NodeId) : List NodeId :=
  requested.filter fun candidate =>
    !requested.any fun other => other ≠ candidate && candidate ∈ plan.dependencyClosure {other}

-- ---------------------------------------------------------------------------
-- A run in FIT_CV
-- ---------------------------------------------------------------------------

/-- `scoped_plan`. -/
def scopedTo (foldSet : FoldSet) : ExecutionPlan :=
  { plan with
    foldSet := some foldSet
    campaign := { plan.campaign with
      splitInvocation := plan.campaign.splitInvocation.map fun split =>
        { split with foldSet := some foldSet } } }

def isDependentMeta (nested : NestedStackingCampaignPlan) (nodeId : NodeId) : Result Bool :=
  if nodeId ∈ nested.baseNodeIds then plan.isNestedStackingMetaNode nodeId else .ok false

/-- What runs the campaign of one meta of a plan. -/
abbrev CampaignRun : Type :=
  ExecutionPlan → NestedStackingCampaignPlan → List MetaFit → Result (List MetaFit)

def executeDependentMeta (execute : CampaignRun) (nested : NestedStackingCampaignPlan)
    (foldSet : FoldSet) (fits : List MetaFit) (nodeId : NodeId) : Result (List MetaFit) := do
  let dependent ← plan.isDependentMeta nested nodeId
  if !dependent then pure fits
  else if presentFolds fits nodeId foldSet = foldSet.folds.length then pure fits
  else
    refuseIf (presentFolds fits nodeId foldSet ≠ 0) (.oofValidation
      s!"dependent meta node `{nodeId}` has partial OOF evidence in fold set `{foldSet.id}`")
    let campaign ← (plan.scopedTo foldSet).nestedStackingCampaignPlanForNode externals nodeId
    let campaign ← need campaign (.panicked "validated dependent meta node")
    execute (plan.scopedTo foldSet) campaign fits

def executeDependentMetaCampaigns (execute : CampaignRun) (nested : NestedStackingCampaignPlan)
    (foldSet : FoldSet) (fits : List MetaFit) : Result (List MetaFit) := do
  let levels ← plan.nodeParallelLevelsForPhase .fitCv
  loop (plan.executeDependentMeta externals execute nested foldSet) fits levels.flatten

/-- `residual_auto_threshold.is_some()`. -/
def opensAutoGate (nested : NestedStackingCampaignPlan) : Bool :=
  nested.kind = .residual &&
    ((plan.findNode nested.metaNodeId).bind fun node =>
      node.metadata["residual_gate"]?.bind JsonValue.asStr) = some "auto"

/-- The cross-fitting of an automatic gate: the learner on every inner fold,
over base rows of a third level. -/
def executeAutoGate (execute : List FoldId → CampaignRun) (nested : NestedStackingCampaignPlan)
    (parents : List FoldId) (inner : FoldSet) (fits : List MetaFit) : Result (List MetaFit) :=
  if plan.opensAutoGate nested then
    loop (fun fits innerFold => do
      let subinner ← inner.nestedFoldSet externals.sha256 nested.innerCv innerFold
      let fits ← plan.executeDependentMetaCampaigns externals
        (execute (parents ++ [innerFold.foldId])) nested subinner.innerFoldSet fits
      pure (fits ++ [⟨parents, nested.metaNodeId, innerFold.foldId⟩])) fits inner.folds
  else .ok fits

def executeOuterScope (execute : List FoldId → CampaignRun) (nested : NestedStackingCampaignPlan)
    (parents : List FoldId) (fits : List MetaFit) (outer : NestedStackingOuterScope) :
    Result (List MetaFit) := do
  let inside := parents ++ [outer.outerFoldId]
  let fits ← plan.executeDependentMetaCampaigns externals (execute inside) nested
    outer.inner.innerFoldSet fits
  let fits ← plan.executeAutoGate externals execute nested inside outer.inner.innerFoldSet fits
  pure (fits ++ [⟨parents, nested.metaNodeId, outer.outerFoldId⟩])

/-- `if let Some(folds) = &plan.fold_set`. -/
def executeDependentsOfPlan (execute : CampaignRun) (nested : NestedStackingCampaignPlan)
    (fits : List MetaFit) : Result (List MetaFit) :=
  match plan.foldSet with
  | some folds => plan.executeDependentMetaCampaigns externals execute nested folds fits
  | none => .ok fits

/-- The fuel bounds how deep metas depend on each other; see
`executeNestedStackingFitCv_fuel`. -/
def executeNestedStackingFitCv : Nat → List FoldId → CampaignRun
  | 0, _, _, _, _ => .error (.panicked "meta nodes nested too deeply")
  | fuel + 1, parents, plan, nested, fits => do
    let execute := executeNestedStackingFitCv fuel
    let fits ← plan.executeDependentsOfPlan externals (execute parents) nested fits
    loop (plan.executeOuterScope externals execute nested parents) fits nested.outerScopes

/-- The FIT_CV arm of `execute_campaign_phase_with_data_provider` for a plan
with campaigns. -/
def executeStackingCampaigns : Result (List MetaFit) := do
  let campaigns ← plan.nestedStackingCampaignPlans externals
  loop (fun fits nested =>
    executeNestedStackingFitCv externals plan.graphPlan.graph.nodes.length [] plan nested fits)
    [] campaigns

-- ---------------------------------------------------------------------------
-- The closure
-- ---------------------------------------------------------------------------

def arcs : List (NodeId × NodeId) := plan.graphPlan.graph.arcs

variable {externals plan}

theorem closureLoop_eq (fuel : Nat) (found : Finset NodeId) (waiting : List NodeId) :
    plan.closureLoop fuel found waiting = Worklist.run plan.arcs fuel found waiting := by
  induction fuel generalizing found waiting with
  | zero => cases waiting <;> rfl
  | succ fuel ih =>
    cases waiting with
    | nil => rfl
    | cons nodeId waiting =>
      have hvisit : (plan.edges.filter (·.target.nodeId = nodeId)).foldl visitSource
          (found, waiting) = (Worklist.sources plan.arcs nodeId).foldl visit (found, waiting) := by
        simp only [Worklist.sources, arcs, GraphSpec.arcs, List.filter_map, List.map_map,
          List.foldl_map]
        rfl
      rw [closureLoop, Worklist.run, hvisit]
      exact ih _ _

theorem mem_dependencyClosure : u ∈ plan.dependencyClosure seeds ↔
    ∃ s ∈ seeds, Ancestor plan.arcs u s := by
  rw [dependencyClosure, closureLoop_eq]
  refine mem_run _ (fun w => by simp) ?_
  simp [arcs, GraphSpec.arcs, edges, Nat.add_comm]

theorem mem_dependencyClosure_singleton : u ∈ plan.dependencyClosure {v} ↔
    Ancestor plan.arcs u v := by
  simp [mem_dependencyClosure]

/-- The closure is the least set that has the seeds and is closed under
predecessors. -/
theorem dependencyClosure_isLeast (seeds : Finset NodeId) :
    IsLeast {nodes : Finset NodeId | seeds ⊆ nodes ∧ Topological.Closed plan.arcs nodes}
      (plan.dependencyClosure seeds) := by
  refine ⟨⟨fun s hs => mem_dependencyClosure.mpr ⟨s, hs, .refl s⟩, fun u v ha hv => ?_⟩, ?_⟩
  · obtain ⟨s, hs, hpath⟩ := mem_dependencyClosure.mp hv
    exact mem_dependencyClosure.mpr ⟨s, hs, (Ancestor.of_arc ha).trans hpath⟩
  · rintro nodes ⟨hseeds, hclosed⟩ u hu
    obtain ⟨s, hs, hpath⟩ := mem_dependencyClosure.mp hu
    exact hpath.mem_of_closed hclosed (hseeds hs)

-- ---------------------------------------------------------------------------
-- Every meta is below a terminal one
-- ---------------------------------------------------------------------------

theorem mem_terminalMetas {requested : List NodeId} : t ∈ plan.terminalMetas requested ↔
    t ∈ requested ∧ ∀ other ∈ requested, Ancestor plan.arcs t other → other = t := by
  simp only [terminalMetas, List.mem_filter, Bool.not_eq_true', List.any_eq_false,
    Bool.and_eq_true, decide_eq_true_eq, mem_dependencyClosure_singleton, not_and, ne_eq]
  refine and_congr_right fun _ => forall₂_congr fun other _ => ?_
  exact ⟨fun h hpath => by_contra fun hne => h hne hpath, fun h hne hpath => hne (h hpath)⟩

/-- Among the metas below which a meta lies, one with the largest closure is
terminal. -/
theorem exists_terminalMeta (hacyclic : ¬Topological.HasCycle plan.arcs) {requested : List NodeId}
    (hm : m ∈ requested) :
    ∃ t ∈ plan.terminalMetas requested, Ancestor plan.arcs m t := by
  let below := requested.toFinset.filter fun t => m ∈ plan.dependencyClosure {t}
  have hne : below.Nonempty :=
    ⟨m, by simp [below, hm, mem_dependencyClosure_singleton, Ancestor.refl]⟩
  obtain ⟨t, ht, hmax⟩ := below.exists_max_image (fun t => (plan.dependencyClosure {t}).card) hne
  simp only [below, Finset.mem_filter, List.mem_toFinset, mem_dependencyClosure_singleton]
    at ht hmax
  refine ⟨t, mem_terminalMetas.mpr ⟨ht.1, fun other hother hpath => ?_⟩, ht.2⟩
  by_contra hdiff
  refine absurd (hmax other ⟨hother, ht.2.trans hpath⟩) (not_le.mpr (Finset.card_lt_card ?_))
  refine Finset.ssubset_iff_subset_ne.mpr ⟨fun u hu => ?_, fun heq => ?_⟩
  · rw [mem_dependencyClosure_singleton] at hu ⊢
    exact hu.trans hpath
  · have hback : other ∈ plan.dependencyClosure {t} := by
      rw [heq, mem_dependencyClosure_singleton]
      exact .refl other
    exact hdiff ((mem_dependencyClosure_singleton.mp hback).antisymm hacyclic hpath)

-- ---------------------------------------------------------------------------
-- The campaign of a meta
-- ---------------------------------------------------------------------------

/-- The producers of the OOF inputs of a node. -/
def oofSources (plan : ExecutionPlan) (nodeId : NodeId) : Finset NodeId :=
  (((plan.edges.filter (·.target.nodeId = nodeId)).filter (·.contract.requiresOof)).map
    (·.source.nodeId)).toFinset

def oofBase (plan : ExecutionPlan) (nodeId : NodeId) : Finset NodeId :=
  plan.dependencyClosure (plan.oofSources nodeId)

theorem mem_oofBase : u ∈ plan.oofBase m ↔
    ∃ s ∈ plan.oofSources m, Ancestor plan.arcs u s := mem_dependencyClosure

theorem ancestor_of_oofSources (h : s ∈ plan.oofSources m) : Ancestor plan.arcs s m := by
  simp only [oofSources, List.mem_toFinset, List.mem_map, List.mem_filter,
    decide_eq_true_eq] at h
  obtain ⟨edge, ⟨⟨he, rfl⟩, -⟩, rfl⟩ := h
  exact .of_arc (List.mem_map.mpr ⟨edge, he, rfl⟩)

theorem ancestor_of_oofBase (h : u ∈ plan.oofBase m) : Ancestor plan.arcs u m := by
  obtain ⟨s, hs, hpath⟩ := mem_oofBase.mp h
  exact hpath.trans (ancestor_of_oofSources hs)

theorem oofBase_trans (h : u ∈ plan.oofBase d) (h' : d ∈ plan.oofBase m) : u ∈ plan.oofBase m := by
  obtain ⟨s, hs, hpath⟩ := mem_oofBase.mp h'
  exact mem_oofBase.mpr ⟨s, hs, (ancestor_of_oofBase h).trans hpath⟩

@[simp] theorem oofBase_scopedTo {foldSet : FoldSet} :
    (plan.scopedTo foldSet).oofBase nodeId = plan.oofBase nodeId := by
  ext u
  rw [mem_oofBase, mem_oofBase]
  rfl

/-- What a campaign says about its meta node; `outer` is the plan's fold set. -/
structure CampaignOf (plan : ExecutionPlan) (outer : FoldSet) (nodeId : NodeId)
    (nested : NestedStackingCampaignPlan) : Prop where
  node : nested.metaNodeId = nodeId
  base : nested.baseNodeIds = plan.oofBase nodeId
  apart : nodeId ∉ plan.oofBase nodeId
  scopes : nested.outerScopes.map (·.outerFoldId) = outer.folds.map (·.foldId)
  schedulable : ∃ nodePlan, plan.nodePlans[nodeId]? = some nodePlan ∧
    .fitCv ∈ nodePlan.supportedPhases

theorem nestedMetaInputs_ok (h : plan.nestedMetaInputs metaNode = .ok (kind, base, data)) :
    base = plan.oofBase metaNode.id ∧ metaNode.id ∉ base ∧
      ∃ nodePlan, plan.nodePlans[metaNode.id]? = some nodePlan ∧
        .fitCv ∈ nodePlan.supportedPhases := by
  simp only [nestedMetaInputs, bind_ok, need_ok, refuseIf_ok, pure_ok, Prod.mk.injEq,
    not_not] at h
  obtain ⟨nodePlan, hplan, _, hphase, _, -, _, -, _, hapart, _, -, -, rfl, -⟩ := h
  exact ⟨rfl, hapart, nodePlan, hplan, hphase⟩

theorem nestedStackingCampaignPlanForNode_ok
    (h : plan.nestedStackingCampaignPlanForNode externals nodeId = .ok (some nested)) :
    ∃ outer, plan.foldSet = some outer ∧ CampaignOf plan outer nodeId nested := by
  simp only [nestedStackingCampaignPlanForNode, bind_ok] at h
  obtain ⟨requested, -, h⟩ := h
  split at h
  · cases h
  · simp only [bind_ok, need_ok, refuseIf_ok, pure_ok, Option.some.injEq] at h
    obtain ⟨metaNode, hnode, ⟨kind, base, data⟩, hinputs, outer, hfolds, _, -, spec, -, scopes,
      hscopes, _, -, _, -, _, -, rfl⟩ := h
    have hid : metaNode.id = nodeId := by simpa using List.find?_some hnode
    obtain ⟨hbase, hapart, hschedulable⟩ := nestedMetaInputs_ok hinputs
    rw [hid] at hbase hschedulable hapart
    refine ⟨outer, hfolds, rfl, hbase, hbase ▸ hapart, ?_, hschedulable⟩
    refine map_of_collect hscopes fun fold scope hscope => ?_
    simp only [bind_ok, pure_ok] at hscope
    obtain ⟨inner, -, rfl⟩ := hscope
    rfl

-- ---------------------------------------------------------------------------
-- What a campaign adds
-- ---------------------------------------------------------------------------

variable {foldSet inner : FoldSet} {fits fits' : List MetaFit}

theorem executeDependentMeta_ok {execute : CampaignRun}
    (h : plan.executeDependentMeta externals execute nested foldSet fits nodeId = .ok fits') :
    (fits' = fits ∧ (nodeId ∈ nested.baseNodeIds →
      plan.isNestedStackingMetaNode nodeId = .ok true →
      presentFolds fits nodeId foldSet = foldSet.folds.length)) ∨
    (nodeId ∈ nested.baseNodeIds ∧ plan.isNestedStackingMetaNode nodeId = .ok true ∧
      presentFolds fits nodeId foldSet = 0 ∧ foldSet.folds ≠ [] ∧ ∃ campaign,
        CampaignOf (plan.scopedTo foldSet) foldSet nodeId campaign ∧
          execute (plan.scopedTo foldSet) campaign fits = .ok fits') := by
  simp only [executeDependentMeta, bind_ok] at h
  obtain ⟨dependent, hdependent, h⟩ := h
  unfold isDependentMeta at hdependent
  split at h
  · rename_i hno
    refine .inl ⟨(pure_ok.mp h).symm, fun hbase hmeta => ?_⟩
    rw [if_pos hbase, hmeta] at hdependent
    cases hdependent
    cases hno
  · rename_i hyes
    have hbase : nodeId ∈ nested.baseNodeIds := by
      by_contra hnot
      rw [if_neg hnot] at hdependent
      cases hdependent
      exact hyes rfl
    obtain rfl : dependent = true := by simpa using hyes
    rw [if_pos hbase] at hdependent
    split at h
    · rename_i hpresent
      exact .inl ⟨(pure_ok.mp h).symm, fun _ _ => hpresent⟩
    · rename_i hmissing
      simp only [bind_ok, refuseIf_ok, need_ok, not_not] at h
      obtain ⟨_, hnone, campaign, hcampaign, campaign', rfl, hexec⟩ := h
      refine .inr ⟨hbase, hdependent, hnone, ?_, campaign', ?_, hexec⟩
      · intro hempty
        exact hmissing (by simp [presentFolds, hempty])
      · obtain ⟨outer, houter, hof⟩ := nestedStackingCampaignPlanForNode_ok hcampaign
        cases houter
        exact hof

/-- The fits of a campaign are of its meta and of what that depends on, and
lie inside its scope. -/
def Within (plan : ExecutionPlan) (parents : List FoldId) (m : NodeId) (fit : MetaFit) : Prop :=
  (fit.node = m ∨ fit.node ∈ plan.oofBase m) ∧ parents <+: fit.parents

/-- Only what the meta depends on. -/
def Below (plan : ExecutionPlan) (parents : List FoldId) (m : NodeId) (fit : MetaFit) : Prop :=
  fit.node ∈ plan.oofBase m ∧ parents <+: fit.parents

def Confined (execute : CampaignRun) (parents : List FoldId) : Prop :=
  ∀ (plan : ExecutionPlan) outer m nested fits fits', CampaignOf plan outer m nested →
    execute plan nested fits = .ok fits' → Grows (plan.Within parents m) fits fits'

theorem executeDependentMeta_grows {execute : CampaignRun}
    (hexec : Confined execute parents) (hof : CampaignOf plan outer m nested)
    (h : plan.executeDependentMeta externals execute nested foldSet fits nodeId = .ok fits') :
    Grows (plan.Below parents m) fits fits' := by
  rcases executeDependentMeta_ok h with ⟨rfl, -⟩ | ⟨hbase, -, -, -, campaign, hcampaign, hrun⟩
  · exact .refl fits'
  · rw [hof.base] at hbase
    refine (hexec _ _ _ _ _ _ hcampaign hrun).mono ?_
    rintro fit ⟨rfl | hnode, hparents⟩
    · exact ⟨hbase, hparents⟩
    · rw [oofBase_scopedTo] at hnode
      exact ⟨oofBase_trans hnode hbase, hparents⟩

theorem executeDependentMetaCampaigns_grows {execute : CampaignRun}
    (hexec : Confined execute parents) (hof : CampaignOf plan outer m nested)
    (h : plan.executeDependentMetaCampaigns externals execute nested foldSet fits = .ok fits') :
    Grows (plan.Below parents m) fits fits' := by
  simp only [executeDependentMetaCampaigns, bind_ok] at h
  obtain ⟨levels, -, h⟩ := h
  exact Grows.loop (fun _ _ _ => executeDependentMeta_grows hexec hof) h

theorem executeAutoGate_grows {execute : List FoldId → CampaignRun}
    (hexec : ∀ parents, Confined (execute parents) parents) (hof : CampaignOf plan outer m nested)
    (h : plan.executeAutoGate externals execute nested parents inner fits = .ok fits') :
    Grows (plan.Within parents m) fits fits' := by
  unfold executeAutoGate at h
  split at h
  · refine Grows.loop (fun fits innerFold fits' hstep => ?_) h
    simp only [bind_ok, pure_ok] at hstep
    obtain ⟨subinner, -, mid, hmid, rfl⟩ := hstep
    refine ((executeDependentMetaCampaigns_grows (hexec _) hof hmid).mono ?_).trans (.snoc ?_)
    · rintro fit ⟨hnode, hparents⟩
      exact ⟨.inr hnode, (List.prefix_append parents _).trans hparents⟩
    · exact ⟨.inl hof.node, List.prefix_rfl⟩
  · cases h
    exact .refl fits

/-- An outer scope adds fits inside it, and last the fit of the meta on its fold. -/
theorem executeOuterScope_grows {execute : List FoldId → CampaignRun}
    {scope : NestedStackingOuterScope}
    (hexec : ∀ parents, Confined (execute parents) parents) (hof : CampaignOf plan outer m nested)
    (h : plan.executeOuterScope externals execute nested parents fits scope = .ok fits') :
    ∃ mid, Grows (plan.Within (parents ++ [scope.outerFoldId]) m) fits mid ∧
      fits' = mid ++ [⟨parents, m, scope.outerFoldId⟩] := by
  simp only [executeOuterScope, bind_ok, pure_ok] at h
  obtain ⟨base, hbase, mid, hmid, rfl⟩ := h
  refine ⟨mid, ?_, by rw [hof.node]⟩
  refine ((executeDependentMetaCampaigns_grows (hexec _) hof hbase).mono ?_).trans
    (executeAutoGate_grows hexec hof hmid)
  rintro fit ⟨hnode, hparents⟩
  exact ⟨.inr hnode, hparents⟩

theorem executeNestedStackingFitCv_confined (fuel : Nat) (parents : List FoldId) :
    Confined (executeNestedStackingFitCv externals fuel parents) parents := by
  induction fuel generalizing parents with
  | zero =>
    intro plan outer m nested fits fits' _ h
    cases h
  | succ fuel ih =>
    intro plan outer m nested fits fits' hof h
    simp only [executeNestedStackingFitCv, bind_ok] at h
    obtain ⟨base, hbase, hscopes⟩ := h
    have hdependents : Grows (plan.Within parents m) fits base := by
      unfold executeDependentsOfPlan at hbase
      split at hbase
      · exact (executeDependentMetaCampaigns_grows (ih parents) hof hbase).mono
          fun fit hfit => ⟨.inr hfit.1, hfit.2⟩
      · cases hbase
        exact .refl fits
    refine hdependents.trans (Grows.loop (fun fits scope fits' hstep => ?_) hscopes)
    obtain ⟨mid, hmid, rfl⟩ := executeOuterScope_grows (fun parents => ih parents) hof hstep
    refine (hmid.mono ?_).trans (.snoc ⟨.inl rfl, List.prefix_rfl⟩)
    rintro fit ⟨hnode, hparents⟩
    exact ⟨hnode, (List.prefix_append parents _).trans hparents⟩

-- ---------------------------------------------------------------------------
-- The fuel
-- ---------------------------------------------------------------------------

theorem executeDependentMeta_congr {execute execute' : CampaignRun}
    (hof : CampaignOf plan outer m nested)
    (h : ∀ d ∈ plan.oofBase m, ∀ campaign, CampaignOf (plan.scopedTo foldSet) foldSet d campaign →
      ∀ fits, execute (plan.scopedTo foldSet) campaign fits =
        execute' (plan.scopedTo foldSet) campaign fits) :
    plan.executeDependentMeta externals execute nested foldSet =
      plan.executeDependentMeta externals execute' nested foldSet := by
  funext fits d
  unfold executeDependentMeta
  cases hdependent : plan.isDependentMeta nested d with
  | error e => rfl
  | ok dependent =>
    cases dependent with
    | false => rfl
    | true =>
      have hd : d ∈ plan.oofBase m := by
        by_contra hnot
        rw [isDependentMeta, if_neg (hof.base ▸ hnot)] at hdependent
        cases hdependent
      cases hcampaign : (plan.scopedTo foldSet).nestedStackingCampaignPlanForNode externals d with
      | error e => rfl
      | ok campaign =>
        cases campaign with
        | none => rfl
        | some campaign =>
          obtain ⟨outer', houter, hof'⟩ := nestedStackingCampaignPlanForNode_ok hcampaign
          cases houter
          simp only [need, bind, Except.bind, h d hd campaign hof']

theorem executeDependentMetaCampaigns_congr {execute execute' : CampaignRun}
    (hof : CampaignOf plan outer m nested)
    (h : ∀ d ∈ plan.oofBase m, ∀ (foldSet : FoldSet) campaign,
      CampaignOf (plan.scopedTo foldSet) foldSet d campaign →
      ∀ fits, execute (plan.scopedTo foldSet) campaign fits =
        execute' (plan.scopedTo foldSet) campaign fits) :
    plan.executeDependentMetaCampaigns externals execute nested foldSet fits =
      plan.executeDependentMetaCampaigns externals execute' nested foldSet fits := by
  unfold executeDependentMetaCampaigns
  rw [executeDependentMeta_congr hof fun d hd => h d hd foldSet]

/-- Below a meta the base closures shrink. -/
theorem card_oofBase_lt (hd : d ∈ plan.oofBase m) (hapart : d ∉ plan.oofBase d) :
    (plan.oofBase d).card < (plan.oofBase m).card := by
  refine Finset.card_lt_card (Finset.ssubset_iff_of_subset ?_ |>.mpr ⟨d, hd, hapart⟩)
  exact fun u hu => oofBase_trans hu hd

/-- More fuel than there are nodes below the meta changes nothing. -/
theorem executeNestedStackingFitCv_fuel (hof : CampaignOf plan outer m nested)
    (hfuel : (plan.oofBase m).card < fuel) (hfuel' : (plan.oofBase m).card < fuel')
    (parents : List FoldId) (fits : List MetaFit) :
    executeNestedStackingFitCv externals fuel parents plan nested fits =
      executeNestedStackingFitCv externals fuel' parents plan nested fits := by
  induction fuel generalizing fuel' plan outer m nested parents fits with
  | zero => exact absurd hfuel (Nat.not_lt_zero _)
  | succ fuel ih =>
    cases fuel' with
    | zero => exact absurd hfuel' (Nat.not_lt_zero _)
    | succ fuel' =>
      have hbelow (parents : List FoldId) (d : NodeId) (hd : d ∈ plan.oofBase m)
          (foldSet : FoldSet) (campaign : NestedStackingCampaignPlan)
          (hof' : CampaignOf (plan.scopedTo foldSet) foldSet d campaign) (fits : List MetaFit) :
          executeNestedStackingFitCv externals fuel parents (plan.scopedTo foldSet) campaign fits =
            executeNestedStackingFitCv externals fuel' parents (plan.scopedTo foldSet) campaign
              fits := by
        have hcard := card_oofBase_lt hd (oofBase_scopedTo ▸ hof'.apart)
        refine ih hof' ?_ ?_ parents fits <;> rw [oofBase_scopedTo] <;> omega
      have hscope (fits : List MetaFit) (scope : NestedStackingOuterScope) :
          plan.executeOuterScope externals (executeNestedStackingFitCv externals fuel) nested
              parents fits scope =
            plan.executeOuterScope externals (executeNestedStackingFitCv externals fuel') nested
              parents fits scope := by
        simp only [executeOuterScope, executeAutoGate,
          executeDependentMetaCampaigns_congr hof (hbelow _)]
      simp only [executeNestedStackingFitCv, executeDependentsOfPlan,
        executeDependentMetaCampaigns_congr hof (hbelow _), funext₂ hscope]

theorem card_oofBase_lt_nodes (hgraph : plan.graphPlan.graph.validate = .ok ())
    (hm : m ∈ plan.graphPlan.graph.nodeIds) (hapart : m ∉ plan.oofBase m) :
    (plan.oofBase m).card < plan.graphPlan.graph.nodes.length := by
  have hends := (GraphSpec.validate_ok.mp hgraph).1.ends
  have hsub : plan.oofBase m ⊆ plan.graphPlan.graph.nodeIds.erase m := by
    intro u hu
    refine Finset.mem_erase.mpr ⟨fun heq => hapart (heq ▸ hu), ?_⟩
    rcases Relation.ReflTransGen.cases_head (ancestor_of_oofBase hu) with rfl | ⟨v, harc, -⟩
    · exact hm
    · obtain ⟨edge, hedge, heq⟩ := List.mem_map.mp harc
      cases heq
      exact (hends edge hedge).1
  calc (plan.oofBase m).card
      ≤ (plan.graphPlan.graph.nodeIds.erase m).card := Finset.card_le_card hsub
    _ < plan.graphPlan.graph.nodeIds.card := Finset.card_erase_lt_of_mem hm
    _ ≤ plan.graphPlan.graph.nodes.length := by
        rw [← List.length_map (f := (·.id))]
        exact List.toFinset_card_le _

/-- The nodes of the graph are fuel enough: a run of the campaigns is the same
for any larger fuel. -/
theorem executeStackingCampaigns_fuel (hgraph : plan.graphPlan.graph.validate = .ok ())
    (hfuel : plan.graphPlan.graph.nodes.length ≤ fuel)
    (hplans : ∀ nested ∈ campaigns, ∃ outer m, m ∈ plan.graphPlan.graph.nodeIds ∧
      CampaignOf plan outer m nested) (fits : List MetaFit) :
    loop (fun fits nested => executeNestedStackingFitCv externals fuel [] plan nested fits) fits
        campaigns =
      loop (fun fits nested => executeNestedStackingFitCv externals
        plan.graphPlan.graph.nodes.length [] plan nested fits) fits campaigns := by
  induction campaigns generalizing fits with
  | nil => rfl
  | cons nested campaigns ih =>
    rw [List.forall_mem_cons] at hplans
    obtain ⟨⟨outer, m, hm, hof⟩, hrest⟩ := hplans
    have hcard := card_oofBase_lt_nodes hgraph hm hof.apart
    rw [loop, loop, executeNestedStackingFitCv_fuel hof (hcard.trans_le hfuel) hcard]
    congr 1
    funext fits
    exact ih hrest fits

end ExecutionPlan

end DagMl
