import DagMl.Runtime.StackingRun

/-!
# Each meta node is fitted once

In FIT_CV the campaigns of the terminal metas fit every meta below them once
on each outer fold: the first campaign that needs it runs it, and the others
find its rows. The invariant is that a meta has no fit yet or exactly one on
each fold.
-/

namespace DagMl

open Checked Ledger Worklist

namespace ExecutionPlan

variable {externals : Externals} {plan : ExecutionPlan} {foldSet : FoldSet}
  {fits fits' : List MetaFit}

-- ---------------------------------------------------------------------------
-- Once on every outer fold
-- ---------------------------------------------------------------------------

/-- Fitted exactly once on each fold of the plan's own fold set. -/
def FitOnce (outer : FoldSet) (m : NodeId) (fits : List MetaFit) : Prop :=
  ∀ fold ∈ outer.folds, fits.count ⟨[], m, fold.foldId⟩ = 1

def Unfitted (m : NodeId) (fits : List MetaFit) : Prop := ∀ fit ∈ fits, fit.node ≠ m

def Settled (outer : FoldSet) (m : NodeId) (fits : List MetaFit) : Prop :=
  Unfitted m fits ∨ FitOnce outer m fits

variable {outer : FoldSet} {P : MetaFit → Prop}

theorem Unfitted.grows (h : Unfitted m fits) (hg : Grows P fits fits')
    (hp : ∀ fit, P fit → fit.node ≠ m) : Unfitted m fits' := by
  obtain ⟨added, rfl, hadded⟩ := hg
  intro fit hfit
  rcases List.mem_append.mp hfit with hfit | hfit
  · exact h fit hfit
  · exact hp fit (hadded fit hfit)

theorem FitOnce.grows (h : FitOnce outer m fits) (hg : Grows P fits fits')
    (hp : ∀ fit, P fit → fit.node ≠ m) : FitOnce outer m fits' := by
  intro fold hfold
  rw [hg.count_eq fun hpm => hp _ hpm rfl]
  exact h fold hfold

theorem Settled.grows (h : Settled outer m fits) (hg : Grows P fits fits')
    (hp : ∀ fit, P fit → fit.node ≠ m) : Settled outer m fits' := by
  rcases h with h | h
  · exact .inl (h.grows hg hp)
  · exact .inr (h.grows hg hp)

theorem Unfitted.present (h : Unfitted m fits) : presentFolds fits m outer = 0 := by
  rw [presentFolds, List.countP_eq_zero]
  intro fold _ hany
  obtain ⟨fit, hfit, hmatch⟩ := List.any_eq_true.mp hany
  exact h fit hfit (of_decide_eq_true hmatch).1

theorem FitOnce.present (h : FitOnce outer m fits) :
    presentFolds fits m outer = outer.folds.length := by
  rw [presentFolds, List.countP_eq_length]
  intro fold hfold
  have hmem := List.count_pos_iff.mp ((h fold hfold).symm ▸ Nat.one_pos)
  exact List.any_eq_true.mpr ⟨_, hmem, by simp⟩

theorem Settled.once (h : Settled outer m fits)
    (hpresent : presentFolds fits m outer = outer.folds.length) : FitOnce outer m fits := by
  rcases h with h | h
  · -- nothing is stored, so there is no fold
    rw [h.present] at hpresent
    intro fold hfold
    rw [List.length_eq_zero_iff.mp hpresent.symm] at hfold
    cases hfold
  · exact h

theorem Settled.unfitted (h : Settled outer m fits) (hpresent : presentFolds fits m outer = 0)
    (hne : outer.folds ≠ []) : Unfitted m fits := by
  rcases h with h | h
  · exact h
  · rw [h.present] at hpresent
    exact absurd (List.length_eq_zero_iff.mp hpresent) hne

/-- A meta node that FIT_CV schedules. -/
structure Active (plan : ExecutionPlan) (m : NodeId) : Prop where
  meta_node : plan.isNestedStackingMetaNode m = .ok true
  scheduled : ∃ levels, plan.nodeParallelLevelsForPhase .fitCv = .ok levels ∧ m ∈ levels.flatten

theorem active_scopedTo : (plan.scopedTo foldSet).Active m ↔ plan.Active m :=
  ⟨fun ⟨h, h'⟩ => ⟨h, h'⟩, fun ⟨h, h'⟩ => ⟨h, h'⟩⟩

/-- A run that finds the metas below in order and its own meta unfitted leaves
all of them fitted once. -/
def RunsOnce (outer : FoldSet) (execute : CampaignRun) : Prop :=
  ∀ (plan : ExecutionPlan) m nested fits fits', plan.foldSet = some outer →
    CampaignOf plan outer m nested → execute plan nested fits = .ok fits' →
    (∀ d ∈ plan.oofBase m, plan.Active d → Settled outer d fits) → Unfitted m fits →
    (∀ d ∈ plan.oofBase m, plan.Active d → FitOnce outer d fits') ∧ FitOnce outer m fits'

theorem executeDependentMeta_once {execute : CampaignRun} (hconf : Confined execute [])
    (hrun : RunsOnce outer execute) (hof : CampaignOf plan outer m nested)
    (h : plan.executeDependentMeta externals execute nested outer fits d = .ok fits')
    (hset : ∀ d ∈ plan.oofBase m, plan.Active d → Settled outer d fits)
    (hscheduled : ∃ levels, plan.nodeParallelLevelsForPhase .fitCv = .ok levels ∧
      d ∈ levels.flatten) :
    (d ∈ plan.oofBase m → plan.Active d → FitOnce outer d fits') ∧
      ∀ d' ∈ plan.oofBase m, plan.Active d' →
        Settled outer d' fits' ∧ (FitOnce outer d' fits → FitOnce outer d' fits') := by
  rcases executeDependentMeta_ok h with ⟨rfl, hskip⟩ |
    ⟨hbase, hmeta, hnone, hne, campaign, hcampaign, hexec⟩
  · refine ⟨fun hbase hactive => ?_, fun d' hd' hactive => ⟨hset d' hd' hactive, fun h => h⟩⟩
    exact (hset d hbase hactive).once (hskip (hof.base ▸ hbase) hactive.meta_node)
  · rw [hof.base] at hbase
    obtain ⟨hbelow, honce⟩ := hrun _ _ _ _ _ rfl hcampaign hexec
      (fun d' hd' hactive => hset d' (oofBase_trans (oofBase_scopedTo ▸ hd') hbase)
        (active_scopedTo.mp hactive))
      ((hset d hbase ⟨hmeta, hscheduled⟩).unfitted hnone hne)
    refine ⟨fun _ _ => honce, fun d' hd' hactive => ?_⟩
    by_cases heq : d' = d
    · subst heq
      exact ⟨.inr honce, fun _ => honce⟩
    · by_cases hin : d' ∈ plan.oofBase d
      · have hd'once := hbelow d' (by rwa [oofBase_scopedTo]) (active_scopedTo.mpr hactive)
        exact ⟨.inr hd'once, fun _ => hd'once⟩
      · -- the run fitted other nodes only
        have hgrows := hconf _ _ _ _ _ _ hcampaign hexec
        have hother (fit : MetaFit) (hfit : (plan.scopedTo outer).Within [] d fit) :
            fit.node ≠ d' := by
          rintro rfl
          rcases hfit.1 with hnode | hnode
          · exact heq hnode
          · exact hin (oofBase_scopedTo ▸ hnode)
        exact ⟨(hset d' hd' hactive).grows hgrows hother, fun h => h.grows hgrows hother⟩

theorem executeDependentMetaCampaigns_once {execute : CampaignRun} (hconf : Confined execute [])
    (hrun : RunsOnce outer execute) (hof : CampaignOf plan outer m nested)
    (h : plan.executeDependentMetaCampaigns externals execute nested outer fits = .ok fits')
    (hset : ∀ d ∈ plan.oofBase m, plan.Active d → Settled outer d fits) :
    ∀ d ∈ plan.oofBase m, plan.Active d → FitOnce outer d fits' := by
  simp only [executeDependentMetaCampaigns, bind_ok] at h
  obtain ⟨levels, hlevels, h⟩ := h
  have general (l : List NodeId) (hl : ∀ d ∈ l, d ∈ levels.flatten) (fits : List MetaFit)
      (hset : ∀ d ∈ plan.oofBase m, plan.Active d → Settled outer d fits)
      (h : loop (plan.executeDependentMeta externals execute nested outer) fits l = .ok fits') :
      ∀ d ∈ plan.oofBase m, plan.Active d → (d ∈ l ∨ FitOnce outer d fits) →
        FitOnce outer d fits' := by
    induction l generalizing fits with
    | nil =>
      cases h
      intro d _ _ hd
      exact hd.resolve_left List.not_mem_nil
    | cons x xs ih =>
      obtain ⟨mid, hx, hxs⟩ := loop_cons.mp h
      obtain ⟨hfitted, hkeeps⟩ := executeDependentMeta_once hconf hrun hof hx hset
        ⟨levels, hlevels, hl x List.mem_cons_self⟩
      refine fun d hd hactive hwhere => ih (fun d hd => hl d (List.mem_cons_of_mem x hd)) mid
        (fun d hd hactive => (hkeeps d hd hactive).1) hxs d hd hactive ?_
      rcases hwhere with hmem | honce
      · rcases List.mem_cons.mp hmem with rfl | hmem
        · exact .inr (hfitted hd hactive)
        · exact .inl hmem
      · exact .inr ((hkeeps d hd hactive).2 honce)
  intro d hd hactive
  obtain ⟨levels', hlevels', hmem⟩ := hactive.scheduled
  cases hlevels.symm.trans hlevels'
  exact general levels.flatten (fun _ hl => hl) fits hset h d hd hactive (.inl hmem)

/-- The outer scopes fit the meta once on each fold, and nothing else in the
plan's own fold set. -/
theorem executeOuterScopes_count {execute : List FoldId → CampaignRun}
    {scopes : List NestedStackingOuterScope}
    (hexec : ∀ parents, Confined (execute parents) parents) (hof : CampaignOf plan outer m nested)
    (h : loop (plan.executeOuterScope externals execute nested []) fits scopes = .ok fits')
    (d : NodeId) (fold : FoldId) :
    fits'.count ⟨[], d, fold⟩ =
      fits.count ⟨[], d, fold⟩ + if d = m then (scopes.map (·.outerFoldId)).count fold else 0 := by
  refine loop_invariant (fun done s => s.count ⟨[], d, fold⟩ = fits.count ⟨[], d, fold⟩ +
    if d = m then (done.map (·.outerFoldId)).count fold else 0) (by simp) ?_ h
  intro done scope s s' hs hstep
  obtain ⟨mid, hmid, rfl⟩ := executeOuterScope_grows hexec hof hstep
  have hinside : ¬plan.Within ([] ++ [scope.outerFoldId]) m ⟨[], d, fold⟩ := by
    rintro ⟨-, hparents⟩
    simp at hparents
  rw [List.count_append, hmid.count_eq hinside, hs, List.map_append, List.count_append]
  by_cases hd : d = m
  · subst hd
    simp [List.count_singleton, Nat.add_assoc]
  · simp [hd, Ne.symm hd]

theorem executeNestedStackingFitCv_once (hfolds : (outer.folds.map (·.foldId)).Nodup)
    (fuel : Nat) : RunsOnce outer (executeNestedStackingFitCv externals fuel []) := by
  induction fuel with
  | zero =>
    intro plan m nested fits fits' _ _ h
    cases h
  | succ fuel ih =>
    intro plan m nested fits fits' houter hof h hset hnew
    simp only [executeNestedStackingFitCv, executeDependentsOfPlan, houter, bind_ok] at h
    obtain ⟨base, hbase, hscopes⟩ := h
    have hconf (parents : List FoldId) :
        Confined (executeNestedStackingFitCv externals fuel parents) parents :=
      executeNestedStackingFitCv_confined fuel parents
    have hbelow := executeDependentMetaCampaigns_once (hconf []) ih hof hbase hset
    have hnew' : Unfitted m base := by
      refine hnew.grows (executeDependentMetaCampaigns_grows (hconf []) hof hbase) ?_
      rintro fit ⟨hnode, -⟩ rfl
      exact hof.apart hnode
    have hcount := executeOuterScopes_count hconf hof hscopes
    constructor
    · intro d hd hactive fold hfold
      have hne : d ≠ m := fun heq => hof.apart (heq ▸ hd)
      rw [hcount, if_neg hne, Nat.add_zero]
      exact hbelow d hd hactive fold hfold
    · intro fold hfold
      have hzero : base.count ⟨[], m, fold.foldId⟩ = 0 :=
        List.count_eq_zero_of_not_mem fun hmem => hnew' _ hmem rfl
      rw [hcount, if_pos rfl, hzero, Nat.zero_add, hof.scopes]
      exact List.count_eq_one_of_mem hfolds (List.mem_map_of_mem hfold)

-- ---------------------------------------------------------------------------
-- The campaigns of a plan
-- ---------------------------------------------------------------------------

theorem nestedStackingCampaignPlans_ok
    (h : plan.nestedStackingCampaignPlans externals = .ok campaigns) :
    ∃ requested, plan.nestedStackingMetaNodes = .ok requested ∧
      List.Forall₂ (fun t nested => ∃ outer, plan.foldSet = some outer ∧
        CampaignOf plan outer t nested) (plan.terminalMetas requested) campaigns := by
  simp only [nestedStackingCampaignPlans, bind_ok] at h
  obtain ⟨found, hfound, h⟩ := h
  refine ⟨found.reduceOption, ?_, (collect_ok.mp h).imp fun t nested hnested => ?_⟩
  · rw [nestedStackingMetaNodes, hfound]
    rfl
  · simp only [bind_ok, need_ok] at hnested
    obtain ⟨campaign, hcampaign, rfl⟩ := hnested
    exact nestedStackingCampaignPlanForNode_ok hcampaign

theorem mem_nestedStackingMetaNodes (h : plan.nestedStackingMetaNodes = .ok requested) :
    m ∈ requested ↔ m ∈ plan.graphPlan.graph.nodeIds ∧
      plan.isNestedStackingMetaNode m = .ok true := by
  simp only [nestedStackingMetaNodes, bind_ok, pure_ok] at h
  obtain ⟨found, hfound, rfl⟩ := h
  have hall := collect_ok.mp hfound
  rw [List.reduceOption_mem_iff, GraphSpec.nodeIds, List.mem_toFinset, List.mem_map]
  constructor
  · intro hm
    obtain ⟨node, hnode, hnested⟩ := exists_left_of_mem hall hm
    simp only [bind_ok, pure_ok] at hnested
    obtain ⟨nested, hnested, hsome⟩ := hnested
    split at hsome
    · cases hsome
      rename_i htrue
      exact ⟨⟨node, hnode, rfl⟩, htrue ▸ hnested⟩
    · cases hsome
  · rintro ⟨⟨node, hnode, rfl⟩, hmeta⟩
    obtain ⟨entry, hentry, hnested⟩ := exists_right_of_mem hall hnode
    simp only [hmeta, bind_ok, pure_ok] at hnested
    obtain ⟨nested, hnested, rfl⟩ := hnested
    cases hnested
    exact hentry

theorem sublist_nestedStackingMetaNodes (h : plan.nestedStackingMetaNodes = .ok requested) :
    requested.Sublist (plan.graphPlan.graph.nodes.map (·.id)) := by
  simp only [nestedStackingMetaNodes, bind_ok, pure_ok] at h
  obtain ⟨found, hfound, rfl⟩ := h
  have hall := collect_ok.mp hfound
  clear hfound
  generalize plan.graphPlan.graph.nodes = nodes at hall
  induction hall with
  | nil => exact .slnil
  | cons hnested _ ih =>
    simp only [bind_ok, pure_ok] at hnested
    obtain ⟨nested, -, rfl⟩ := hnested
    cases nested
    · exact ih.cons _
    · exact ih.cons_cons _

/-- The part of `ExecutionPlan::validate` that a campaign rests on. -/
structure Validated (plan : ExecutionPlan) : Prop where
  graph : plan.graphPlan.graph.validate = .ok ()
  levels : plan.graphPlan.storedLevels = [] ∨
    plan.graphPlan.graph.parallelLevels = .ok plan.graphPlan.storedLevels
  folds : ∀ outer, plan.foldSet = some outer → outer.validate = .ok ()

theorem Validated.parallelLevels (h : plan.Validated) :
    ∃ levels, plan.graphPlan.parallelLevels = .ok levels ∧
      levels.flatten.toFinset = plan.graphPlan.graph.nodeIds := by
  obtain ⟨levels, hlevels, -⟩ := ((GraphSpec.execution_order plan.graphPlan.graph).1 h.graph).2
  refine ⟨levels, ?_, (GraphSpec.parallelLevels_ok.mp hlevels).2.2.2⟩
  unfold GraphPlan.parallelLevels
  split
  · exact hlevels
  · rename_i hstored
    rcases h.levels with hnil | heq
    · rw [hnil] at hstored
      exact absurd rfl hstored
    · cases hlevels.symm.trans heq
      rfl

def SupportsFitCv (plan : ExecutionPlan) (m : NodeId) : Prop :=
  ∃ nodePlan, plan.nodePlans[m]? = some nodePlan ∧ .fitCv ∈ nodePlan.supportedPhases

theorem Validated.active (h : plan.Validated) (hnode : m ∈ plan.graphPlan.graph.nodeIds)
    (hmeta : plan.isNestedStackingMetaNode m = .ok true) (hphase : plan.SupportsFitCv m) :
    plan.Active m where
  meta_node := hmeta
  scheduled := by
    obtain ⟨levels, hlevels, hall⟩ := h.parallelLevels
    obtain ⟨nodePlan, hplan, hphase⟩ := hphase
    refine ⟨(levels.map fun level => level.filter fun nodeId =>
      plan.nodePlans[nodeId]?.any (.fitCv ∈ ·.supportedPhases)).filter (!·.isEmpty), ?_, ?_⟩
    · rw [nodeParallelLevelsForPhase, hlevels]
      rfl
    · rw [← hall, List.mem_toFinset, List.mem_flatten] at hnode
      obtain ⟨level, hlevel, hm⟩ := hnode
      rw [List.flatten_filter_not_isEmpty, List.mem_flatten]
      refine ⟨_, List.mem_map_of_mem hlevel, List.mem_filter.mpr ⟨hm, ?_⟩⟩
      simp [hplan, hphase]

/-- Terminal metas one after another: each finds itself unfitted, since no
other has it below. -/
theorem executeCampaigns_once (hfolds : (outer.folds.map (·.foldId)).Nodup)
    {terminals : List NodeId} {campaigns : List NestedStackingCampaignPlan} (fuel : Nat)
    (houter : plan.foldSet = some outer)
    (hplans : List.Forall₂ (fun t nested => CampaignOf plan outer t nested) terminals campaigns)
    (hapart : ∀ t ∈ terminals, ∀ t' ∈ terminals, t ∉ plan.oofBase t')
    (hactive : ∀ t ∈ terminals, plan.Active t) (hnodup : terminals.Nodup)
    (h : loop (fun fits nested => executeNestedStackingFitCv externals fuel [] plan nested fits)
      fits campaigns = .ok fits')
    (hset : ∀ d, plan.Active d → d ∉ terminals → Settled outer d fits)
    (hnew : ∀ t ∈ terminals, Unfitted t fits) :
    (∀ t ∈ terminals, FitOnce outer t fits' ∧
      ∀ d ∈ plan.oofBase t, plan.Active d → FitOnce outer d fits') ∧
    ∀ d, plan.Active d → d ∉ terminals → FitOnce outer d fits → FitOnce outer d fits' := by
  induction hplans generalizing fits with
  | nil =>
    cases h
    exact ⟨fun t ht => absurd ht List.not_mem_nil, fun _ _ _ honce => honce⟩
  | @cons t nested ts nesteds hof hplans ih =>
    obtain ⟨mid, hrun, hrest⟩ := loop_cons.mp h
    obtain ⟨hfirst, hnodup⟩ := List.nodup_cons.mp hnodup
    have hbase (d : NodeId) (hd : d ∈ plan.oofBase t) : d ∉ t :: ts :=
      fun hmem => hapart d hmem t List.mem_cons_self hd
    obtain ⟨hbelow, honce⟩ := executeNestedStackingFitCv_once hfolds fuel _ _ _ _ _ houter hof hrun
      (fun d hd hactive => hset d hactive (hbase d hd)) (hnew t List.mem_cons_self)
    have hgrows := executeNestedStackingFitCv_confined fuel [] _ _ _ _ _ _ hof hrun
    have hother (d : NodeId) (hne : d ≠ t) (hd : d ∉ plan.oofBase t) (fit : MetaFit)
        (hfit : plan.Within [] t fit) : fit.node ≠ d := by
      rintro rfl
      rcases hfit.1 with hnode | hnode
      · exact hne hnode
      · exact hd hnode
    have hkeeps (d : NodeId) (hactive : plan.Active d) (h : FitOnce outer d fits) :
        FitOnce outer d mid := by
      by_cases heq : d = t
      · exact heq ▸ honce
      · by_cases hd : d ∈ plan.oofBase t
        · exact hbelow d hd hactive
        · exact h.grows hgrows (hother d heq hd)
    have hnew' (t' : NodeId) (ht' : t' ∈ ts) : Unfitted t' mid := by
      refine (hnew t' (List.mem_cons_of_mem t ht')).grows hgrows (hother t' ?_ ?_)
      · rintro rfl
        exact hfirst ht'
      · exact hapart t' (List.mem_cons_of_mem t ht') t List.mem_cons_self
    have hset' (d : NodeId) (hactive : plan.Active d) (hd : d ∉ ts) : Settled outer d mid := by
      by_cases heq : d = t
      · exact .inr (heq ▸ honce)
      · by_cases hin : d ∈ plan.oofBase t
        · exact .inr (hbelow d hin hactive)
        · exact (hset d hactive (by simp [heq, hd])).grows hgrows (hother d heq hin)
    obtain ⟨hlater, hkeeps'⟩ := ih
      (fun t ht t' ht' => hapart t (List.mem_cons_of_mem _ ht) t' (List.mem_cons_of_mem _ ht'))
      (fun t ht => hactive t (List.mem_cons_of_mem _ ht)) hnodup hrest hset' hnew'
    refine ⟨fun t' ht' => ?_, fun d hd hout honce' => ?_⟩
    · rcases List.mem_cons.mp ht' with rfl | ht'
      · refine ⟨hkeeps' t' (hactive t' List.mem_cons_self) hfirst honce, fun d hd hdactive => ?_⟩
        exact hkeeps' d hdactive (List.not_mem_of_not_mem_cons (hbase d hd)) (hbelow d hd hdactive)
      · exact hlater t' ht'
    · exact hkeeps' d hd (List.not_mem_of_not_mem_cons hout) (hkeeps d hd honce')

/-- The dependency closure is the least closed set over its seeds, the closures
of the terminal metas have every meta, no terminal lies in the closure of
another, and a run in FIT_CV fits each terminal, and each meta in an OOF base of
one that the phase schedules, exactly once on each outer fold. -/
theorem terminal_campaigns_cover (plan : ExecutionPlan) (hplan : plan.Validated) :
    (∀ seeds, IsLeast {nodes : Finset NodeId | seeds ⊆ nodes ∧
      Topological.Closed plan.arcs nodes} (plan.dependencyClosure seeds)) ∧
    ∀ requested, plan.nestedStackingMetaNodes = .ok requested →
      (∀ m ∈ requested, m ∈ plan.terminalMetas requested ∨
        ∃ t ∈ plan.terminalMetas requested, t ≠ m ∧ m ∈ plan.dependencyClosure {t}) ∧
      (∀ t ∈ plan.terminalMetas requested, ∀ t' ∈ plan.terminalMetas requested,
        t ∈ plan.dependencyClosure {t'} → t = t') ∧
      ∀ externals outer fits, plan.foldSet = some outer →
        plan.executeStackingCampaigns externals = .ok fits → ∀ m ∈ requested,
        (m ∈ plan.terminalMetas requested ∨
          (∃ t ∈ plan.terminalMetas requested, m ∈ plan.oofBase t) ∧ plan.SupportsFitCv m) →
        ∀ fold ∈ outer.folds, fits.count ⟨[], m, fold.foldId⟩ = 1 := by
  have hgraph := GraphSpec.validate_ok.mp hplan.graph
  refine ⟨dependencyClosure_isLeast, fun requested hrequested => ⟨fun m hm => ?_, ?_, ?_⟩⟩
  · obtain ⟨t, ht, hpath⟩ := exists_terminalMeta hgraph.2 hm
    by_cases heq : t = m
    · exact .inl (heq ▸ ht)
    · exact .inr ⟨t, ht, heq, mem_dependencyClosure_singleton.mpr hpath⟩
  · intro t ht t' ht' hin
    exact ((mem_terminalMetas.mp ht).2 t' (mem_terminalMetas.mp ht').1
      (mem_dependencyClosure_singleton.mp hin)).symm
  · intro externals outer fits houter hrun m hm hwhere
    obtain ⟨campaigns, hcampaigns, hloop⟩ := bind_ok.mp hrun
    obtain ⟨requested', hrequested', hall⟩ := nestedStackingCampaignPlans_ok hcampaigns
    cases hrequested.symm.trans hrequested'
    have hplans : List.Forall₂ (fun t nested => CampaignOf plan outer t nested)
        (plan.terminalMetas requested) campaigns := by
      refine hall.imp fun t nested ⟨outer', houter', hof⟩ => ?_
      cases houter.symm.trans houter'
      exact hof
    have hmember := fun m => mem_nestedStackingMetaNodes (m := m) hrequested
    have hvalid := FoldSet.validate_ok.mp (hplan.folds outer houter)
    have hnodup : requested.Nodup :=
      (sublist_nestedStackingMetaNodes hrequested).nodup hgraph.1.ids_nodup
    have hapart (t : NodeId) (ht : t ∈ plan.terminalMetas requested) (t' : NodeId)
        (ht' : t' ∈ plan.terminalMetas requested) : t ∉ plan.oofBase t' := by
      intro hin
      have heq := (mem_terminalMetas.mp ht).2 t' (mem_terminalMetas.mp ht').1
        (ancestor_of_oofBase hin)
      subst heq
      obtain ⟨nested, -, hof⟩ := exists_right_of_mem hplans ht'
      exact hof.apart hin
    have hactive (t : NodeId) (ht : t ∈ plan.terminalMetas requested) : plan.Active t := by
      obtain ⟨hnode, hmeta⟩ := (hmember t).mp (mem_terminalMetas.mp ht).1
      obtain ⟨nested, -, hof⟩ := exists_right_of_mem hplans ht
      exact hplan.active hnode hmeta hof.schedulable
    obtain ⟨honce, -⟩ := executeCampaigns_once hvalid.foldIds_nodup _ houter hplans hapart hactive
      (hnodup.filter _) hloop (fun d _ _ => .inl (by simp [Unfitted])) (by simp [Unfitted])
    rcases hwhere with hterminal | ⟨⟨t, ht, hbelow⟩, hphase⟩
    · exact (honce m hterminal).1
    · obtain ⟨hnode, hmeta⟩ := (hmember m).mp hm
      exact (honce t ht).2 m hbelow (hplan.active hnode hmeta hphase)

-- ---------------------------------------------------------------------------
-- A meta below two terminals
-- ---------------------------------------------------------------------------

def sharedMeta : NodeId := ⟨"meta:shared", by decide⟩

/-- A meta over one base model, and two terminal metas over that meta. -/
def forkedGraph : GraphSpec :=
  let port (name : String) : PortSpec := ⟨name, .prediction, none, .one, none, none, none⟩
  let base : NodeId := ⟨"base:forked", by decide⟩
  let node (nodeId : NodeId) : NodeSpec :=
    ⟨nodeId, .model, none, ⟨[port "in"], [port "out"]⟩, .collect
      [(nestedStackingExecutionMetadataKey, .string nestedStackingExecutionV1)]⟩
  let edge (source target : NodeId) : EdgeSpec :=
    ⟨⟨source, "out"⟩, ⟨target, "in"⟩, { EdgeContract.new .prediction none with requiresOof := true }⟩
  let left : NodeId := ⟨"meta:left", by decide⟩
  let right : NodeId := ⟨"meta:right", by decide⟩
  { id := "graph:forked"
    interface := ⟨[], []⟩
    nodes := [⟨base, .model, none, ⟨[], [port "out"]⟩, ∅⟩, node sharedMeta, node left, node right]
    edges := [edge base sharedMeta, edge sharedMeta left, edge sharedMeta right]
    searchSpaceFingerprint := none
    metadata := ∅ }

def forkedFolds : FoldSet :=
  let sample (i : Fin 8) : SampleId := ⟨s!"forked:{i.val}", by revert i; decide⟩
  let early := [sample 0, sample 1, sample 2, sample 3]
  let late := [sample 4, sample 5, sample 6, sample 7]
  { id := "folds:forked"
    sampleIds := early ++ late
    folds := [⟨⟨"forked:a", by decide⟩, early, late, ∅⟩, ⟨⟨"forked:b", by decide⟩, late, early, ∅⟩]
    sampleGroups := ∅
    partitionMode := .partition
    trainExclusion := .relations
    targetMissingSampleIds := [] }

def forkedPlan : ExecutionPlan :=
  let nodePlan (nodeId : NodeId) : NodePlan := {
    nodeId, kind := .model, controllerId := ⟨"controller:forked", by decide⟩
    controllerVersion := "1", supportedPhases := {.fitCv, .refit}, trainingLosses := []
    inputNodes := [], shapePlan := none, dataBindings := [], innerCv := none
    paramsFingerprint := "" }
  { id := "plan:forked"
    graphPlan := ⟨forkedGraph, []⟩
    campaign := ⟨none, some (.kFold ⟨2, false, none⟩)⟩
    nodePlans := .collect (forkedGraph.nodes.map fun node => (node.id, nodePlan node.id))
    foldSet := some forkedFolds }

theorem forkedPlan_validated : forkedPlan.Validated where
  graph := by decide +kernel
  levels := .inl rfl
  folds := by
    rintro outer ⟨⟩
    decide +kernel

theorem terminal_campaigns_cover_forked :
    ∃ fits, forkedPlan.executeStackingCampaigns plainExternals = .ok fits ∧
      ∀ fold ∈ forkedFolds.folds, fits.count ⟨[], sharedMeta, fold.foldId⟩ = 1 := by
  have hok : (forkedPlan.executeStackingCampaigns plainExternals).toBool = true := by
    decide +kernel
  cases hrun : forkedPlan.executeStackingCampaigns plainExternals with
  | error e =>
    rw [hrun] at hok
    cases hok
  | ok fits =>
    have hmetas : ∃ requested, forkedPlan.nestedStackingMetaNodes = .ok requested ∧
        sharedMeta ∈ requested ∧ (∃ t ∈ forkedPlan.terminalMetas requested,
          sharedMeta ∈ forkedPlan.oofBase t) := by
      refine ⟨_, rfl, by decide +kernel, by decide +kernel⟩
    obtain ⟨requested, hrequested, hmem, hbelow⟩ := hmetas
    refine ⟨fits, rfl, ?_⟩
    exact ((terminal_campaigns_cover forkedPlan forkedPlan_validated).2 requested hrequested).2.2
      plainExternals forkedFolds fits rfl hrun sharedMeta hmem
      (.inr ⟨hbelow, _, rfl, by decide⟩)

/-- The shared meta lies in the closures of both terminals: running each closure
whole would run it twice. -/
theorem shared_meta_covered_twice :
    forkedPlan.graphPlan.graph.validate = .ok () ∧
      ∃ requested, forkedPlan.nestedStackingMetaNodes = .ok requested ∧ sharedMeta ∈ requested ∧
        ((forkedPlan.terminalMetas requested).flatMap fun t =>
          ascending (forkedPlan.dependencyClosure {t})).count sharedMeta = 2 := by
  refine ⟨by decide +kernel, _, rfl, by decide +kernel, by decide +kernel⟩

end ExecutionPlan

end DagMl
