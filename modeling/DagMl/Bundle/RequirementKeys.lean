import Mathlib
import DagMl.Bundle.DataRequirement
import DagMl.Lib.Entries

/-!
# Requirement keys

A key joins free identifiers and port names, so distinct coordinates can render
alike. The requirements of an accepted bundle pair off with the bindings and
out-of-fold edges of its plan exactly where no two of these share a key.
-/

namespace DagMl

open Checked

-- ---------------------------------------------------------------------------
-- Requirements and what they stand for
-- ---------------------------------------------------------------------------

/-- The binding a requirement stands for. -/
def BundleDataRequirement.binding (self : BundleDataRequirement) : DataBinding where
  nodeId := self.nodeId
  inputName := self.inputName
  schemaFingerprint := self.schemaFingerprint
  planFingerprint := self.planFingerprint
  relationFingerprint := self.relationFingerprint
  outputRepresentation := self.outputRepresentation
  featureSetId := self.featureSetId

/-- The two ports of an edge. -/
def EdgeSpec.ends (self : EdgeSpec) : PortRef × PortRef := (self.source, self.target)

/-- The two ports of the edge a requirement stands for. -/
def BundlePredictionRequirement.ends (self : BundlePredictionRequirement) : PortRef × PortRef :=
  (⟨self.producerNode, self.sourcePort⟩, ⟨self.consumerNode, self.targetPort⟩)

/-- The key of an edge with these ports. -/
def endsKey (ends : PortRef × PortRef) : String :=
  bundlePredictionRequirementKey ends.1.nodeId ends.1.portName ends.2.nodeId ends.2.portName

theorem EdgeSpec.requirementKey_eq (e : EdgeSpec) : e.requirementKey = endsKey e.ends := rfl

theorem BundlePredictionRequirement.key_eq (r : BundlePredictionRequirement) :
    r.key = endsKey r.ends := rfl

/-- No two data bindings of the plan share a requirement key and, where the bundle is
to be refitted, no two out-of-fold edges do. -/
structure ExecutionPlan.Unaliased (plan : ExecutionPlan) (phase : Phase) : Prop where
  bindings : (plan.dataBindings.map (·.requirementKey)).Nodup
  edges : phase = .refit → (plan.oofEdges.map (·.requirementKey)).Nodup

/-- The data requirements are the bindings of the plan, each once and with its own
content. Every out-of-fold requirement is for an edge of its own; a refit has one for
each edge. -/
structure ExecutionBundle.OneToOne {Rest : Type} (bundle : ExecutionBundle (DataSections Rest))
    (plan : ExecutionPlan) (phase : Phase) : Prop where
  data : (bundle.sections.dataRequirements.map (·.binding)).Perm plan.dataBindings
  supplied : (bundle.predictionRequirements.map (·.ends)).Subperm (plan.oofEdges.map (·.ends))
  refit : phase = .refit →
    (bundle.predictionRequirements.map (·.ends)).Perm (plan.oofEdges.map (·.ends))

-- ---------------------------------------------------------------------------
-- Lists with keys of their own
-- ---------------------------------------------------------------------------

/-- Elements with distinct keys are distinct. -/
theorem nodup_of_keys {α β κ : Type} (key : β → κ) {f : α → β} {l : List α}
    (h : (l.map fun a => key (f a)).Nodup) : (l.map f).Nodup := by
  apply List.Nodup.of_map key
  rw [List.map_map]
  exact h

/-- Distinct elements of a list no longer than they are its permutation. -/
theorem perm_of_subset {α : Type} {l l' : List α} (h : l.Nodup) (hsub : l ⊆ l')
    (hlen : l'.length ≤ l.length) : l.Perm l' :=
  (List.subperm_of_subset h hsub).perm_of_length_le hlen

-- ---------------------------------------------------------------------------
-- Data requirements
-- ---------------------------------------------------------------------------

namespace BundleDataRequirement

theorem matchesPlanRequirement_iff {r expected : BundleDataRequirement} :
    r.matchesPlanRequirement expected = true ↔ r.binding = expected.binding := by
  simp [matchesPlanRequirement, binding, and_assoc]

theorem binding_ofBinding (b : DataBinding) : (ofBinding b.nodeId b).binding = b := rfl

end BundleDataRequirement

/-- The bindings of an accepted plan name the node whose plan holds them. -/
theorem ExecutionPlan.validateNodePlans_ok {checks : NodePlanChecks} {plan : ExecutionPlan}
    (h : plan.validateNodePlans checks = .ok u) :
    ∀ entry ∈ plan.nodePlans.toList, ∀ b ∈ entry.2.dataBindings, b.nodeId = entry.2.nodeId := by
  simp only [validateNodePlans, bind_ok, each_ok, refuseIf_ok, not_not] at h
  obtain ⟨_, -, _, hkeys, _, -, _, hnodes, -⟩ := h
  intro entry hentry b hb
  obtain ⟨_, -, _, hbindings, -⟩ := hnodes entry hentry
  obtain ⟨_, howner, -⟩ := hbindings b hb
  exact howner.trans (hkeys entry hentry)

/-- What is expected of a bundle: the bindings, each as a requirement. -/
theorem collectDataRequirements_ok {checks : RepresentationChecks} {plan : ExecutionPlan}
    (howner : ∀ entry ∈ plan.nodePlans.toList, ∀ b ∈ entry.2.dataBindings,
      b.nodeId = entry.2.nodeId)
    (h : collectDataRequirements checks plan = .ok rs) :
    (rs.map (·.binding)).Perm plan.dataBindings := by
  simp only [collectDataRequirements, bind_ok, pure_ok] at h
  obtain ⟨_, -, rfl⟩ := h
  refine ((Keyed.perm_sortBy _ _).map _).trans (.of_eq ?_)
  rw [ExecutionPlan.dataBindings, List.map_flatMap]
  refine List.flatMap_congr fun entry hentry => ?_
  rw [List.map_map]
  refine (List.map_congr_left fun b hb => ?_).trans (List.map_id _)
  simp [← howner entry hentry b hb, BundleDataRequirement.binding_ofBinding]

-- ---------------------------------------------------------------------------
-- Accepted bundles
-- ---------------------------------------------------------------------------

namespace ExecutionBundle

variable {Rest : Type} {bundle : ExecutionBundle (DataSections Rest)} {plan : ExecutionPlan}

theorem checkDataRequirements_ok {checks : RepresentationChecks}
    (h : loop (bundle.checkDataRequirement checks) ∅ rs = .ok keys) :
    (rs.map (·.key)).Nodup := by
  have hindex : (∀ r ∈ rs, True) ∧ BTreeMap.IndexOf BundleDataRequirement.key rs keys := by
    refine BTreeMap.indexOf_loop ?_ h
    intro keys r keys' hstep
    simp only [checkDataRequirement, bind_ok, refuseIf_ok, pure_ok] at hstep
    obtain ⟨_, -, _, hnew, rfl⟩ := hstep
    exact ⟨trivial, hnew, rfl⟩
  exact hindex.2.nodup

/-- What the data requirements of an accepted bundle owe to the bindings. -/
structure BoundData (bundle : ExecutionBundle (DataSections Rest)) (plan : ExecutionPlan) :
    Prop where
  known : ∀ r ∈ bundle.sections.dataRequirements, r.binding ∈ plan.dataBindings
  count : (plan.dataBindings.map (·.requirementKey)).Nodup →
    bundle.sections.dataRequirements.length = plan.dataBindings.length

theorem validateDataRequirementsAgainstPlan_ok {checks : RepresentationChecks}
    (howner : ∀ entry ∈ plan.nodePlans.toList, ∀ b ∈ entry.2.dataBindings,
      b.nodeId = entry.2.nodeId)
    (h : bundle.validateDataRequirementsAgainstPlan checks plan = .ok u) :
    bundle.BoundData plan := by
  simp only [validateDataRequirementsAgainstPlan, bind_ok, each_ok, need_ok, refuseIf_ok,
    not_not, Bool.not_eq_false] at h
  obtain ⟨rs, hrs, _, hcount, hmatch⟩ := h
  have hperm := collectDataRequirements_ok howner hrs
  constructor
  case known =>
    intro r hr
    obtain ⟨expected, hexpected, hsame⟩ := hmatch r hr
    have hmem := List.mem_map.mp (Entries.mem_of_getElem?_collect hexpected)
    obtain ⟨e, he, heq⟩ := hmem
    obtain rfl : e = expected := congrArg Prod.snd heq
    rw [BundleDataRequirement.matchesPlanRequirement_iff.mp hsame]
    exact hperm.mem_iff.mp (List.mem_map_of_mem he)
  case count =>
    intro hkeys
    have hnodup : ((rs.map fun r => (r.key, r)).map Prod.fst).Nodup := by
      rw [← (hperm.map DataBinding.requirementKey).nodup_iff, List.map_map] at hkeys
      rw [List.map_map]
      exact hkeys
    rw [hcount, ← Std.ExtTreeMap.length_toList, (BTreeMap.toList_collect_perm hnodup).length_eq,
      List.length_map, ← hperm.length_eq, List.length_map]

/-- What a bundle that a replay accepts has been held to. -/
structure ReadyForReplay (bundle : ExecutionBundle (DataSections Rest)) (plan : ExecutionPlan)
    (phase : Phase) : Prop where
  accepted : bundle.Accepted plan
  dataKeys : (bundle.sections.dataRequirements.map (·.key)).Nodup
  data : bundle.BoundData plan
  oof : phase = .refit → ∀ edge ∈ plan.oofEdges,
    ∃ r ∈ bundle.predictionRequirements, r.key = edge.requirementKey

theorem validateForReplay_ready {checks : ReplayChecks Rest}
    (h : bundle.validateForReplay checks plan phase = .ok u) :
    bundle.ReadyForReplay plan phase := by
  simp only [validateForReplay, bind_ok, checkIf_ok] at h
  obtain ⟨_, hplan, hrefit⟩ := h
  have haccepted := validateAgainstPlan_accepted hplan
  simp only [validateAgainstPlan, validate, sectionChecks, ExecutionPlan.validate, bind_ok] at hplan
  obtain ⟨_, ⟨_, -, _, -, _, -, _, -, _, -, _, -, _, ⟨_, -, _, hkeys, -⟩, -⟩,
    _, ⟨_, -, _, hnodes, -⟩, _, -, _, ⟨_, -, _, hdata, -⟩, -⟩ := hplan
  constructor
  case accepted => exact haccepted
  case dataKeys => exact checkDataRequirements_ok hkeys
  case data =>
    exact validateDataRequirementsAgainstPlan_ok (ExecutionPlan.validateNodePlans_ok hnodes) hdata
  case oof =>
    intro hphase edge hedge
    have hsupplied := hrefit hphase
    simp only [validateRefitOofRequirements, each_ok, refuseIf_ok] at hsupplied
    simpa using hsupplied edge hedge

namespace ReadyForReplay

variable {phase : Phase}

theorem requirement_edge (h : bundle.ReadyForReplay plan phase)
    (hr : r ∈ bundle.predictionRequirements) : ∃ edge ∈ plan.oofEdges, edge.ends = r.ends := by
  have hcheck := h.accepted.requirements r hr
  simp only [checkRequirementAgainstPlan, bind_ok, need_ok] at hcheck
  obtain ⟨edge, hedge, -⟩ := hcheck
  obtain ⟨hmem, hon, hoof⟩ := findOofEdge_ok hedge
  refine ⟨edge, List.mem_filter.mpr ⟨hmem, hoof⟩, ?_⟩
  rw [EdgeSpec.ends, hon.1, hon.2]
  rfl

/-- Each requirement is for an edge of its own. -/
theorem supplied (h : bundle.ReadyForReplay plan phase) :
    (bundle.predictionRequirements.map (·.ends)).Subperm (plan.oofEdges.map (·.ends)) := by
  have hnodup : (bundle.predictionRequirements.map (·.ends)).Nodup :=
    nodup_of_keys endsKey h.accepted.contracts.keys_nodup
  refine List.subperm_of_subset hnodup fun ends hends => ?_
  obtain ⟨r, hr, rfl⟩ := List.mem_map.mp hends
  obtain ⟨edge, hedge, heq⟩ := h.requirement_edge hr
  exact List.mem_map.mpr ⟨edge, hedge, heq⟩

/-- With keys of their own, the bindings are exactly what the bundle requires. -/
theorem data_perm (h : bundle.ReadyForReplay plan phase)
    (hkeys : (plan.dataBindings.map (·.requirementKey)).Nodup) :
    (bundle.sections.dataRequirements.map (·.binding)).Perm plan.dataBindings := by
  have hnodup : (bundle.sections.dataRequirements.map (·.binding)).Nodup :=
    nodup_of_keys DataBinding.requirementKey h.dataKeys
  refine perm_of_subset hnodup (fun b hb => ?_) ?_
  · obtain ⟨r, hr, rfl⟩ := List.mem_map.mp hb
    exact h.data.known r hr
  · rw [List.length_map, h.data.count hkeys]

/-- With keys of their own, the out-of-fold edges are exactly what a refit requires: the
requirement found under an edge's key is for that edge. -/
theorem refit_perm (h : bundle.ReadyForReplay plan phase) (hphase : phase = .refit)
    (hkeys : (plan.oofEdges.map (·.requirementKey)).Nodup) :
    (bundle.predictionRequirements.map (·.ends)).Perm (plan.oofEdges.map (·.ends)) := by
  refine h.supplied.antisymm
    (List.subperm_of_subset (nodup_of_keys endsKey hkeys) fun ends hends => ?_)
  obtain ⟨edge, hedge, rfl⟩ := List.mem_map.mp hends
  obtain ⟨r, hr, hkey⟩ := h.oof hphase edge hedge
  obtain ⟨other, hother, heq⟩ := h.requirement_edge hr
  have hsame : other.requirementKey = edge.requirementKey := by
    rw [← hkey, other.requirementKey_eq, heq, r.key_eq]
  obtain rfl := List.inj_on_of_nodup_map hkeys hother hedge hsame
  exact List.mem_map.mpr ⟨r, hr, heq.symm⟩

end ReadyForReplay

end ExecutionBundle

/-- The requirements of a bundle accepted for replay pair off with the data bindings and
the out-of-fold edges of its plan exactly where no two of these share a key. -/
theorem validateForReplay_oneToOne_iff {Rest : Type} (checks : ReplayChecks Rest)
    (bundle : ExecutionBundle (DataSections Rest)) (plan : ExecutionPlan) (phase : Phase)
    (h : bundle.validateForReplay checks plan phase = .ok ()) :
    bundle.OneToOne plan phase ↔ plan.Unaliased phase := by
  have hready := ExecutionBundle.validateForReplay_ready h
  constructor
  · intro hone
    constructor
    case bindings =>
      rw [← (hone.data.map DataBinding.requirementKey).nodup_iff, List.map_map]
      exact hready.dataKeys
    case edges =>
      intro hphase
      have hkeys := (hone.refit hphase).map endsKey
      rw [List.map_map, List.map_map] at hkeys
      exact hkeys.nodup_iff.mp hready.accepted.contracts.keys_nodup
  · intro hkeys
    constructor
    case data => exact hready.data_perm hkeys.bindings
    case supplied => exact hready.supplied
    case refit => exact fun hphase => hready.refit_perm hphase (hkeys.edges hphase)

-- ---------------------------------------------------------------------------
-- Two coordinates under one key
-- ---------------------------------------------------------------------------

def boundFingerprint : String :=
  "0000000000000000000000000000000000000000000000000000000000000000"

def boundInput (nodeId : NodeId) (inputName : String) : DataBinding where
  nodeId
  inputName
  schemaFingerprint := boundFingerprint
  planFingerprint := boundFingerprint
  relationFingerprint := none
  outputRepresentation := "tabular"
  featureSetId := none

/-- Input `c` of node `branch:a.b`. -/
def branchInput : DataBinding := boundInput branchNode "c"

/-- Input `b.c` of node `branch:a`, with the requirement key of the first. -/
def twinInput : DataBinding := boundInput branchTwin "b.c"

/-- The merge of the branches, with data bound to them. -/
def boundPlan (edges : List EdgeSpec) (bindings : List DataBinding) : ExecutionPlan :=
  let branchPlan (nodeId : NodeId) : NodePlan :=
    { mergeNodePlan nodeId .model [] with
      dataBindings := bindings.filter (·.nodeId = nodeId) }
  { mergePlan edges with
    nodePlans := .collect [(branchNode, branchPlan branchNode), (branchTwin, branchPlan branchTwin),
      (branchLoose, branchPlan branchLoose),
      (mergeNode, mergeNodePlan mergeNode .predictionJoin
        (ascending (edges.map (·.source.nodeId)).toFinset))] }

/-- The bundle of the one supplied branch, which requires the data of that branch. -/
def boundBundle : ExecutionBundle (DataSections Unit) :=
  { mergeBundle with sections := ⟨[.ofBinding branchNode branchInput], ()⟩ }

def acceptReplay : ReplayChecks Unit where
  representation := ⟨fun _ => .ok (), fun _ => .ok ()⟩
  sections := ⟨fun _ => .ok (), fun _ => .ok (), fun _ => .ok ()⟩
  nodePlans := ⟨fun _ => .ok (), fun _ => .ok (), fun _ _ => .ok (), fun _ => .ok (),
    fun _ _ => .ok (), fun _ => .ok ()⟩
  planClosing := fun _ => .ok ()
  opening := fun _ _ => .ok ()
  artifacts := fun _ _ => .ok ()

/-- One data requirement is accepted for two bindings under its key, and one out-of-fold
requirement for two edges. -/
theorem requirement_keys_alias :
    (¬ ∀ (bundle : ExecutionBundle (DataSections Unit)) (plan : ExecutionPlan),
      bundle.validateForReplay acceptReplay plan .predict = .ok () →
        bundle.OneToOne plan .predict) ∧
    ¬ ∀ (bundle : ExecutionBundle (DataSections Unit)) (plan : ExecutionPlan),
      bundle.validateForReplay acceptReplay plan .refit = .ok () →
        (plan.dataBindings.map (·.requirementKey)).Nodup → bundle.OneToOne plan .refit := by
  constructor
  · intro h
    have haccepted : boundBundle.validateForReplay acceptReplay
        (boundPlan [branchEdge] [branchInput, twinInput]) .predict = .ok () := by decide +kernel
    have hlen := (h _ _ haccepted).data.length_eq
    revert hlen
    decide +kernel
  · intro h
    have haccepted : boundBundle.validateForReplay acceptReplay
        (boundPlan [branchEdge, twinEdge] [branchInput]) .refit = .ok () := by decide +kernel
    have hlen := ((h _ _ haccepted (by decide +kernel)).refit rfl).length_eq
    revert hlen
    decide +kernel

/-- With its one binding and its one edge the plan is what the bundle requires. -/
theorem validateForReplay_oneToOne_iff_bound :
    boundBundle.OneToOne (boundPlan [branchEdge] [branchInput]) .refit := by
  have haccepted : boundBundle.validateForReplay acceptReplay
      (boundPlan [branchEdge] [branchInput]) .refit = .ok () := by decide +kernel
  refine (validateForReplay_oneToOne_iff acceptReplay boundBundle
    (boundPlan [branchEdge] [branchInput]) .refit haccepted).mpr ⟨?_, fun _ => ?_⟩
  · decide +kernel
  · decide +kernel

end DagMl
