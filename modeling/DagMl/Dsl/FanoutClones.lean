import DagMl.Dsl.FanoutParts

/-!
# Clones

What one expansion leaves: a branch for each value, each with a copy of the
template in which every id carries the value. Auto-separation steps inside a
template are copied with it.
-/

namespace DagMl

open Checked PipelineDslStep

-- ---------------------------------------------------------------------------
-- Auto-separation steps
-- ---------------------------------------------------------------------------

mutual

/-- The auto-separation steps in a step, at any depth. -/
def autos : PipelineDslStep → List (PipelineDslBranchStep PipelineDslStep)
  | .branch ⟨mode, selector, metadata, branches⟩ =>
    if isAutoSeparationBranch ⟨mode, selector, metadata, branches⟩ then
      ⟨mode, selector, metadata, branches⟩ :: branchAutos branches
    else branchAutos branches
  | .generator ⟨_, _, branches, stages, _, _, _, _, _, _, tail, _⟩ =>
    branchAutos branches ++ (stageAutos stages ++ stepAutos tail)
  | .sequential ⟨_, _, steps⟩ => stepAutos steps
  | .operator _ _ => []
  | .concatTransform _ => []
  | .merge _ => []
  | .mergeModel _ => []

def stepAutos : List PipelineDslStep → List (PipelineDslBranchStep PipelineDslStep)
  | [] => []
  | step :: steps => autos step ++ stepAutos steps

def branchAutos :
    List (PipelineDslBranch PipelineDslStep) → List (PipelineDslBranchStep PipelineDslStep)
  | [] => []
  | ⟨_, _, _, steps⟩ :: branches => stepAutos steps ++ branchAutos branches

def stageAutos :
    List (PipelineDslGeneratorStage PipelineDslStep) → List (PipelineDslBranchStep PipelineDslStep)
  | [] => []
  | ⟨_, _, _, branches⟩ :: stages => branchAutos branches ++ stageAutos stages

end

-- ---------------------------------------------------------------------------
-- Listings
-- ---------------------------------------------------------------------------

theorem stepSlots_eq {inTail : Bool} {steps : List PipelineDslStep} :
    stepSlots inTail steps = steps.flatMap (slots inTail) := by
  induction steps with
  | nil => rfl
  | cons step steps ih => rw [stepSlots, ih, List.flatMap_cons]

theorem branchSlots_eq {inTail : Bool} {branches : List (PipelineDslBranch PipelineDslStep)} :
    branchSlots inTail branches = branches.flatMap fun branch =>
      branch.steps.flatMap (slots inTail) := by
  induction branches with
  | nil => rfl
  | cons branch branches ih => rw [branchSlots, ih, stepSlots_eq, List.flatMap_cons]

theorem stepMergeRefs_eq {inTail : Bool} {steps : List PipelineDslStep} :
    stepMergeRefs inTail steps = steps.flatMap (mergeRefs inTail) := by
  induction steps with
  | nil => rfl
  | cons step steps ih => rw [stepMergeRefs, ih, List.flatMap_cons]

theorem branchMergeRefs_eq {inTail : Bool} {branches : List (PipelineDslBranch PipelineDslStep)} :
    branchMergeRefs inTail branches = branches.flatMap fun branch =>
      branch.steps.flatMap (mergeRefs inTail) := by
  induction branches with
  | nil => rfl
  | cons branch branches ih => rw [branchMergeRefs, ih, stepMergeRefs_eq, List.flatMap_cons]

theorem stepAutos_eq {steps : List PipelineDslStep} : stepAutos steps = steps.flatMap autos := by
  induction steps with
  | nil => rfl
  | cons step steps ih => rw [stepAutos, ih, List.flatMap_cons]

theorem branchAutos_eq {branches : List (PipelineDslBranch PipelineDslStep)} :
    branchAutos branches = branches.flatMap fun branch => branch.steps.flatMap autos := by
  induction branches with
  | nil => rfl
  | cons branch branches ih => rw [branchAutos, ih, stepAutos_eq, List.flatMap_cons]

def slotListing : Listing Slot where
  ofStep := slots false
  ofSequence id := id.toList.map fun id => ⟨id, false, false, false⟩
  branch _ _ := branchSlots_eq
  sequential _ := congrArg _ stepSlots_eq

def mergeListing : Listing MergeRefs where
  ofStep := mergeRefs false
  ofSequence _ := []
  branch _ _ := branchMergeRefs_eq
  sequential _ := stepMergeRefs_eq

theorem autos_branch {step : PipelineDslBranchStep PipelineDslStep} : autos (.branch step) =
    if isAutoSeparationBranch step then step :: branchAutos step.branches
    else branchAutos step.branches := rfl

def autoListing : Listing (PipelineDslBranchStep PipelineDslStep) where
  ofStep := autos
  ofSequence _ := []
  branch step h := by
    rw [autos_branch, autoTemplate_none.mp h]
    exact branchAutos_eq
  sequential _ := stepAutos_eq

-- ---------------------------------------------------------------------------
-- A spec without auto-separation steps
-- ---------------------------------------------------------------------------

section

variable {Cohort : Type} {floats : FloatWriter} {envelope : ExternalDataPlanEnvelope Cohort}

mutual

/-- Without auto-separation steps fan-out changes nothing. -/
theorem fanOutStep_of_noAutos {state : FanoutState} {step : PipelineDslStep}
    (h : autos step = []) : fanOutStep floats envelope state step = .ok (state, step) := by
  match step with
  | .branch ⟨mode, selector, metadata, branches⟩ =>
    rw [autos_branch] at h
    split at h
    · cases h
    · rename_i hauto
      rw [fanOutStep, autoTemplate_none.mpr (Bool.eq_false_iff.mpr hauto)]
      simp only [bind_ok, pure_ok, Prod.mk.injEq]
      exact ⟨_, fanOutBranches_of_noAutos h, rfl, rfl⟩
  | .sequential ⟨id, metadata, steps⟩ =>
    simp only [fanOutStep, bind_ok, pure_ok, Prod.mk.injEq]
    exact ⟨_, fanOutSteps_of_noAutos h, rfl, rfl⟩
  | .operator _ _ | .concatTransform _ | .generator _ | .merge _ | .mergeModel _ => rfl

theorem fanOutSteps_of_noAutos {state : FanoutState} {steps : List PipelineDslStep}
    (h : stepAutos steps = []) : fanOutSteps floats envelope state steps = .ok (state, steps) := by
  match steps with
  | [] => rfl
  | step :: steps =>
    obtain ⟨hstep, hsteps⟩ := List.append_eq_nil_iff.mp h
    simp only [fanOutSteps, bind_ok, pure_ok, Prod.mk.injEq]
    exact ⟨_, fanOutStep_of_noAutos hstep, _, fanOutSteps_of_noAutos hsteps, rfl, rfl⟩

theorem fanOutBranches_of_noAutos {state : FanoutState}
    {branches : List (PipelineDslBranch PipelineDslStep)} (h : branchAutos branches = []) :
    fanOutBranches floats envelope state branches = .ok (state, branches) := by
  match branches with
  | [] => rfl
  | ⟨_, _, _, steps⟩ :: branches =>
    obtain ⟨hsteps, hbranches⟩ := List.append_eq_nil_iff.mp h
    simp only [fanOutBranches, bind_ok, pure_ok, Prod.mk.injEq]
    exact ⟨_, fanOutSteps_of_noAutos hsteps, _, fanOutBranches_of_noAutos hbranches, rfl, rfl⟩

end

end

-- ---------------------------------------------------------------------------
-- Rewriting keeps auto-separation steps
-- ---------------------------------------------------------------------------

section

variable {σ : Type} {scope : RewriteScope} {mint : Mint σ}

theorem selectors_of_rewriteBranchIds {s t : σ}
    {branches branches' : List (PipelineDslBranch PipelineDslStep)}
    (h : rewriteBranchIds scope mint s branches = .ok (t, branches')) :
    branches'.map (·.selector) = branches.map (·.selector) := by
  induction branches generalizing s t branches' with
  | nil =>
    cases h
    rfl
  | cons branch branches ih =>
    simp only [rewriteBranchIds, bind_ok, pure_ok, Prod.mk.injEq] at h
    obtain ⟨steps', -, branches', hbranches, -, rfl⟩ := h
    rw [List.map_cons, List.map_cons, ih hbranches]

mutual

theorem rewriteIds_autos {s t : σ} {step step' : PipelineDslStep}
    (h : rewriteIds scope mint s step = .ok (t, step')) : autos step' = [] ↔ autos step = [] := by
  match step with
  | .operator kind step =>
    simp only [rewriteIds, bind_ok, pure_ok, Prod.mk.injEq] at h
    obtain ⟨_, -, -, rfl⟩ := h
    rfl
  | .concatTransform step =>
    simp only [rewriteIds, bind_ok, pure_ok, Prod.mk.injEq] at h
    obtain ⟨_, -, -, rfl⟩ := h
    rfl
  | .branch ⟨_, _, _, branches⟩ =>
    simp only [rewriteIds, bind_ok, pure_ok, Prod.mk.injEq] at h
    obtain ⟨branches', hbranches, -, rfl⟩ := h
    rw [autos_branch, autos_branch, isAutoSeparationBranch_congr
      (selectors_of_rewriteBranchIds hbranches)]
    split
    · simp
    · exact rewriteBranchIds_autos hbranches
  | .generator ⟨_, _, branches, stages, _, _, _, _, _, _, tail, _⟩ =>
    simp only [rewriteIds, bind_ok, pure_ok, Prod.mk.injEq] at h
    obtain ⟨own, -, branches', hbranches, stages', hstages, tail', htail, -, rfl⟩ := h
    have htail : stepAutos tail'.2 = [] ↔ stepAutos tail = [] := by
      unfold visitIf at htail
      split at htail
      · exact rewriteStepIds_autos htail
      · cases htail
        rfl
    simp only [autos, List.append_eq_nil_iff, rewriteBranchIds_autos hbranches,
      rewriteStageIds_autos hstages, htail]
  | .sequential ⟨_, _, steps⟩ =>
    simp only [rewriteIds, bind_ok, pure_ok, Prod.mk.injEq] at h
    obtain ⟨own, -, steps', hsteps, -, rfl⟩ := h
    exact rewriteStepIds_autos hsteps
  | .merge _ =>
    simp only [rewriteIds, bind_ok, pure_ok, Prod.mk.injEq] at h
    obtain ⟨own, -, -, rfl⟩ := h
    rfl
  | .mergeModel _ =>
    simp only [rewriteIds, bind_ok, pure_ok, Prod.mk.injEq] at h
    obtain ⟨own, -, -, rfl⟩ := h
    rfl

theorem rewriteStepIds_autos {s t : σ} {steps steps' : List PipelineDslStep}
    (h : rewriteStepIds scope mint s steps = .ok (t, steps')) :
    stepAutos steps' = [] ↔ stepAutos steps = [] := by
  match steps with
  | [] =>
    cases h
    rfl
  | step :: steps =>
    simp only [rewriteStepIds, bind_ok, pure_ok, Prod.mk.injEq] at h
    obtain ⟨step', hstep, steps', hsteps, -, rfl⟩ := h
    simp only [stepAutos, List.append_eq_nil_iff, rewriteIds_autos hstep,
      rewriteStepIds_autos hsteps]

theorem rewriteBranchIds_autos {s t : σ}
    {branches branches' : List (PipelineDslBranch PipelineDslStep)}
    (h : rewriteBranchIds scope mint s branches = .ok (t, branches')) :
    branchAutos branches' = [] ↔ branchAutos branches = [] := by
  match branches with
  | [] =>
    cases h
    rfl
  | ⟨_, _, _, steps⟩ :: branches =>
    simp only [rewriteBranchIds, bind_ok, pure_ok, Prod.mk.injEq] at h
    obtain ⟨steps', hsteps, branches', hbranches, -, rfl⟩ := h
    simp only [branchAutos, List.append_eq_nil_iff, rewriteStepIds_autos hsteps,
      rewriteBranchIds_autos hbranches]

theorem rewriteStageIds_autos {s t : σ}
    {stages stages' : List (PipelineDslGeneratorStage PipelineDslStep)}
    (h : rewriteStageIds scope mint s stages = .ok (t, stages')) :
    stageAutos stages' = [] ↔ stageAutos stages = [] := by
  match stages with
  | [] =>
    cases h
    rfl
  | ⟨_, _, _, branches⟩ :: stages =>
    simp only [rewriteStageIds, bind_ok, pure_ok, Prod.mk.injEq] at h
    obtain ⟨branches', hbranches, stages', hstages, -, rfl⟩ := h
    simp only [stageAutos, List.append_eq_nil_iff, rewriteBranchIds_autos hbranches,
      rewriteStageIds_autos hstages]

end

end

-- ---------------------------------------------------------------------------
-- Clones of one template
-- ---------------------------------------------------------------------------

/-- The name a place gets in a clone. -/
def placeName (suffix : String) (slot : Slot) : String :=
  if cloneScope.covers slot then cloneName slot.id suffix else slot.id.value

/-- The ids that a clone replaces. -/
def clonedIds (steps : List PipelineDslStep) : List NodeId :=
  ((stepSlots false steps).filter cloneScope.covers).map (·.id)

/-- `idMap` lists the clones of each id in the order of the events. -/
def Records (idMap : NodeIdRewriteMap) (events : List (NodeId × NodeId)) : Prop :=
  ∀ id : NodeId, idMap[id]? = if events.filter (·.1 = id) = [] then none
    else some ((events.filter (·.1 = id)).map Prod.snd)

/-- An event by the id and the name of its clone. -/
def eventName (event : NodeId × NodeId) : NodeId × String := (event.1, event.2.value)

theorem Records.push {idMap : NodeIdRewriteMap} {events : List (NodeId × NodeId)}
    {oldId newId : NodeId} (h : Records idMap events) :
    Records (recordRewrite idMap oldId newId) (events ++ [(oldId, newId)]) := by
  intro id
  rw [recordRewrite, BTreeMap.pushEntry, BTreeMap.getElem?_insert, h, h]
  by_cases hid : oldId = id
  · subst hid
    by_cases hnil : events.filter (·.1 = oldId) = []
    · simp [hnil]
    · simp [hnil]
  · have hsame : (events ++ [(oldId, newId)]).filter (·.1 = id) = events.filter (·.1 = id) := by
      simp [hid]
    rw [if_neg hid, hsame]

theorem covered_append {before : List Slot} {slot : Slot} :
    ((before ++ [slot]).filter cloneScope.covers).map (·.id) =
      (before.filter cloneScope.covers).map (·.id) ++
        if cloneScope.covers slot then [slot.id] else [] := by
  cases h : cloneScope.covers slot <;> simp [h]

theorem placeName_of_mintSlot {suffix : String} {idMap idMap' : NodeIdRewriteMap}
    {slot slot' : Slot}
    (h : mintSlot cloneScope (suffixAndRecord suffix) idMap slot = .ok (idMap', slot')) :
    slot'.id.value = placeName suffix slot := by
  unfold mintSlot at h
  split at h
  · rename_i hc
    simp only [suffixAndRecord, bind_ok, pure_ok, Prod.mk.injEq] at h
    obtain ⟨_, ⟨newId, hnew, rfl⟩, -, rfl⟩ := h
    rw [placeName, if_pos hc]
    exact Id.new_ok.mp hnew
  · rename_i hc
    cases h
    rw [placeName, if_neg hc]

/-- What one pass over a template records. -/
theorem rewriteBranchStepIds_records {suffix : String} {idMap idMap' : NodeIdRewriteMap}
    {steps steps' : List PipelineDslStep} {events : List (NodeId × NodeId)}
    (h : rewriteBranchStepIds suffix idMap steps = .ok (idMap', steps'))
    (hrecords : Records idMap events) :
    ∃ added, Records idMap' (events ++ added) ∧
      added.map eventName = (clonedIds steps).map (fun id => (id, cloneName id suffix)) := by
  have hrun : thread (mintSlot cloneScope (suffixAndRecord suffix)) idMap (stepSlots false steps) =
      .ok (idMap', stepSlots false steps') := rewriteStepIds_slots (by simp) h
  refine thread_invariant (fun before _ idMap' => ∃ added, Records idMap' (events ++ added) ∧
    added.map eventName = ((before.filter cloneScope.covers).map (·.id)).map
      (fun id => (id, cloneName id suffix))) ⟨[], by simpa using hrecords, rfl⟩ ?_ hrun
  rintro before after idMap slot idMap' slot' ⟨added, hrun, hadded⟩ hstep
  unfold mintSlot at hstep
  split at hstep
  · rename_i hc
    simp only [suffixAndRecord, bind_ok, pure_ok, Prod.mk.injEq] at hstep
    obtain ⟨_, ⟨newId, hnew, rfl⟩, rfl, rfl⟩ := hstep
    refine ⟨added ++ [(slot.id, newId)], ?_, ?_⟩
    · rw [← List.append_assoc]
      exact hrun.push
    · rw [covered_append, if_pos hc, List.map_append, List.map_append, hadded]
      simp [eventName, Id.new_ok.mp hnew]
  · rename_i hc
    cases hstep
    refine ⟨added, hrun, ?_⟩
    rw [covered_append, if_neg hc, List.append_nil, hadded]

/-- How a pass names the places, whatever it starts from. -/
theorem rewriteBranchStepIds_names {suffix : String} {idMap idMap' : NodeIdRewriteMap}
    {steps steps' : List PipelineDslStep}
    (h : rewriteBranchStepIds suffix idMap steps = .ok (idMap', steps')) :
    (stepSlots false steps').map (·.id.value) = (stepSlots false steps).map (placeName suffix) := by
  have hrun : thread (mintSlot cloneScope (suffixAndRecord suffix)) idMap (stepSlots false steps) =
      .ok (idMap', stepSlots false steps') := rewriteStepIds_slots (by simp) h
  have hnamed : List.Forall₂ (fun slot slot' : Slot => slot'.id.value = placeName suffix slot)
      (stepSlots false steps) (stepSlots false steps') :=
    thread_forall₂ (fun idMap slot idMap' slot' hstep => placeName_of_mintSlot hstep) hrun
  clear hrun h
  generalize stepSlots false steps = before at hnamed
  generalize stepSlots false steps' = after at hnamed
  induction hnamed with
  | nil => rfl
  | cons hslot hrest ih => rw [List.map_cons, List.map_cons, ih, hslot]

section

variable (floats : FloatWriter)

structure ClonedBranch (criterion : PartitionCriterion)
    (template : PipelineDslBranch PipelineDslStep) (value : JsonValue)
    (branch : PipelineDslBranch PipelineDslStep) : Prop where
  id : branch.id = s!"{template.id}__{fanoutValueSuffix floats value}"
  selector : branch.selector = some (branchSelectorForValue criterion value)
  metadata : branch.metadata = template.metadata
  steps : ∃ idMap idMap', rewriteBranchStepIds (fanoutValueSuffix floats value) idMap
    template.steps = .ok (idMap', branch.steps)

/-- An expanded step: one branch for each value, with distinct ids. -/
structure ExpandedStep (criterion : PartitionCriterion) (values : List JsonValue)
    (step : PipelineDslBranchStep PipelineDslStep) (template : PipelineDslBranch PipelineDslStep)
    (out : PipelineDslBranchStep PipelineDslStep) : Prop where
  mode : out.mode = step.mode
  selector : out.selector = step.selector
  metadata : out.metadata = step.metadata.erase "auto_separate"
  nonempty : values ≠ []
  branches : List.Forall₂ (ClonedBranch floats criterion template) values out.branches
  ids : (out.branches.map (·.id)).Nodup

/-- The values a template is expanded for. -/
def partitionValues {Cohort : Type} (envelope : ExternalDataPlanEnvelope Cohort)
    (step : PipelineDslBranchStep PipelineDslStep) (template : PipelineDslBranch PipelineDslStep) :
    List JsonValue :=
  match envelope.coordinatorRelations, resolveCriterion step template with
  | some relations, .ok criterion => criterion.values floats relations
  | _, _ => []

end

section

variable {Cohort : Type} {floats : FloatWriter} {envelope : ExternalDataPlanEnvelope Cohort}

theorem cloneTemplates_ok {template : PipelineDslBranch PipelineDslStep}
    {criterion : PartitionCriterion} {values : List JsonValue} {idMap : NodeIdRewriteMap}
    {out : (Finset String × NodeIdRewriteMap) × List (PipelineDslBranch PipelineDslStep)}
    (h : thread (cloneTemplate floats template criterion) (∅, idMap) values = .ok out) :
    List.Forall₂ (ClonedBranch floats criterion template) values out.2 ∧
      (out.2.map (·.id)).Nodup := by
  have hrun := thread_invariant (fun (done : List JsonValue)
      (branches : List (PipelineDslBranch PipelineDslStep))
      (progress : Finset String × NodeIdRewriteMap) =>
    List.Forall₂ (ClonedBranch floats criterion template) done branches ∧
      (branches.map (·.id)).Nodup ∧ ∀ id, id ∈ progress.1 ↔ id ∈ branches.map (·.id))
    ⟨.nil, List.nodup_nil, by simp⟩ ?_ h
  · exact ⟨hrun.1, hrun.2.1⟩
  · rintro done branches progress value progress' branch ⟨hbranches, hnodup, hseen⟩ hstep
    simp only [cloneTemplate, bind_ok, refuseIf_ok, pure_ok, Prod.mk.injEq] at hstep
    obtain ⟨_, hnew, steps, hsteps, rfl, rfl⟩ := hstep
    refine ⟨List.rel_append hbranches (.cons ⟨rfl, rfl, rfl, _, _, hsteps⟩ .nil), ?_, fun id => ?_⟩
    · rw [List.map_append, List.map_singleton, ← List.concat_eq_append, List.nodup_concat]
      exact ⟨fun hmem => hnew ((hseen _).mpr hmem), hnodup⟩
    · simp only [Finset.mem_insert, hseen, List.map_append, List.map_singleton, List.mem_append,
        List.mem_singleton, or_comm]

theorem cloneTemplates_records {template : PipelineDslBranch PipelineDslStep}
    {criterion : PartitionCriterion} {values : List JsonValue} {idMap : NodeIdRewriteMap}
    {out : (Finset String × NodeIdRewriteMap) × List (PipelineDslBranch PipelineDslStep)}
    {events : List (NodeId × NodeId)}
    (h : thread (cloneTemplate floats template criterion) (∅, idMap) values = .ok out)
    (hrecords : Records idMap events) :
    ∃ added, Records out.1.2 (events ++ added) ∧
      added.map eventName = values.flatMap fun value => (clonedIds template.steps).map fun id =>
        (id, cloneName id (fanoutValueSuffix floats value)) := by
  refine thread_invariant (fun (done : List JsonValue)
      (_ : List (PipelineDslBranch PipelineDslStep)) (progress : Finset String × NodeIdRewriteMap) =>
    ∃ added, Records progress.2 (events ++ added) ∧
      added.map eventName = done.flatMap fun value => (clonedIds template.steps).map fun id =>
        (id, cloneName id (fanoutValueSuffix floats value)))
    ⟨[], by simpa using hrecords, rfl⟩ ?_ h
  rintro done branches progress value progress' branch ⟨added, hadded, hnames⟩ hstep
  simp only [cloneTemplate, bind_ok, refuseIf_ok, pure_ok, Prod.mk.injEq] at hstep
  obtain ⟨_, -, steps, hsteps, rfl, rfl⟩ := hstep
  obtain ⟨more, hmore, hmoreNames⟩ := rewriteBranchStepIds_records hsteps hadded
  refine ⟨added ++ more, ?_, ?_⟩
  · rw [← List.append_assoc]
    exact hmore
  · rw [List.map_append, hnames, hmoreNames, List.flatMap_append, List.flatMap_singleton]

/-- One expansion, read back. -/
theorem expandAutoSeparationBranch_ok {state : FanoutState}
    {step : PipelineDslBranchStep PipelineDslStep} {template : PipelineDslBranch PipelineDslStep}
    {out : FanoutState × PipelineDslBranchStep PipelineDslStep}
    (h : expandAutoSeparationBranch floats envelope state step template = .ok out) :
    ∃ criterion relations, resolveCriterion step template = .ok criterion ∧
      envelope.coordinatorRelations = some relations ∧
      partitionValues floats envelope step template = criterion.values floats relations ∧
      ExpandedStep floats criterion (partitionValues floats envelope step template) step template
        out.2 ∧ out.1.fanouts ≠ [] := by
  simp only [expandAutoSeparationBranch, discoverPartitionValues, bind_ok, need_ok, refuseIf_ok,
    pure_ok] at h
  obtain ⟨_, -, relations, hrelations, _, ⟨criterion, hcriterion, rfl⟩, _, hnonempty, branches,
    hbranches, rfl⟩ := h
  obtain ⟨hclones, hids⟩ := cloneTemplates_ok hbranches
  have hvalues : partitionValues floats envelope step template =
      criterion.values floats relations := by
    rw [partitionValues, hrelations, hcriterion]
  refine ⟨criterion, relations, hcriterion, hrelations, hvalues, ?_, by simp⟩
  rw [hvalues]
  exact ⟨rfl, rfl, rfl, hnonempty, hclones, hids⟩

theorem expandAutoSeparationBranch_records {state : FanoutState}
    {step : PipelineDslBranchStep PipelineDslStep} {template : PipelineDslBranch PipelineDslStep}
    {out : FanoutState × PipelineDslBranchStep PipelineDslStep} {events : List (NodeId × NodeId)}
    (h : expandAutoSeparationBranch floats envelope state step template = .ok out)
    (hrecords : Records state.idMap events) :
    ∃ added, Records out.1.idMap (events ++ added) ∧
      added.map eventName = (partitionValues floats envelope step template).flatMap fun value =>
        (clonedIds template.steps).map fun id =>
          (id, cloneName id (fanoutValueSuffix floats value)) := by
  simp only [expandAutoSeparationBranch, discoverPartitionValues, bind_ok, need_ok, refuseIf_ok,
    pure_ok] at h
  obtain ⟨_, -, relations, hrelations, _, ⟨criterion, hcriterion, rfl⟩, _, -, branches, hbranches,
    rfl⟩ := h
  rw [partitionValues, hrelations, hcriterion]
  exact cloneTemplates_records hbranches hrecords

end

end DagMl
