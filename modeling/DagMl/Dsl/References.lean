import DagMl.Dsl.Rewrite

/-!
# Rewriting references

After the ids of a copy are replaced a second traversal replaces what refers
to them. It is read back as a relation between the references of each merge
before and after it; no id changes.
-/

namespace DagMl

open Checked

namespace PipelineDslStep

/-- `node_map.get(id).unwrap_or(id)`. -/
def renamed (nodeMap : BTreeMap NodeId NodeId) (id : NodeId) : NodeId := nodeMap[id]?.getD id

def rewriteMergeSelectors (selectors : List PipelineDslMergeSelector)
    (nodeMap : BTreeMap NodeId NodeId) : List PipelineDslMergeSelector :=
  selectors.map fun selector => { selector with model := selector.model.map (renamed nodeMap) }

def rewriteSourcePorts (step : PipelineDslMergeModelStep) (nodeMap : BTreeMap NodeId NodeId) :
    Result (BTreeMap NodeId String) :=
  loop (fun (ports : BTreeMap NodeId String) entry => do
    vacant ports[renamed nodeMap entry.1]? fun _ => .graphValidation
      s!"pipeline DSL generated merge_model `{step.id}` source port references collide at `{renamed nodeMap entry.1}`"
    pure (ports.insert (renamed nodeMap entry.1) entry.2)) ∅ step.sourcePorts.toList

mutual

/-- A nested generator's tail is not visited. -/
def rewriteStepNodeRefs (nodeMap : BTreeMap NodeId NodeId) :
    PipelineDslStep → Result PipelineDslStep
  | .operator kind step => .ok (.operator kind step)
  | .concatTransform step => .ok (.concatTransform step)
  | .branch ⟨mode, selector, metadata, branches⟩ => do
    let branches ← rewriteBranchNodeRefs nodeMap branches
    pure (.branch ⟨mode, selector, metadata, branches⟩)
  | .generator ⟨id, mode, branches, stages, pick, arrange, thenPick, thenArrange, count,
      constraints, tail, metadata⟩ => do
    let branches ← rewriteBranchNodeRefs nodeMap branches
    let stages ← rewriteStageNodeRefs nodeMap stages
    pure (.generator ⟨id, mode, branches, stages, pick, arrange, thenPick, thenArrange, count,
      constraints, tail, metadata⟩)
  | .sequential ⟨id, metadata, steps⟩ => do
    let steps ← rewriteStepsNodeRefs nodeMap steps
    pure (.sequential ⟨id, metadata, steps⟩)
  | .merge step =>
    .ok (.merge { step with selectors := rewriteMergeSelectors step.selectors nodeMap })
  | .mergeModel step => do
    let sourcePorts ← rewriteSourcePorts step nodeMap
    pure (.mergeModel { step with
      sources := step.sources.map (renamed nodeMap)
      sourcePorts
      selectors := rewriteMergeSelectors step.selectors nodeMap })

def rewriteStepsNodeRefs (nodeMap : BTreeMap NodeId NodeId) :
    List PipelineDslStep → Result (List PipelineDslStep)
  | [] => .ok []
  | step :: steps => do
    let step ← rewriteStepNodeRefs nodeMap step
    let steps ← rewriteStepsNodeRefs nodeMap steps
    pure (step :: steps)

def rewriteBranchNodeRefs (nodeMap : BTreeMap NodeId NodeId) :
    List (PipelineDslBranch PipelineDslStep) → Result (List (PipelineDslBranch PipelineDslStep))
  | [] => .ok []
  | ⟨id, selector, metadata, steps⟩ :: branches => do
    let steps ← rewriteStepsNodeRefs nodeMap steps
    let branches ← rewriteBranchNodeRefs nodeMap branches
    pure (⟨id, selector, metadata, steps⟩ :: branches)

def rewriteStageNodeRefs (nodeMap : BTreeMap NodeId NodeId) :
    List (PipelineDslGeneratorStage PipelineDslStep) →
      Result (List (PipelineDslGeneratorStage PipelineDslStep))
  | [] => .ok []
  | ⟨id, selector, metadata, branches⟩ :: stages => do
    let branches ← rewriteBranchNodeRefs nodeMap branches
    let stages ← rewriteStageNodeRefs nodeMap stages
    pure (⟨id, selector, metadata, branches⟩ :: stages)

end

/-- The references of one merge with every id replaced by its image. -/
structure MergeRefs.Renamed (f : NodeId → NodeId) (before after : MergeRefs) : Prop where
  selectors : after.selectors = before.selectors.map (Option.map f)
  sources : after.sources = before.sources.map f
  sourcePorts : ∀ id port, after.sourcePorts[id]? = some port ↔
    ∃ source, before.sourcePorts[source]? = some port ∧ f source = id

/-- What the pass does to the references of one merge. -/
def MergeRefs.Rewritten (nodeMap : BTreeMap NodeId NodeId) (before after : MergeRefs) : Prop :=
  if before.inTail then after = before
  else after.inTail = false ∧ before.Renamed (renamed nodeMap) after

variable {nodeMap : BTreeMap NodeId NodeId}

theorem selectors_rewriteMergeSelectors {selectors : List PipelineDslMergeSelector} :
    (rewriteMergeSelectors selectors nodeMap).map (·.model) =
      (selectors.map (·.model)).map (Option.map (renamed nodeMap)) := by
  simp [rewriteMergeSelectors]

theorem rewriteSourcePorts_ok {step : PipelineDslMergeModelStep} {ports : BTreeMap NodeId String}
    (h : rewriteSourcePorts step nodeMap = .ok ports) (id : NodeId) (port : String) :
    ports[id]? = some port ↔
      ∃ source, step.sourcePorts[source]? = some port ∧ renamed nodeMap source = id := by
  have hrun := loop_invariant (fun (done : List (NodeId × String)) (ports : BTreeMap NodeId String) =>
    ∀ id port, ports[id]? = some port ↔
      ∃ source, (source, port) ∈ done ∧ renamed nodeMap source = id) (by simp) ?_ h
  · simpa only [BTreeMap.mem_toList] using hrun id port
  · intro done entry ports ports' hdone hstep id port
    simp only [bind_ok, vacant_ok, pure_ok] at hstep
    obtain ⟨_, hvacant, rfl⟩ := hstep
    rw [BTreeMap.getElem?_insert]
    split
    · rename_i hid
      subst hid
      rw [Option.some.injEq]
      constructor
      · rintro rfl
        exact ⟨entry.1, by simp, rfl⟩
      · rintro ⟨source, hmem, hsource⟩
        rcases List.mem_append.mp hmem with hmem | hmem
        · have := (hdone _ _).mpr ⟨source, hmem, hsource⟩
          rw [hvacant] at this
          cases this
        · rw [List.mem_singleton] at hmem
          rw [← hmem]
    · rename_i hid
      rw [hdone]
      constructor
      · rintro ⟨source, hmem, hsource⟩
        exact ⟨source, List.mem_append_left _ hmem, hsource⟩
      · rintro ⟨source, hmem, hsource⟩
        rcases List.mem_append.mp hmem with hmem | hmem
        · exact ⟨source, hmem, hsource⟩
        · rw [List.mem_singleton] at hmem
          rw [← hmem] at hid
          exact absurd hsource hid

mutual

theorem inTail_of_mergeRefs {step : PipelineDslStep} {refs : MergeRefs}
    (h : refs ∈ mergeRefs true step) : refs.inTail = true := by
  match step with
  | .operator _ _ => cases h
  | .concatTransform _ => cases h
  | .branch ⟨_, _, _, branches⟩ => exact inTail_of_branchMergeRefs h
  | .generator ⟨_, _, branches, stages, _, _, _, _, _, _, tail, _⟩ =>
    simp only [mergeRefs, List.mem_append] at h
    obtain h | h | h := h
    · exact inTail_of_branchMergeRefs h
    · exact inTail_of_stageMergeRefs h
    · exact inTail_of_stepMergeRefs h
  | .sequential ⟨_, _, steps⟩ => exact inTail_of_stepMergeRefs h
  | .merge _ => simp_all [mergeRefs]
  | .mergeModel _ => simp_all [mergeRefs]

theorem inTail_of_stepMergeRefs {steps : List PipelineDslStep} {refs : MergeRefs}
    (h : refs ∈ stepMergeRefs true steps) : refs.inTail = true := by
  match steps with
  | [] => cases h
  | step :: steps =>
    rcases List.mem_append.mp h with h | h
    · exact inTail_of_mergeRefs h
    · exact inTail_of_stepMergeRefs h

theorem inTail_of_branchMergeRefs {branches : List (PipelineDslBranch PipelineDslStep)}
    {refs : MergeRefs} (h : refs ∈ branchMergeRefs true branches) : refs.inTail = true := by
  match branches with
  | [] => cases h
  | ⟨_, _, _, steps⟩ :: branches =>
    rcases List.mem_append.mp h with h | h
    · exact inTail_of_stepMergeRefs h
    · exact inTail_of_branchMergeRefs h

theorem inTail_of_stageMergeRefs {stages : List (PipelineDslGeneratorStage PipelineDslStep)}
    {refs : MergeRefs} (h : refs ∈ stageMergeRefs true stages) : refs.inTail = true := by
  match stages with
  | [] => cases h
  | ⟨_, _, _, branches⟩ :: stages =>
    rcases List.mem_append.mp h with h | h
    · exact inTail_of_branchMergeRefs h
    · exact inTail_of_stageMergeRefs h

end

mutual

/-- Replacing references leaves the ids alone. -/
theorem rewriteStepNodeRefs_slots {inTail : Bool} {step step' : PipelineDslStep}
    (h : rewriteStepNodeRefs nodeMap step = .ok step') : slots inTail step' = slots inTail step := by
  match step with
  | .operator kind step =>
    cases h
    rfl
  | .concatTransform step =>
    cases h
    rfl
  | .branch ⟨_, _, _, branches⟩ =>
    simp only [rewriteStepNodeRefs, bind_ok, pure_ok] at h
    obtain ⟨branches', hbranches, rfl⟩ := h
    exact rewriteBranchNodeRefs_slots hbranches
  | .generator ⟨_, _, branches, stages, _, _, _, _, _, _, tail, _⟩ =>
    simp only [rewriteStepNodeRefs, bind_ok, pure_ok] at h
    obtain ⟨branches', hbranches, stages', hstages, rfl⟩ := h
    simp only [slots, rewriteBranchNodeRefs_slots hbranches, rewriteStageNodeRefs_slots hstages]
  | .sequential ⟨_, _, steps⟩ =>
    simp only [rewriteStepNodeRefs, bind_ok, pure_ok] at h
    obtain ⟨steps', hsteps, rfl⟩ := h
    simp only [slots, rewriteStepsNodeRefs_slots hsteps]
  | .merge _ =>
    cases h
    rfl
  | .mergeModel _ =>
    simp only [rewriteStepNodeRefs, bind_ok, pure_ok] at h
    obtain ⟨ports, -, rfl⟩ := h
    rfl

theorem rewriteStepsNodeRefs_slots {inTail : Bool} {steps steps' : List PipelineDslStep}
    (h : rewriteStepsNodeRefs nodeMap steps = .ok steps') :
    stepSlots inTail steps' = stepSlots inTail steps := by
  match steps with
  | [] =>
    cases h
    rfl
  | step :: steps =>
    simp only [rewriteStepsNodeRefs, bind_ok, pure_ok] at h
    obtain ⟨step', hstep, steps', hsteps, rfl⟩ := h
    simp only [stepSlots, rewriteStepNodeRefs_slots hstep, rewriteStepsNodeRefs_slots hsteps]

theorem rewriteBranchNodeRefs_slots {inTail : Bool}
    {branches branches' : List (PipelineDslBranch PipelineDslStep)}
    (h : rewriteBranchNodeRefs nodeMap branches = .ok branches') :
    branchSlots inTail branches' = branchSlots inTail branches := by
  match branches with
  | [] =>
    cases h
    rfl
  | ⟨_, _, _, steps⟩ :: branches =>
    simp only [rewriteBranchNodeRefs, bind_ok, pure_ok] at h
    obtain ⟨steps', hsteps, branches', hbranches, rfl⟩ := h
    simp only [branchSlots, rewriteStepsNodeRefs_slots hsteps,
      rewriteBranchNodeRefs_slots hbranches]

theorem rewriteStageNodeRefs_slots {inTail : Bool}
    {stages stages' : List (PipelineDslGeneratorStage PipelineDslStep)}
    (h : rewriteStageNodeRefs nodeMap stages = .ok stages') :
    stageSlots inTail stages' = stageSlots inTail stages := by
  match stages with
  | [] =>
    cases h
    rfl
  | ⟨_, _, _, branches⟩ :: stages =>
    simp only [rewriteStageNodeRefs, bind_ok, pure_ok] at h
    obtain ⟨branches', hbranches, stages', hstages, rfl⟩ := h
    simp only [stageSlots, rewriteBranchNodeRefs_slots hbranches,
      rewriteStageNodeRefs_slots hstages]

end

theorem rewritten_of_inTail {refs : List MergeRefs} (h : ∀ r ∈ refs, r.inTail = true) :
    List.Forall₂ (MergeRefs.Rewritten nodeMap) refs refs := by
  rw [List.forall₂_same]
  intro r hr
  rw [MergeRefs.Rewritten, if_pos (h r hr)]

mutual

/-- Every merge outside the tails has its references replaced. -/
theorem rewriteStepNodeRefs_mergeRefs {step step' : PipelineDslStep}
    (h : rewriteStepNodeRefs nodeMap step = .ok step') :
    List.Forall₂ (MergeRefs.Rewritten nodeMap) (mergeRefs false step) (mergeRefs false step') := by
  match step with
  | .operator kind step =>
    cases h
    exact .nil
  | .concatTransform step =>
    cases h
    exact .nil
  | .branch ⟨_, _, _, branches⟩ =>
    simp only [rewriteStepNodeRefs, bind_ok, pure_ok] at h
    obtain ⟨branches', hbranches, rfl⟩ := h
    exact rewriteBranchNodeRefs_mergeRefs hbranches
  | .generator ⟨_, _, branches, stages, _, _, _, _, _, _, tail, _⟩ =>
    simp only [rewriteStepNodeRefs, bind_ok, pure_ok] at h
    obtain ⟨branches', hbranches, stages', hstages, rfl⟩ := h
    exact List.rel_append (rewriteBranchNodeRefs_mergeRefs hbranches)
      (List.rel_append (rewriteStageNodeRefs_mergeRefs hstages)
        (rewritten_of_inTail fun _ => inTail_of_stepMergeRefs))
  | .sequential ⟨_, _, steps⟩ =>
    simp only [rewriteStepNodeRefs, bind_ok, pure_ok] at h
    obtain ⟨steps', hsteps, rfl⟩ := h
    exact rewriteStepsNodeRefs_mergeRefs hsteps
  | .merge _ =>
    cases h
    exact .cons ⟨rfl, selectors_rewriteMergeSelectors, rfl, by simp⟩ .nil
  | .mergeModel _ =>
    simp only [rewriteStepNodeRefs, bind_ok, pure_ok] at h
    obtain ⟨ports, hports, rfl⟩ := h
    exact .cons ⟨rfl, selectors_rewriteMergeSelectors, rfl, rewriteSourcePorts_ok hports⟩ .nil

theorem rewriteStepsNodeRefs_mergeRefs {steps steps' : List PipelineDslStep}
    (h : rewriteStepsNodeRefs nodeMap steps = .ok steps') :
    List.Forall₂ (MergeRefs.Rewritten nodeMap) (stepMergeRefs false steps)
      (stepMergeRefs false steps') := by
  match steps with
  | [] =>
    cases h
    exact .nil
  | step :: steps =>
    simp only [rewriteStepsNodeRefs, bind_ok, pure_ok] at h
    obtain ⟨step', hstep, steps', hsteps, rfl⟩ := h
    exact List.rel_append (rewriteStepNodeRefs_mergeRefs hstep)
      (rewriteStepsNodeRefs_mergeRefs hsteps)

theorem rewriteBranchNodeRefs_mergeRefs
    {branches branches' : List (PipelineDslBranch PipelineDslStep)}
    (h : rewriteBranchNodeRefs nodeMap branches = .ok branches') :
    List.Forall₂ (MergeRefs.Rewritten nodeMap) (branchMergeRefs false branches)
      (branchMergeRefs false branches') := by
  match branches with
  | [] =>
    cases h
    exact .nil
  | ⟨_, _, _, steps⟩ :: branches =>
    simp only [rewriteBranchNodeRefs, bind_ok, pure_ok] at h
    obtain ⟨steps', hsteps, branches', hbranches, rfl⟩ := h
    exact List.rel_append (rewriteStepsNodeRefs_mergeRefs hsteps)
      (rewriteBranchNodeRefs_mergeRefs hbranches)

theorem rewriteStageNodeRefs_mergeRefs
    {stages stages' : List (PipelineDslGeneratorStage PipelineDslStep)}
    (h : rewriteStageNodeRefs nodeMap stages = .ok stages') :
    List.Forall₂ (MergeRefs.Rewritten nodeMap) (stageMergeRefs false stages)
      (stageMergeRefs false stages') := by
  match stages with
  | [] =>
    cases h
    exact .nil
  | ⟨_, _, _, branches⟩ :: stages =>
    simp only [rewriteStageNodeRefs, bind_ok, pure_ok] at h
    obtain ⟨branches', hbranches, stages', hstages, rfl⟩ := h
    exact List.rel_append (rewriteBranchNodeRefs_mergeRefs hbranches)
      (rewriteStageNodeRefs_mergeRefs hstages)

end

mutual

/-- A merge has an id of its own, so its references stand where a slot stands. -/
theorem exists_slot_of_mergeRefs {inTail : Bool} {step : PipelineDslStep} {refs : MergeRefs}
    (h : refs ∈ mergeRefs inTail step) : ∃ slot ∈ slots inTail step, slot.inTail = refs.inTail := by
  match step with
  | .operator _ _ => cases h
  | .concatTransform _ => cases h
  | .branch ⟨_, _, _, branches⟩ => exact exists_slot_of_branchMergeRefs h
  | .generator ⟨_, _, branches, stages, _, _, _, _, _, _, tail, _⟩ =>
    simp only [mergeRefs, List.mem_append] at h
    simp only [slots, List.mem_cons, List.mem_append]
    obtain h | h | h := h
    · obtain ⟨slot, hslot, heq⟩ := exists_slot_of_branchMergeRefs h
      exact ⟨slot, .inr (.inl hslot), heq⟩
    · obtain ⟨slot, hslot, heq⟩ := exists_slot_of_stageMergeRefs h
      exact ⟨slot, .inr (.inr (.inl hslot)), heq⟩
    · obtain ⟨slot, hslot, heq⟩ := exists_slot_of_stepMergeRefs h
      exact ⟨slot, .inr (.inr (.inr hslot)), heq⟩
  | .sequential ⟨_, _, steps⟩ =>
    obtain ⟨slot, hslot, heq⟩ := exists_slot_of_stepMergeRefs h
    exact ⟨slot, List.mem_append_right _ hslot, heq⟩
  | .merge _ =>
    rw [List.mem_singleton.mp h]
    exact ⟨_, List.mem_singleton.mpr rfl, rfl⟩
  | .mergeModel _ =>
    rw [List.mem_singleton.mp h]
    exact ⟨_, List.mem_singleton.mpr rfl, rfl⟩

theorem exists_slot_of_stepMergeRefs {inTail : Bool} {steps : List PipelineDslStep}
    {refs : MergeRefs} (h : refs ∈ stepMergeRefs inTail steps) :
    ∃ slot ∈ stepSlots inTail steps, slot.inTail = refs.inTail := by
  match steps with
  | [] => cases h
  | step :: steps =>
    rcases List.mem_append.mp h with h | h
    · obtain ⟨slot, hslot, heq⟩ := exists_slot_of_mergeRefs h
      exact ⟨slot, List.mem_append_left _ hslot, heq⟩
    · obtain ⟨slot, hslot, heq⟩ := exists_slot_of_stepMergeRefs h
      exact ⟨slot, List.mem_append_right _ hslot, heq⟩

theorem exists_slot_of_branchMergeRefs {inTail : Bool}
    {branches : List (PipelineDslBranch PipelineDslStep)} {refs : MergeRefs}
    (h : refs ∈ branchMergeRefs inTail branches) :
    ∃ slot ∈ branchSlots inTail branches, slot.inTail = refs.inTail := by
  match branches with
  | [] => cases h
  | ⟨_, _, _, steps⟩ :: branches =>
    rcases List.mem_append.mp h with h | h
    · obtain ⟨slot, hslot, heq⟩ := exists_slot_of_stepMergeRefs h
      exact ⟨slot, List.mem_append_left _ hslot, heq⟩
    · obtain ⟨slot, hslot, heq⟩ := exists_slot_of_branchMergeRefs h
      exact ⟨slot, List.mem_append_right _ hslot, heq⟩

theorem exists_slot_of_stageMergeRefs {inTail : Bool}
    {stages : List (PipelineDslGeneratorStage PipelineDslStep)} {refs : MergeRefs}
    (h : refs ∈ stageMergeRefs inTail stages) :
    ∃ slot ∈ stageSlots inTail stages, slot.inTail = refs.inTail := by
  match stages with
  | [] => cases h
  | ⟨_, _, _, branches⟩ :: stages =>
    rcases List.mem_append.mp h with h | h
    · obtain ⟨slot, hslot, heq⟩ := exists_slot_of_branchMergeRefs h
      exact ⟨slot, List.mem_append_left _ hslot, heq⟩
    · obtain ⟨slot, hslot, heq⟩ := exists_slot_of_stageMergeRefs h
      exact ⟨slot, List.mem_append_right _ hslot, heq⟩

end

end PipelineDslStep

end DagMl
