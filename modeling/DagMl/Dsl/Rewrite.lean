import DagMl.Dsl.Step
import DagMl.Lib.Threaded

/-!
# Rewriting node ids

Both passes that copy steps rewrite their node ids with one traversal: they
differ in what it visits and in how an id is minted. A pass is read back as a
loop over the slots, which says all it does.
-/

namespace DagMl

open Checked

/-- Which of the nested places a pass visits. -/
structure RewriteScope where
  concatOperators : Bool
  tails : Bool

def RewriteScope.covers (scope : RewriteScope) (slot : PipelineDslStep.Slot) : Bool :=
  (!slot.inConcat || scope.concatOperators) && (!slot.inTail || scope.tails)

/-- How an id is replaced; the flag says whether the compiler emits its node. -/
abbrev Mint (σ : Type) := σ → Bool → NodeId → Result (σ × NodeId)

namespace PipelineDslStep

variable {σ : Type}

-- ---------------------------------------------------------------------------
-- Id fields
-- ---------------------------------------------------------------------------

/-- What lies outside the scope is left as it is. -/
def visitIf (visited : Bool) (s : σ) (a : α) (visit : Result (σ × α)) : Result (σ × α) :=
  if visited then visit else .ok (s, a)

def rewriteOperatorId (mint : Mint σ) (s : σ) (step : PipelineDslOperatorStep) :
    Result (σ × PipelineDslOperatorStep) := do
  let own ← mint s true step.id
  pure (own.1, { step with id := own.2 })

def rewriteConcatBranchIds (mint : Mint σ) (s : σ) (branch : PipelineDslConcatBranch) :
    Result (σ × PipelineDslConcatBranch) := do
  let steps ← thread (rewriteOperatorId mint) s branch.steps
  pure (steps.1, { branch with steps := steps.2 })

def rewriteConcatIds (scope : RewriteScope) (mint : Mint σ) (s : σ)
    (step : PipelineDslConcatTransformStep) : Result (σ × PipelineDslConcatTransformStep) := do
  let own ← mint s true step.id
  let branches ← visitIf scope.concatOperators own.1 step.branches
    (thread (rewriteConcatBranchIds mint) own.1 step.branches)
  pure (branches.1, { step with id := own.2, branches := branches.2 })

/-- `if let Some(id) = &mut step.id`. -/
def rewriteOptionalId (mint : Mint σ) (s : σ) : Option NodeId → Result (σ × Option NodeId)
  | none => .ok (s, none)
  | some id => do
    let own ← mint s false id
    pure (own.1, some own.2)

mutual

def rewriteIds (scope : RewriteScope) (mint : Mint σ) (s : σ) :
    PipelineDslStep → Result (σ × PipelineDslStep)
  | .operator kind step => do
    let step ← rewriteOperatorId mint s step
    pure (step.1, .operator kind step.2)
  | .concatTransform step => do
    let step ← rewriteConcatIds scope mint s step
    pure (step.1, .concatTransform step.2)
  | .branch ⟨mode, selector, metadata, branches⟩ => do
    let branches ← rewriteBranchIds scope mint s branches
    pure (branches.1, .branch ⟨mode, selector, metadata, branches.2⟩)
  | .generator ⟨id, mode, branches, stages, pick, arrange, thenPick, thenArrange, count,
      constraints, tail, metadata⟩ => do
    let own ← mint s false id
    let branches ← rewriteBranchIds scope mint own.1 branches
    let stages ← rewriteStageIds scope mint branches.1 stages
    let tail ← visitIf scope.tails stages.1 tail (rewriteStepIds scope mint stages.1 tail)
    pure (tail.1, .generator ⟨own.2, mode, branches.2, stages.2, pick, arrange, thenPick,
      thenArrange, count, constraints, tail.2, metadata⟩)
  | .sequential ⟨id, metadata, steps⟩ => do
    let own ← rewriteOptionalId mint s id
    let steps ← rewriteStepIds scope mint own.1 steps
    pure (steps.1, .sequential ⟨own.2, metadata, steps.2⟩)
  | .merge step => do
    let own ← mint s true step.id
    pure (own.1, .merge { step with id := own.2 })
  | .mergeModel step => do
    let own ← mint s true step.id
    pure (own.1, .mergeModel { step with id := own.2 })

def rewriteStepIds (scope : RewriteScope) (mint : Mint σ) (s : σ) :
    List PipelineDslStep → Result (σ × List PipelineDslStep)
  | [] => .ok (s, [])
  | step :: steps => do
    let step ← rewriteIds scope mint s step
    let steps ← rewriteStepIds scope mint step.1 steps
    pure (steps.1, step.2 :: steps.2)

def rewriteBranchIds (scope : RewriteScope) (mint : Mint σ) (s : σ) :
    List (PipelineDslBranch PipelineDslStep) →
      Result (σ × List (PipelineDslBranch PipelineDslStep))
  | [] => .ok (s, [])
  | ⟨id, selector, metadata, steps⟩ :: branches => do
    let steps ← rewriteStepIds scope mint s steps
    let branches ← rewriteBranchIds scope mint steps.1 branches
    pure (branches.1, ⟨id, selector, metadata, steps.2⟩ :: branches.2)

def rewriteStageIds (scope : RewriteScope) (mint : Mint σ) (s : σ) :
    List (PipelineDslGeneratorStage PipelineDslStep) →
      Result (σ × List (PipelineDslGeneratorStage PipelineDslStep))
  | [] => .ok (s, [])
  | ⟨id, selector, metadata, branches⟩ :: stages => do
    let branches ← rewriteBranchIds scope mint s branches
    let stages ← rewriteStageIds scope mint branches.1 stages
    pure (stages.1, ⟨id, selector, metadata, branches.2⟩ :: stages.2)

end

-- ---------------------------------------------------------------------------
-- The pass as a loop over the slots
-- ---------------------------------------------------------------------------

/-- What the pass does at one slot. -/
def mintSlot (scope : RewriteScope) (mint : Mint σ) (s : σ) (slot : Slot) : Result (σ × Slot) :=
  if scope.covers slot then do
    let own ← mint s slot.emits slot.id
    pure (own.1, { slot with id := own.2 })
  else .ok (s, slot)

variable {scope : RewriteScope} {mint : Mint σ}

theorem mintSlot_covered {slot : Slot} {id : NodeId} (hc : scope.covers slot = true)
    (h : mint s slot.emits slot.id = .ok (t, id)) :
    mintSlot scope mint s slot = .ok (t, { slot with id }) := by
  rw [mintSlot, if_pos hc, bind_ok]
  exact ⟨(t, id), h, rfl⟩

theorem thread_slot {slot : Slot} {id : NodeId} (hc : scope.covers slot = true)
    (h : mint s slot.emits slot.id = .ok (t, id)) :
    thread (mintSlot scope mint) s [slot] = .ok (t, [{ slot with id }]) :=
  thread_cons.mpr ⟨t, _, [], mintSlot_covered hc h, thread_nil.mpr ⟨rfl, rfl⟩, rfl⟩

/-- Slots outside the scope stay. -/
theorem thread_uncovered {slots : List Slot} (h : ∀ slot ∈ slots, scope.covers slot = false) :
    thread (mintSlot scope mint) s slots = .ok (s, slots) := by
  induction slots with
  | nil => rfl
  | cons slot slots ih =>
    rw [List.forall_mem_cons] at h
    refine thread_cons.mpr ⟨s, slot, slots, ?_, ih h.2, rfl⟩
    rw [mintSlot, h.1]
    rfl

theorem thread_operators {inTail : Bool} (hc : scope.concatOperators = true)
    (ht : inTail = true → scope.tails = true) {steps steps' : List PipelineDslOperatorStep}
    (h : thread (rewriteOperatorId mint) s steps = .ok (t, steps')) :
    thread (mintSlot scope mint) s (steps.map fun step => ⟨step.id, true, true, inTail⟩) =
      .ok (t, steps'.map fun step => ⟨step.id, true, true, inTail⟩) := by
  induction steps generalizing s steps' with
  | nil =>
    obtain ⟨rfl, rfl⟩ := thread_nil.mp h
    rfl
  | cons step steps ih =>
    obtain ⟨s', step', rest, hstep, hrest, rfl⟩ := thread_cons.mp h
    simp only [rewriteOperatorId, bind_ok, pure_ok, Prod.mk.injEq] at hstep
    obtain ⟨own, hown, rfl, rfl⟩ := hstep
    refine thread_cons.mpr ⟨own.1, _, _, mintSlot_covered ?_ hown, ih hrest, rfl⟩
    cases inTail <;> simp_all [RewriteScope.covers]

theorem thread_concatBranches {inTail : Bool} (hc : scope.concatOperators = true)
    (ht : inTail = true → scope.tails = true) {branches branches' : List PipelineDslConcatBranch}
    (h : thread (rewriteConcatBranchIds mint) s branches = .ok (t, branches')) :
    thread (mintSlot scope mint) s (branches.flatMap fun branch =>
        branch.steps.map fun step => ⟨step.id, true, true, inTail⟩) =
      .ok (t, branches'.flatMap fun branch =>
        branch.steps.map fun step => ⟨step.id, true, true, inTail⟩) := by
  induction branches generalizing s branches' with
  | nil =>
    obtain ⟨rfl, rfl⟩ := thread_nil.mp h
    rfl
  | cons branch branches ih =>
    obtain ⟨s', branch', rest, hbranch, hrest, rfl⟩ := thread_cons.mp h
    simp only [rewriteConcatBranchIds, bind_ok, pure_ok, Prod.mk.injEq] at hbranch
    obtain ⟨steps, hsteps, rfl, rfl⟩ := hbranch
    exact thread_append (thread_operators hc ht hsteps) (ih hrest)

theorem covers_plain {id : NodeId} {inTail : Bool} (ht : inTail = true → scope.tails = true) :
    scope.covers ⟨id, emits, false, inTail⟩ = true := by
  cases inTail <;> simp_all [RewriteScope.covers]

theorem rewriteConcatIds_slots {inTail : Bool} (ht : inTail = true → scope.tails = true)
    {step step' : PipelineDslConcatTransformStep}
    (h : rewriteConcatIds scope mint s step = .ok (t, step')) :
    thread (mintSlot scope mint) s (slots inTail (.concatTransform step)) =
      .ok (t, slots inTail (.concatTransform step')) := by
  simp only [rewriteConcatIds, bind_ok, pure_ok, Prod.mk.injEq] at h
  obtain ⟨own, hown, branches, hbranches, rfl, rfl⟩ := h
  refine thread_append (thread_slot (covers_plain ht) hown) ?_
  cases hc : scope.concatOperators with
  | true =>
    rw [visitIf, if_pos hc] at hbranches
    exact thread_concatBranches hc ht hbranches
  | false =>
    rw [visitIf, hc] at hbranches
    cases hbranches
    refine thread_uncovered fun slot hslot => ?_
    obtain ⟨branch, -, hslot⟩ := List.mem_flatMap.mp hslot
    obtain ⟨operator, -, rfl⟩ := List.mem_map.mp hslot
    simp [RewriteScope.covers, hc]

theorem rewriteOptionalId_slots {inTail : Bool} (ht : inTail = true → scope.tails = true)
    {id id' : Option NodeId} (h : rewriteOptionalId mint s id = .ok (t, id')) :
    thread (mintSlot scope mint) s (id.toList.map fun id => ⟨id, false, false, inTail⟩) =
      .ok (t, id'.toList.map fun id => ⟨id, false, false, inTail⟩) := by
  cases id with
  | none =>
    cases h
    rfl
  | some id =>
    simp only [rewriteOptionalId, bind_ok, pure_ok, Prod.mk.injEq] at h
    obtain ⟨own, hown, rfl, rfl⟩ := h
    exact thread_slot (covers_plain ht) hown

mutual

theorem inTail_of_slots {step : PipelineDslStep} {slot : Slot} (h : slot ∈ slots true step) :
    slot.inTail = true := by
  match step with
  | .operator _ step => simp_all [slots]
  | .concatTransform step =>
    simp only [slots, List.mem_cons, List.mem_flatMap, List.mem_map] at h
    obtain rfl | ⟨_, -, _, -, rfl⟩ := h <;> rfl
  | .branch ⟨_, _, _, branches⟩ => exact inTail_of_branchSlots h
  | .generator ⟨_, _, branches, stages, _, _, _, _, _, _, tail, _⟩ =>
    simp only [slots, List.mem_cons, List.mem_append] at h
    obtain rfl | h | h | h := h
    · rfl
    · exact inTail_of_branchSlots h
    · exact inTail_of_stageSlots h
    · exact inTail_of_stepSlots h
  | .sequential ⟨_, _, steps⟩ =>
    simp only [slots, List.mem_append, List.mem_map] at h
    obtain ⟨_, -, rfl⟩ | h := h
    · rfl
    · exact inTail_of_stepSlots h
  | .merge _ => simp_all [slots]
  | .mergeModel _ => simp_all [slots]

theorem inTail_of_stepSlots {steps : List PipelineDslStep} {slot : Slot}
    (h : slot ∈ stepSlots true steps) : slot.inTail = true := by
  match steps with
  | [] => cases h
  | step :: steps =>
    rcases List.mem_append.mp h with h | h
    · exact inTail_of_slots h
    · exact inTail_of_stepSlots h

theorem inTail_of_branchSlots {branches : List (PipelineDslBranch PipelineDslStep)} {slot : Slot}
    (h : slot ∈ branchSlots true branches) : slot.inTail = true := by
  match branches with
  | [] => cases h
  | ⟨_, _, _, steps⟩ :: branches =>
    rcases List.mem_append.mp h with h | h
    · exact inTail_of_stepSlots h
    · exact inTail_of_branchSlots h

theorem inTail_of_stageSlots {stages : List (PipelineDslGeneratorStage PipelineDslStep)}
    {slot : Slot} (h : slot ∈ stageSlots true stages) : slot.inTail = true := by
  match stages with
  | [] => cases h
  | ⟨_, _, _, branches⟩ :: stages =>
    rcases List.mem_append.mp h with h | h
    · exact inTail_of_branchSlots h
    · exact inTail_of_stageSlots h

end

mutual

/-- The pass is the loop of `mintSlot` over the slots: it reaches each of them
once, in order, and changes nothing but ids. -/
theorem rewriteIds_slots {inTail : Bool} (ht : inTail = true → scope.tails = true)
    {step step' : PipelineDslStep} (h : rewriteIds scope mint s step = .ok (t, step')) :
    thread (mintSlot scope mint) s (slots inTail step) = .ok (t, slots inTail step') := by
  match step with
  | .operator kind step =>
    simp only [rewriteIds, rewriteOperatorId, bind_ok, pure_ok, Prod.mk.injEq] at h
    obtain ⟨_, ⟨own, hown, rfl⟩, rfl, rfl⟩ := h
    exact thread_slot (covers_plain ht) hown
  | .concatTransform step =>
    simp only [rewriteIds, bind_ok, pure_ok, Prod.mk.injEq] at h
    obtain ⟨step', hstep, rfl, rfl⟩ := h
    exact rewriteConcatIds_slots ht hstep
  | .branch ⟨_, _, _, branches⟩ =>
    simp only [rewriteIds, bind_ok, pure_ok, Prod.mk.injEq] at h
    obtain ⟨branches', hbranches, rfl, rfl⟩ := h
    exact rewriteBranchIds_slots ht hbranches
  | .generator ⟨_, _, branches, stages, _, _, _, _, _, _, tail, _⟩ =>
    simp only [rewriteIds, bind_ok, pure_ok, Prod.mk.injEq] at h
    obtain ⟨own, hown, branches', hbranches, stages', hstages, tail', htail, rfl, rfl⟩ := h
    refine thread_append (thread_slot (covers_plain ht) hown)
      (thread_append (rewriteBranchIds_slots ht hbranches)
        (thread_append (rewriteStageIds_slots ht hstages) ?_))
    cases htails : scope.tails with
    | true =>
      rw [visitIf, if_pos htails] at htail
      exact rewriteStepIds_slots (fun _ => htails) htail
    | false =>
      rw [visitIf, htails] at htail
      cases htail
      refine thread_uncovered fun slot hslot => ?_
      simp [RewriteScope.covers, inTail_of_stepSlots hslot, htails]
  | .sequential ⟨_, _, steps⟩ =>
    simp only [rewriteIds, bind_ok, pure_ok, Prod.mk.injEq] at h
    obtain ⟨own, hown, steps', hsteps, rfl, rfl⟩ := h
    exact thread_append (rewriteOptionalId_slots ht hown) (rewriteStepIds_slots ht hsteps)
  | .merge _ =>
    simp only [rewriteIds, bind_ok, pure_ok, Prod.mk.injEq] at h
    obtain ⟨own, hown, rfl, rfl⟩ := h
    exact thread_slot (covers_plain ht) hown
  | .mergeModel _ =>
    simp only [rewriteIds, bind_ok, pure_ok, Prod.mk.injEq] at h
    obtain ⟨own, hown, rfl, rfl⟩ := h
    exact thread_slot (covers_plain ht) hown

theorem rewriteStepIds_slots {inTail : Bool} (ht : inTail = true → scope.tails = true)
    {steps steps' : List PipelineDslStep} (h : rewriteStepIds scope mint s steps = .ok (t, steps')) :
    thread (mintSlot scope mint) s (stepSlots inTail steps) = .ok (t, stepSlots inTail steps') := by
  match steps with
  | [] =>
    cases h
    rfl
  | step :: steps =>
    simp only [rewriteStepIds, bind_ok, pure_ok, Prod.mk.injEq] at h
    obtain ⟨step', hstep, steps', hsteps, rfl, rfl⟩ := h
    exact thread_append (rewriteIds_slots ht hstep) (rewriteStepIds_slots ht hsteps)

theorem rewriteBranchIds_slots {inTail : Bool} (ht : inTail = true → scope.tails = true)
    {branches branches' : List (PipelineDslBranch PipelineDslStep)}
    (h : rewriteBranchIds scope mint s branches = .ok (t, branches')) :
    thread (mintSlot scope mint) s (branchSlots inTail branches) =
      .ok (t, branchSlots inTail branches') := by
  match branches with
  | [] =>
    cases h
    rfl
  | ⟨_, _, _, steps⟩ :: branches =>
    simp only [rewriteBranchIds, bind_ok, pure_ok, Prod.mk.injEq] at h
    obtain ⟨steps', hsteps, branches', hbranches, rfl, rfl⟩ := h
    exact thread_append (rewriteStepIds_slots ht hsteps) (rewriteBranchIds_slots ht hbranches)

theorem rewriteStageIds_slots {inTail : Bool} (ht : inTail = true → scope.tails = true)
    {stages stages' : List (PipelineDslGeneratorStage PipelineDslStep)}
    (h : rewriteStageIds scope mint s stages = .ok (t, stages')) :
    thread (mintSlot scope mint) s (stageSlots inTail stages) =
      .ok (t, stageSlots inTail stages') := by
  match stages with
  | [] =>
    cases h
    rfl
  | ⟨_, _, _, branches⟩ :: stages =>
    simp only [rewriteStageIds, bind_ok, pure_ok, Prod.mk.injEq] at h
    obtain ⟨branches', hbranches, stages', hstages, rfl, rfl⟩ := h
    exact thread_append (rewriteBranchIds_slots ht hbranches) (rewriteStageIds_slots ht hstages)

end

mutual

/-- Replacing ids leaves the references alone. -/
theorem rewriteIds_mergeRefs {inTail : Bool} {step step' : PipelineDslStep}
    (h : rewriteIds scope mint s step = .ok (t, step')) :
    mergeRefs inTail step' = mergeRefs inTail step := by
  match step with
  | .operator kind step =>
    simp only [rewriteIds, bind_ok, pure_ok, Prod.mk.injEq] at h
    obtain ⟨_, -, -, rfl⟩ := h
    rfl
  | .concatTransform step =>
    simp only [rewriteIds, bind_ok, pure_ok, Prod.mk.injEq] at h
    obtain ⟨_, -, -, rfl⟩ := h
    rfl
  | .branch ⟨_, _, _, branches⟩ =>
    simp only [rewriteIds, bind_ok, pure_ok, Prod.mk.injEq] at h
    obtain ⟨branches', hbranches, -, rfl⟩ := h
    exact rewriteBranchIds_mergeRefs hbranches
  | .generator ⟨_, _, branches, stages, _, _, _, _, _, _, tail, _⟩ =>
    simp only [rewriteIds, bind_ok, pure_ok, Prod.mk.injEq] at h
    obtain ⟨own, -, branches', hbranches, stages', hstages, tail', htail, -, rfl⟩ := h
    have htail : stepMergeRefs true tail'.2 = stepMergeRefs true tail := by
      unfold visitIf at htail
      split at htail
      · exact rewriteStepIds_mergeRefs htail
      · cases htail
        rfl
    simp only [mergeRefs, rewriteBranchIds_mergeRefs hbranches, rewriteStageIds_mergeRefs hstages,
      htail]
  | .sequential ⟨_, _, steps⟩ =>
    simp only [rewriteIds, bind_ok, pure_ok, Prod.mk.injEq] at h
    obtain ⟨own, -, steps', hsteps, -, rfl⟩ := h
    exact rewriteStepIds_mergeRefs hsteps
  | .merge _ =>
    simp only [rewriteIds, bind_ok, pure_ok, Prod.mk.injEq] at h
    obtain ⟨own, -, -, rfl⟩ := h
    rfl
  | .mergeModel _ =>
    simp only [rewriteIds, bind_ok, pure_ok, Prod.mk.injEq] at h
    obtain ⟨own, -, -, rfl⟩ := h
    rfl

theorem rewriteStepIds_mergeRefs {inTail : Bool} {steps steps' : List PipelineDslStep}
    (h : rewriteStepIds scope mint s steps = .ok (t, steps')) :
    stepMergeRefs inTail steps' = stepMergeRefs inTail steps := by
  match steps with
  | [] =>
    cases h
    rfl
  | step :: steps =>
    simp only [rewriteStepIds, bind_ok, pure_ok, Prod.mk.injEq] at h
    obtain ⟨step', hstep, steps', hsteps, -, rfl⟩ := h
    simp only [stepMergeRefs, rewriteIds_mergeRefs hstep, rewriteStepIds_mergeRefs hsteps]

theorem rewriteBranchIds_mergeRefs {inTail : Bool}
    {branches branches' : List (PipelineDslBranch PipelineDslStep)}
    (h : rewriteBranchIds scope mint s branches = .ok (t, branches')) :
    branchMergeRefs inTail branches' = branchMergeRefs inTail branches := by
  match branches with
  | [] =>
    cases h
    rfl
  | ⟨_, _, _, steps⟩ :: branches =>
    simp only [rewriteBranchIds, bind_ok, pure_ok, Prod.mk.injEq] at h
    obtain ⟨steps', hsteps, branches', hbranches, -, rfl⟩ := h
    simp only [branchMergeRefs, rewriteStepIds_mergeRefs hsteps,
      rewriteBranchIds_mergeRefs hbranches]

theorem rewriteStageIds_mergeRefs {inTail : Bool}
    {stages stages' : List (PipelineDslGeneratorStage PipelineDslStep)}
    (h : rewriteStageIds scope mint s stages = .ok (t, stages')) :
    stageMergeRefs inTail stages' = stageMergeRefs inTail stages := by
  match stages with
  | [] =>
    cases h
    rfl
  | ⟨_, _, _, branches⟩ :: stages =>
    simp only [rewriteStageIds, bind_ok, pure_ok, Prod.mk.injEq] at h
    obtain ⟨branches', hbranches, stages', hstages, -, rfl⟩ := h
    simp only [stageMergeRefs, rewriteBranchIds_mergeRefs hbranches,
      rewriteStageIds_mergeRefs hstages]

end

end PipelineDslStep

end DagMl
