import DagMl.Dsl.Fanout

/-!
# The parts of a fan-out

Fan-out looks into sequences and explicit branches and takes everything else
as it is. `parts` lists what it meets in order, so the expansion is a loop over
parts; a listing of the steps can be read off the parts before and after it.
-/

namespace DagMl

open Checked PipelineDslStep

-- ---------------------------------------------------------------------------
-- Templates
-- ---------------------------------------------------------------------------

/-- An auto-separation step reads the selectors of its branches only. -/
theorem isAutoSeparationBranch_congr {mode : PipelineDslBranchMode} {selector : Option JsonValue}
    {metadata : BTreeMap String JsonDocument}
    {branches branches' : List (PipelineDslBranch PipelineDslStep)}
    (h : branches'.map (·.selector) = branches.map (·.selector)) :
    isAutoSeparationBranch ⟨mode, selector, metadata, branches'⟩ =
      isAutoSeparationBranch ⟨mode, selector, metadata, branches⟩ := by
  unfold isAutoSeparationBranch
  congr 1
  match branches, branches' with
  | [], [] => rfl
  | [], _ :: _ => simp at h
  | _ :: _, [] => simp at h
  | [_], [_] => simp_all
  | [_], _ :: _ :: _ => simp at h
  | _ :: _ :: _, [_] => simp at h
  | _ :: _ :: _, _ :: _ :: _ => rfl

theorem autoTemplate_none {step : PipelineDslBranchStep PipelineDslStep} :
    autoTemplate step = none ↔ isAutoSeparationBranch step = false := by
  unfold autoTemplate
  cases h : isAutoSeparationBranch step with
  | false => simp
  | true =>
    have hbranches : step.branches ≠ [] := by
      intro hnil
      simp [isAutoSeparationBranch, hnil] at h
    simpa using hbranches

theorem autoTemplate_some {step : PipelineDslBranchStep PipelineDslStep}
    {template : PipelineDslBranch PipelineDslStep} (h : autoTemplate step = some template) :
    isAutoSeparationBranch step = true ∧ step.branches = [template] := by
  unfold autoTemplate at h
  split at h
  · rename_i hauto
    refine ⟨hauto, ?_⟩
    unfold isAutoSeparationBranch at hauto
    match hbranches : step.branches with
    | [] => simp [hbranches] at h
    | [_] => simpa [hbranches] using h
    | _ :: _ :: _ => simp [hbranches] at hauto
  · cases h

-- ---------------------------------------------------------------------------
-- Parts
-- ---------------------------------------------------------------------------

inductive FanoutPart
  | sequence (id : Option NodeId)
  | other (step : PipelineDslStep)
  | template (step : PipelineDslBranchStep PipelineDslStep)
    (template : PipelineDslBranch PipelineDslStep)

mutual

/-- What fan-out meets in a step, in order. -/
def parts : PipelineDslStep → List FanoutPart
  | .branch ⟨mode, selector, metadata, branches⟩ =>
    match autoTemplate ⟨mode, selector, metadata, branches⟩ with
    | some template => [.template ⟨mode, selector, metadata, branches⟩ template]
    | none => branchParts branches
  | .sequential ⟨id, _, steps⟩ => .sequence id :: stepParts steps
  | step => [.other step]

def stepParts : List PipelineDslStep → List FanoutPart
  | [] => []
  | step :: steps => parts step ++ stepParts steps

def branchParts : List (PipelineDslBranch PipelineDslStep) → List FanoutPart
  | [] => []
  | ⟨_, _, _, steps⟩ :: branches => stepParts steps ++ branchParts branches

end

mutual

/-- A template part is an auto-separation step with its template. -/
theorem template_of_mem_parts {step : PipelineDslStep}
    {own : PipelineDslBranchStep PipelineDslStep} {template : PipelineDslBranch PipelineDslStep}
    (h : .template own template ∈ parts step) : autoTemplate own = some template := by
  match step with
  | .branch ⟨mode, selector, metadata, branches⟩ =>
    rw [parts] at h
    split at h
    · rename_i hauto
      cases List.mem_singleton.mp h
      exact hauto
    · exact template_of_mem_branchParts h
  | .sequential ⟨_, _, steps⟩ =>
    rcases List.mem_cons.mp h with h | h
    · cases h
    · exact template_of_mem_stepParts h
  | .operator _ _ | .concatTransform _ | .generator _ | .merge _ | .mergeModel _ =>
    cases List.mem_singleton.mp h

theorem template_of_mem_stepParts {steps : List PipelineDslStep}
    {own : PipelineDslBranchStep PipelineDslStep} {template : PipelineDslBranch PipelineDslStep}
    (h : .template own template ∈ stepParts steps) : autoTemplate own = some template := by
  match steps with
  | [] => cases h
  | step :: steps =>
    rcases List.mem_append.mp h with h | h
    · exact template_of_mem_parts h
    · exact template_of_mem_stepParts h

theorem template_of_mem_branchParts {branches : List (PipelineDslBranch PipelineDslStep)}
    {own : PipelineDslBranchStep PipelineDslStep} {template : PipelineDslBranch PipelineDslStep}
    (h : .template own template ∈ branchParts branches) : autoTemplate own = some template := by
  match branches with
  | [] => cases h
  | ⟨_, _, _, steps⟩ :: branches =>
    rcases List.mem_append.mp h with h | h
    · exact template_of_mem_stepParts h
    · exact template_of_mem_branchParts h

end

section

variable {Cohort : Type} (floats : FloatWriter) (envelope : ExternalDataPlanEnvelope Cohort)

def fanOutPart (state : FanoutState) : FanoutPart → Result (FanoutState × FanoutPart)
  | .template step template => do
    let step ← expandAutoSeparationBranch floats envelope state step template
    pure (step.1, .other (.branch step.2))
  | part => .ok (state, part)

end

/-- A listing of steps that explicit branches and sequences contribute to
through their steps only. -/
structure Listing (β : Type) where
  ofStep : PipelineDslStep → List β
  ofSequence : Option NodeId → List β
  branch : ∀ step, autoTemplate step = none →
    ofStep (.branch step) = step.branches.flatMap fun branch => branch.steps.flatMap ofStep
  sequential : ∀ step,
    ofStep (.sequential step) = ofSequence step.id ++ step.steps.flatMap ofStep

def Listing.ofPart (L : Listing β) : FanoutPart → List β
  | .sequence id => L.ofSequence id
  | .other step => L.ofStep step
  | .template step _ => L.ofStep (.branch step)

mutual

theorem parts_listing {L : Listing β} {step : PipelineDslStep} :
    L.ofStep step = (parts step).flatMap L.ofPart := by
  match step with
  | .branch ⟨mode, selector, metadata, branches⟩ =>
    cases h : autoTemplate ⟨mode, selector, metadata, branches⟩ with
    | none =>
      rw [parts, h, L.branch _ h]
      exact branchParts_listing
    | some template => simp [parts, h, Listing.ofPart]
  | .sequential ⟨id, metadata, steps⟩ =>
    rw [parts, L.sequential, List.flatMap_cons]
    exact congrArg _ stepParts_listing
  | .operator _ _ => simp [parts, Listing.ofPart]
  | .concatTransform _ => simp [parts, Listing.ofPart]
  | .generator _ => simp [parts, Listing.ofPart]
  | .merge _ => simp [parts, Listing.ofPart]
  | .mergeModel _ => simp [parts, Listing.ofPart]

theorem stepParts_listing {L : Listing β} {steps : List PipelineDslStep} :
    steps.flatMap L.ofStep = (stepParts steps).flatMap L.ofPart := by
  match steps with
  | [] => rfl
  | step :: steps =>
    rw [List.flatMap_cons, stepParts, List.flatMap_append, parts_listing, stepParts_listing]

theorem branchParts_listing {L : Listing β} {branches : List (PipelineDslBranch PipelineDslStep)} :
    (branches.flatMap fun branch => branch.steps.flatMap L.ofStep) =
      (branchParts branches).flatMap L.ofPart := by
  match branches with
  | [] => rfl
  | ⟨_, _, _, steps⟩ :: branches =>
    rw [List.flatMap_cons, branchParts, List.flatMap_append, stepParts_listing,
      branchParts_listing]

end

section

variable {Cohort : Type} {floats : FloatWriter} {envelope : ExternalDataPlanEnvelope Cohort}

/-- A part that is not a template stays. -/
theorem thread_part {state : FanoutState} {part : FanoutPart}
    (h : fanOutPart floats envelope state part = .ok (state, part)) :
    thread (fanOutPart floats envelope) state [part] = .ok (state, [part]) :=
  thread_cons.mpr ⟨state, part, [], h, thread_nil.mpr ⟨rfl, rfl⟩, rfl⟩

mutual

/-- Fan-out is the loop over the parts, and every listing of its outcome is the
listing of the parts it leaves. -/
theorem fanOutStep_parts {state state' : FanoutState} {step step' : PipelineDslStep}
    (h : fanOutStep floats envelope state step = .ok (state', step')) :
    ∃ after, thread (fanOutPart floats envelope) state (parts step) = .ok (state', after) ∧
      ∀ {β : Type} (L : Listing β), L.ofStep step' = after.flatMap L.ofPart := by
  match step with
  | .branch ⟨mode, selector, metadata, branches⟩ =>
    rw [fanOutStep] at h
    rw [parts]
    cases hauto : autoTemplate ⟨mode, selector, metadata, branches⟩ with
    | some template =>
      rw [hauto] at h
      simp only [bind_ok, pure_ok, Prod.mk.injEq] at h
      obtain ⟨out, hout, rfl, rfl⟩ := h
      refine ⟨[.other (.branch out.2)], thread_cons.mpr ⟨_, _, [], ?_, thread_nil.mpr ⟨rfl, rfl⟩, rfl⟩,
        fun L => by simp [Listing.ofPart]⟩
      simp [fanOutPart, hout]
    | none =>
      rw [hauto] at h
      simp only [bind_ok, pure_ok, Prod.mk.injEq] at h
      obtain ⟨out, hout, rfl, rfl⟩ := h
      obtain ⟨after, hrun, hselectors, hlisting⟩ := fanOutBranches_parts hout
      refine ⟨after, hrun, fun L => ?_⟩
      rw [L.branch, hlisting]
      rw [autoTemplate_none] at hauto ⊢
      rw [isAutoSeparationBranch_congr hselectors, hauto]
  | .sequential ⟨id, metadata, steps⟩ =>
    simp only [fanOutStep, bind_ok, pure_ok, Prod.mk.injEq] at h
    obtain ⟨out, hout, rfl, rfl⟩ := h
    obtain ⟨after, hrun, hlisting⟩ := fanOutSteps_parts hout
    refine ⟨.sequence id :: after, thread_append (thread_part rfl) hrun, fun L => ?_⟩
    rw [L.sequential, hlisting]
    rfl
  | .operator _ _ | .concatTransform _ | .generator _ | .merge _ | .mergeModel _ =>
    cases h
    exact ⟨_, thread_part rfl, fun L => by simp [Listing.ofPart]⟩

theorem fanOutSteps_parts {state state' : FanoutState} {steps steps' : List PipelineDslStep}
    (h : fanOutSteps floats envelope state steps = .ok (state', steps')) :
    ∃ after, thread (fanOutPart floats envelope) state (stepParts steps) = .ok (state', after) ∧
      ∀ {β : Type} (L : Listing β), steps'.flatMap L.ofStep = after.flatMap L.ofPart := by
  match steps with
  | [] =>
    cases h
    exact ⟨[], rfl, fun _ => rfl⟩
  | step :: steps =>
    simp only [fanOutSteps, bind_ok, pure_ok, Prod.mk.injEq] at h
    obtain ⟨step', hstep, steps', hsteps, rfl, rfl⟩ := h
    obtain ⟨after, hrun, hlisting⟩ := fanOutStep_parts hstep
    obtain ⟨after', hrun', hlisting'⟩ := fanOutSteps_parts hsteps
    refine ⟨after ++ after', thread_append hrun hrun', fun L => ?_⟩
    rw [List.flatMap_cons, List.flatMap_append, hlisting, hlisting']

theorem fanOutBranches_parts {state state' : FanoutState}
    {branches branches' : List (PipelineDslBranch PipelineDslStep)}
    (h : fanOutBranches floats envelope state branches = .ok (state', branches')) :
    ∃ after, thread (fanOutPart floats envelope) state (branchParts branches) =
        .ok (state', after) ∧
      branches'.map (·.selector) = branches.map (·.selector) ∧
      ∀ {β : Type} (L : Listing β), (branches'.flatMap fun branch => branch.steps.flatMap L.ofStep) =
        after.flatMap L.ofPart := by
  match branches with
  | [] =>
    cases h
    exact ⟨[], rfl, rfl, fun _ => rfl⟩
  | ⟨_, _, _, steps⟩ :: branches =>
    simp only [fanOutBranches, bind_ok, pure_ok, Prod.mk.injEq] at h
    obtain ⟨steps', hsteps, branches', hbranches, rfl, rfl⟩ := h
    obtain ⟨after, hrun, hlisting⟩ := fanOutSteps_parts hsteps
    obtain ⟨after', hrun', hselectors, hlisting'⟩ := fanOutBranches_parts hbranches
    refine ⟨after ++ after', thread_append hrun hrun', ?_, fun L => ?_⟩
    · rw [List.map_cons, List.map_cons, hselectors]
    · rw [List.flatMap_cons, List.flatMap_append, hlisting, hlisting']

end

end

end DagMl
