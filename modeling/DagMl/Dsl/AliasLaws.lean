import DagMl.Dsl.Alias

/-!
# What the alias pass reaches

The pass keeps the tree and changes no step but a minimal alias of another
kind; done twice it does nothing more. It leaves no such alias behind except in
the tails of generators, which it does not visit.
-/

namespace DagMl

open Checked

-- ---------------------------------------------------------------------------
-- Operator steps
-- ---------------------------------------------------------------------------

/-- An operator step, and whether it stands in a generator's tail. -/
structure PlacedOperator where
  kind : OperatorKind
  step : PipelineDslOperatorStep
  inTail : Bool

namespace PipelineDslStep

mutual

/-- The operator steps of a step at any depth, in the order of a traversal. -/
def operators (inTail : Bool) : PipelineDslStep → List PlacedOperator
  | .operator kind step => [⟨kind, step, inTail⟩]
  | .branch ⟨_, _, _, branches⟩ => branchOperators inTail branches
  | .generator ⟨_, _, branches, stages, _, _, _, _, _, _, tail, _⟩ =>
    branchOperators inTail branches ++ (stageOperators inTail stages ++ stepOperators true tail)
  | .sequential ⟨_, _, steps⟩ => stepOperators inTail steps
  | .concatTransform _ => []
  | .merge _ => []
  | .mergeModel _ => []

def stepOperators (inTail : Bool) : List PipelineDslStep → List PlacedOperator
  | [] => []
  | step :: steps => operators inTail step ++ stepOperators inTail steps

def branchOperators (inTail : Bool) : List (PipelineDslBranch PipelineDslStep) → List PlacedOperator
  | [] => []
  | ⟨_, _, _, steps⟩ :: branches => stepOperators inTail steps ++ branchOperators inTail branches

def stageOperators (inTail : Bool) :
    List (PipelineDslGeneratorStage PipelineDslStep) → List PlacedOperator
  | [] => []
  | ⟨_, _, _, branches⟩ :: stages => branchOperators inTail branches ++ stageOperators inTail stages

end

end PipelineDslStep

open PipelineDslStep

-- ---------------------------------------------------------------------------
-- One operator step
-- ---------------------------------------------------------------------------

section

variable (floats : FloatWriter) (registry : ControllerRegistry)

/-- A minimal alias that the registry knows under another kind. -/
def Misnamed (kind : OperatorKind) (step : PipelineDslOperatorStep) (inferred : NodeKind) : Prop :=
  isMinimalOperatorAlias step = true ∧
    registry.inferOperatorKind floats step.operator.value = .ok (some inferred) ∧
    inferred ≠ kind.nodeKind

/-- The registry has nothing to say against the kind. -/
def Settled (kind : OperatorKind) (step : PipelineDslOperatorStep) : Prop :=
  isMinimalOperatorAlias step = true →
    registry.inferOperatorKind floats step.operator.value = .ok none ∨
    registry.inferOperatorKind floats step.operator.value = .ok (some kind.nodeKind)

/-- What the pass writes into a step's metadata. -/
def annotationKeys : List String :=
  ["dsl_compat_keyword", "dsl_compat_original_keyword", "dsl_registry_inferred_kind"]

/-- The step under the kind the registry knows, annotated and otherwise as it was. -/
def Renamed (kind : OperatorKind) (step : PipelineDslOperatorStep) (after : PipelineDslStep) :
    Prop :=
  ∃ kind' metadata, after = .operator kind' { step with metadata := metadata } ∧
    Misnamed floats registry kind step kind'.nodeKind ∧
    ∀ key ∉ annotationKeys, metadata[key]? = step.metadata[key]?

end

section

variable {floats : FloatWriter} {registry : ControllerRegistry}

theorem Settled.not_misnamed (h : Settled floats registry kind step) :
    ¬Misnamed floats registry kind step inferred := by
  rintro ⟨halias, hinferred, hne⟩
  rcases h halias with hnone | hsame
  · cases hinferred.symm.trans hnone
  · cases hinferred.symm.trans hsame
    exact hne rfl

theorem operatorPipelineStep_ok {kind : NodeKind} {step : PipelineDslOperatorStep}
    {after : PipelineDslStep} (h : operatorPipelineStepForNodeKind kind step = .ok after) :
    ∃ kind', after = .operator kind' step ∧ kind'.nodeKind = kind := by
  cases kind <;> cases h <;> exact ⟨_, rfl, rfl⟩

theorem keepOriginalKeyword_get {metadata : BTreeMap String JsonDocument} {key : String}
    (h : key ≠ "dsl_compat_original_keyword") :
    (keepOriginalKeyword metadata)[key]? = metadata[key]? := by
  unfold keepOriginalKeyword
  split
  · split
    · rfl
    · rw [BTreeMap.getElem?_insert, if_neg (Ne.symm h)]
  · rfl

theorem annotate_ok {step after : PipelineDslOperatorStep} {kind : NodeKind}
    (h : annotateRegistryInferredOperatorStep step kind = .ok after) :
    ∃ metadata, after = { step with metadata := metadata } ∧
      ∀ key ∉ annotationKeys, metadata[key]? = step.metadata[key]? := by
  simp only [annotateRegistryInferredOperatorStep, bind_ok, pure_ok] at h
  obtain ⟨keyword, -, rfl⟩ := h
  refine ⟨_, rfl, fun key hkey => ?_⟩
  simp only [annotationKeys, List.mem_cons, List.not_mem_nil, or_false, not_or] at hkey
  obtain ⟨hkeyword, horiginal, hkind⟩ := hkey
  rw [BTreeMap.getElem?_insert, if_neg (Ne.symm hkind), BTreeMap.getElem?_insert,
    if_neg (Ne.symm hkeyword), keepOriginalKeyword_get horiginal]

theorem resolveOperator_settled (h : Settled floats registry kind step) :
    resolveStepMinimalAliases floats registry (.operator kind step) = .ok (.operator kind step) := by
  have hnone : resolveOperatorStepMinimalAlias floats registry kind step = .ok none := by
    unfold resolveOperatorStepMinimalAlias
    split
    · rename_i halias
      rcases h halias with hinferred | hinferred
      · rw [hinferred]
        rfl
      · rw [hinferred]
        exact if_pos rfl
    · rfl
  rw [resolveStepMinimalAliases, hnone]
  rfl

/-- A settled step stays; any other one is renamed. -/
theorem resolveOperator_ok {after : PipelineDslStep}
    (h : resolveStepMinimalAliases floats registry (.operator kind step) = .ok after) :
    Settled floats registry kind step ∧ after = .operator kind step ∨
      Renamed floats registry kind step after := by
  simp only [resolveStepMinimalAliases, bind_ok, pure_ok] at h
  obtain ⟨resolved, hresolved, rfl⟩ := h
  unfold resolveOperatorStepMinimalAlias at hresolved
  split at hresolved
  · rename_i halias
    simp only [bind_ok] at hresolved
    obtain ⟨inferred, hinferred, hresolved⟩ := hresolved
    cases inferred with
    | none =>
      cases hresolved
      exact .inl ⟨fun _ => .inl hinferred, rfl⟩
    | some inferred =>
      simp only at hresolved
      split at hresolved
      · rename_i hsame
        cases hresolved
        exact .inl ⟨fun _ => .inr (hsame ▸ hinferred), rfl⟩
      · rename_i hne
        simp only [bind_ok, pure_ok] at hresolved
        obtain ⟨annotated, hannotated, after, hafter, rfl⟩ := hresolved
        obtain ⟨metadata, rfl, hmetadata⟩ := annotate_ok hannotated
        obtain ⟨kind', rfl, rfl⟩ := operatorPipelineStep_ok hafter
        exact .inr ⟨kind', metadata, rfl, ⟨halias, hinferred, hne⟩, hmetadata⟩
  · rename_i halias
    cases hresolved
    exact .inl ⟨fun h => absurd h halias, rfl⟩

/-- A renamed step is settled: its operator, and so what is inferred, is the same. -/
theorem Renamed.settled {after : PipelineDslStep} (h : Renamed floats registry kind step after) :
    ∃ kind' step', after = .operator kind' step' ∧ Settled floats registry kind' step' := by
  obtain ⟨kind', metadata, rfl, ⟨-, hinferred, -⟩, -⟩ := h
  exact ⟨kind', _, rfl, fun _ => .inr hinferred⟩

end

-- ---------------------------------------------------------------------------
-- The tree
-- ---------------------------------------------------------------------------

section

variable (floats : FloatWriter) (registry : ControllerRegistry)

mutual

/-- One tree with the other's aliases renamed: every other step is the same. -/
def SameButAliases : PipelineDslStep → PipelineDslStep → Prop
  | .operator kind step, after =>
    after = .operator kind step ∨ Renamed floats registry kind step after
  | .branch ⟨mode, selector, metadata, branches⟩, after =>
    ∃ branches', after = .branch ⟨mode, selector, metadata, branches'⟩ ∧
      SameBranches branches branches'
  | .generator ⟨id, mode, branches, stages, pick, arrange, thenPick, thenArrange, count,
      constraints, tail, metadata⟩, after =>
    ∃ branches' stages' tail', after = .generator ⟨id, mode, branches', stages', pick, arrange,
        thenPick, thenArrange, count, constraints, tail', metadata⟩ ∧
      SameBranches branches branches' ∧ SameStages stages stages' ∧ SameSteps tail tail'
  | .sequential ⟨id, metadata, steps⟩, after =>
    ∃ steps', after = .sequential ⟨id, metadata, steps'⟩ ∧ SameSteps steps steps'
  | .concatTransform step, after => after = .concatTransform step
  | .merge step, after => after = .merge step
  | .mergeModel step, after => after = .mergeModel step

def SameSteps : List PipelineDslStep → List PipelineDslStep → Prop
  | [], after => after = []
  | step :: steps, after =>
    ∃ step' steps', after = step' :: steps' ∧ SameButAliases step step' ∧ SameSteps steps steps'

def SameBranches : List (PipelineDslBranch PipelineDslStep) →
    List (PipelineDslBranch PipelineDslStep) → Prop
  | [], after => after = []
  | ⟨id, selector, metadata, steps⟩ :: branches, after => ∃ steps' branches',
    after = ⟨id, selector, metadata, steps'⟩ :: branches' ∧ SameSteps steps steps' ∧
      SameBranches branches branches'

def SameStages : List (PipelineDslGeneratorStage PipelineDslStep) →
    List (PipelineDslGeneratorStage PipelineDslStep) → Prop
  | [], after => after = []
  | ⟨id, selector, metadata, branches⟩ :: stages, after => ∃ branches' stages',
    after = ⟨id, selector, metadata, branches'⟩ :: stages' ∧ SameBranches branches branches' ∧
      SameStages stages stages'
termination_by structural stages => stages

end

/-- No operator step is left that the registry knows under another kind. -/
def AliasesClosed (step : PipelineDslStep) : Prop :=
  ∀ placed ∈ operators false step, ∀ inferred,
    ¬Misnamed floats registry placed.kind placed.step inferred

/-- No generator's tail holds a minimal alias of another kind. -/
def TailsClosed (step : PipelineDslStep) : Prop :=
  ∀ placed ∈ operators false step, placed.inTail = true → ∀ inferred,
    ¬Misnamed floats registry placed.kind placed.step inferred

/-- The resolution reaches every step, keeps the tree and is done once for all. -/
structure AliasesResolved (step after : PipelineDslStep) : Prop where
  closed : AliasesClosed floats registry after
  same : SameButAliases floats registry step after
  stable : resolveStepMinimalAliases floats registry after = .ok after

end

section

variable {floats : FloatWriter} {registry : ControllerRegistry}

mutual

theorem sameButAliases_refl (step : PipelineDslStep) : SameButAliases floats registry step step := by
  match step with
  | .operator _ _ => exact .inl rfl
  | .branch ⟨_, _, _, branches⟩ => exact ⟨branches, rfl, sameBranches_refl branches⟩
  | .generator ⟨_, _, branches, stages, _, _, _, _, _, _, tail, _⟩ =>
    exact ⟨branches, stages, tail, rfl, sameBranches_refl branches, sameStages_refl stages,
      sameSteps_refl tail⟩
  | .sequential ⟨_, _, steps⟩ => exact ⟨steps, rfl, sameSteps_refl steps⟩
  | .concatTransform _ | .merge _ | .mergeModel _ => rfl

theorem sameSteps_refl (steps : List PipelineDslStep) : SameSteps floats registry steps steps := by
  match steps with
  | [] => rfl
  | step :: steps => exact ⟨step, steps, rfl, sameButAliases_refl step, sameSteps_refl steps⟩

theorem sameBranches_refl (branches : List (PipelineDslBranch PipelineDslStep)) :
    SameBranches floats registry branches branches := by
  match branches with
  | [] => rfl
  | ⟨_, _, _, steps⟩ :: branches =>
    exact ⟨steps, branches, rfl, sameSteps_refl steps, sameBranches_refl branches⟩

theorem sameStages_refl (stages : List (PipelineDslGeneratorStage PipelineDslStep)) :
    SameStages floats registry stages stages := by
  match stages with
  | [] => rfl
  | ⟨_, _, _, branches⟩ :: stages =>
    exact ⟨branches, stages, rfl, sameBranches_refl branches, sameStages_refl stages⟩

end

-- ---------------------------------------------------------------------------
-- What the pass leaves
-- ---------------------------------------------------------------------------

/-- What a resolved list of operator steps owes to the list before: it is
settled outside the tails, and in the tails it is the same. -/
structure Reached (floats : FloatWriter) (registry : ControllerRegistry)
    (before after : List PlacedOperator) : Prop where
  settled : ∀ placed ∈ after, placed.inTail = false → Settled floats registry placed.kind placed.step
  tails : after.filter (·.inTail) = before.filter (·.inTail)

theorem Reached.append (h : Reached floats registry before after)
    (h' : Reached floats registry before' after') :
    Reached floats registry (before ++ before') (after ++ after') where
  settled placed hplaced := by
    rcases List.mem_append.mp hplaced with hplaced | hplaced
    · exact h.settled placed hplaced
    · exact h'.settled placed hplaced
  tails := by rw [List.filter_append, List.filter_append, h.tails, h'.tails]

theorem Reached.one (h : Settled floats registry kind step) :
    Reached floats registry [⟨kind', step', false⟩] [⟨kind, step, false⟩] where
  settled placed hplaced _ := by
    rw [List.mem_singleton.mp hplaced]
    exact h
  tails := rfl

theorem Reached.nil : Reached floats registry [] [] := ⟨by simp, rfl⟩

mutual

theorem inTail_of_operators {step : PipelineDslStep} (h : placed ∈ operators true step) :
    placed.inTail = true := by
  match step with
  | .operator _ _ =>
    rw [List.mem_singleton.mp h]
  | .branch ⟨_, _, _, branches⟩ => exact inTail_of_branchOperators h
  | .generator ⟨_, _, branches, stages, _, _, _, _, _, _, tail, _⟩ =>
    simp only [operators, List.mem_append] at h
    rcases h with h | h | h
    · exact inTail_of_branchOperators h
    · exact inTail_of_stageOperators h
    · exact inTail_of_stepOperators h
  | .sequential ⟨_, _, steps⟩ => exact inTail_of_stepOperators h
  | .concatTransform _ | .merge _ | .mergeModel _ => cases h

theorem inTail_of_stepOperators {steps : List PipelineDslStep}
    (h : placed ∈ stepOperators true steps) : placed.inTail = true := by
  match steps with
  | [] => cases h
  | step :: steps =>
    rcases List.mem_append.mp h with h | h
    · exact inTail_of_operators h
    · exact inTail_of_stepOperators h

theorem inTail_of_branchOperators {branches : List (PipelineDslBranch PipelineDslStep)}
    (h : placed ∈ branchOperators true branches) : placed.inTail = true := by
  match branches with
  | [] => cases h
  | ⟨_, _, _, steps⟩ :: branches =>
    rcases List.mem_append.mp h with h | h
    · exact inTail_of_stepOperators h
    · exact inTail_of_branchOperators h

theorem inTail_of_stageOperators {stages : List (PipelineDslGeneratorStage PipelineDslStep)}
    (h : placed ∈ stageOperators true stages) : placed.inTail = true := by
  match stages with
  | [] => cases h
  | ⟨_, _, _, branches⟩ :: stages =>
    rcases List.mem_append.mp h with h | h
    · exact inTail_of_branchOperators h
    · exact inTail_of_stageOperators h

end

theorem Reached.tail (steps : List PipelineDslStep) :
    Reached floats registry (stepOperators true steps) (stepOperators true steps) where
  settled placed hplaced hfalse := by
    rw [inTail_of_stepOperators hplaced] at hfalse
    cases hfalse
  tails := rfl

-- ---------------------------------------------------------------------------
-- What the pass makes of a tree
-- ---------------------------------------------------------------------------

/-- The pass on a tree, or on a list of trees: it keeps what is no alias, a second
pass changes nothing, and every operator outside the tails is settled. -/
structure AliasPass {T : Type} (floats : FloatWriter) (registry : ControllerRegistry)
    (same : T → T → Prop) (resolve : T → Result T) (placed : T → List PlacedOperator)
    (before after : T) : Prop where
  same : same before after
  stable : resolve after = .ok after
  reached : Reached floats registry (placed before) (placed after)

mutual

theorem resolveStep_resolved {step after : PipelineDslStep}
    (h : resolveStepMinimalAliases floats registry step = .ok after) :
    AliasPass floats registry (SameButAliases floats registry)
      (resolveStepMinimalAliases floats registry) (operators false) step after := by
  match step with
  | .operator kind step =>
    rcases resolveOperator_ok h with ⟨hsettled, rfl⟩ | hrenamed
    · exact ⟨.inl rfl, resolveOperator_settled hsettled, .one hsettled⟩
    · have hsame := hrenamed
      obtain ⟨kind', step', rfl, hsettled⟩ := hrenamed.settled
      exact ⟨.inr hsame, resolveOperator_settled hsettled, .one hsettled⟩
  | .branch ⟨_, _, _, branches⟩ =>
    simp only [resolveStepMinimalAliases, bind_ok, pure_ok] at h
    obtain ⟨branches', hbranches, rfl⟩ := h
    have hb := resolveBranches_resolved hbranches
    refine ⟨⟨branches', rfl, hb.same⟩, ?_, hb.reached⟩
    simp only [resolveStepMinimalAliases, hb.stable, bind_ok, pure_ok]
    exact ⟨_, rfl, rfl⟩
  | .generator ⟨_, _, branches, stages, _, _, _, _, _, _, tail, _⟩ =>
    simp only [resolveStepMinimalAliases, bind_ok, pure_ok] at h
    obtain ⟨branches', hbranches, stages', hstages, rfl⟩ := h
    have hb := resolveBranches_resolved hbranches
    have hs := resolveStages_resolved hstages
    -- the tail is not visited
    refine ⟨⟨branches', stages', tail, rfl, hb.same, hs.same, sameSteps_refl tail⟩, ?_,
      hb.reached.append (hs.reached.append (.tail tail))⟩
    simp only [resolveStepMinimalAliases, hb.stable, hs.stable, bind_ok, pure_ok]
    exact ⟨_, rfl, _, rfl, rfl⟩
  | .sequential ⟨_, _, steps⟩ =>
    simp only [resolveStepMinimalAliases, bind_ok, pure_ok] at h
    obtain ⟨steps', hsteps, rfl⟩ := h
    have hs := resolveSteps_resolved hsteps
    refine ⟨⟨steps', rfl, hs.same⟩, ?_, hs.reached⟩
    simp only [resolveStepMinimalAliases, hs.stable, bind_ok, pure_ok]
    exact ⟨_, rfl, rfl⟩
  | .concatTransform _ | .merge _ | .mergeModel _ =>
    cases h
    exact ⟨rfl, rfl, .nil⟩

theorem resolveSteps_resolved {steps after : List PipelineDslStep}
    (h : resolveStepsMinimalAliases floats registry steps = .ok after) :
    AliasPass floats registry (SameSteps floats registry)
      (resolveStepsMinimalAliases floats registry) (stepOperators false) steps after := by
  match steps with
  | [] =>
    cases h
    exact ⟨rfl, rfl, .nil⟩
  | step :: steps =>
    simp only [resolveStepsMinimalAliases, bind_ok, pure_ok] at h
    obtain ⟨step', hstep, steps', hsteps, rfl⟩ := h
    have hone := resolveStep_resolved hstep
    have hs := resolveSteps_resolved hsteps
    refine ⟨⟨step', steps', rfl, hone.same, hs.same⟩, ?_, hone.reached.append hs.reached⟩
    simp only [resolveStepsMinimalAliases, hone.stable, hs.stable, bind_ok, pure_ok]
    exact ⟨_, rfl, _, rfl, rfl⟩

theorem resolveBranches_resolved {branches after : List (PipelineDslBranch PipelineDslStep)}
    (h : resolveBranchMinimalAliases floats registry branches = .ok after) :
    AliasPass floats registry (SameBranches floats registry)
      (resolveBranchMinimalAliases floats registry) (branchOperators false) branches after := by
  match branches with
  | [] =>
    cases h
    exact ⟨rfl, rfl, .nil⟩
  | ⟨_, _, _, steps⟩ :: branches =>
    simp only [resolveBranchMinimalAliases, bind_ok, pure_ok] at h
    obtain ⟨steps', hsteps, branches', hbranches, rfl⟩ := h
    have hs := resolveSteps_resolved hsteps
    have hb := resolveBranches_resolved hbranches
    refine ⟨⟨steps', branches', rfl, hs.same, hb.same⟩, ?_, hs.reached.append hb.reached⟩
    simp only [resolveBranchMinimalAliases, hs.stable, hb.stable, bind_ok, pure_ok]
    exact ⟨_, rfl, _, rfl, rfl⟩

theorem resolveStages_resolved {stages after : List (PipelineDslGeneratorStage PipelineDslStep)}
    (h : resolveStageMinimalAliases floats registry stages = .ok after) :
    AliasPass floats registry (SameStages floats registry)
      (resolveStageMinimalAliases floats registry) (stageOperators false) stages after := by
  match stages with
  | [] =>
    cases h
    exact ⟨rfl, rfl, .nil⟩
  | ⟨_, _, _, branches⟩ :: stages =>
    simp only [resolveStageMinimalAliases, bind_ok, pure_ok] at h
    obtain ⟨branches', hbranches, stages', hstages, rfl⟩ := h
    have hb := resolveBranches_resolved hbranches
    have hs := resolveStages_resolved hstages
    refine ⟨⟨branches', stages', rfl, hb.same, hs.same⟩, ?_, hb.reached.append hs.reached⟩
    simp only [resolveStageMinimalAliases, hb.stable, hs.stable, bind_ok, pure_ok]
    exact ⟨_, rfl, _, rfl, rfl⟩

end

/-- A resolved tree is closed exactly when its tails were. -/
theorem aliasesClosed_iff {step after : PipelineDslStep}
    (h : resolveStepMinimalAliases floats registry step = .ok after) :
    AliasesClosed floats registry after ↔ TailsClosed floats registry step := by
  have hreached := (resolveStep_resolved h).reached
  have htails : ∀ placed, placed ∈ operators false after ∧ placed.inTail = true ↔
      placed ∈ operators false step ∧ placed.inTail = true := by
    intro placed
    rw [← List.mem_filter, ← List.mem_filter, hreached.tails]
  constructor
  · intro hclosed placed hplaced htail
    exact hclosed placed ((htails placed).mpr ⟨hplaced, htail⟩).1
  · intro hclosed placed hplaced inferred
    cases htail : placed.inTail with
    | false => exact (hreached.settled placed hplaced htail).not_misnamed
    | true => exact hclosed placed ((htails placed).mp ⟨hplaced, htail⟩).1 htail inferred

/-- The pass resolves a tree exactly when no generator's tail needs it. -/
theorem resolveStepMinimalAliases_resolves_iff {step after : PipelineDslStep}
    (h : resolveStepMinimalAliases floats registry step = .ok after) :
    AliasesResolved floats registry step after ↔ TailsClosed floats registry step := by
  rw [← aliasesClosed_iff h]
  exact ⟨fun hresolved => hresolved.closed,
    fun hclosed => ⟨hclosed, (resolveStep_resolved h).same, (resolveStep_resolved h).stable⟩⟩

end

-- ---------------------------------------------------------------------------
-- A tail that is not visited
-- ---------------------------------------------------------------------------

/-- A model the registry knows by its alias. -/
def aliasedRegistry : ControllerRegistry where
  manifests := .collect [(⟨"controller:aliased", by decide⟩, {
    controllerId := ⟨"controller:aliased", by decide⟩, operatorKind := .model
    operatorSelectors := [{ aliases := {"PLSRegression"} }] })]

/-- The model, lowered as a transform from its name alone. -/
def aliasedOperator : PipelineDslOperatorStep where
  id := ⟨"transform:aliased", by decide⟩
  operator := stringDocument "PLSRegression"
  metadata := .collect [("dsl_minimal_operator_alias", ⟨.bool true, trivial⟩)]

/-- A generator of one preprocessing choice that ends in the model. -/
def aliasedStep : PipelineDslStep :=
  .generator {
    id := ⟨"generator:aliased", by decide⟩
    branches := [{ id := "raw", steps := [.operator .transform {
      id := ⟨"transform:aliased.raw", by decide⟩, operator := stringDocument "SNV" }] }]
    tail := [.operator .transform aliasedOperator] }

theorem aliasedOperator_misnamed :
    Misnamed .ofBits aliasedRegistry .transform aliasedOperator .model := by
  refine ⟨?_, ?_, ?_⟩
  · decide +kernel
  · decide +kernel
  · decide

theorem resolveStepMinimalAliases_resolves_iff_aliased : ∃ after,
    resolveStepMinimalAliases .ofBits aliasedRegistry aliasedStep = .ok after ∧
      (AliasesResolved .ofBits aliasedRegistry aliasedStep after ↔
        TailsClosed .ofBits aliasedRegistry aliasedStep) := by
  have hrun : (resolveStepMinimalAliases .ofBits aliasedRegistry aliasedStep).isOk = true := by
    decide +kernel
  exact ⟨_, eq_ok_valueOf hrun, resolveStepMinimalAliases_resolves_iff (eq_ok_valueOf hrun)⟩

/-- The model in the tail stays a transform. -/
theorem resolveStepMinimalAliases_skips_tail :
    ¬∀ floats registry step after, resolveStepMinimalAliases floats registry step = .ok after →
      AliasesResolved floats registry step after := by
  intro h
  have hrun : (resolveStepMinimalAliases .ofBits aliasedRegistry aliasedStep).isOk = true := by
    decide +kernel
  have hresolved := h _ _ _ _ (eq_ok_valueOf hrun)
  have htails := (aliasesClosed_iff (eq_ok_valueOf hrun)).mp hresolved.closed
  have hplaced : ⟨.transform, aliasedOperator, true⟩ ∈ operators false aliasedStep := by
    simp [aliasedStep, operators, branchOperators, stageOperators, stepOperators]
  exact htails _ hplaced rfl .model aliasedOperator_misnamed

end DagMl
