import DagMl.Fold.Fingerprint
import DagMl.Generation.Enumerate
import DagMl.Lib.Search

/-!
# Operator generators

A generator step stands for several sequences of steps: one for each branch,
for each selection of branches, or for each combination of its stages. The
expansion copies steps and never looks into them.
-/

namespace DagMl

open Checked

inductive PipelineDslGeneratorMode
  | or
  | cartesian
  deriving DecidableEq

inductive PipelineDslSelectionSpec
  | single (size : Nat)
  | range (start stop : Nat)

structure PipelineDslGeneratorConstraints where
  mutex : List (List String) := []
  requires : List (String × String) := []
  exclude : List (String × String) := []

namespace PipelineDslGeneratorConstraints

def isEmpty (self : PipelineDslGeneratorConstraints) : Bool :=
  self.mutex.isEmpty && self.requires.isEmpty && self.exclude.isEmpty

end PipelineDslGeneratorConstraints

structure PipelineDslBranch (Step : Type) where
  id : String
  selector : Option JsonValue := none
  metadata : BTreeMap String JsonDocument := ∅
  steps : List Step

structure PipelineDslGeneratorStage (Step : Type) where
  id : String
  selector : Option JsonDocument := none
  metadata : BTreeMap String JsonDocument := ∅
  branches : List (PipelineDslBranch Step)

structure PipelineDslGeneratorStep (Step : Type) where
  id : NodeId
  mode : PipelineDslGeneratorMode := .or
  branches : List (PipelineDslBranch Step) := []
  stages : List (PipelineDslGeneratorStage Step) := []
  pick : Option PipelineDslSelectionSpec := none
  arrange : Option PipelineDslSelectionSpec := none
  thenPick : Option PipelineDslSelectionSpec := none
  thenArrange : Option PipelineDslSelectionSpec := none
  count : Option Nat := none
  constraints : Option PipelineDslGeneratorConstraints := none
  tail : List Step := []
  metadata : BTreeMap String JsonDocument := ∅

structure GeneratedSequence (Step : Type) where
  id : String
  labels : List String
  members : List String
  steps : List Step
  metadata : BTreeMap String JsonDocument

variable {Step : Type}

-- ---------------------------------------------------------------------------
-- Index rows
-- ---------------------------------------------------------------------------

/-- `count.unwrap_or(10_001).min(10_001)`. -/
def allocationLimit (count : Option Nat) : Nat := min (count.getD 10001) 10001

/-- The indices that leave room for the remaining ones, from `start` on. -/
def combinationIndices (valueCount remaining start : Nat) : List Nat :=
  if valueCount < remaining then []
  else List.range' start (valueCount - remaining + 1 - start)

def buildCombinations (count : Option Nat) (valueCount size : Nat)
    (selections : List (List Nat)) : List (List Nat) :=
  Search.search (allocationLimit count) (combinationIndices valueCount) (fun _ index => index + 1)
    size 0 [] selections

/-- The indices that are not used yet. -/
def permutationIndices (valueCount _remaining : Nat) (used : Finset Nat) : List Nat :=
  (List.range valueCount).filter (· ∉ used)

def buildPermutations (count : Option Nat) (valueCount size : Nat)
    (selections : List (List Nat)) : List (List Nat) :=
  Search.search (allocationLimit count) (permutationIndices valueCount)
    (fun used index => insert index used) size ∅ [] selections

/-- The indices of the next stage's options. -/
def stageIndices (_remaining : Nat) (stages : List (List α)) : List Nat :=
  List.range (stages.headD []).length

def buildCartesianIndices (count : Option Nat) (stages : List (List α)) : List (List Nat) :=
  Search.search (allocationLimit count) stageIndices (fun stages _ => stages.tail)
    stages.length stages [] []

-- ---------------------------------------------------------------------------
-- Sequences
-- ---------------------------------------------------------------------------

def generatorChoiceId (generatorId : NodeId) (choiceIndex : Nat) : String :=
  s!"{generatorId}:choice{choiceIndex}"

/-- `serde_json::to_value` of a metadata map. -/
def metadataDocument (metadata : BTreeMap String JsonDocument) : JsonDocument :=
  ⟨metadataValue metadata, mapValue_valid Function.injective_id fun document => document.valid⟩

/-- One turn of the loop over the selected options' metadata. -/
def addOptionMetadata (metadata : BTreeMap String JsonDocument)
    (sequence : GeneratedSequence Step) : BTreeMap String JsonDocument :=
  if sequence.metadata.isEmpty then metadata
  else metadata.insert s!"option:{metadata.size}" (metadataDocument sequence.metadata)

/-- The selected options, one after the other. -/
def mergedSequence (id : String) (sequences : List (GeneratedSequence Step)) :
    GeneratedSequence Step where
  id := id
  labels := sequences.flatMap (·.labels)
  members := sequences.flatMap (·.members)
  steps := sequences.flatMap (·.steps)
  metadata := sequences.foldl addOptionMetadata ∅

def mergeGeneratedSequence (id : String) (sequences : List (GeneratedSequence Step)) :
    Result (GeneratedSequence Step) := do
  refuseIf sequences.isEmpty (.graphValidation
    s!"pipeline DSL generated sequence `{id}` has no selected options")
  pure (mergedSequence id sequences)

/-- `options[index].clone()`. -/
def optionAt (options : List α) (index : Nat) : Result α :=
  need options[index]? (.panicked
    s!"index out of bounds: the len is {options.length} but the index is {index}")

/-- The two selector modes: which rows of indices they build. -/
abbrev BuildRows := Nat → Nat → List (List Nat) → List (List Nat)

def checkSize (generatorId : NodeId) (mode : String) (optionCount size : Nat) : Result Unit :=
  refuseIf (size = 0 ∨ optionCount < size ∨ 256 < size) (.graphValidation
    s!"pipeline DSL generator `{generatorId}` {mode} size {size} is outside 1..={optionCount}")

/-- What `generated_pick_sequences` and `generated_arrange_sequences` have in common. -/
def generatedSequences (build : BuildRows) (options : List (GeneratedSequence Step))
    (generatorId : NodeId) (mode : String) (sizes : List Nat) :
    Result (List (GeneratedSequence Step)) := do
  refuseIf (sizes.toFinset.card ≠ sizes.length) (.graphValidation "generator sizes must be distinct")
  let selections ← loop (fun selections size => do
    checkSize generatorId mode options.length size
    pure (build options.length size selections)) [] sizes
  refuseIf (10000 < selections.length) (.graphValidation "selection exceeds 10000 rows")
  collectIdx selections fun index selection => do
    let selected ← collect selection (optionAt options)
    mergeGeneratedSequence (generatorChoiceId generatorId index) selected

def generatedPickSequences (options : List (GeneratedSequence Step)) (generatorId : NodeId)
    (mode : String) (sizes : List Nat) (count : Option Nat) :
    Result (List (GeneratedSequence Step)) :=
  generatedSequences (buildCombinations count) options generatorId mode sizes

def generatedArrangeSequences (options : List (GeneratedSequence Step)) (generatorId : NodeId)
    (mode : String) (sizes : List Nat) (count : Option Nat) :
    Result (List (GeneratedSequence Step)) :=
  generatedSequences (buildPermutations count) options generatorId mode sizes

def truncateGeneratedSequences (sequences : List α) (count : Option Nat) : List α :=
  match count with
  | some limit => sequences.take limit
  | none => sequences

namespace PipelineDslSelectionSpec

/-- The sizes of a selection, unless they do not fit the options. -/
def checkedSizes (self : PipelineDslSelectionSpec) (optionCount : Nat) : Result (List Nat) :=
  match self with
  | .single size => do
    refuseIf (size = 0 ∨ optionCount < size)
      (.graphValidation "pipeline DSL generator selection size cannot be zero")
    pure [size]
  | .range start stop => do
    refuseIf (start = 0 ∨ stop = 0 ∨ stop < start ∨ optionCount < stop) (.graphValidation
      s!"pipeline DSL generator selection range [{start}, {stop}] is invalid")
    pure (List.range' start (stop + 1 - start))

end PipelineDslSelectionSpec

def selectionSizes (selection : Option PipelineDslSelectionSpec) (optionCount : Nat) :
    Result (Option (List Nat)) :=
  match selection with
  | none => .ok none
  | some selection => do
    let sizes ← selection.checkedSizes optionCount
    pure (some sizes)

-- ---------------------------------------------------------------------------
-- Constraints
-- ---------------------------------------------------------------------------

def sequenceMemberSet (sequence : GeneratedSequence Step) : Finset String :=
  sequence.members.toFinset

namespace PipelineDslGeneratorStep

/-- The reference of a label that some sequence carries. -/
def lowerLabel (self : PipelineDslGeneratorStep Step) (dimension : String)
    (valid : List String) (label : String) : Result ChoiceRef := do
  refuseIf (label ∉ valid) (.graphValidation
    s!"pipeline DSL generator `{self.id}` constraint references unknown operator `{label}`")
  pure { dimension, label }

def lowerGroup (self : PipelineDslGeneratorStep Step) (dimension : String)
    (valid : List String) (group : List String) : Result (List ChoiceRef) := do
  refuseIf (group.length < 2) (.graphValidation
    s!"pipeline DSL generator `{self.id}` mutex group requires at least two operators")
  let lowered ← collect group (self.lowerLabel dimension valid)
  refuseIf (¬(lowered.map (·.label)).Nodup) (.graphValidation
    s!"pipeline DSL generator `{self.id}` mutex group repeats an operator")
  pure lowered

def lowerPair (self : PipelineDslGeneratorStep Step) (dimension : String)
    (valid : List String) (name : String) (pair : String × String) :
    Result (ChoiceRef × ChoiceRef) := do
  let left ← self.lowerLabel dimension valid pair.1
  let right ← self.lowerLabel dimension valid pair.2
  refuseIf (left = right) (.graphValidation
    s!"pipeline DSL generator `{self.id}` {name} pair repeats operator `{pair.1}`")
  pure (left, right)

def compileOperatorContentConstraints (self : PipelineDslGeneratorStep Step)
    (constraints : PipelineDslGeneratorConstraints) (dimension : String)
    (sequences : List (GeneratedSequence Step)) : Result GenerationConstraints := do
  let valid := sequences.flatMap (·.members)
  let mutex ← collect constraints.mutex (self.lowerGroup dimension valid)
  let requires ← collect constraints.requires (self.lowerPair dimension valid "requires")
  let exclude ← collect constraints.exclude (self.lowerPair dimension valid "exclude")
  pure { mutex, requires, exclude }

def pruneBy (self : PipelineDslGeneratorStep Step)
    (constraints : PipelineDslGeneratorConstraints) (sequences : List (GeneratedSequence Step)) :
    Result (List (GeneratedSequence Step)) := do
  let generationConstraints ←
    self.compileOperatorContentConstraints constraints s!"{self.id}.operators" sequences
  let survivors := sequences.filter fun sequence =>
    constraintsSatisfied (fun reference => reference.label ∈ sequenceMemberSet sequence)
      generationConstraints
  refuseIf survivors.isEmpty (.graphValidation
    s!"pipeline DSL generator `{self.id}` constraints pruned every operator sequence")
  pure survivors

def pruneSequencesByConstraints (self : PipelineDslGeneratorStep Step)
    (sequences : List (GeneratedSequence Step)) : Result (List (GeneratedSequence Step)) :=
  match self.constraints with
  | none => .ok sequences
  | some constraints =>
    if constraints.isEmpty then .ok sequences else self.pruneBy constraints sequences

-- ---------------------------------------------------------------------------
-- Expansion
-- ---------------------------------------------------------------------------

def hasConstraints (self : PipelineDslGeneratorStep Step) : Bool :=
  self.constraints.any fun constraints => !constraints.isEmpty

/-- The cap on each stage: none when the cap has to wait for the constraints. -/
def stageCount (self : PipelineDslGeneratorStep Step) : Option Nat :=
  if self.hasConstraints then none else self.count

def appendGeneratorTail (self : PipelineDslGeneratorStep Step)
    (sequences : List (GeneratedSequence Step)) : List (GeneratedSequence Step) :=
  if self.tail.isEmpty then sequences
  else sequences.map fun sequence => { sequence with steps := sequence.steps ++ self.tail }

/-- `pick` over the options if it is declared, else `arrange`, else `otherwise`. -/
def choose (self : PipelineDslGeneratorStep Step) (pickMode arrangeMode : String)
    (pick arrange : Option PipelineDslSelectionSpec) (options otherwise : List (GeneratedSequence Step)) :
    Result (List (GeneratedSequence Step)) := do
  let picked ← selectionSizes pick options.length
  match picked with
  | some sizes => generatedPickSequences options self.id pickMode sizes self.stageCount
  | none => do
    let arranged ← selectionSizes arrange options.length
    match arranged with
    | some sizes => generatedArrangeSequences options self.id arrangeMode sizes self.stageCount
    | none => pure otherwise

end PipelineDslGeneratorStep

def validateBranchId (branchId : String) : Result Unit := do
  refuseIf (isBlank branchId) (.graphValidation "pipeline DSL branch id must not be empty")
  refuseIf (¬branchId.toList.all isIdentifierChar) (.graphValidation
    s!"pipeline DSL branch id `{branchId}` contains unsupported characters")

namespace PipelineDslGeneratorStep

def branchOption (self : PipelineDslGeneratorStep Step) (index : Nat)
    (branch : PipelineDslBranch Step) : Result (GeneratedSequence Step) := do
  validateBranchId branch.id
  pure {
    id := generatorChoiceId self.id index
    labels := [branch.id]
    members := [branch.id]
    steps := branch.steps
    metadata := branch.metadata }

/-- The last steps of both modes: prune, cap the survivors, append the tail. -/
def finish (self : PipelineDslGeneratorStep Step) (choices : List (GeneratedSequence Step)) :
    Result (List (GeneratedSequence Step)) := do
  let choices ← self.pruneSequencesByConstraints choices
  pure (self.appendGeneratorTail (truncateGeneratedSequences choices self.count))

def expandOrGeneratorSequences (self : PipelineDslGeneratorStep Step) :
    Result (List (GeneratedSequence Step)) := do
  refuseIf (!self.stages.isEmpty) (.graphValidation
    s!"pipeline DSL generator `{self.id}` uses mode `or` but declares cartesian stages")
  refuseIf self.branches.isEmpty
    (.graphValidation s!"pipeline DSL generator `{self.id}` has no branches")
  let options ← collectIdx self.branches self.branchOption
  let choices ← self.choose "pick" "arrange" self.pick self.arrange options
    (truncateGeneratedSequences options self.stageCount)
  let choices ← self.choose "then_pick" "then_arrange" self.thenPick self.thenArrange choices choices
  self.finish choices

def stageOption (stageIndex : Nat) (stage : PipelineDslGeneratorStage Step)
    (branch : PipelineDslBranch Step) : Result (GeneratedSequence Step) := do
  validateBranchId branch.id
  let metadata := match stage.selector with
    | some selector => branch.metadata.insert "dsl_generator_stage_selector" selector
    | none => branch.metadata
  let metadata := if stage.metadata.isEmpty then metadata
    else metadata.insert "dsl_generator_stage_metadata" (metadataDocument stage.metadata)
  pure {
    id := s!"{stageIndex}:{branch.id}"
    labels := [s!"{stage.id}:{branch.id}"]
    members := [branch.id]
    steps := branch.steps
    metadata }

def stageOptions (self : PipelineDslGeneratorStep Step) (stageIndex : Nat)
    (stage : PipelineDslGeneratorStage Step) : Result (List (GeneratedSequence Step)) := do
  validateBranchId stage.id
  refuseIf stage.branches.isEmpty (.graphValidation
    s!"pipeline DSL generator `{self.id}` stage `{stage.id}` has no branches")
  collect stage.branches (stageOption stageIndex stage)

/-- The option a row takes in each stage. -/
def stageRow (stageOptions : List (List (GeneratedSequence Step))) (row : List Nat) :
    Result (List (GeneratedSequence Step)) :=
  collectIdx row fun stageIndex optionIndex => do
    let options ← optionAt stageOptions stageIndex
    optionAt options optionIndex

def expandCartesianGeneratorSequences (self : PipelineDslGeneratorStep Step) :
    Result (List (GeneratedSequence Step)) := do
  refuseIf (!self.branches.isEmpty) (.graphValidation
    s!"pipeline DSL generator `{self.id}` uses mode `cartesian` but declares direct branches")
  refuseIf self.stages.isEmpty
    (.graphValidation s!"pipeline DSL generator `{self.id}` has no cartesian stages")
  refuseIf (self.pick.isSome || self.arrange.isSome || self.thenPick.isSome ||
      self.thenArrange.isSome) (.graphValidation
    s!"pipeline DSL generator `{self.id}` cannot combine cartesian mode with pick/arrange selectors")
  let stageOptions ← collectIdx self.stages self.stageOptions
  refuseIf (256 < stageOptions.length) (.graphValidation "cartesian exceeds 256 stages")
  let rows := buildCartesianIndices self.stageCount stageOptions
  refuseIf (10000 < rows.length) (.graphValidation "cartesian generator exceeds 10000 rows")
  let choices ← collectIdx rows fun choiceIndex row => do
    let selected ← stageRow stageOptions row
    mergeGeneratedSequence (generatorChoiceId self.id choiceIndex) selected
  self.finish choices

def expandGeneratorSequences (self : PipelineDslGeneratorStep Step) :
    Result (List (GeneratedSequence Step)) := do
  refuseIf (self.count = some 0)
    (.graphValidation s!"pipeline DSL generator `{self.id}` count cannot be zero")
  match self.mode with
  | .or => self.expandOrGeneratorSequences
  | .cartesian => self.expandCartesianGeneratorSequences

end PipelineDslGeneratorStep

end DagMl
