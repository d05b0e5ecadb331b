import Mathlib
import DagMl.Ids
import DagMl.Json
import DagMl.Lib.Checked
import DagMl.Lib.Collections

/-!
# Generation specifications

Dimensions of choices, the strategy that combines them, and the constraints that
prune the combinations. `GenerationSpec.validate_ok` reads off what enumeration
relies on.
-/

namespace DagMl

open Checked

inductive GenerationStrategy
  | none
  | cartesian
  | zip
  deriving DecidableEq

/-- A choice of a dimension, by the names of both. -/
structure ChoiceRef where
  dimension : String
  label : String
  deriving DecidableEq

structure GenerationConstraints where
  mutex : List (List ChoiceRef) := []
  requires : List (ChoiceRef × ChoiceRef) := []
  exclude : List (ChoiceRef × ChoiceRef) := []
  deriving DecidableEq

def GenerationConstraints.isEmpty (self : GenerationConstraints) : Bool :=
  self.mutex.isEmpty && self.requires.isEmpty && self.exclude.isEmpty

structure GenerationParamOverride where
  nodeId : NodeId
  params : BTreeMap String JsonDocument := ∅

structure GenerationChoice where
  label : String
  value : JsonDocument
  paramOverrides : List GenerationParamOverride := []
  activeSubsequence : Option String := none

structure GenerationDimension where
  name : String
  choices : List GenerationChoice := []

structure GenerationSpec where
  strategy : GenerationStrategy := .none
  dimensions : List GenerationDimension := []
  maxVariants : Option Nat := some 1
  constraints : GenerationConstraints := {}

-- ---------------------------------------------------------------------------
-- Validation
-- ---------------------------------------------------------------------------

def GenerationParamOverride.validate (self : GenerationParamOverride)
    (dimensionName choiceLabel : String) : Result Unit := do
  refuseIf self.params.isEmpty (.campaignValidation
    s!"generation choice `{choiceLabel}` in dimension `{dimensionName}` has an empty param override for node `{self.nodeId}`")
  each self.params.keys fun key =>
    refuseIf (isBlank key) (.campaignValidation
      s!"generation choice `{choiceLabel}` in dimension `{dimensionName}` has an empty param override key for node `{self.nodeId}`")

def GenerationChoice.validate (self : GenerationChoice) (dimensionName : String) : Result Unit := do
  refuseIf (isBlank self.label)
    (.campaignValidation s!"generation dimension `{dimensionName}` has an empty choice label")
  refuseIf (¬self.paramOverrides.isEmpty ∧ self.activeSubsequence.isSome) (.campaignValidation
    s!"generation choice `{self.label}` in dimension `{dimensionName}` cannot set both param_overrides and active_subsequence")
  whenSome self.activeSubsequence fun activeSubsequence =>
    refuseIf (isBlank activeSubsequence) (.campaignValidation
      s!"generation choice `{self.label}` in dimension `{dimensionName}` has an empty active_subsequence")
  each self.paramOverrides fun override => override.validate dimensionName self.label

def GenerationDimension.validate (self : GenerationDimension) : Result Unit := do
  refuseIf (isBlank self.name) (.campaignValidation "generation dimension name is empty")
  refuseIf (self.choices = [])
    (.campaignValidation s!"generation dimension `{self.name}` has no choices")
  eachUnique GenerationChoice.label (·.validate self.name)
    (fun choice => .campaignValidation
      s!"generation dimension `{self.name}` has duplicate choice `{choice.label}`") self.choices

namespace GenerationSpec

/-- Every reference a constraint may name. -/
def choiceRefs (self : GenerationSpec) : List ChoiceRef :=
  self.dimensions.flatMap fun dimension => dimension.choices.map fun choice =>
    ⟨dimension.name, choice.label⟩

def checkRef (self : GenerationSpec) (reference : ChoiceRef) : Result Unit :=
  refuseIf (reference ∉ self.choiceRefs) (.campaignValidation
    s!"generation constraint references unknown choice `{reference.dimension}:{reference.label}`")

def checkPair (self : GenerationSpec) (groupLabel : String) (pair : ChoiceRef × ChoiceRef) :
    Result Unit := do
  self.checkRef pair.1
  self.checkRef pair.2
  refuseIf (pair.1 = pair.2) (.campaignValidation
    s!"generation {groupLabel} pair repeats choice `{pair.1.dimension}:{pair.1.label}`")

def validateConstraints (self : GenerationSpec) : Result Unit :=
  if self.constraints.isEmpty then .ok ()
  else do
    each self.constraints.mutex fun group => do
      refuseIf (group.length < 2)
        (.campaignValidation "generation mutex group requires at least two choices")
      eachUnique id self.checkRef (fun reference => .campaignValidation
        s!"generation mutex group repeats choice `{reference.dimension}:{reference.label}`") group
    each self.constraints.requires (self.checkPair "requires")
    each self.constraints.exclude (self.checkPair "exclude")

/-- `self.dimensions[0].choices.len()`. -/
def firstWidth (self : GenerationSpec) : Result Nat :=
  match self.dimensions with
  | [] => .error (.panicked "index out of bounds: the len is 0 but the index is 0")
  | dimension :: _ => .ok dimension.choices.length

def validateZip (self : GenerationSpec) : Result Unit := do
  let expected ← self.firstWidth
  refuseIf (∃ dimension ∈ self.dimensions, dimension.choices.length ≠ expected)
    (.campaignValidation
      "zip generation requires every dimension to have the same number of choices")

def validate (self : GenerationSpec) : Result Unit := do
  refuseIf (256 < self.dimensions.length)
    (.campaignValidation "generation exceeds 256 dimensions")
  refuseIf (self.maxVariants = some 0)
    (.campaignValidation "generation max_variants cannot be zero")
  if self.strategy = .none then do
    refuseIf (self.dimensions ≠ [])
      (.campaignValidation "generation dimensions require cartesian or zip strategy")
    refuseIf (¬self.constraints.isEmpty)
      (.campaignValidation "generation constraints require cartesian or zip strategy")
  else do
    refuseIf (self.dimensions = [])
      (.campaignValidation "generation strategy requires at least one dimension")
    eachUnique GenerationDimension.name GenerationDimension.validate
      (fun dimension => .campaignValidation
        s!"duplicate generation dimension `{dimension.name}`") self.dimensions
    checkIf (self.strategy = .zip) self.validateZip
    self.validateConstraints

-- ---------------------------------------------------------------------------
-- What a validated specification is
-- ---------------------------------------------------------------------------

/-- What enumeration relies on. -/
structure Valid (spec : GenerationSpec) : Prop where
  none : spec.strategy = .none → spec.dimensions = []
  names : (spec.dimensions.map (·.name)).Nodup
  choices : ∀ dimension ∈ spec.dimensions, dimension.choices ≠ []
  labels : ∀ dimension ∈ spec.dimensions, (dimension.choices.map (·.label)).Nodup
  nonempty : spec.strategy ≠ .none → spec.dimensions ≠ []
  widths : spec.strategy = .zip → ∀ dimension ∈ spec.dimensions, ∀ other ∈ spec.dimensions,
    dimension.choices.length = other.choices.length

theorem validateZip_ok {spec : GenerationSpec} (h : spec.validateZip = .ok u) :
    ∀ dimension ∈ spec.dimensions, ∀ other ∈ spec.dimensions,
      dimension.choices.length = other.choices.length := by
  simp only [validateZip, bind_ok, refuseIf_ok, not_exists, not_and, not_not] at h
  obtain ⟨expected, -, hwidth⟩ := h
  intro dimension hd other ho
  rw [hwidth dimension hd, hwidth other ho]

theorem validate_dimension_ok {dimension : GenerationDimension}
    (h : dimension.validate = .ok u) :
    dimension.choices ≠ [] ∧ (dimension.choices.map (·.label)).Nodup := by
  simp only [GenerationDimension.validate, bind_ok, refuseIf_ok] at h
  obtain ⟨_, -, _, hne, hlabels⟩ := h
  exact ⟨hne, (eachUnique_ok hlabels).2⟩

theorem validate_ok {spec : GenerationSpec} (h : spec.validate = .ok u) : spec.Valid := by
  simp only [validate, bind_ok, refuseIf_ok] at h
  obtain ⟨_, -, _, -, h⟩ := h
  split at h
  · rename_i hnone
    simp only [bind_ok, refuseIf_ok, not_not] at h
    obtain ⟨_, hdims, -⟩ := h
    exact {
      none := fun _ => hdims
      names := by simp [hdims]
      choices := by simp [hdims]
      labels := by simp [hdims]
      nonempty := fun hn => (hn hnone).elim
      widths := by simp [hdims] }
  · rename_i hsome
    simp only [bind_ok, refuseIf_ok, checkIf_ok] at h
    obtain ⟨_, hne, _, hunique, _, hzip, -⟩ := h
    obtain ⟨hvalid, hnames⟩ := eachUnique_ok hunique
    exact {
      none := fun hn => (hsome hn).elim
      names := hnames
      choices := fun d hd => (validate_dimension_ok (hvalid d hd)).1
      labels := fun d hd => (validate_dimension_ok (hvalid d hd)).2
      nonempty := fun _ => hne
      widths := fun hz => validateZip_ok (hzip hz) }

end GenerationSpec

end DagMl
