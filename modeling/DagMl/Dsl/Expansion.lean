import DagMl.Dsl.Rows

/-!
# Operator expansion is exact

The declared expansion of a generator step, and what the enumerators return of
it. A cap that waits for the constraints returns the first survivors. A cap on
each stage does so too, unless it cuts the first stage short and the second
stage starts with selections of two or more.
-/

namespace DagMl

open Checked Search

variable {Step : Type}

-- ---------------------------------------------------------------------------
-- The declared expansion
-- ---------------------------------------------------------------------------

namespace PipelineDslSelectionSpec

/-- The declared sizes, from the least one on. -/
def sizes : PipelineDslSelectionSpec → List Nat
  | .single size => [size]
  | .range start stop => List.range' start (stop + 1 - start)

def least : PipelineDslSelectionSpec → Nat
  | .single size => size
  | .range start _ => start

end PipelineDslSelectionSpec

/-- The selections of each size in turn, those of a size in lexicographic order. -/
def SelectionKind.ListsSizes (kind : SelectionKind) (optionCount : Nat) (sizes : List Nat)
    (rows : List (List Nat)) : Prop :=
  ∃ parts, List.Forall₂ (fun size => Lists (kind.Selects optionCount size)) sizes parts ∧
    rows = parts.flatten

/-- The sequence of each row of indices. -/
def sequencesOf (generatorId : NodeId) (options : List (GeneratedSequence Step))
    (rows : List (List Nat)) : List (GeneratedSequence Step) :=
  rows.mapIdx fun index row =>
    mergedSequence (generatorChoiceId generatorId index) (row.filterMap (options[·]?))

/-- The sequence of each row that takes an option of every stage. -/
def stageSequencesOf (generatorId : NodeId) (stages : List (List (GeneratedSequence Step)))
    (rows : List (List Nat)) : List (GeneratedSequence Step) :=
  rows.mapIdx fun index row => mergedSequence (generatorChoiceId generatorId index)
    ((stages.zip row).filterMap fun entry => entry.1[entry.2]?)

/-- The selector that is in force: `pick` if it is declared, else `arrange`. -/
def selectorOf (pick arrange : Option PipelineDslSelectionSpec) :
    Option (SelectionKind × PipelineDslSelectionSpec) :=
  match pick with
  | some selection => some (.pick, selection)
  | none => arrange.map (.arrange, ·)

namespace PipelineDslGeneratorConstraints

/-- No mutex group is present as a whole, what is required is present, and no
excluded pair is. -/
def Allows (self : PipelineDslGeneratorConstraints) (members : List String) : Prop :=
  (∀ group ∈ self.mutex, ∃ label ∈ group, label ∉ members) ∧
    (∀ pair ∈ self.requires, pair.1 ∈ members → pair.2 ∈ members) ∧
      ∀ pair ∈ self.exclude, ¬(pair.1 ∈ members ∧ pair.2 ∈ members)

instance (self : PipelineDslGeneratorConstraints) (members : List String) :
    Decidable (self.Allows members) :=
  inferInstanceAs (Decidable (_ ∧ _))

/-- `self` has every constraint of `declared`. -/
def Extends (self declared : PipelineDslGeneratorConstraints) : Prop :=
  declared.mutex ⊆ self.mutex ∧ declared.requires ⊆ self.requires ∧ declared.exclude ⊆ self.exclude

theorem Extends.allows {self declared : PipelineDslGeneratorConstraints} {members : List String}
    (h : self.Extends declared) (hself : self.Allows members) : declared.Allows members :=
  ⟨fun group hg => hself.1 group (h.1 hg), fun pair hp => hself.2.1 pair (h.2.1 hp),
    fun pair hp => hself.2.2 pair (h.2.2 hp)⟩

theorem Extends.isEmpty {self declared : PipelineDslGeneratorConstraints} (h : self.Extends declared)
    (hself : self.isEmpty = true) : declared.isEmpty = true := by
  obtain ⟨hmutex, hrequires, hexclude⟩ := h
  simp only [PipelineDslGeneratorConstraints.isEmpty, Bool.and_eq_true, List.isEmpty_iff] at hself ⊢
  rw [hself.1.1, List.subset_nil] at hmutex
  rw [hself.1.2, List.subset_nil] at hrequires
  rw [hself.2, List.subset_nil] at hexclude
  exact ⟨⟨hmutex, hrequires⟩, hexclude⟩

end PipelineDslGeneratorConstraints

namespace PipelineDslGeneratorStep

variable (step : PipelineDslGeneratorStep Step)

def firstSelector : Option (SelectionKind × PipelineDslSelectionSpec) :=
  selectorOf step.pick step.arrange

def thenSelector : Option (SelectionKind × PipelineDslSelectionSpec) :=
  selectorOf step.thenPick step.thenArrange

/-- Every declared selection of the options, each one once, in order. -/
def Chosen (selector : Option (SelectionKind × PipelineDslSelectionSpec))
    (options full : List (GeneratedSequence Step)) : Prop :=
  match selector with
  | none => full = options
  | some (kind, selection) => ∃ rows, kind.ListsSizes options.length selection.sizes rows ∧
    full = sequencesOf step.id options rows

/-- The whole expansion that the step declares. -/
def Declares (full : List (GeneratedSequence Step)) : Prop :=
  match step.mode with
  | .or => ∃ options first, collectIdx step.branches step.branchOption = .ok options ∧
    step.Chosen step.firstSelector options first ∧ step.Chosen step.thenSelector first full
  | .cartesian => ∃ stages rows, collectIdx step.stages step.stageOptions = .ok stages ∧
    Lists (fun row => List.Forall₂ (fun i (options : List (GeneratedSequence Step)) =>
      i < options.length) row stages) rows ∧
    full = stageSequencesOf step.id stages rows

def Allows (sequence : GeneratedSequence Step) : Prop :=
  ∀ constraints ∈ step.constraints, constraints.Allows sequence.members

instance (sequence : GeneratedSequence Step) : Decidable (step.Allows sequence) :=
  inferInstanceAs (Decidable (∀ constraints ∈ step.constraints, _))

/-- The first `count` allowed sequences, each one with the tail. -/
def survivors (full : List (GeneratedSequence Step)) : List (GeneratedSequence Step) :=
  step.appendGeneratorTail (truncateGeneratedSequences (full.filter (step.Allows ·)) step.count)

/-- How many sequences the first stage declares. -/
def firstStageSize : Nat :=
  match step.firstSelector with
  | none => step.branches.length
  | some (kind, selection) => (selection.sizes.map (kind.rowCount step.branches.length)).sum

/-- The cap leaves the first stage whole wherever a second stage needs all of it. -/
def CapKeepsFirstStage : Prop :=
  ∀ cap, step.count = some cap → step.mode = .or → step.hasConstraints = false →
    ∀ kind selection, step.thenSelector = some (kind, selection) → 1 < selection.least →
      step.firstStageSize ≤ cap

end PipelineDslGeneratorStep

-- ---------------------------------------------------------------------------
-- Capped rows
-- ---------------------------------------------------------------------------

theorem truncate_mapIdx {l : List α} {f : Nat → α → β} {count : Option Nat} :
    truncateGeneratedSequences (l.mapIdx f) count =
      (truncateGeneratedSequences l count).mapIdx f := by
  cases count with
  | none => rfl
  | some limit =>
    apply List.ext_getElem?
    intro i
    simp only [truncateGeneratedSequences, List.getElem?_take, List.getElem?_mapIdx]
    split <;> rfl

/-- A limited enumeration that stays below the allocation limit is cut at the count only. -/
theorem take_allocationLimit {rows : List α} {count : Option Nat}
    (h : (rows.take (allocationLimit count)).length ≤ 10000) :
    rows.take (allocationLimit count) = truncateGeneratedSequences rows count := by
  unfold allocationLimit at h ⊢
  rw [List.length_take] at h
  cases count with
  | none =>
    rw [Option.getD_none] at h ⊢
    rw [truncateGeneratedSequences, List.take_of_length_le (by omega)]
  | some cap =>
    rw [Option.getD_some] at h ⊢
    rw [truncateGeneratedSequences]
    by_cases hcap : cap ≤ 10001
    · rw [Nat.min_eq_left hcap]
    · rw [List.take_of_length_le (by omega), List.take_of_length_le (by omega)]

theorem mapIdx_of_collectIdx {l : List α} {f : Nat → α → Except ε β} {g : Nat → α → β}
    (h : collectIdx l f = .ok ys) (hf : ∀ i x y, f i x = .ok y → y = g i x) :
    ys = l.mapIdx g := by
  obtain ⟨hlength, hget⟩ := collectIdx_ok.mp h
  apply List.ext_getElem?
  intro i
  rw [List.getElem?_mapIdx]
  cases hx : l[i]? with
  | none =>
    rw [List.getElem?_eq_none_iff] at hx
    rw [Option.map_none, List.getElem?_eq_none_iff, ← hlength]
    exact hx
  | some x =>
    have hi : i < ys.length := hlength ▸ (List.getElem?_eq_some_iff.mp hx).1
    have hy := List.getElem?_eq_getElem hi
    rw [hy, Option.map_some, hf i x _ (hget i x _ hx hy)]

theorem optionAt_ok {options : List α} : optionAt options i = .ok x ↔ options[i]? = some x := need_ok

theorem mergeGeneratedSequence_ok {sequences : List (GeneratedSequence Step)}
    (h : mergeGeneratedSequence sequenceId sequences = .ok y) :
    y = mergedSequence sequenceId sequences := by
  simp only [mergeGeneratedSequence, bind_ok, pure_ok] at h
  obtain ⟨_, -, rfl⟩ := h
  rfl

theorem filterMap_of_forall₂ {l : List ι} {g : ι → Option α}
    (h : List.Forall₂ (fun i x => g i = some x) l ys) : l.filterMap g = ys := by
  induction h with
  | nil => rfl
  | cons hx _ ih => rw [List.filterMap_cons_some hx, ih]

/-- The options of a row of indices. -/
theorem collect_optionAt_ok {options : List α} (h : collect row (optionAt options) = .ok selected) :
    row.filterMap (options[·]?) = selected :=
  filterMap_of_forall₂ ((collect_ok.mp h).imp fun _ _ => optionAt_ok.mp)

theorem stageRow_ok {stages : List (List (GeneratedSequence Step))}
    (h : PipelineDslGeneratorStep.stageRow stages row = .ok selected) :
    (stages.zip row).filterMap (fun entry => entry.1[entry.2]?) = selected := by
  obtain ⟨hlength, hget⟩ := collectIdx_ok.mp h
  have hstage (i : Nat) (hi : i < row.length) (hi' : i < selected.length) :
      ∃ options, stages[i]? = some options ∧ options[row[i]]? = some selected[i] := by
    have hentry := hget i _ _ (List.getElem?_eq_getElem hi) (List.getElem?_eq_getElem hi')
    simp only [bind_ok, optionAt_ok] at hentry
    exact hentry
  have hstages : row.length ≤ stages.length := by
    by_contra hlt
    obtain ⟨options, hnone, -⟩ := hstage stages.length (by omega) (by omega)
    simp at hnone
  refine filterMap_of_forall₂ (List.forall₂_iff_get.mpr ⟨by simp; omega, fun i hi hi' => ?_⟩)
  obtain ⟨options, hoptions, hselected⟩ := hstage i (by omega) hi'
  obtain ⟨hi, rfl⟩ := List.getElem?_eq_some_iff.mp hoptions
  simpa using hselected

namespace SelectionKind

/-- What a selector returns of the sequences it declares. -/
theorem generatedSequences_ok (kind : SelectionKind) {options : List (GeneratedSequence Step)}
    (h : generatedSequences (kind.build count) options generatorId mode sizes = .ok out) :
    out = truncateGeneratedSequences (sequencesOf generatorId options
      (sizes.flatMap (kind.rows options.length))) count := by
  simp only [generatedSequences, bind_ok, refuseIf_ok, not_lt] at h
  obtain ⟨_, -, selections, hloop, _, hlimit, hmerge⟩ := h
  have hrows : selections =
      (sizes.flatMap (kind.rows options.length)).take (allocationLimit count) := by
    have hcapped : selections =
        (sizes.flatMap (kind.rows options.length)).take (allocationLimit count) ∧
          selections.length ≤ allocationLimit count := by
      refine loop_invariant (fun done rows =>
        rows = (done.flatMap (kind.rows options.length)).take (allocationLimit count) ∧
          rows.length ≤ allocationLimit count) (by simp) ?_ hloop
      rintro done size rows rows' ⟨hrows, hle⟩ hstep
      simp only [bind_ok, pure_ok] at hstep
      obtain ⟨_, -, rfl⟩ := hstep
      rw [kind.build_eq hle]
      refine ⟨?_, List.length_take_le _ _⟩
      rw [hrows, take_take_append, List.flatMap_append, List.flatMap_singleton]
    exact hcapped.1
  rw [hrows] at hlimit hmerge
  rw [take_allocationLimit hlimit] at hmerge
  rw [sequencesOf, truncate_mapIdx]
  refine mapIdx_of_collectIdx hmerge fun index row y hy => ?_
  simp only [bind_ok] at hy
  obtain ⟨selected, hselected, hy⟩ := hy
  rw [mergeGeneratedSequence_ok hy, collect_optionAt_ok hselected]

theorem listsSizes (kind : SelectionKind) (optionCount : Nat) (sizes : List Nat) :
    kind.ListsSizes optionCount sizes (sizes.flatMap (kind.rows optionCount)) := by
  refine ⟨sizes.map (kind.rows optionCount), ?_, rfl⟩
  rw [List.forall₂_map_right_iff, List.forall₂_same]
  exact fun size _ => kind.rows_lists optionCount size

theorem ListsSizes.unique {kind : SelectionKind} {rows : List (List Nat)}
    (h : kind.ListsSizes optionCount sizes rows) :
    rows = sizes.flatMap (kind.rows optionCount) := by
  obtain ⟨parts, hparts, rfl⟩ := h
  rw [List.flatMap_def]
  congr 1
  induction hparts with
  | nil => rfl
  | cons hpart _ ih => rw [List.map_cons, hpart.unique (kind.rows_lists optionCount _), ih]

end SelectionKind

namespace PipelineDslSelectionSpec

/-- The sizes of a selection that fits the options. -/
structure Fits (selection : PipelineDslSelectionSpec) (optionCount : Nat) : Prop where
  least_pos : 0 < selection.least
  sizes_le : ∀ size ∈ selection.sizes, selection.least ≤ size ∧ size ≤ optionCount
  ascending : selection.sizes.Pairwise (· < ·)
  starts : ∃ more, selection.sizes = selection.least :: more

theorem checkedSizes_ok {selection : PipelineDslSelectionSpec} {sizes : List Nat}
    (h : selection.checkedSizes optionCount = .ok sizes) :
    sizes = selection.sizes ∧ selection.Fits optionCount := by
  cases selection with
  | single size =>
    simp only [checkedSizes, bind_ok, refuseIf_ok, pure_ok] at h
    obtain ⟨_, hfits, rfl⟩ := h
    refine ⟨rfl, by simp only [least]; omega, ?_, List.pairwise_singleton _ _, [], rfl⟩
    simp only [PipelineDslSelectionSpec.sizes, least, List.forall_mem_singleton]
    omega
  | range start stop =>
    simp only [checkedSizes, bind_ok, refuseIf_ok, pure_ok] at h
    obtain ⟨_, hfits, rfl⟩ := h
    refine ⟨rfl, by simp only [least]; omega, fun size hsize => ?_, List.pairwise_lt_range', ?_⟩
    · rw [PipelineDslSelectionSpec.sizes, List.mem_range'_1] at hsize
      simp only [least]
      omega
    · rw [PipelineDslSelectionSpec.sizes, show stop + 1 - start = stop - start + 1 by omega,
        List.range'_succ]
      exact ⟨_, rfl⟩

end PipelineDslSelectionSpec

theorem selectionSizes_ok : selectionSizes selection optionCount = .ok sizes ↔
    (selection = none ∧ sizes = none) ∨
      ∃ chosen checked, selection = some chosen ∧ chosen.checkedSizes optionCount = .ok checked ∧
        sizes = some checked := by
  cases selection with
  | none => simp [selectionSizes, eq_comm]
  | some chosen =>
    simp only [selectionSizes, bind_ok, pure_ok, reduceCtorEq, false_and, false_or,
      Option.some.injEq]
    constructor
    · rintro ⟨checked, hchecked, rfl⟩
      exact ⟨chosen, checked, rfl, hchecked, rfl⟩
    · rintro ⟨_, checked, rfl, hchecked, rfl⟩
      exact ⟨checked, hchecked, rfl⟩

namespace PipelineDslGeneratorStep

variable {step : PipelineDslGeneratorStep Step}

/-- The declared selections of one stage. -/
def chosen (step : PipelineDslGeneratorStep Step)
    (selector : Option (SelectionKind × PipelineDslSelectionSpec))
    (options : List (GeneratedSequence Step)) : List (GeneratedSequence Step) :=
  match selector with
  | none => options
  | some (kind, selection) =>
    sequencesOf step.id options (selection.sizes.flatMap (kind.rows options.length))

theorem chosen_iff : step.Chosen selector options full ↔ full = step.chosen selector options := by
  unfold Chosen chosen
  cases selector with
  | none => rfl
  | some pair =>
    constructor
    · rintro ⟨rows, hrows, rfl⟩
      rw [hrows.unique]
    · rintro rfl
      exact ⟨_, pair.1.listsSizes _ _, rfl⟩

theorem choose_ok {pick arrange : Option PipelineDslSelectionSpec}
    {options otherwise out : List (GeneratedSequence Step)}
    (h : step.choose pickMode arrangeMode pick arrange options otherwise = .ok out) :
    (selectorOf pick arrange = none ∧ out = otherwise) ∨
      ∃ kind selection, selectorOf pick arrange = some (kind, selection) ∧
        selection.Fits options.length ∧
        out = truncateGeneratedSequences (step.chosen (selectorOf pick arrange) options)
        step.stageCount := by
  simp only [choose, bind_ok, selectionSizes_ok] at h
  obtain ⟨_, ⟨rfl, rfl⟩ | ⟨selection, sizes, rfl, hsizes, rfl⟩, h⟩ := h
  · simp only [bind_ok, selectionSizes_ok] at h
    obtain ⟨_, ⟨rfl, rfl⟩ | ⟨selection, sizes, rfl, hsizes, rfl⟩, h⟩ := h
    · rw [pure_ok] at h
      exact .inl ⟨rfl, h.symm⟩
    · obtain ⟨rfl, hfits⟩ := PipelineDslSelectionSpec.checkedSizes_ok hsizes
      exact .inr ⟨.arrange, selection, rfl, hfits, SelectionKind.arrange.generatedSequences_ok h⟩
  · obtain ⟨rfl, hfits⟩ := PipelineDslSelectionSpec.checkedSizes_ok hsizes
    exact .inr ⟨.pick, selection, rfl, hfits, SelectionKind.pick.generatedSequences_ok h⟩

-- ---------------------------------------------------------------------------
-- Constraints
-- ---------------------------------------------------------------------------

theorem lowerLabel_ok :
    step.lowerLabel dimension valid label = .ok reference → reference = ⟨dimension, label⟩ := by
  simp only [lowerLabel, bind_ok, pure_ok]
  rintro ⟨_, -, rfl⟩
  rfl

theorem lowerGroup_ok (h : step.lowerGroup dimension valid group = .ok lowered) :
    lowered.map (·.label) = group := by
  simp only [lowerGroup, bind_ok, pure_ok] at h
  obtain ⟨_, -, refs, hrefs, _, -, rfl⟩ := h
  have hlabels := map_of_collect hrefs fun label reference href =>
    congrArg ChoiceRef.label (lowerLabel_ok href)
  rwa [List.map_id'] at hlabels

theorem lowerPair_ok (h : step.lowerPair dimension valid name pair = .ok lowered) :
    (lowered.1.label, lowered.2.label) = pair := by
  simp only [lowerPair, bind_ok, pure_ok] at h
  obtain ⟨left, hleft, right, hright, _, -, rfl⟩ := h
  rw [lowerLabel_ok hleft, lowerLabel_ok hright]

/-- The lowered constraints ask of the members what the declared ones do. -/
theorem compileOperatorContentConstraints_ok {sequences : List (GeneratedSequence Step)}
    {constraints : PipelineDslGeneratorConstraints} {sequence : GeneratedSequence Step} {compiled : GenerationConstraints}
    (h : step.compileOperatorContentConstraints constraints dimension sequences = .ok compiled) :
    constraintsSatisfied (fun reference => reference.label ∈ sequenceMemberSet sequence) compiled =
      decide (constraints.Allows sequence.members) := by
  simp only [compileOperatorContentConstraints, bind_ok, pure_ok] at h
  obtain ⟨mutex, hmutex, requires, hrequires, exclude, hexclude, rfl⟩ := h
  have hmutex := map_of_collect hmutex fun group lowered => lowerGroup_ok
  have hrequires := map_of_collect hrequires fun pair lowered => lowerPair_ok
  have hexclude := map_of_collect hexclude fun pair lowered => lowerPair_ok
  rw [List.map_id'] at hmutex hrequires hexclude
  rw [Bool.eq_iff_iff, decide_eq_true_eq]
  unfold PipelineDslGeneratorConstraints.Allows
  rw [← hmutex, ← hrequires, ← hexclude]
  simp only [constraintsSatisfied, sequenceMemberSet, List.mem_toFinset, Bool.and_eq_true,
    Bool.not_eq_true', List.any_eq_false, List.all_eq_true, decide_eq_true_eq, decide_eq_false_iff_not,
    not_forall, exists_prop, not_and, not_not, List.mem_map, forall_exists_index, and_imp,
    forall_apply_eq_imp_iff₂, exists_exists_and_eq_and, and_assoc]

theorem allows_of_not_hasConstraints (h : step.hasConstraints = false)
    (sequence : GeneratedSequence Step) : step.Allows sequence := by
  intro constraints hmem
  rw [hasConstraints, Option.mem_def.mp hmem] at h
  simp [PipelineDslGeneratorConstraints.isEmpty] at h
  obtain ⟨⟨hmutex, hrequires⟩, hexclude⟩ := h
  simp [PipelineDslGeneratorConstraints.Allows, hmutex, hrequires, hexclude]

theorem pruneSequencesByConstraints_ok {choices kept : List (GeneratedSequence Step)}
    (h : step.pruneSequencesByConstraints choices = .ok kept) :
    kept = choices.filter (step.Allows ·) := by
  have hall (hnone : step.hasConstraints = false) : choices.filter (step.Allows ·) = choices := by
    rw [List.filter_eq_self]
    intro sequence _
    simpa using allows_of_not_hasConstraints hnone sequence
  unfold pruneSequencesByConstraints at h
  cases hdeclared : step.constraints with
  | none =>
    rw [hdeclared, Except.ok.injEq] at h
    rw [hall (by simp [hasConstraints, hdeclared]), h]
  | some constraints =>
    simp only [hdeclared] at h
    cases hempty : constraints.isEmpty with
    | true =>
      rw [hempty, if_pos rfl, Except.ok.injEq] at h
      rw [hall (by simp [hasConstraints, hdeclared, hempty]), h]
    | false =>
      rw [hempty, if_neg Bool.false_ne_true] at h
      simp only [pruneBy, bind_ok, pure_ok] at h
      obtain ⟨compiled, hcompiled, _, -, rfl⟩ := h
      apply List.filter_congr
      intro sequence _
      rw [compileOperatorContentConstraints_ok hcompiled, decide_eq_decide]
      simp [Allows, hdeclared]

theorem finish_ok {choices result : List (GeneratedSequence Step)}
    (h : step.finish choices = .ok result) : result = step.survivors choices := by
  simp only [finish, bind_ok, pure_ok] at h
  obtain ⟨kept, hkept, rfl⟩ := h
  rw [survivors, pruneSequencesByConstraints_ok hkept]

-- ---------------------------------------------------------------------------
-- Stages
-- ---------------------------------------------------------------------------

/-- The expansion of mode `or` before the constraints. -/
theorem expandOr_ok {result : List (GeneratedSequence Step)}
    (h : step.expandOrGeneratorSequences = .ok result) :
    ∃ options choices, collectIdx step.branches step.branchOption = .ok options ∧
      (∀ kind selection, step.firstSelector = some (kind, selection) →
        selection.Fits options.length) ∧
      step.choose "then_pick" "then_arrange" step.thenPick step.thenArrange
        (truncateGeneratedSequences (step.chosen step.firstSelector options) step.stageCount)
        (truncateGeneratedSequences (step.chosen step.firstSelector options) step.stageCount) =
          .ok choices ∧
      result = step.survivors choices := by
  simp only [expandOrGeneratorSequences, bind_ok] at h
  obtain ⟨_, -, _, -, options, hoptions, first, hfirst, choices, hchoices, hfinish⟩ := h
  have hfirst : (∀ kind selection, step.firstSelector = some (kind, selection) →
      selection.Fits options.length) ∧ first =
        truncateGeneratedSequences (step.chosen step.firstSelector options) step.stageCount := by
    rw [firstSelector]
    rcases choose_ok hfirst with ⟨hnone, rfl⟩ | ⟨kind, selection, hselector, hfits, rfl⟩
    · rw [hnone]
      refine ⟨fun _ _ h => ?_, rfl⟩
      cases h
    · refine ⟨fun kind' selection' h => ?_, rfl⟩
      cases hselector.symm.trans h
      exact hfits
  obtain ⟨hfits, rfl⟩ := hfirst
  exact ⟨options, choices, hoptions, hfits, hchoices, finish_ok hfinish⟩

/-- The expansion of mode `cartesian` before the constraints. -/
theorem expandCartesian_ok {result : List (GeneratedSequence Step)}
    (hmode : step.mode = .cartesian) (h : step.expandCartesianGeneratorSequences = .ok result) :
    ∃ full, step.Declares full ∧
      result = step.survivors (truncateGeneratedSequences full step.stageCount) := by
  simp only [expandCartesianGeneratorSequences, bind_ok, refuseIf_ok, not_lt] at h
  obtain ⟨_, -, _, -, _, -, stages, hstages, _, -, _, hlimit, choices, hchoices, hfinish⟩ := h
  rw [buildCartesianIndices, search_eq [] (by simp)] at hlimit hchoices
  simp only [List.nil_append, List.map_id'] at hlimit hchoices
  rw [take_allocationLimit hlimit] at hchoices
  refine ⟨stageSequencesOf step.id stages
    (leaves stageIndices (fun stages _ => stages.tail) stages.length stages), ?_, ?_⟩
  · rw [Declares, hmode]
    exact ⟨stages, _, hstages, cartesian_rows_lists stages, rfl⟩
  · rw [finish_ok hfinish, stageSequencesOf, truncate_mapIdx]
    congr 1
    refine mapIdx_of_collectIdx hchoices fun index row y hy => ?_
    simp only [bind_ok] at hy
    obtain ⟨selected, hselected, hy⟩ := hy
    rw [mergeGeneratedSequence_ok hy, stageRow_ok hselected]

theorem Declares.unique {full full' : List (GeneratedSequence Step)} (h : step.Declares full)
    (h' : step.Declares full') : full = full' := by
  cases hmode : step.mode with
  | or =>
    simp only [Declares, hmode] at h h'
    obtain ⟨options, first, hoptions, hfirst, hfull⟩ := h
    obtain ⟨options', first', hoptions', hfirst', hfull'⟩ := h'
    rw [hoptions, Except.ok.injEq] at hoptions'
    subst hoptions'
    rw [chosen_iff.mp hfull, chosen_iff.mp hfull', chosen_iff.mp hfirst, chosen_iff.mp hfirst']
  | cartesian =>
    simp only [Declares, hmode] at h h'
    obtain ⟨stages, rows, hstages, hrows, rfl⟩ := h
    obtain ⟨stages', rows', hstages', hrows', rfl⟩ := h'
    rw [hstages, Except.ok.injEq] at hstages'
    subst hstages'
    rw [hrows.unique hrows']

-- ---------------------------------------------------------------------------
-- What a cap keeps
-- ---------------------------------------------------------------------------

theorem truncate_truncate {l : List α} {count : Option Nat} :
    truncateGeneratedSequences (truncateGeneratedSequences l count) count =
      truncateGeneratedSequences l count := by
  cases count with
  | none => rfl
  | some cap => simp [truncateGeneratedSequences]

theorem survivors_truncate (full : List (GeneratedSequence Step)) :
    step.survivors (truncateGeneratedSequences full step.stageCount) = step.survivors full := by
  unfold survivors stageCount
  split
  · rfl
  · rename_i hnone
    have hall (l : List (GeneratedSequence Step)) : l.filter (step.Allows ·) = l := by
      rw [List.filter_eq_self]
      intro sequence _
      simpa using allows_of_not_hasConstraints (Bool.eq_false_iff.mpr hnone) sequence
    rw [hall, hall, truncate_truncate]

theorem rows_one (kind : SelectionKind) (optionCount : Nat) :
    kind.rows optionCount 1 = (List.range optionCount).map fun i => [i] := by
  cases kind with
  | pick =>
    rw [SelectionKind.rows, leaves_one, combinationIndices_one, List.range_eq_range', Nat.sub_zero]
  | arrange =>
    rw [SelectionKind.rows, leaves_one]
    simp [permutationIndices]

theorem length_chosen {selector : Option (SelectionKind × PipelineDslSelectionSpec)}
    {options : List (GeneratedSequence Step)} :
    (step.chosen selector options).length = match selector with
      | none => options.length
      | some (kind, selection) => (selection.sizes.map (kind.rowCount options.length)).sum := by
  cases selector with
  | none => rfl
  | some pair =>
    simp only [chosen, sequencesOf, List.length_mapIdx, List.length_flatMap]
    congr 1
    exact List.map_congr_left fun size _ => pair.1.length_rows

theorem length_firstStage {options : List (GeneratedSequence Step)}
    (h : collectIdx step.branches step.branchOption = .ok options) :
    (step.chosen step.firstSelector options).length = step.firstStageSize := by
  rw [length_chosen, firstStageSize, (collectIdx_ok.mp h).1]

/-- A cap that cuts the first stage keeps the selections of one option in place. -/
theorem chosen_take {kind : SelectionKind} {selection : PipelineDslSelectionSpec}
    {first : List (GeneratedSequence Step)} (hleast : selection.least = 1)
    (hsizes : ∃ more, selection.sizes = selection.least :: more) (hcap : cap ≤ first.length) :
    (step.chosen (some (kind, selection)) (first.take cap)).take cap =
      (step.chosen (some (kind, selection)) first).take cap := by
  obtain ⟨more, hsizes⟩ := hsizes
  have hrow (n i : Nat) (rest : List (List Nat)) (hn : i < n) :
      ((List.range n).map (fun i => [i]) ++ rest)[i]? = some [i] := by
    rw [List.getElem?_append_left (by simpa using hn)]
    simp [hn]
  apply List.ext_getElem?
  intro i
  simp only [chosen, sequencesOf, hsizes, hleast, List.getElem?_take, List.getElem?_mapIdx,
    List.flatMap_cons, rows_one]
  split
  · rename_i hi
    rw [hrow _ _ _ (by rw [List.length_take]; omega), hrow _ _ _ (by omega)]
    simp [List.filterMap_cons, hi]
  · rfl

/-- The second stage of a capped first stage, where the condition holds. -/
theorem truncate_chosen {kind : SelectionKind} {selection : PipelineDslSelectionSpec}
    {first : List (GeneratedSequence Step)} (hleast : 0 < selection.least)
    (hsizes : ∃ more, selection.sizes = selection.least :: more)
    (hkeeps : ∀ cap, step.stageCount = some cap → 1 < selection.least → first.length ≤ cap) :
    truncateGeneratedSequences (step.chosen (some (kind, selection))
        (truncateGeneratedSequences first step.stageCount)) step.stageCount =
      truncateGeneratedSequences (step.chosen (some (kind, selection)) first) step.stageCount := by
  cases hcount : step.stageCount with
  | none => rfl
  | some cap =>
    simp only [truncateGeneratedSequences]
    rcases le_total first.length cap with hshort | hlong
    · rw [List.take_of_length_le hshort]
    · by_cases hone : selection.least = 1
      · exact chosen_take hone hsizes hlong
      · rw [List.take_of_length_le (hkeeps cap hcount (by omega))]

theorem capKeepsFirstStage_of_stageCount (h : step.CapKeepsFirstStage) (hmode : step.mode = .or)
    (hthen : step.thenSelector = some (kind, selection)) :
    ∀ cap, step.stageCount = some cap → 1 < selection.least → step.firstStageSize ≤ cap := by
  intro cap hcap
  unfold stageCount at hcap
  split at hcap
  · cases hcap
  · rename_i hnone
    exact h cap hcap hmode (Bool.eq_false_iff.mpr hnone) kind selection hthen

/-- The expansion against the declared one. -/
theorem expandGeneratorSequences_ok {result : List (GeneratedSequence Step)}
    (h : step.expandGeneratorSequences = .ok result) :
    ∃ full, step.Declares full ∧ (step.CapKeepsFirstStage → result = step.survivors full) := by
  simp only [expandGeneratorSequences, bind_ok] at h
  obtain ⟨_, -, h⟩ := h
  cases hmode : step.mode with
  | cartesian =>
    rw [hmode] at h
    obtain ⟨full, hfull, rfl⟩ := expandCartesian_ok hmode h
    exact ⟨full, hfull, fun _ => survivors_truncate full⟩
  | or =>
    rw [hmode] at h
    obtain ⟨options, choices, hoptions, -, hchoices, rfl⟩ := expandOr_ok h
    refine ⟨step.chosen step.thenSelector (step.chosen step.firstSelector options), ?_, ?_⟩
    · simp only [Declares, hmode]
      exact ⟨options, _, hoptions, chosen_iff.mpr rfl, chosen_iff.mpr rfl⟩
    · intro hkeeps
      rcases choose_ok hchoices with ⟨hnone, rfl⟩ | ⟨kind, selection, hthen, hfits, rfl⟩
      · rw [survivors_truncate, thenSelector, hnone]
        rfl
      · rw [thenSelector, hthen, truncate_chosen hfits.least_pos hfits.starts, survivors_truncate]
        rw [length_firstStage hoptions]
        exact capKeepsFirstStage_of_stageCount hkeeps hmode hthen

-- ---------------------------------------------------------------------------
-- What a cap loses
-- ---------------------------------------------------------------------------

/-- The labels of the sequence at an index. -/
def labelsAt (sequences : List (GeneratedSequence Step)) (i : Nat) : List String :=
  (sequences[i]?.map (·.labels)).getD []

theorem labels_selected {options : List (GeneratedSequence Step)} {row : List Nat} :
    (row.filterMap (options[·]?)).flatMap (·.labels) = row.flatMap (labelsAt options) := by
  induction row with
  | nil => rfl
  | cons i row ih =>
    rw [List.flatMap_cons, ← ih, labelsAt]
    cases h : options[i]? with
    | none => simp [h]
    | some sequence => simp [h]

theorem map_mapIdx {l : List α} {f : Nat → α → β} {g : β → γ} {g' : α → γ}
    (h : ∀ i x, g (f i x) = g' x) : (l.mapIdx f).map g = l.map g' := by
  apply List.ext_getElem?
  intro i
  simp [List.getElem?_mapIdx, Option.map_map, Function.comp_def, h]

theorem labels_chosen {options : List (GeneratedSequence Step)} {kind : SelectionKind}
    {selection : PipelineDslSelectionSpec} :
    (step.chosen (some (kind, selection)) options).map (·.labels) =
      (selection.sizes.flatMap (kind.rows options.length)).map (·.flatMap (labelsAt options)) := by
  rw [chosen, sequencesOf]
  exact map_mapIdx fun _ _ => labels_selected

theorem labels_options {options : List (GeneratedSequence Step)}
    (h : collectIdx step.branches step.branchOption = .ok options) :
    options.map (·.labels) = step.branches.map fun branch => [branch.id] := by
  have hoptions := mapIdx_of_collectIdx (g := fun index branch => {
    id := generatorChoiceId step.id index, labels := [branch.id], members := [branch.id]
    steps := branch.steps, metadata := branch.metadata }) h fun i branch y hy => by
      simp only [branchOption, bind_ok, pure_ok] at hy
      obtain ⟨_, -, rfl⟩ := hy
      rfl
  rw [hoptions]
  exact map_mapIdx fun _ _ => rfl

/-- The labels of a row of options name the selected branches. -/
theorem labels_row {options : List (GeneratedSequence Step)} {row : List Nat}
    (h : collectIdx step.branches step.branchOption = .ok options)
    (hrow : ∀ i ∈ row, i < options.length) :
    row.flatMap (labelsAt options) = row.map ((step.branches.map (·.id)).getD · "") := by
  have hlength := (collectIdx_ok.mp h).1
  rw [List.map_eq_flatMap]
  refine List.flatMap_congr fun i hi => ?_
  have hi := hlength ▸ hrow i hi
  have hlabels := congrArg (·[i]?) (labels_options h)
  simp only [List.getElem?_map] at hlabels
  rw [labelsAt, hlabels]
  simp [List.getD, List.getElem?_eq_getElem hi]

/-- With distinct branch ids neighbouring sequences of the first stage diverge. -/
theorem diverging_firstStage {options : List (GeneratedSequence Step)}
    (hoptions : collectIdx step.branches step.branchOption = .ok options)
    (hids : (step.branches.map (·.id)).Nodup)
    (hfits : ∀ kind selection, step.firstSelector = some (kind, selection) →
      selection.Fits options.length) :
    ((step.chosen step.firstSelector options).map (·.labels)).IsChain Diverge := by
  cases hselector : step.firstSelector with
  | none =>
    rw [chosen, labels_options hoptions, List.isChain_map]
    refine ((List.pairwise_map.mp hids).imp fun hne => ?_).isChain
    exact diverge_of_head hne [] []
  | some pair =>
    obtain ⟨kind, selection⟩ := pair
    have hfits := hfits kind selection hselector
    have hsizes (size : Nat) (hsize : size ∈ selection.sizes) : 0 < size ∧ size ≤ options.length :=
      ⟨lt_of_lt_of_le hfits.least_pos (hfits.sizes_le size hsize).1, (hfits.sizes_le size hsize).2⟩
    have hchain := kind.diverging_rows hsizes hfits.ascending
    rw [labels_chosen, List.isChain_map]
    refine hchain.imp_of_mem_imp fun left right hleft hright hdiverge => ?_
    have hrange (row : List Nat) (hrow : row ∈ selection.sizes.flatMap (kind.rows options.length)) :
        ∀ i ∈ row, i < options.length := by
      obtain ⟨size, -, hrow⟩ := List.mem_flatMap.mp hrow
      exact (((kind.rows_lists _ size).mem_iff row).mp hrow).2.1
    -- the position of an id brings back the index
    have hback (row : List Nat) (hrow : row ∈ selection.sizes.flatMap (kind.rows options.length)) :
        (row.flatMap (labelsAt options)).map (step.branches.map (·.id)).idxOf = row := by
      rw [labels_row hoptions (hrange row hrow), List.map_map]
      conv_rhs => rw [← List.map_id row]
      refine List.map_congr_left fun i hi => ?_
      have hi : i < (step.branches.map (·.id)).length := by
        rw [List.length_map, (collectIdx_ok.mp hoptions).1]
        exact hrange row hrow i hi
      rw [Function.comp_apply, List.getD_eq_getElem _ _ hi, hids.idxOf_getElem, id_eq]
    apply Diverge.of_map (step.branches.map (·.id)).idxOf
    rwa [hback left hleft, hback right hright]

theorem getElem?_openingRows (h : i < optionCount - (first + size)) :
    (openingRows first size optionCount)[i]? = some (List.range' first size ++ [first + size + i]) := by
  rw [openingRows, List.getElem?_map, List.getElem?_range' h, Option.map_some, Nat.one_mul]

/-- A second stage of larger selections feels the cap on the first one: after the
rows that vary the last index only, the whole stage has one more of them. -/
theorem chosen_take_ne {kind : SelectionKind} {selection : PipelineDslSelectionSpec}
    {first : List (GeneratedSequence Step)} (hfits : selection.Fits cap) (hleast : 1 < selection.least)
    (hcap : cap < first.length) (hdiverge : (first.map (·.labels)).IsChain Diverge) :
    ((step.chosen (some (kind, selection)) (first.take cap)).take cap).map (·.labels) ≠
      ((step.chosen (some (kind, selection)) first).take cap).map (·.labels) := by
  intro heq
  obtain ⟨more, hsizes⟩ := hfits.starts
  obtain ⟨t, ht⟩ := Nat.exists_eq_add_of_le' hleast
  have hle := (hfits.sizes_le selection.least (by simp [hsizes])).2
  have hlength : (first.take cap).length = cap := by
    rw [List.length_take]
    omega
  have hopened (n : Nat) : (openingRows 0 (t + 1) n).length = n - (t + 1) := by
    simp [openingRows]
  -- the row at this index is the last of the whole stage's opening ones that the cap allows
  have hwhole : (selection.sizes.flatMap (kind.rows first.length))[cap - (t + 1)]? =
      some (List.range' 0 (t + 1) ++ [cap]) := by
    obtain ⟨others, hopening, -⟩ := kind.rows_opening (by omega : t + 1 < first.length)
    rw [hsizes, ht, List.flatMap_cons, hopening, List.append_assoc,
      List.getElem?_append_left (by rw [hopened]; omega), getElem?_openingRows (by omega),
      show 0 + (t + 1) + (cap - (t + 1)) = cap by omega]
  have hlabels := congrArg (·[cap - (t + 1)]?) heq
  simp only [List.map_take, labels_chosen, hlength, List.getElem?_take, List.getElem?_map, hwhole,
    if_pos (by omega : cap - (t + 1) < cap)] at hlabels
  obtain ⟨others, hopening, hothers⟩ := kind.rows_opening (by omega : t + 1 < cap)
  rw [hsizes, ht, List.flatMap_cons, hopening, List.append_assoc,
    List.getElem?_append_right (by rw [hopened]), hopened, Nat.sub_self] at hlabels
  rcases hothers with ⟨rfl, hcap'⟩ | ⟨after, rfl⟩
  · -- the cut stage has one row of this size, and no larger size fits it
    have hnone : more = [] := by
      rw [List.eq_nil_iff_forall_not_mem]
      intro size hsize
      have hlarger := hfits.ascending
      rw [hsizes, List.pairwise_cons] at hlarger
      have hlt := hlarger.1 size hsize
      have hle := (hfits.sizes_le size (by simp [hsizes, hsize])).2
      omega
    simp [hnone] at hlabels
  · have hnext : kind.nextRow 0 t ∈ kind.rows cap (t + 2) := by simp [hopening]
    have hrange := (((kind.rows_lists cap (t + 2)).mem_iff _).mp hnext).2.1
    have hkept : (kind.nextRow 0 t).flatMap (labelsAt (first.take cap)) =
        (kind.nextRow 0 t).flatMap (labelsAt first) := by
      refine List.flatMap_congr fun i hi => ?_
      rw [labelsAt, labelsAt, List.getElem?_take_of_lt (hrange i hi)]
    simp only [List.cons_append, List.getElem?_cons_zero, Option.map_some, Option.some.injEq] at hlabels
    unfold SelectionKind.nextRow at hkept hlabels
    rw [hkept, List.range'_1_concat, List.append_assoc, List.flatMap_append, List.flatMap_append,
      List.append_cancel_left_eq, Nat.zero_add] at hlabels
    simp only [List.flatMap_cons, List.cons_append, List.nil_append] at hlabels
    have hneighbours := List.isChain_iff_getElem.mp hdiverge t (by simp; omega)
    have hlabelsAt (i : Nat) (hi : i < (first.map (·.labels)).length) :
        (first.map (·.labels))[i] = labelsAt first i := by
      rw [List.length_map] at hi
      simp [labelsAt, hi]
    rw [hlabelsAt, hlabelsAt] at hneighbours
    exact hneighbours.append_ne _ _ hlabels.symm

theorem labels_survivors (hnone : step.hasConstraints = false) (hcount : step.count = some cap)
    (full : List (GeneratedSequence Step)) :
    (step.survivors full).map (·.labels) = (full.take cap).map (·.labels) := by
  have hall : full.filter (step.Allows ·) = full := by
    rw [List.filter_eq_self]
    intro sequence _
    simpa using allows_of_not_hasConstraints hnone sequence
  rw [survivors, hall, hcount, appendGeneratorTail]
  split
  · rfl
  · simp [truncateGeneratedSequences, Function.comp_def]

/-- Where a second stage feels the cap on the first one the expansion is not the declared one. -/
theorem capKeepsFirstStage_of_expand {full result : List (GeneratedSequence Step)}
    (h : step.expandGeneratorSequences = .ok result) (hfull : step.Declares full)
    (hids : (step.branches.map (·.id)).Nodup) (hresult : result = step.survivors full) :
    step.CapKeepsFirstStage := by
  intro cap hcount hmode hnone kind selection hthen hleast
  by_contra hcap
  simp only [expandGeneratorSequences, bind_ok, hmode] at h
  obtain ⟨_, -, h⟩ := h
  obtain ⟨options, choices, hoptions, hfirstFits, hchoices, rfl⟩ := expandOr_ok h
  have hstage : step.stageCount = some cap := by simp [stageCount, hnone, hcount]
  simp only [Declares, hmode] at hfull
  obtain ⟨options', first, hoptions', hfirst, hfull⟩ := hfull
  rw [hoptions, Except.ok.injEq] at hoptions'
  rw [chosen_iff] at hfirst hfull
  subst hoptions' hfirst hfull
  rw [← length_firstStage hoptions, not_le] at hcap
  rcases choose_ok hchoices with ⟨hno, -⟩ | ⟨kind', selection', hthen', hfits, rfl⟩
  · rw [thenSelector, hno] at hthen
    cases hthen
  · have hlabels := congrArg (List.map (·.labels)) hresult
    rw [hstage, truncateGeneratedSequences, List.length_take, Nat.min_eq_left hcap.le] at hfits
    rw [survivors_truncate, labels_survivors hnone hcount, labels_survivors hnone hcount, hstage,
      ← thenSelector, hthen] at hlabels
    rw [thenSelector, hthen'] at hthen
    cases hthen
    exact chosen_take_ne hfits hleast hcap (diverging_firstStage hoptions hids hfirstFits) hlabels

/-- More constraints than the declared ones leave the expansion as it is where
they allow what the declared ones allow. -/
theorem survivors_extended {constraints : PipelineDslGeneratorConstraints}
    {full : List (GeneratedSequence Step)}
    (hextends : ∀ declared ∈ step.constraints, constraints.Extends declared)
    (hallowed : ∀ sequence ∈ full, step.Allows sequence → constraints.Allows sequence.members) :
    { step with constraints := some constraints }.survivors full = step.survivors full := by
  have hfilter : full.filter ({ step with constraints := some constraints }.Allows ·) =
      full.filter (step.Allows ·) := by
    apply List.filter_congr
    intro sequence hmem
    rw [decide_eq_decide]
    constructor
    · intro h declared hdeclared
      exact (hextends declared hdeclared).allows (h constraints rfl)
    · rintro h _ ⟨⟩
      exact hallowed sequence hmem h
  rw [survivors, hfilter]
  rfl

theorem capKeepsFirstStage_extended {constraints : PipelineDslGeneratorConstraints}
    (hextends : ∀ declared ∈ step.constraints, constraints.Extends declared)
    (h : step.CapKeepsFirstStage) :
    { step with constraints := some constraints }.CapKeepsFirstStage := by
  intro cap hcount hmode hnone
  refine h cap hcount hmode ?_
  cases hdeclared : step.constraints with
  | none => simp [hasConstraints, hdeclared]
  | some declared =>
    have hempty : constraints.isEmpty = true := by simpa [hasConstraints] using hnone
    simp [hasConstraints, hdeclared, (hextends declared hdeclared).isEmpty hempty]

/-- The expansion returns the first allowed sequences of the declared expansion,
and a constraint that every one of them satisfies changes nothing, as long as no
second stage of larger selections feels the cap on the first stage; with
distinct branch ids, only then. -/
theorem expandGeneratorSequences_exact {result : List (GeneratedSequence Step)}
    (h : step.expandGeneratorSequences = .ok result) :
    ∃ full, step.Declares full ∧ (∀ other, step.Declares other → other = full) ∧
      (step.CapKeepsFirstStage → result = step.survivors full ∧
        ∀ constraints result', (∀ declared ∈ step.constraints, constraints.Extends declared) →
          (∀ sequence ∈ full, step.Allows sequence → constraints.Allows sequence.members) →
          { step with constraints := some constraints }.expandGeneratorSequences = .ok result' →
            result' = result) ∧
      ((step.branches.map (·.id)).Nodup → result = step.survivors full → step.CapKeepsFirstStage) := by
  obtain ⟨full, hfull, hkeeps⟩ := expandGeneratorSequences_ok h
  refine ⟨full, hfull, fun other hother => hother.unique hfull, fun hcap => ⟨hkeeps hcap, ?_⟩,
    fun hids hresult => capKeepsFirstStage_of_expand h hfull hids hresult⟩
  intro constraints result' hextends hallowed h'
  obtain ⟨full', hfull', hkeeps'⟩ := expandGeneratorSequences_ok h'
  have hsame : full' = full := hfull'.unique hfull
  rw [hkeeps' (capKeepsFirstStage_extended hextends hcap), hkeeps hcap, hsame,
    survivors_extended hextends hallowed]

/-- Three options, two of which a second stage picks. -/
def pairsOfThree (count : Option Nat) : PipelineDslGeneratorStep Unit where
  id := ⟨"generator:pairs", by decide⟩
  branches := [⟨"snv", none, ∅, [()]⟩, ⟨"msc", none, ∅, [()]⟩, ⟨"detrend", none, ∅, [()]⟩]
  thenPick := some (.single 2)
  count := count

theorem expandGeneratorSequences_exact_pairs :
    ∃ result full, (pairsOfThree (some 3)).expandGeneratorSequences = .ok result ∧
      (pairsOfThree (some 3)).Declares full ∧ result = (pairsOfThree (some 3)).survivors full := by
  have hok : (pairsOfThree (some 3)).expandGeneratorSequences.toBool = true := by decide
  have hkeeps : (pairsOfThree (some 3)).CapKeepsFirstStage := by
    rintro cap ⟨⟩ - - kind selection ⟨⟩ -
    decide
  cases hrun : (pairsOfThree (some 3)).expandGeneratorSequences with
  | error e =>
    rw [hrun] at hok
    cases hok
  | ok result =>
    obtain ⟨full, hfull, -, hexact, -⟩ := expandGeneratorSequences_exact hrun
    exact ⟨result, full, rfl, hfull, (hexact hkeeps).1⟩

/-- Under a cap of two the second stage picks from the first two options only. -/
theorem expandGeneratorSequences_capped :
    ¬ ∀ (step : PipelineDslGeneratorStep Unit) (result full : List (GeneratedSequence Unit)),
      step.expandGeneratorSequences = .ok result → step.Declares full →
        result = step.survivors full := by
  intro h
  have hok : (pairsOfThree (some 2)).expandGeneratorSequences.toBool = true := by decide
  cases hrun : (pairsOfThree (some 2)).expandGeneratorSequences with
  | error e =>
    rw [hrun] at hok
    cases hok
  | ok result =>
    obtain ⟨full, hfull, -⟩ := expandGeneratorSequences_ok hrun
    have hkeeps := capKeepsFirstStage_of_expand hrun hfull (by decide) (h _ result full hrun hfull)
    have hsize := hkeeps 2 rfl rfl rfl .pick (.single 2) rfl (by decide)
    revert hsize
    decide

end PipelineDslGeneratorStep

end DagMl
