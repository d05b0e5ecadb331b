import DagMl.Runtime.Stacking

/-!
# Capacity of a nested split

`FitScope` lists the training scopes of a residual campaign level by level, and
`Opens` the scopes whose inner folds it needs. A split count is feasible when
those folds can be built and every scope has the rows its nodes ask for;
`resolveCapacityKfold` takes the least feasible count.
-/

namespace DagMl

open Checked

inductive FitRole
  | base
  | source
  | learner

def CapacityRequirements.forRole (self : CapacityRequirements) : FitRole → List (NodeId × Nat)
  | .base => self.base
  | .source => self.source
  | .learner => self.learner

/-- The fold of the meta REFIT, which trains on every sample. -/
def capacityRefitFold (foldSet : FoldSet) : FoldAssignment :=
  ⟨⟨"capacity.refit", by decide⟩, foldSet.sampleIds, [], ∅⟩

variable (sha256 : Digest) (policy : NestedCvSpec)

/-- The fold set that the policy builds inside one fold. -/
def InnerOf (parentSet : FoldSet) (parent : FoldAssignment) (innerSet : FoldSet) : Prop :=
  ∃ nested, parentSet.nestedFoldSet sha256 policy parent = .ok nested ∧
    nested.innerFoldSet = innerSet

section

variable (foldSet : FoldSet) (requirements : CapacityRequirements)

/-- The outer folds, and the fold of the REFIT. -/
def outerScopes : List FoldAssignment := foldSet.folds ++ [capacityRefitFold foldSet]

/-- The folds a campaign fits, each with the fold set it belongs to. -/
inductive FitScope : FitRole → FoldSet → FoldAssignment → Prop
  | outer (hp : parent ∈ outerScopes foldSet) : FitScope .base foldSet parent
  | learner (hp : parent ∈ outerScopes foldSet) : FitScope .learner foldSet parent
  | residual (hp : parent ∈ outerScopes foldSet) (hi : InnerOf sha256 policy foldSet parent innerSet)
      (hf : fold ∈ innerSet.folds) : FitScope .base innerSet fold
  | gateLearner (hgate : requirements.autoGate = true) (hp : parent ∈ outerScopes foldSet)
      (hi : InnerOf sha256 policy foldSet parent innerSet) (hf : fold ∈ innerSet.folds) :
      FitScope .learner innerSet fold
  | gate (hgate : requirements.autoGate = true) (hp : parent ∈ outerScopes foldSet)
      (hi : InnerOf sha256 policy foldSet parent innerSet) (hf : fold ∈ innerSet.folds)
      (hi' : InnerOf sha256 policy innerSet fold subinner) (hf' : gateFold ∈ subinner.folds) :
      FitScope .base subinner gateFold
  /-- The sources of a prediction join are fitted wherever a base is. -/
  | join (hj : requirements.predictionJoin = true) (h : FitScope .base parentSet fold) :
      FitScope .source parentSet fold
  | joinOof (hj : requirements.predictionJoin = true) (h : FitScope .base parentSet fold)
      (hi : InnerOf sha256 policy parentSet fold innerSet) (hf : sourceFold ∈ innerSet.folds) :
      FitScope .source innerSet sourceFold

/-- The folds that are split again. -/
inductive Opens : FoldSet → FoldAssignment → Prop
  | outer (hp : parent ∈ outerScopes foldSet) : Opens foldSet parent
  | gate (hgate : requirements.autoGate = true) (hp : parent ∈ outerScopes foldSet)
      (hi : InnerOf sha256 policy foldSet parent innerSet) (hf : fold ∈ innerSet.folds) :
      Opens innerSet fold
  | join (hj : requirements.predictionJoin = true)
      (h : FitScope sha256 policy foldSet requirements .base parentSet fold) : Opens parentSet fold

structure FeasibleSplit : Prop where
  opens : ∀ parentSet fold, Opens sha256 policy foldSet requirements parentSet fold →
    ∃ innerSet, InnerOf sha256 policy parentSet fold innerSet
  enough : ∀ role parentSet fold, FitScope sha256 policy foldSet requirements role parentSet fold →
    ∀ requirement ∈ requirements.forRole role, requirement.2 ≤ fold.trainSampleIds.length

end

variable {sha256 policy} {foldSet parentSet innerSet : FoldSet} {parent : FoldAssignment}
  {requirements : CapacityRequirements}

-- ---------------------------------------------------------------------------
-- The checks
-- ---------------------------------------------------------------------------

theorem InnerOf.unique {other : FoldSet} (h : InnerOf sha256 policy parentSet parent innerSet)
    (h' : InnerOf sha256 policy parentSet parent other) : innerSet = other := by
  obtain ⟨nested, hnested, rfl⟩ := h
  obtain ⟨nested', hnested', rfl⟩ := h'
  cases hnested.symm.trans hnested'
  rfl

def Enough (required : List (NodeId × Nat)) (fold : FoldAssignment) : Prop :=
  ∀ requirement ∈ required, requirement.2 ≤ fold.trainSampleIds.length

theorem checkFitCapacity_ok {scope : String} :
    checkFitCapacity required fitRows scope = .ok u ↔
      ∀ requirement ∈ required, requirement.2 ≤ fitRows := by
  simp only [checkFitCapacity, each_ok, refuseIf_ok, not_lt]

/-- What a prediction join asks of a fold that a base is fitted on. -/
def JoinFits (sha256 : Digest) (policy : NestedCvSpec) (requirements : CapacityRequirements)
    (parentSet : FoldSet) (parent : FoldAssignment) : Prop :=
  requirements.predictionJoin = true → Enough requirements.source parent ∧
    ∃ innerSet, InnerOf sha256 policy parentSet parent innerSet ∧
      ∀ fold ∈ innerSet.folds, Enough requirements.source fold

theorem checkPredictionJoinCapacity_ok :
    checkPredictionJoinCapacity sha256 policy parentSet parent requirements = .ok u ↔
      JoinFits sha256 policy requirements parentSet parent := by
  simp only [checkPredictionJoinCapacity, checkIf_ok, bind_ok, each_ok, checkFitCapacity_ok]
  refine imp_congr_right fun _ => ⟨?_, ?_⟩
  · rintro ⟨_, hparent, nested, hnested, hfolds⟩
    exact ⟨hparent, _, ⟨nested, hnested, rfl⟩, hfolds⟩
  · rintro ⟨hparent, _, ⟨nested, hnested, rfl⟩, hfolds⟩
    exact ⟨(), hparent, nested, hnested, hfolds⟩

/-- What an automatic gate asks of an inner fold. -/
def GateFits (sha256 : Digest) (policy : NestedCvSpec) (requirements : CapacityRequirements)
    (innerSet : FoldSet) (fold : FoldAssignment) : Prop :=
  requirements.autoGate = true → Enough requirements.learner fold ∧
    ∃ subinner, InnerOf sha256 policy innerSet fold subinner ∧
      ∀ gateFold ∈ subinner.folds, Enough requirements.base gateFold ∧
        JoinFits sha256 policy requirements subinner gateFold

theorem checkAutoGateCapacity_ok {nested : NestedFoldSet} :
    checkAutoGateCapacity sha256 policy nested parent requirements = .ok u ↔
      GateFits sha256 policy requirements nested.innerFoldSet parent := by
  simp only [checkAutoGateCapacity, checkIf_ok, bind_ok, each_ok, checkFitCapacity_ok,
    checkPredictionJoinCapacity_ok]
  refine imp_congr_right fun _ => ⟨?_, ?_⟩
  · rintro ⟨_, hparent, gate, hgate, hfolds⟩
    refine ⟨hparent, _, ⟨gate, hgate, rfl⟩, fun fold hfold => ?_⟩
    obtain ⟨_, hbase, hjoin⟩ := hfolds fold hfold
    exact ⟨hbase, hjoin⟩
  · rintro ⟨hparent, _, ⟨gate, hgate, rfl⟩, hfolds⟩
    exact ⟨(), hparent, gate, hgate, fun fold hfold =>
      ⟨(), (hfolds fold hfold).1, (hfolds fold hfold).2⟩⟩

/-- What one outer fold asks. -/
structure ScopesFit (sha256 : Digest) (policy : NestedCvSpec) (requirements : CapacityRequirements)
    (parentSet : FoldSet) (parent : FoldAssignment) : Prop where
  base : Enough requirements.base parent
  learner : Enough requirements.learner parent
  join : JoinFits sha256 policy requirements parentSet parent
  residual : ∃ innerSet, InnerOf sha256 policy parentSet parent innerSet ∧
    ∀ fold ∈ innerSet.folds, Enough requirements.base fold ∧
      JoinFits sha256 policy requirements innerSet fold ∧
      GateFits sha256 policy requirements innerSet fold

theorem checkCapacityScopes_ok :
    checkCapacityScopes sha256 policy parentSet parent requirements = .ok u ↔
      ScopesFit sha256 policy requirements parentSet parent := by
  simp only [checkCapacityScopes, bind_ok, each_ok, checkFitCapacity_ok,
    checkPredictionJoinCapacity_ok, checkAutoGateCapacity_ok]
  constructor
  · rintro ⟨_, hbase, _, hlearner, _, hjoin, nested, hnested, hfolds⟩
    refine ⟨hbase, hlearner, hjoin, _, ⟨nested, hnested, rfl⟩, fun fold hfold => ?_⟩
    obtain ⟨_, hfoldBase, _, hfoldJoin, hgate⟩ := hfolds fold hfold
    exact ⟨hfoldBase, hfoldJoin, hgate⟩
  · rintro ⟨hbase, hlearner, hjoin, _, ⟨nested, hnested, rfl⟩, hfolds⟩
    refine ⟨(), hbase, (), hlearner, (), hjoin, nested, hnested, fun fold hfold => ?_⟩
    obtain ⟨hfoldBase, hfoldJoin, hgate⟩ := hfolds fold hfold
    exact ⟨(), hfoldBase, (), hfoldJoin, hgate⟩

theorem checkCapacitySplits_scopes :
    checkCapacitySplits sha256 policy foldSet requirements = .ok u ↔
      ∀ parent ∈ outerScopes foldSet, ScopesFit sha256 policy requirements foldSet parent := by
  simp only [checkCapacitySplits, bind_ok, each_ok, checkCapacityScopes_ok, Id.new_ok,
    outerScopes, List.mem_append, List.mem_singleton]
  constructor
  · rintro ⟨_, houter, foldId, hid, hrefit⟩ parent (hp | rfl)
    · exact houter parent hp
    · obtain rfl : foldId = ⟨"capacity.refit", by decide⟩ := Id.value_injective hid
      exact hrefit
  · intro h
    exact ⟨(), fun parent hp => h parent (.inl hp), ⟨"capacity.refit", by decide⟩, rfl,
      h _ (.inr rfl)⟩

-- ---------------------------------------------------------------------------
-- The checks decide feasibility
-- ---------------------------------------------------------------------------

/-- A base scope has its rows, and its sources theirs. -/
theorem base_fits (h : ∀ parent ∈ outerScopes foldSet,
      ScopesFit sha256 policy requirements foldSet parent)
    (hs : FitScope sha256 policy foldSet requirements .base parentSet fold) :
    Enough requirements.base fold ∧ JoinFits sha256 policy requirements parentSet fold := by
  cases hs with
  | outer hp => exact ⟨(h fold hp).base, (h fold hp).join⟩
  | residual hp hi hf =>
    obtain ⟨_, hi', hfolds⟩ := (h _ hp).residual
    cases hi.unique hi'
    exact ⟨(hfolds fold hf).1, (hfolds fold hf).2.1⟩
  | gate hgate hp hi hf hi₂ hf₂ =>
    obtain ⟨_, hi', hfolds⟩ := (h _ hp).residual
    cases hi.unique hi'
    obtain ⟨-, _, hi₂', hgates⟩ := (hfolds _ hf).2.2 hgate
    cases hi₂.unique hi₂'
    exact hgates fold hf₂

theorem checkCapacitySplits_ok :
    checkCapacitySplits sha256 policy foldSet requirements = .ok u ↔
      FeasibleSplit sha256 policy foldSet requirements := by
  rw [checkCapacitySplits_scopes]
  constructor
  · intro h
    constructor
    · intro parentSet fold hopens
      cases hopens with
      | outer hp =>
        obtain ⟨innerSet, hi, -⟩ := (h fold hp).residual
        exact ⟨innerSet, hi⟩
      | gate hgate hp hi hf =>
        obtain ⟨_, hi', hfolds⟩ := (h _ hp).residual
        cases hi.unique hi'
        obtain ⟨-, subinner, hi₂, -⟩ := (hfolds fold hf).2.2 hgate
        exact ⟨subinner, hi₂⟩
      | join hj hs =>
        obtain ⟨-, innerSet, hi, -⟩ := (base_fits h hs).2 hj
        exact ⟨innerSet, hi⟩
    · intro role parentSet fold hs
      cases hs with
      | learner hp => exact (h fold hp).learner
      | gateLearner hgate hp hi hf =>
        obtain ⟨_, hi', hfolds⟩ := (h _ hp).residual
        cases hi.unique hi'
        exact ((hfolds fold hf).2.2 hgate).1
      | join hj hs => exact ((base_fits h hs).2 hj).1
      | joinOof hj hs hi hf =>
        obtain ⟨-, _, hi', hfolds⟩ := (base_fits h hs).2 hj
        cases hi.unique hi'
        exact hfolds fold hf
      | outer hp => exact (base_fits h (.outer hp)).1
      | residual hp hi hf => exact (base_fits h (.residual hp hi hf)).1
      | gate hgate hp hi hf hi₂ hf₂ => exact (base_fits h (.gate hgate hp hi hf hi₂ hf₂)).1
  · rintro ⟨hopens, henough⟩ parent hp
    have hjoin {parentSet : FoldSet} {fold : FoldAssignment}
        (hs : FitScope sha256 policy foldSet requirements .base parentSet fold) :
        JoinFits sha256 policy requirements parentSet fold := by
      intro hj
      obtain ⟨innerSet, hi⟩ := hopens parentSet fold (.join hj hs)
      exact ⟨henough .source _ _ (.join hj hs), innerSet, hi,
        fun sourceFold hf => henough .source _ _ (.joinOof hj hs hi hf)⟩
    refine ⟨henough .base _ _ (.outer hp), henough .learner _ _ (.learner hp), hjoin (.outer hp), ?_⟩
    obtain ⟨innerSet, hi⟩ := hopens foldSet parent (.outer hp)
    refine ⟨innerSet, hi, fun fold hf => ?_⟩
    have hresidual : FitScope sha256 policy foldSet requirements .base innerSet fold :=
      .residual hp hi hf
    refine ⟨henough .base _ _ hresidual, hjoin hresidual, fun hgate => ?_⟩
    obtain ⟨subinner, hi₂⟩ := hopens innerSet fold (.gate hgate hp hi hf)
    refine ⟨henough .learner _ _ (.gateLearner hgate hp hi hf), subinner, hi₂,
      fun gateFold hf₂ => ?_⟩
    have hbase := FitScope.gate hgate hp hi hf hi₂ hf₂
    exact ⟨henough .base _ _ hbase, hjoin hbase⟩

instance (sha256 : Digest) (policy : NestedCvSpec) (foldSet : FoldSet)
    (requirements : CapacityRequirements) :
    Decidable (FeasibleSplit sha256 policy foldSet requirements) :=
  decidable_of_iff (checkCapacitySplits sha256 policy foldSet requirements = .ok ())
    checkCapacitySplits_ok

-- ---------------------------------------------------------------------------
-- The search
-- ---------------------------------------------------------------------------

theorem KFoldSpec.nSplits_le {spec : KFoldSpec}
    (h : spec.split sha256 foldSetId samples = .ok inner') : spec.nSplits ≤ samples.length := by
  simp only [split, bind_ok, refuseIf_ok, FoldSet.uniqueSamples_ok] at h
  obtain ⟨_, -, unique, ⟨hnodup, rfl⟩, _, hcard, -⟩ := h
  rwa [List.toFinset_card_of_nodup hnodup, not_lt] at hcard

/-- No fold is split into more parts than it has rows. -/
theorem FeasibleSplit.le_rows {spec : KFoldSpec}
    (h : FeasibleSplit sha256 (.kFold spec) foldSet requirements)
    (hp : parent ∈ outerScopes foldSet) : spec.nSplits ≤ parent.trainSampleIds.length := by
  obtain ⟨_, nested, hnested, rfl⟩ := h.opens foldSet parent (.outer hp)
  simp only [FoldSet.nestedFoldSet, NestedCvSpec.buildNestedFoldSet, bind_ok] at hnested
  obtain ⟨_, ⟨_, -, _, hsplit, -⟩, -⟩ := hnested
  exact KFoldSpec.nSplits_le hsplit

/-- The rows of the outer scopes bound the search. -/
theorem le_fitRows {n : Nat} :
    n ≤ (foldSet.folds.map (·.trainSampleIds.length) ++ [foldSet.sampleIds.length]).min?.getD 0 ↔
      ∀ parent ∈ outerScopes foldSet, n ≤ parent.trainSampleIds.length := by
  have hrows : foldSet.folds.map (·.trainSampleIds.length) ++ [foldSet.sampleIds.length] =
      (outerScopes foldSet).map (·.trainSampleIds.length) := by
    simp [outerScopes, capacityRefitFold]
  rw [hrows]
  cases hmin : ((outerScopes foldSet).map (·.trainSampleIds.length)).min? with
  | none =>
    rw [List.min?_eq_none_iff] at hmin
    simp [outerScopes] at hmin
  | some least =>
    obtain ⟨hmem, hle⟩ := List.min?_eq_some_iff.mp hmin
    rw [Option.getD_some]
    constructor
    · exact fun hn parent hp => hn.trans (hle _ (List.mem_map_of_mem hp))
    · intro h
      obtain ⟨parent, hp, rfl⟩ := List.mem_map.mp hmem
      exact h parent hp

/-- The policy of a split count. -/
def CapacityKFoldSpec.atSplits (self : CapacityKFoldSpec) (splits : Nat) : NestedCvSpec :=
  .kFold ⟨splits, self.shuffle, self.seed⟩

/-- The feasible counts of the requested range. -/
def feasibleCounts (sha256 : Digest) (requested : CapacityKFoldSpec) (foldSet : FoldSet)
    (requirements : CapacityRequirements) : Set Nat :=
  {splits | requested.minSplits ≤ splits ∧ splits ≤ requested.maxSplits ∧
    FeasibleSplit sha256 (requested.atSplits splits) foldSet requirements}

theorem mem_feasibleCounts {requested : CapacityKFoldSpec} {splits : Nat} :
    splits ∈ feasibleCounts sha256 requested foldSet requirements ↔
      splits ∈ List.range' requested.minSplits
        (min ((foldSet.folds.map (·.trainSampleIds.length) ++
          [foldSet.sampleIds.length]).min?.getD 0) requested.maxSplits + 1 - requested.minSplits) ∧
      (checkCapacitySplits sha256 (requested.atSplits splits) foldSet requirements).isOk = true := by
  have hok : (checkCapacitySplits sha256 (requested.atSplits splits) foldSet requirements).isOk =
      true ↔ FeasibleSplit sha256 (requested.atSplits splits) foldSet requirements := by
    rw [← checkCapacitySplits_ok (u := ())]
    cases checkCapacitySplits sha256 (requested.atSplits splits) foldSet requirements with
    | error e => simp [Except.isOk, Except.toBool]
    | ok u => simp [Except.isOk, Except.toBool]
  rw [hok, List.mem_range'_1]
  constructor
  · rintro ⟨hmin, hmax, hfeasible⟩
    have hrows := le_fitRows.mpr fun parent hp => hfeasible.le_rows hp
    change splits ≤ _ at hrows
    exact ⟨by omega, hfeasible⟩
  · rintro ⟨hrange, hfeasible⟩
    exact ⟨hrange.1, by omega, hfeasible⟩

theorem resolveCapacityKfold_ok {requested : CapacityKFoldSpec}
    (hgroups : foldSet.sampleGroups.isEmpty = true) :
    resolveCapacityKfold sha256 requested foldSet requirements = .ok policy' ↔
      ∃ splits, policy' = requested.atSplits splits ∧
        IsLeast (feasibleCounts sha256 requested foldSet requirements) splits := by
  simp only [resolveCapacityKfold, hgroups, Bool.not_true, Bool.false_eq_true, bind_ok,
    refuseIf_ok, need_ok, pure_ok, not_false_eq_true, exists_const, true_and,
    List.find?_range'_eq_some]
  refine exists_congr fun splits => ?_
  rw [and_comm, eq_comm (a := policy')]
  refine and_congr Iff.rfl ⟨?_, ?_⟩
  · rintro ⟨hok, hrange, hfirst⟩
    refine ⟨mem_feasibleCounts.mpr ⟨hrange, hok⟩, fun other hother => ?_⟩
    obtain ⟨hrange', hok'⟩ := mem_feasibleCounts.mp hother
    by_contra hlt
    have hnot := hfirst other (List.mem_range'_1.mp hrange').1 (not_le.mp hlt)
    rw [Bool.not_eq_true'] at hnot
    exact Bool.false_ne_true (hnot.symm.trans hok')
  · rintro ⟨hmem, hleast⟩
    obtain ⟨hrange, hok⟩ := mem_feasibleCounts.mp hmem
    refine ⟨hok, hrange, fun other hmin hlt => ?_⟩
    rw [Bool.not_eq_true']
    by_contra hother
    rw [Bool.not_eq_false] at hother
    have hrange' := List.mem_range'_1.mpr ⟨hmin, hlt.trans (List.mem_range'_1.mp hrange).2⟩
    exact absurd (hleast (mem_feasibleCounts.mpr ⟨hrange', hother⟩)) (not_le.mpr hlt)

/-- On a fold set without groups the search returns the least feasible count of
the requested range, and fails exactly when there is none; grouped samples are
refused. -/
theorem resolveCapacityKfold_least (sha256 : Digest) (requested : CapacityKFoldSpec)
    (foldSet : FoldSet) (requirements : CapacityRequirements) :
    (foldSet.sampleGroups.isEmpty = false →
      ∃ e, resolveCapacityKfold sha256 requested foldSet requirements = .error e) ∧
    (foldSet.sampleGroups.isEmpty = true →
      (∀ policy, resolveCapacityKfold sha256 requested foldSet requirements = .ok policy ↔
        ∃ splits, policy = requested.atSplits splits ∧
          IsLeast (feasibleCounts sha256 requested foldSet requirements) splits) ∧
      ((∃ e, resolveCapacityKfold sha256 requested foldSet requirements = .error e) ↔
        ∀ splits, requested.minSplits ≤ splits → splits ≤ requested.maxSplits →
          ¬FeasibleSplit sha256 (requested.atSplits splits) foldSet requirements)) := by
  refine ⟨fun hgroups => ?_, fun hgroups => ⟨fun _ => resolveCapacityKfold_ok hgroups, ?_⟩⟩
  · unfold resolveCapacityKfold
    rw [hgroups]
    exact ⟨_, rfl⟩
  · constructor
    · rintro ⟨e, he⟩ splits hmin hmax hfeasible
      have hne : (feasibleCounts sha256 requested foldSet requirements).Nonempty :=
        ⟨splits, hmin, hmax, hfeasible⟩
      have hok := (resolveCapacityKfold_ok hgroups).mpr
        ⟨_, rfl, Nat.sInf_mem hne, fun _ hn => Nat.sInf_le hn⟩
      cases he.symm.trans hok
    · intro hnone
      cases hrun : resolveCapacityKfold sha256 requested foldSet requirements with
      | error e => exact ⟨e, rfl⟩
      | ok policy =>
        obtain ⟨splits, -, ⟨hmin, hmax, hfeasible⟩, -⟩ := (resolveCapacityKfold_ok hgroups).mp hrun
        exact absurd hfeasible (hnone splits hmin hmax)

-- ---------------------------------------------------------------------------
-- Six samples
-- ---------------------------------------------------------------------------

def capacitySamples : List SampleId :=
  [⟨"capacity:0", by decide⟩, ⟨"capacity:1", by decide⟩, ⟨"capacity:2", by decide⟩,
    ⟨"capacity:3", by decide⟩, ⟨"capacity:4", by decide⟩, ⟨"capacity:5", by decide⟩]

def capacityFolds (sampleGroups : BTreeMap SampleId GroupId) : FoldSet :=
  let early := capacitySamples.take 3
  let late := capacitySamples.drop 3
  { id := "folds:capacity", sampleIds := capacitySamples
    folds := [⟨⟨"capacity:a", by decide⟩, early, late, ∅⟩, ⟨⟨"capacity:b", by decide⟩, late, early, ∅⟩]
    sampleGroups, partitionMode := .partition, trainExclusion := .relations
    targetMissingSampleIds := [] }

/-- One base model that trains on at least so many rows. -/
def baseAtLeast (minimum : Nat) : CapacityRequirements :=
  ⟨[(⟨"base:capacity", by decide⟩, minimum)], [], [], false, false⟩

def twoToFour : CapacityKFoldSpec := ⟨2, 4, false, none⟩

/-- Two parts leave one row to an inner fold, three leave two. -/
theorem resolveCapacityKfold_least_three :
    resolveCapacityKfold plainExternals.sha256 twoToFour (capacityFolds ∅) (baseAtLeast 2) =
      .ok (twoToFour.atSplits 3) := by
  have h := (resolveCapacityKfold_least plainExternals.sha256 twoToFour (capacityFolds ∅)
    (baseAtLeast 2)).2 (by decide)
  refine (h.1 _).mpr ⟨3, rfl, ⟨by decide, by decide, by decide +kernel⟩, ?_⟩
  rintro splits ⟨hmin, -, hfeasible⟩
  by_contra hlt
  obtain rfl : splits = 2 := by
    change 2 ≤ splits at hmin
    omega
  exact absurd hfeasible (by decide +kernel)

/-- A group for each sample. -/
def capacityGroups : BTreeMap SampleId GroupId :=
  .collect (capacitySamples.map fun s => (s, ⟨s.value, s.valid⟩))

/-- Three parts of the groups leave every scope its rows, and the search fails. -/
theorem grouped_capacity_refused :
    (∃ e, resolveCapacityKfold plainExternals.sha256 twoToFour (capacityFolds capacityGroups)
      (baseAtLeast 2) = .error e) ∧
    FeasibleSplit plainExternals.sha256 (.groupKFold ⟨3⟩) (capacityFolds capacityGroups)
      (baseAtLeast 2) := by
  refine ⟨(resolveCapacityKfold_least _ _ _ _).1 ?_, ?_⟩
  · decide +kernel
  · decide +kernel

end DagMl
