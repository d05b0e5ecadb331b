import Mathlib
import DagMl.Lib.Collections
import DagMl.Policy
import DagMl.Selection.Comparator

/-!
# Selecting a candidate

`select_candidate` scores the candidates one by one, sorts them with
`compareScores` and reads the requested rank. Sorting is the documented
`sort_by`, so `Selects` is a relation; `orderFree_iff_not_crossing` says for which
lists its outcome does not depend on the order of the candidates.
-/

namespace DagMl

open Checked Sorting

structure SelectionMetric where
  name : String
  objective : MetricObjective
  deriving DecidableEq

def SelectionMetric.validate (self : SelectionMetric) : Result Unit :=
  refuseIf (isBlank self.name) (.campaignValidation "selection metric name is empty")

structure CandidateScore where
  candidateId : String
  metrics : BTreeMap String Binary64
  metadata : BTreeMap String JsonValue

def CandidateScore.validate (self : CandidateScore) : Result Unit := do
  refuseIf (isBlank self.candidateId) (.campaignValidation "candidate id is empty")
  each self.metrics.toList fun (name, value) => do
    refuseIf (isBlank name)
      (.campaignValidation s!"candidate `{self.candidateId}` has an empty metric name")
    refuseIf value.isNan
      (.campaignValidation s!"candidate `{self.candidateId}` metric `{name}` is NaN")

inductive EvaluationScope
  | oof
  | holdout
  | final
  | train
  | refit
  deriving DecidableEq

inductive RefitStrategy
  | refitOne
  | refitEnsemble
  deriving DecidableEq

structure RefitSlotPlan where
  strategy : RefitStrategy
  selectionLevel : PredictionLevel
  memberCount : Nat
  selectionMetric : SelectionMetric
  reductionId : Option String
  deriving DecidableEq

def validateOptionalId (label : String) (value : Option String) : Result Unit :=
  refuseIf (value.any isBlank) (.campaignValidation s!"{label} must not be empty")

def RefitSlotPlan.validate (self : RefitSlotPlan) : Result Unit := do
  self.selectionMetric.validate
  refuseIf (self.memberCount = 0)
    (.campaignValidation "refit slot member_count must be positive")
  refuseIf (self.strategy = .refitOne ∧ self.memberCount ≠ 1)
    (.campaignValidation "refit_one slot requires member_count=1")
  refuseIf (self.strategy = .refitEnsemble ∧ self.memberCount < 2)
    (.campaignValidation "refit_ensemble slot requires member_count>=2")
  validateOptionalId "refit slot reduction_id" self.reductionId

inductive MetaRowDomain
  | sample
  | combo
  deriving DecidableEq

inductive SelectionProtocol
  | nested
  | holdout
  | reuseOof
  deriving DecidableEq

structure StackingFitContract where
  selectionProtocol : SelectionProtocol
  metaRowDomain : MetaRowDomain
  finalReductionId : Option String
  unsafeAllowReuseOof : Bool
  deriving DecidableEq

def StackingFitContract.validate (self : StackingFitContract) : Result Unit := do
  refuseIf (self.selectionProtocol = .reuseOof ∧ !self.unsafeAllowReuseOof) (.campaignValidation
    "reuse_oof stacking selection requires unsafe_allow_reuse_oof=true")
  refuseIf (self.metaRowDomain = .combo ∧ self.finalReductionId = none)
    (.campaignValidation "combo meta_row_domain requires final_reduction_id")
  validateOptionalId "stacking final_reduction_id" self.finalReductionId

structure SelectionPolicy where
  id : String
  metric : SelectionMetric
  requiredMetricLevel : Option PredictionLevel
  requireFinite : Bool
  evaluationScope : Option EvaluationScope
  refitSlotPlan : Option RefitSlotPlan
  requestedRank : Option Nat
  stackingFitContract : Option StackingFitContract
  reductionId : Option String

def SelectionPolicy.validate (self : SelectionPolicy) : Result Unit := do
  refuseIf (isBlank self.id) (.campaignValidation "selection policy id is empty")
  self.metric.validate
  refuseIf (self.requestedRank = some 0)
    (.campaignValidation "selection requested_rank must be positive")
  whenSome self.refitSlotPlan RefitSlotPlan.validate
  whenSome self.stackingFitContract StackingFitContract.validate
  validateOptionalId "selection policy reduction_id" self.reductionId

structure RankedCandidate where
  candidateId : String
  score : Binary64
  rank : Nat
  deriving DecidableEq

structure SelectionDecision where
  policyId : String
  selectedCandidateId : String
  metricName : String
  objective : MetricObjective
  metricLevel : Option PredictionLevel
  evaluationScope : Option EvaluationScope
  refitSlotPlan : Option RefitSlotPlan
  requestedRank : Option Nat
  reductionId : Option String
  selectedScore : Binary64
  rankedCandidates : List RankedCandidate
  deriving DecidableEq

/-- The candidate at the requested rank, which counts from one. -/
def SelectionDecision.atRequestedRank (self : SelectionDecision) : Option RankedCandidate :=
  match self.requestedRank.getD 1 with
  | 0 => none
  | rank + 1 => self.rankedCandidates[rank]?

def SelectionDecision.validateRanked (self : SelectionDecision) (seen : Finset String)
    (entry : RankedCandidate × Nat) : Result (Finset String) := do
  let (candidate, idx) := entry
  refuseIf (candidate.rank ≠ idx + 1) (.campaignValidation
    s!"selection `{self.policyId}` candidate `{candidate.candidateId}` has rank {candidate.rank}, expected {idx + 1}")
  refuseIf (candidate.candidateId ∈ seen) (.campaignValidation
    s!"selection `{self.policyId}` contains duplicate candidate `{candidate.candidateId}`")
  pure (insert candidate.candidateId seen)

def SelectionDecision.validate (self : SelectionDecision) : Result Unit := do
  refuseIf (isBlank self.policyId) (.campaignValidation "selection decision policy_id is empty")
  refuseIf (isBlank self.selectedCandidateId)
    (.campaignValidation "selection decision selected_candidate_id is empty")
  refuseIf (isBlank self.metricName)
    (.campaignValidation "selection decision metric_name is empty")
  refuseIf (!self.selectedScore.isFinite)
    (.campaignValidation s!"selection `{self.policyId}` selected score is not finite")
  refuseIf (self.rankedCandidates = [])
    (.campaignValidation s!"selection `{self.policyId}` has no ranked candidates")
  refuseIf (∀ candidate ∈ self.atRequestedRank, candidate.candidateId ≠ self.selectedCandidateId ∨
      !candidate.score.eq self.selectedScore) (.campaignValidation
    s!"selection `{self.policyId}` requested ranked candidate does not match selected candidate and score")
  whenSome self.refitSlotPlan RefitSlotPlan.validate
  validateOptionalId "selection decision reduction_id" self.reductionId
  let _ ← loop self.validateRanked ∅ self.rankedCandidates.zipIdx
  pure ()

-- ---------------------------------------------------------------------------
-- Scoring
-- ---------------------------------------------------------------------------

def parsePredictionLevel : String → Option PredictionLevel
  | "observation" => some .observation
  | "sample" => some .sample
  | "target" => some .target
  | "group" => some .group
  | _ => none

def predictionLevelName : PredictionLevel → String
  | .observation => "observation"
  | .sample => "sample"
  | .target => "target"
  | .group => "group"

def validateCandidateMetricLevel (policy : SelectionPolicy) (candidate : CandidateScore) :
    Result Unit :=
  whenSome policy.requiredMetricLevel fun requiredLevel => do
    let rawLevel ← need candidate.metadata["metric_level"]? (.campaignValidation
      s!"candidate `{candidate.candidateId}` is missing required metric_level `{predictionLevelName requiredLevel}`")
    let value ← need rawLevel.asStr (.campaignValidation
      s!"candidate `{candidate.candidateId}` metric_level must be a string")
    let actualLevel ← need (parsePredictionLevel value) (.campaignValidation
      s!"candidate `{candidate.candidateId}` has invalid metric_level `{value}`")
    refuseIf (actualLevel ≠ requiredLevel) (.campaignValidation
      s!"candidate `{candidate.candidateId}` metric_level `{predictionLevelName actualLevel}` does not match required `{predictionLevelName requiredLevel}`")

/-- The checks of one candidate that look at no other, up to its score. -/
def scoreOf (policy : SelectionPolicy) (candidate : CandidateScore) : Result Binary64 := do
  validateCandidateMetricLevel policy candidate
  let score ← need candidate.metrics[policy.metric.name]? (.campaignValidation
    s!"candidate `{candidate.candidateId}` is missing selection metric `{policy.metric.name}`")
  refuseIf (policy.requireFinite ∧ !score.isFinite) (.campaignValidation
    s!"candidate `{candidate.candidateId}` metric `{policy.metric.name}` is not finite")
  pure score

structure ScoringProgress where
  seen : Finset String
  scored : List (String × Binary64)

def scoreCandidate (policy : SelectionPolicy) (progress : ScoringProgress)
    (candidate : CandidateScore) : Result ScoringProgress := do
  candidate.validate
  refuseIf (candidate.candidateId ∈ progress.seen) (.campaignValidation
    s!"selection policy `{policy.id}` has duplicate candidate `{candidate.candidateId}`")
  let score ← scoreOf policy candidate
  pure {
    seen := insert candidate.candidateId progress.seen
    scored := progress.scored ++ [(candidate.candidateId, score)] }

/-- `select_candidate` before the sort. -/
def scoreCandidates (policy : SelectionPolicy) (candidates : List CandidateScore) :
    Result (List (String × Binary64)) := do
  policy.validate
  refuseIf (candidates = [])
    (.campaignValidation s!"selection policy `{policy.id}` has no candidates")
  let progress ← loop (scoreCandidate policy) ⟨∅, []⟩ candidates
  pure progress.scored

/-- `select_candidate` after the sort. -/
def rankCandidates (policy : SelectionPolicy) (sorted : List (String × Binary64)) :
    Result SelectionDecision := do
  let rankedCandidates := sorted.mapIdx fun idx entry =>
    { candidateId := entry.1, score := entry.2, rank := idx + 1 : RankedCandidate }
  let rank := policy.requestedRank.getD 1
  let selected ← need rankedCandidates[rank - 1]? (.campaignValidation
    s!"selection requested_rank {rank} exceeds {rankedCandidates.length} scored candidates")
  let decision : SelectionDecision := {
    policyId := policy.id
    selectedCandidateId := selected.candidateId
    metricName := policy.metric.name
    objective := policy.metric.objective
    metricLevel := policy.requiredMetricLevel
    evaluationScope := policy.evaluationScope
    refitSlotPlan := policy.refitSlotPlan
    requestedRank := policy.requestedRank
    reductionId := policy.reductionId
    selectedScore := selected.score
    rankedCandidates }
  decision.validate
  pure decision

/-- The outcomes of `select_candidate(policy, candidates)`. -/
inductive Selects (policy : SelectionPolicy) (candidates : List CandidateScore) :
    Result SelectionDecision → Prop
  | refused (h : scoreCandidates policy candidates = .error e) :
    Selects policy candidates (.error e)
  | ranked (h : scoreCandidates policy candidates = .ok scored)
      (hs : SortBy (.panicked "user-provided comparison function does not correctly implement a total order")
        (compareScores policy.metric.objective) scored sorted) :
    Selects policy candidates (sorted >>= rankCandidates policy)

theorem exists_selects (policy : SelectionPolicy) (candidates : List CandidateScore) :
    ∃ r, Selects policy candidates r := by
  cases h : scoreCandidates policy candidates with
  | error e => exact ⟨_, .refused h⟩
  | ok scored =>
    by_cases ht : TotalOn (compareScores policy.metric.objective) scored
    · exact ⟨_, .ranked h (.sorted ht)⟩
    · exact ⟨_, .ranked h (.panic ht)⟩

-- ---------------------------------------------------------------------------
-- Scoring does not look at the order
-- ---------------------------------------------------------------------------

variable {policy : SelectionPolicy} {candidates candidates' : List CandidateScore}
  {scored scored' sorted : List (String × Binary64)}

/-- A candidate that passes its own checks, with what is kept of it. -/
def Scored (policy : SelectionPolicy) (candidate : CandidateScore) (entry : String × Binary64) :
    Prop :=
  candidate.validate = .ok () ∧ scoreOf policy candidate = .ok entry.2 ∧
    entry.1 = candidate.candidateId

theorem scoreCandidate_ok {progress : ScoringProgress} :
    scoreCandidate policy progress c = .ok progress' ↔ c.candidateId ∉ progress.seen ∧
      ∃ entry, Scored policy c entry ∧
        progress' = ⟨insert c.candidateId progress.seen, progress.scored ++ [entry]⟩ := by
  simp only [scoreCandidate, bind_ok, refuseIf_ok, pure_ok, Scored]
  constructor
  · rintro ⟨_, hv, _, hnew, score, hs, rfl⟩
    exact ⟨hnew, (c.candidateId, score), ⟨hv, hs, rfl⟩, rfl⟩
  · rintro ⟨hnew, ⟨_, score⟩, ⟨hv, hs, rfl⟩, rfl⟩
    exact ⟨(), hv, (), hnew, score, hs, rfl⟩

theorem scoreCandidate_loop (policy : SelectionPolicy) (candidates : List CandidateScore)
    (scored : List (String × Binary64)) (progress : ScoringProgress) :
    (∃ seen, loop (scoreCandidate policy) progress candidates = .ok ⟨seen, scored⟩) ↔
      (candidates.map (·.candidateId)).Nodup ∧
      (∀ c ∈ candidates, c.candidateId ∉ progress.seen) ∧
      ∃ entries, List.Forall₂ (Scored policy) candidates entries ∧
        scored = progress.scored ++ entries := by
  induction candidates generalizing progress with
  | nil =>
    obtain ⟨seen, acc⟩ := progress
    simp [eq_comm]
  | cons c cs ih =>
    simp only [loop_cons, scoreCandidate_ok, List.map_cons, List.nodup_cons, List.forall_mem_cons,
      List.forall₂_cons_left_iff]
    constructor
    · rintro ⟨seen, _, ⟨hnew, entry, hentry, rfl⟩, hrest⟩
      obtain ⟨hn, hfresh, entries, hentries, rfl⟩ := (ih _).mp ⟨seen, hrest⟩
      refine ⟨⟨fun hm => ?_, hn⟩, ⟨hnew, fun d hd hds => ?_⟩, entry :: entries,
        ⟨entry, entries, hentry, hentries, rfl⟩, by simp⟩
      · obtain ⟨d, hd, he⟩ := List.mem_map.mp hm
        exact hfresh d hd (he ▸ Finset.mem_insert_self _ _)
      · exact hfresh d hd (Finset.mem_insert_of_mem hds)
    · rintro ⟨⟨hcn, hn⟩, ⟨hnew, hfresh⟩, _, ⟨entry, entries, hentry, hentries, rfl⟩, rfl⟩
      obtain ⟨seen, hrest⟩ := (ih
          ⟨insert c.candidateId progress.seen, progress.scored ++ [entry]⟩).mpr ⟨hn, fun d hd hds => by
        rcases Finset.mem_insert.mp hds with he | hds
        · exact hcn (List.mem_map.mpr ⟨d, hd, he⟩)
        · exact hfresh d hd hds, entries, hentries, by simp⟩
      exact ⟨seen, _, ⟨hnew, entry, hentry, rfl⟩, hrest⟩

theorem scoreCandidates_ok : scoreCandidates policy candidates = .ok scored ↔
    policy.validate = .ok () ∧ candidates ≠ [] ∧ (candidates.map (·.candidateId)).Nodup ∧
      List.Forall₂ (Scored policy) candidates scored := by
  have hloop := scoreCandidate_loop policy candidates scored ⟨∅, []⟩
  simp only [Finset.notMem_empty, not_false_eq_true, implies_true, true_and, List.nil_append,
    exists_eq_right'] at hloop
  simp only [scoreCandidates, bind_ok, refuseIf_ok, pure_ok]
  constructor
  · rintro ⟨_, hp, _, hne, ⟨seen, _⟩, hrun, rfl⟩
    exact ⟨hp, hne, hloop.mp ⟨seen, hrun⟩⟩
  · rintro ⟨hp, hne, h⟩
    obtain ⟨seen, hrun⟩ := hloop.mpr h
    exact ⟨(), hp, (), hne, _, hrun, rfl⟩

/-- What the checks before the sort ask for. -/
structure Scorable (policy : SelectionPolicy) (candidates : List CandidateScore) : Prop where
  policy_valid : policy.validate = .ok ()
  nonempty : candidates ≠ []
  nodup : (candidates.map (·.candidateId)).Nodup
  candidates_valid : ∀ c ∈ candidates, c.validate = .ok () ∧ ∃ score, scoreOf policy c = .ok score

/-- The ids with their values of the selection metric. -/
def entries (policy : SelectionPolicy) (candidates : List CandidateScore) :
    List (String × Binary64) :=
  candidates.filterMap fun c => c.metrics[policy.metric.name]?.map (c.candidateId, ·)

theorem metric_of_scoreOf (h : scoreOf policy c = .ok score) :
    c.metrics[policy.metric.name]? = some score := by
  simp only [scoreOf, bind_ok, need_ok, pure_ok] at h
  obtain ⟨_, -, _, hs, _, -, rfl⟩ := h
  exact hs

theorem scored_iff : List.Forall₂ (Scored policy) candidates scored ↔
    (∀ c ∈ candidates, c.validate = .ok () ∧ ∃ score, scoreOf policy c = .ok score) ∧
      scored = entries policy candidates := by
  induction candidates generalizing scored with
  | nil => simp [entries]
  | cons c cs ih =>
    rw [List.forall₂_cons_left_iff, List.forall_mem_cons]
    constructor
    · rintro ⟨⟨_, score⟩, rest, ⟨hv, hs, rfl⟩, hrest, rfl⟩
      obtain ⟨hcs, rfl⟩ := ih.mp hrest
      refine ⟨⟨⟨hv, score, hs⟩, hcs⟩, ?_⟩
      simp [entries, metric_of_scoreOf hs]
    · rintro ⟨⟨⟨hv, score, hs⟩, hcs⟩, rfl⟩
      refine ⟨(c.candidateId, score), _, ⟨hv, hs, rfl⟩, ih.mpr ⟨hcs, rfl⟩, ?_⟩
      simp [entries, metric_of_scoreOf hs]

theorem scoreCandidates_iff : scoreCandidates policy candidates = .ok scored ↔
    Scorable policy candidates ∧ scored = entries policy candidates := by
  rw [scoreCandidates_ok, scored_iff]
  exact ⟨fun ⟨hp, hne, hn, hc, he⟩ => ⟨⟨hp, hne, hn, hc⟩, he⟩,
    fun ⟨h, he⟩ => ⟨h.policy_valid, h.nonempty, h.nodup, h.candidates_valid, he⟩⟩

theorem scoreCandidates_perm (hp : candidates'.Perm candidates)
    (h : scoreCandidates policy candidates = .ok scored) :
    ∃ scored', scoreCandidates policy candidates' = .ok scored' ∧ scored'.Perm scored := by
  obtain ⟨hv, hne, hn, hscored⟩ := scoreCandidates_ok.mp h
  obtain ⟨scored', hscored', hperm⟩ := List.perm_comp_forall₂ hp hscored
  refine ⟨scored', scoreCandidates_ok.mpr ⟨hv, ?_, (hp.map _).nodup_iff.mpr hn, hscored'⟩, hperm⟩
  intro hnil
  exact hne (hp.symm.trans (hnil ▸ List.Perm.refl _)).eq_nil

/-- What scoring leaves for the decision to rely on. -/
structure Rankable (policy : SelectionPolicy) (scored : List (String × Binary64)) : Prop where
  policy_valid : policy.validate = .ok ()
  nodup : (scored.map Prod.fst).Nodup
  ids : ∀ p ∈ scored, isBlank p.1 = false

theorem Scored.map_fst (h : List.Forall₂ (Scored policy) candidates scored) :
    scored.map Prod.fst = candidates.map (·.candidateId) := by
  induction h with
  | nil => rfl
  | cons hentry _ ih => rw [List.map_cons, List.map_cons, ih, hentry.2.2]

theorem rankable_of_scored (h : scoreCandidates policy candidates = .ok scored) :
    Rankable policy scored := by
  obtain ⟨hv, -, hn, hscored⟩ := scoreCandidates_ok.mp h
  refine ⟨hv, Scored.map_fst hscored ▸ hn, fun p hp => ?_⟩
  obtain ⟨i, hi⟩ := List.getElem?_of_mem hp
  obtain ⟨c, hc, hentry⟩ : ∃ c, candidates[i]? = some c ∧ Scored policy c p := by
    obtain ⟨hlt, rfl⟩ := List.getElem?_eq_some_iff.mp hi
    have hlen := hscored.length_eq
    exact ⟨_, List.getElem?_eq_getElem (by omega), hscored.get (by omega) hlt⟩
  have hblank := hentry.1
  simp only [CandidateScore.validate, bind_ok, refuseIf_ok] at hblank
  obtain ⟨_, hblank, -⟩ := hblank
  rw [hentry.2.2]
  simpa using hblank

theorem Rankable.perm (h : Rankable policy scored) (hp : scored'.Perm scored) :
    Rankable policy scored' where
  policy_valid := h.policy_valid
  nodup := (hp.map _).nodup_iff.mpr h.nodup
  ids p hm := h.ids p (hp.mem_iff.mp hm)

-- ---------------------------------------------------------------------------
-- Ranking
-- ---------------------------------------------------------------------------

/-- The requested rank as an index. -/
def SelectionPolicy.rankIndex (self : SelectionPolicy) : Nat := self.requestedRank.getD 1 - 1

/-- The fields a decision takes over from its policy pass their checks. -/
theorem SelectionPolicy.validate_parts (h : policy.validate = .ok ()) :
    isBlank policy.id = false ∧ isBlank policy.metric.name = false ∧
      policy.requestedRank ≠ some 0 ∧
      (∀ plan, policy.refitSlotPlan = some plan → plan.validate = .ok ()) ∧
      policy.reductionId.any isBlank = false := by
  simp only [SelectionPolicy.validate, SelectionMetric.validate, validateOptionalId, bind_ok,
    refuseIf_ok, whenSome_ok, Bool.not_eq_true] at h
  obtain ⟨_, hid, _, hname, _, hrank, _, hplan, _, -, hreduction⟩ := h
  exact ⟨hid, hname, hrank, hplan, hreduction⟩

theorem SelectionDecision.atRequestedRank_eq {decision : SelectionDecision}
    (h : decision.requestedRank ≠ some 0) :
    decision.atRequestedRank = decision.rankedCandidates[decision.requestedRank.getD 1 - 1]? := by
  unfold SelectionDecision.atRequestedRank
  split
  · rename_i h0
    cases hr : decision.requestedRank with
    | none => simp [hr] at h0
    | some k => simp_all
  · rename_i rank hr
    rw [hr]
    rfl

theorem validateRanked_loop {decision : SelectionDecision} (n : Nat) (seen : Finset String)
    (hn : (sorted.map Prod.fst).Nodup) (hs : ∀ p ∈ sorted, p.1 ∉ seen) :
    ∃ seen', loop decision.validateRanked seen ((sorted.mapIdx fun idx p =>
      (⟨p.1, p.2, idx + n + 1⟩ : RankedCandidate)).zipIdx n) = .ok seen' := by
  induction sorted generalizing seen n with
  | nil => exact ⟨seen, rfl⟩
  | cons p ps ih =>
    rw [List.map_cons, List.nodup_cons] at hn
    rw [List.forall_mem_cons] at hs
    have hstep : decision.validateRanked seen (⟨p.1, p.2, n + 1⟩, n) = .ok (insert p.1 seen) := by
      simp only [SelectionDecision.validateRanked, bind_ok, refuseIf_ok, pure_ok]
      exact ⟨(), not_not.mpr rfl, (), hs.1, trivial⟩
    obtain ⟨seen', hrest⟩ := ih (n + 1) (insert p.1 seen) hn.2 (by
      intro q hq hqs
      rcases Finset.mem_insert.mp hqs with he | hqs
      · exact hn.1 (List.mem_map.mpr ⟨q, hq, he⟩)
      · exact hs.2 q hq hqs)
    refine ⟨seen', ?_⟩
    rw [List.mapIdx_cons, List.zipIdx_cons, Nat.zero_add, loop_cons]
    refine ⟨_, hstep, ?_⟩
    have hshift (idx : Nat) : idx + 1 + n + 1 = idx + (n + 1) + 1 := by omega
    simpa only [hshift] using hrest

/-- The decision succeeds when the requested rank exists and holds a finite
score. -/
theorem rankCandidates_exists (h : Rankable policy sorted) :
    (∃ decision, rankCandidates policy sorted = .ok decision) ↔
      ∃ p, sorted[policy.rankIndex]? = some p ∧ p.2.isFinite = true := by
  obtain ⟨hid, hname, hrank, hplan, hreduction⟩ := policy.validate_parts h.policy_valid
  simp only [rankCandidates, bind_ok, need_ok, pure_ok, List.getElem?_mapIdx,
    Option.map_eq_some_iff, SelectionDecision.validate, refuseIf_ok]
  constructor
  · rintro ⟨_, _, ⟨p, hp, rfl⟩, _, ⟨_, -, _, -, _, -, _, hfinite, -⟩, -⟩
    exact ⟨p, hp, by simpa using hfinite⟩
  · rintro ⟨p, hp, hfinite⟩
    have hmem := List.mem_of_getElem? hp
    have hne : sorted ≠ [] := List.ne_nil_of_mem hmem
    obtain ⟨seen, hloop⟩ := validateRanked_loop 0 ∅ h.nodup (by simp)
    refine ⟨_, _, ⟨p, hp, rfl⟩, (), ⟨(), ?_, (), ?_, (), ?_, (), ?_, (), ?_, (), ?_, (), ?_, (), ?_,
      seen, hloop, trivial⟩, rfl⟩
    · simp [hid]
    · simp [h.ids p hmem]
    · simp [hname]
    · simp [hfinite]
    · simpa using hne
    · rw [SelectionDecision.atRequestedRank_eq (by exact hrank)]
      intro hmismatch
      have hself := hmismatch ⟨p.1, p.2, policy.rankIndex + 1⟩ (by simp [SelectionPolicy.rankIndex] at hp ⊢; simp [hp])
      simp [Binary64.eq_self_of_isFinite hfinite] at hself
    · exact whenSome_ok.mpr hplan
    · simp [validateOptionalId, refuseIf_ok, hreduction]

-- ---------------------------------------------------------------------------
-- Order of the candidates
-- ---------------------------------------------------------------------------

/-- Every order of the candidates has the same outcome. -/
def CandidateOrderFree (policy : SelectionPolicy) (candidates : List CandidateScore) : Prop :=
  ∀ l, l.Perm candidates → ∀ l', l'.Perm candidates →
    ∀ r, Selects policy l r → ∀ r', Selects policy l' r' → Agree r r'

/-- The list is refused whatever the sort does: the requested rank is beyond
its end, or no score is finite. -/
def Hopeless (policy : SelectionPolicy) (scored : List (String × Binary64)) : Prop :=
  scored.length ≤ policy.rankIndex ∨ ∀ p ∈ scored, p.2.isFinite = false

theorem rankCandidates_of_hopeless (hr : Rankable policy scored) (h : Hopeless policy scored)
    (hp : sorted.Perm scored) : ∃ e, rankCandidates policy sorted = .error e := by
  cases hrun : rankCandidates policy sorted with
  | error e => exact ⟨e, rfl⟩
  | ok decision =>
    obtain ⟨p, hget, hfinite⟩ := (rankCandidates_exists (hr.perm hp)).mp ⟨decision, hrun⟩
    rcases h with hlen | hinf
    · obtain ⟨hlt, -⟩ := List.getElem?_eq_some_iff.mp hget
      rw [hp.length_eq] at hlt
      omega
    · rw [hinf p (hp.mem_iff.mp (List.mem_of_getElem? hget))] at hfinite
      cases hfinite

/-- Otherwise some order of the entries has a decision. -/
theorem exists_rankCandidates (hr : Rankable policy scored) (h : ¬Hopeless policy scored) :
    ∃ sorted decision, sorted.Perm scored ∧ rankCandidates policy sorted = .ok decision := by
  simp only [Hopeless, not_or, not_le, not_forall, Bool.not_eq_false] at h
  obtain ⟨hlen, p, hp, hfinite⟩ := h
  have hperm : ((scored.erase p).insertIdx policy.rankIndex p).Perm scored := by
    refine (List.perm_insertIdx p (scored.erase p) ?_).trans (List.perm_cons_erase hp).symm
    rw [List.length_erase_of_mem hp]
    omega
  have hget : ((scored.erase p).insertIdx policy.rankIndex p)[policy.rankIndex]? = some p := by
    rw [List.getElem?_insertIdx_self, if_pos]
    rw [List.length_erase_of_mem hp]
    omega
  obtain ⟨decision, hrun⟩ := (rankCandidates_exists (hr.perm hperm)).mpr ⟨p, hget, hfinite⟩
  exact ⟨_, decision, hperm, hrun⟩

/-- Every outcome agrees with that of one listing, sorted. -/
theorem Selects.agree (hl : l.Perm candidates) (hs : Selects policy l r)
    (h : ∀ scored, scoreCandidates policy candidates = .ok scored →
      ¬Crossing scored ∨ Hopeless policy scored) :
    Agree r (scoreCandidates policy candidates >>= fun scored => rankCandidates policy
      (scored.insertionSort (NotAfter (compareScores policy.metric.objective)))) := by
  cases hs with
  | @refused e hrefused =>
    cases hscored : scoreCandidates policy candidates with
    | error e' => exact agree_of_errors ⟨e, rfl⟩ ⟨e', rfl⟩
    | ok scored =>
      obtain ⟨scored', hscored', -⟩ := scoreCandidates_perm hl hscored
      cases hrefused.symm.trans hscored'
  | @ranked scored' sorted hscored' hs =>
    obtain ⟨scored, hscored, hperm⟩ := scoreCandidates_perm hl.symm hscored'
    rw [hscored]
    rcases h scored hscored with hcross | hhope
    · have htotal : TotalOn (compareScores policy.metric.objective) scored :=
        totalOn_iff.mpr hcross
      rw [hs.of_total (htotal.perm hperm.symm),
        htotal.insertionSort_perm (fun a _ b _ => compareScores_eq.mp) hperm.symm]
      exact Agree.rfl
    · have hr := rankable_of_scored hscored
      refine agree_of_errors ?_ (rankCandidates_of_hopeless hr hhope (List.perm_insertionSort _ _))
      cases sorted with
      | error e => exact ⟨e, rfl⟩
      | ok out => exact rankCandidates_of_hopeless hr hhope (hs.perm.trans hperm.symm)

/-- Selection does not depend on the order of its candidates exactly when the
list is refused anyway or no three of its scored candidates cross; and it is
crossing alone that keeps the comparator from being a total order. -/
theorem orderFree_iff_not_crossing (policy : SelectionPolicy) (candidates : List CandidateScore) :
    (∀ objective scored, TotalOn (compareScores objective) scored ↔ ¬Crossing scored) ∧
    (CandidateOrderFree policy candidates ↔
      (Scorable policy candidates →
        ¬Crossing (entries policy candidates) ∨ Hopeless policy (entries policy candidates))) := by
  refine ⟨fun _ _ => totalOn_iff, fun h hs => ?_, fun h => ?_⟩
  · have hscored := scoreCandidates_iff.mpr ⟨hs, rfl⟩
    by_contra hno
    rw [not_or, not_not] at hno
    obtain ⟨hcross, hhope⟩ := hno
    obtain ⟨sorted, decision, hperm, hrun⟩ :=
      exists_rankCandidates (rankable_of_scored hscored) hhope
    have hnot : ¬TotalOn (compareScores policy.metric.objective) (entries policy candidates) :=
      fun ht => totalOn_iff.mp ht hcross
    have hok : Selects policy candidates (.ok sorted >>= rankCandidates policy) :=
      .ranked hscored (.unspecified hnot hperm)
    have herror := Selects.ranked hscored (.panic hnot)
    have hagree := h candidates (.refl _) candidates (.refl _) _ hok _ herror
    have hvalue : (.ok sorted >>= rankCandidates policy) = .ok decision := hrun
    rw [hvalue] at hagree
    exact hagree
  · have hall (scored : List (String × Binary64))
        (hscored : scoreCandidates policy candidates = .ok scored) :
        ¬Crossing scored ∨ Hopeless policy scored := by
      obtain ⟨hs, rfl⟩ := scoreCandidates_iff.mp hscored
      exact h hs
    intro l hl l' hl' r hs r' hs'
    exact (hs.agree hl hall).trans (hs'.agree hl' hall).symm

def rmsePolicy : SelectionPolicy where
  id := "select:rmse"
  metric := ⟨"rmse", .minimize⟩
  requiredMetricLevel := none
  requireFinite := true
  evaluationScope := none
  refitSlotPlan := none
  requestedRank := none
  stackingFitContract := none
  reductionId := none

/-- A candidate with the score zero. -/
def tiedCandidate (id : String) : CandidateScore where
  candidateId := id
  metrics := (∅ : BTreeMap String Binary64).insert "rmse" .zero
  metadata := ∅

/-- Two trials and an id that is not a trial between them, all with one score. -/
def crossingCandidates : List CandidateScore :=
  [tiedCandidate "hpo:trial:9", tiedCandidate "hpo:trial:10", tiedCandidate "hpo:trial:5x"]

/-- The comparator runs in a circle on them, and selection depends on their order. -/
theorem crossing_order_matters :
    compareScores .minimize ("hpo:trial:9", .zero) ("hpo:trial:10", .zero) = .lt ∧
      compareScores .minimize ("hpo:trial:10", .zero) ("hpo:trial:5x", .zero) = .lt ∧
      compareScores .minimize ("hpo:trial:5x", .zero) ("hpo:trial:9", .zero) = .lt ∧
      rmsePolicy.validate = .ok () ∧ ¬CandidateOrderFree rmsePolicy crossingCandidates := by
  refine ⟨by decide, by decide, by decide, by decide, fun h => ?_⟩
  have hscored : scoreCandidates rmsePolicy crossingCandidates = .ok
      [("hpo:trial:9", .zero), ("hpo:trial:10", .zero), ("hpo:trial:5x", .zero)] := by decide
  have hnot : ¬TotalOn (compareScores .minimize)
      [("hpo:trial:9", .zero), ("hpo:trial:10", .zero), ("hpo:trial:5x", .zero)] := by
    intro ht
    have hlt := ht.lt_trans _ (.head _) _ (.tail _ (.head _)) _ (.tail _ (.tail _ (.head _)))
      (by decide) (by decide)
    exact absurd hlt (by decide)
  have hok := Selects.ranked hscored (.unspecified hnot (.refl _))
  have hpanic := Selects.ranked hscored (.panic hnot)
  have hagree := h _ (.refl _) _ (.refl _) _ hok _ hpanic
  have hdecides : (rankCandidates rmsePolicy
      [("hpo:trial:9", .zero), ("hpo:trial:10", .zero), ("hpo:trial:5x", .zero)]).isOk = true := by
    decide
  cases hrun : rankCandidates rmsePolicy
      [("hpo:trial:9", .zero), ("hpo:trial:10", .zero), ("hpo:trial:5x", .zero)] with
  | error e =>
    rw [hrun] at hdecides
    cases hdecides
  | ok decision =>
    have hagree := agree_iff.mp hagree decision
    cases hagree.mp hrun

end DagMl
