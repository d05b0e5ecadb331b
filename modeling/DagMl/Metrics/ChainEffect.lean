import DagMl.Lib.Index
import DagMl.Metrics.PercentileRanks
import DagMl.Selection.Select

/-!
# Chain-effect analysis

Executed chains with one score each, projected to a goodness that is higher
for a better chain. Statistics are exact, so no goodness is ever non-finite
and the checks for that have no counterpart here.
-/

namespace DagMl

open Checked Ranking

inductive ChainStepRole
  | split
  | preprocess
  | feature
  | model
  | augmentation
  | target
  | other
  deriving DecidableEq

inductive ChainEffectLens
  | raw
  | rankByDataset
  | zByDataset
  deriving DecidableEq

def ChainEffectLens.asWire : ChainEffectLens → String
  | .raw => "raw"
  | .rankByDataset => "rank_by_dataset"
  | .zByDataset => "z_by_dataset"

def ChainEffectLens.requiresDataset : ChainEffectLens → Bool
  | .raw => false
  | .rankByDataset | .zByDataset => true

structure ChainEffectMetric where
  key : String
  label : String
  lowerIsBetter : Bool
  deriving DecidableEq

structure ChainEffectStep where
  token : String
  label : Option String
  role : ChainStepRole
  deriving DecidableEq

structure ChainObservation where
  id : String
  steps : List ChainEffectStep
  score : Binary64
  dataset : Option String
  source : Option String
  evaluationScope : Option EvaluationScope
  deriving DecidableEq

structure ChainEffectPoint (K : Type) where
  id : String
  score : Binary64
  goodness : K
  dataset : Option String
  source : Option String
  orderedTokens : List ChainEffectStep
  deriving DecidableEq

structure ChainEffectAnalysis (K : Type) where
  schemaId : String
  schemaVersion : Nat
  metric : ChainEffectMetric
  lens : ChainEffectLens
  baseline : K
  evaluationScope : Option EvaluationScope
  points : List (ChainEffectPoint K)
  deriving DecidableEq

def chainEffectSchemaId : String :=
  "https://github.com/GBeurier/dag-ml/schemas/chain_effect_analysis.v1.schema.json"

def chainEffectSchemaVersion : Nat := 1

def requireNonEmpty (label value : String) : Result Unit :=
  refuseIf (isBlank value) (.runtimeValidation s!"{label} is empty")

def ChainEffectMetric.validate (self : ChainEffectMetric) : Result Unit := do
  requireNonEmpty "chain effect metric key" self.key
  requireNonEmpty "chain effect metric label" self.label

def ChainEffectStep.validate (self : ChainEffectStep) (ctx : String) : Result Unit := do
  requireNonEmpty s!"{ctx} token" self.token
  whenSome self.label fun label => requireNonEmpty s!"{ctx} label" label

/-- Orient a score so that higher is better. -/
def orient (score : Binary64) (lowerIsBetter : Bool) : Binary64 :=
  if lowerIsBetter then score.negate else score

-- ---------------------------------------------------------------------------
-- Goodness
-- ---------------------------------------------------------------------------

section Analysis

variable {K : Type} [Field K]

/-- The scores of each dataset, normalised among themselves. -/
def byDataset (normalize : List Binary64 → List K) (lower : Bool)
    (observations : List ChainObservation) : List K :=
  let groups := BTreeMap.groupBy (fun e : ChainObservation × Nat => e.1.dataset.getD "")
    observations.zipIdx
  groups.values.foldl (fun goodness group =>
    let values := group.map fun e => orient e.1.score lower
    writeSlots goodness ((group.zip (normalize values)).map fun (e, value) => (e.2, value)))
    (List.replicate observations.length 0)

variable [LinearOrder K]

def goodness (sqrt : K → K) (lens : ChainEffectLens) (lower : Bool)
    (observations : List ChainObservation) : List K :=
  match lens with
  | .raw => observations.map fun obs => (orient obs.score lower).exact
  | .rankByDataset => byDataset percentileRanks lower observations
  | .zByDataset => byDataset (zScores sqrt) lower observations

-- ---------------------------------------------------------------------------
-- The artifact
-- ---------------------------------------------------------------------------

/-- `1e-9`, the tolerance of the checks below. -/
def rankEps : K := 1 / 10 ^ 9

def approxEq (a b : K) : Prop := |a - b| ≤ rankEps * (1 + max |a| |b|)

instance (a b : K) : Decidable (approxEq a b) := inferInstanceAs (Decidable (_ ≤ _))

def ChainEffectPoint.validate (seen : Finset String) (point : ChainEffectPoint K) :
    Result (Finset String) := do
  requireNonEmpty "chain effect point id" point.id
  refuseIf (point.id ∈ seen)
    (.runtimeValidation s!"duplicate chain effect point id `{point.id}`")
  refuseIf (point.score.isFinite = false) (.runtimeValidation
    s!"chain effect point `{point.id}` has a non-finite score or goodness")
  refuseIf (point.orderedTokens = [])
    (.runtimeValidation s!"chain effect point `{point.id}` has no ordered tokens")
  each point.orderedTokens (·.validate s!"chain effect point `{point.id}` token")
  whenSome point.dataset (requireNonEmpty s!"chain effect point `{point.id}` dataset")
  whenSome point.source (requireNonEmpty s!"chain effect point `{point.id}` source")
  pure (insert point.id seen)

namespace ChainEffectAnalysis

def validateGoodness (self : ChainEffectAnalysis K) : Result Unit :=
  match self.lens with
  | .raw => each self.points fun point =>
    refuseIf (¬approxEq point.goodness (orient point.score self.metric.lowerIsBetter).exact)
      (.runtimeValidation
        s!"chain effect point `{point.id}` raw goodness disagrees with its oriented score")
  | .rankByDataset => each self.points fun point =>
    refuseIf (point.goodness < -rankEps ∨ 1 + rankEps < point.goodness)
      (.runtimeValidation s!"chain effect point `{point.id}` rank goodness is outside [0, 1]")
  | .zByDataset => .ok ()

def validate (self : ChainEffectAnalysis K) : Result Unit := do
  refuseIf (self.schemaId ≠ chainEffectSchemaId) (.runtimeValidation
    s!"chain effect analysis schema_id `{self.schemaId}` is unexpected (current `{chainEffectSchemaId}`)")
  refuseIf (self.schemaVersion ≠ chainEffectSchemaVersion) (.runtimeValidation
    s!"chain effect analysis schema_version {self.schemaVersion} is unsupported (current {chainEffectSchemaVersion})")
  self.metric.validate
  refuseIf (self.points = []) (.runtimeValidation "chain effect analysis has no points")
  let _ ← loop ChainEffectPoint.validate ∅ self.points
  refuseIf (self.lens.requiresDataset ∧ ∃ point ∈ self.points, point.dataset = none)
    (.runtimeValidation s!"lens `{self.lens.asWire}` requires a dataset id on every point")
  refuseIf (¬∃ recomputed, median (self.points.map (·.goodness)) = some recomputed ∧
      approxEq recomputed self.baseline)
    (.runtimeValidation "chain effect baseline is not the median of goodness")
  self.validateGoodness

/-- One observation; the set holds the ids already seen. -/
def checkObservation (seen : Finset String) (obs : ChainObservation) : Result (Finset String) := do
  requireNonEmpty "chain observation id" obs.id
  refuseIf (obs.id ∈ seen) (.runtimeValidation s!"duplicate chain observation id `{obs.id}`")
  refuseIf (obs.score.isFinite = false)
    (.runtimeValidation s!"chain observation `{obs.id}` has a non-finite score")
  refuseIf (obs.steps = []) (.runtimeValidation s!"chain observation `{obs.id}` has no steps")
  each obs.steps (·.validate s!"chain observation `{obs.id}` step")
  whenSome obs.dataset (requireNonEmpty s!"chain observation `{obs.id}` dataset")
  whenSome obs.source (requireNonEmpty s!"chain observation `{obs.id}` source")
  pure (insert obs.id seen)

def point (obs : ChainObservation) (goodness : K) : ChainEffectPoint K where
  id := obs.id
  score := obs.score
  goodness := goodness
  dataset := obs.dataset
  source := obs.source
  orderedTokens := obs.steps

def fromObservations (sqrt : K → K) (observations : List ChainObservation)
    (metric : ChainEffectMetric) (lens : ChainEffectLens) : Result (ChainEffectAnalysis K) := do
  metric.validate
  refuseIf (observations = [])
    (.runtimeValidation "chain effect analysis requires at least one observation")
  let _ ← loop checkObservation ∅ observations
  -- at most one scope is left, so the order of the set does not matter
  let scopes := (observations.map (·.evaluationScope)).dedup
  refuseIf (1 < scopes.length)
    (.runtimeValidation "chain observations mix different evaluation scopes")
  let evaluationScope := scopes.head?.join
  refuseIf (lens.requiresDataset ∧ ∃ obs ∈ observations, obs.dataset = none) (.runtimeValidation
    s!"lens `{lens.asWire}` requires a dataset id on every observation")
  let goodness := goodness sqrt lens metric.lowerIsBetter observations
  let baseline ← need (median goodness)
    (.runtimeValidation "chain effect baseline is non-finite")
  let analysis : ChainEffectAnalysis K := {
    schemaId := chainEffectSchemaId
    schemaVersion := chainEffectSchemaVersion
    metric, lens, baseline, evaluationScope
    points := (observations.zip goodness).map fun (obs, value) => point obs value }
  analysis.validate
  pure analysis

end ChainEffectAnalysis

-- ---------------------------------------------------------------------------
-- Goodness does not depend on the order
-- ---------------------------------------------------------------------------

/-- The oriented scores of one dataset. -/
def datasetScores (lower : Bool) (observations : List ChainObservation) (dataset : Option String) :
    List Binary64 :=
  (observations.filter fun obs => obs.dataset.getD "" = dataset.getD "").map
    fun obs => orient obs.score lower

def zScore (sqrt : K → K) (values : List Binary64) (v : Binary64) : K :=
  let n := values.length
  let mean : K := (values.map Binary64.exact).sum / n
  let sd := sqrt ((values.map fun v => (v.exact - mean) ^ 2).sum / ((n : K) - 1))
  if n < 2 ∨ sd = 0 then 0 else (v.exact - mean) / sd

theorem zScores_eq (sqrt : K → K) (values : List Binary64) :
    zScores sqrt values = values.map (zScore sqrt values) := by
  have hzero : values.map (fun _ => (0 : K)) = List.replicate values.length 0 :=
    List.map_const' ..
  unfold zScores zScore
  simp only
  split
  · rename_i hn
    simp [hn]
  · rename_i hn
    split
    · rename_i hsd
      simp [hsd]
    · rename_i hsd
      simp [hn, hsd]

theorem zScore_perm (sqrt : K → K) {values values' : List Binary64} (h : values.Perm values') :
    zScore sqrt values = zScore sqrt values' := by
  funext v
  have hmean : (values.map (Binary64.exact (K := K))).sum = (values'.map Binary64.exact).sum :=
    (h.map _).sum_eq
  simp only [zScore, h.length_eq, hmean, ((h.map fun v => (v.exact - _) ^ 2).sum_eq : _ = _)]

omit [LinearOrder K] in
/-- A normalisation that treats each value by itself gives each observation
its value among the scores of its dataset. -/
theorem byDataset_eq {normalize : List Binary64 → List K} {each : List Binary64 → Binary64 → K}
    {lower : Bool} {observations : List ChainObservation}
    (h : ∀ dataset, normalize (datasetScores lower observations dataset) =
      (datasetScores lower observations dataset).map
        (each (datasetScores lower observations dataset))) :
    byDataset normalize lower observations = observations.map fun obs =>
      each (datasetScores lower observations obs.dataset) (orient obs.score lower) := by
  let key := fun e : ChainObservation × Nat => e.1.dataset.getD ""
  have hgroups := BTreeMap.GroupsOf.foldl key (fun e => e) observations.zipIdx
  have hentries : (observations.zipIdx.map fun e => (key e, e)).map Prod.snd =
      observations.zipIdx := by
    rw [List.map_map]
    exact List.map_id _
  have hn : observations.zipIdx.Nodup := by
    refine List.Nodup.of_map Prod.snd ?_
    rw [List.zipIdx_map_snd]
    exact List.nodup_range'
  have hperm := hgroups.perm_flatMap (hentries.symm ▸ hn)
  rw [hentries] at hperm
  have hwrites (group : List (ChainObservation × Nat))
      (hgroup : group ∈ (BTreeMap.groupBy key observations.zipIdx).values) :
      ((group.zip (normalize (group.map fun e => orient e.1.score lower))).map
        fun (e, value) => (e.2, value)) = group.map fun e => (e.2,
          each (datasetScores lower observations e.1.dataset) (orient e.1.score lower)) := by
    rw [BTreeMap.values_eq] at hgroup
    obtain ⟨⟨k, vs⟩, hmem, rfl⟩ := List.mem_map.mp hgroup
    have hbucket : vs = observations.zipIdx.filter (key · = k) := by
      have hget := BTreeMap.mem_toList.mp hmem
      rw [BTreeMap.getElem?_groupBy] at hget
      split at hget
      · cases hget
      · exact (Option.some.inj hget).symm
    have hscores : vs.map (fun e => orient e.1.score lower) =
        datasetScores lower observations (some k) := by
      rw [hbucket, datasetScores]
      conv_rhs => rw [← List.zipIdx_map_fst 0 observations, List.filter_map, List.map_map]
      rfl
    have hsame (e : ChainObservation × Nat) (he : e ∈ vs) :
        datasetScores lower observations e.1.dataset = datasetScores lower observations (some k) := by
      rw [hbucket] at he
      have hkey : e.1.dataset.getD "" = k := by simpa [key] using (List.mem_filter.mp he).2
      simp only [datasetScores, hkey, Option.getD_some]
    simp only
    rw [hscores, h, ← hscores, List.map_map, List.zip_map_right, List.map_map, List.zip_eq_zipWith,
      List.zipWith_self, List.map_map]
    refine List.map_congr_left fun e he => ?_
    simp [hsame e he, hscores]
  unfold byDataset
  simp only
  rw [writeSlots_flatMap]
  refine writeSlots_eq (by simp) ?_
  rw [List.flatMap_congr hwrites, ← List.map_flatMap, BTreeMap.values_eq, List.flatMap_map]
  exact hperm.map _

/-- The goodness of one observation among all. -/
def goodnessOf (sqrt : K → K) (lens : ChainEffectLens) (lower : Bool)
    (observations : List ChainObservation) (obs : ChainObservation) : K :=
  match lens with
  | .raw => (orient obs.score lower).exact
  | .rankByDataset =>
    percentileRank (datasetScores lower observations obs.dataset) (orient obs.score lower)
  | .zByDataset =>
    zScore sqrt (datasetScores lower observations obs.dataset) (orient obs.score lower)

theorem isNan_orient {score : Binary64} (h : score.isFinite = true) (lower : Bool) :
    (orient score lower).isNan = false := by
  have hnan := Binary64.isNan_of_isFinite h
  cases lower
  · exact hnan
  · rw [← Binary64.isNan_negate] at hnan
    exact hnan

theorem goodness_eq (sqrt : K → K) (lens : ChainEffectLens) (lower : Bool)
    {observations : List ChainObservation} (h : ∀ obs ∈ observations, obs.score.isFinite = true) :
    goodness sqrt lens lower observations =
      observations.map (goodnessOf sqrt lens lower observations) := by
  have hnan (dataset : Option String) (v : Binary64)
      (hv : v ∈ datasetScores lower observations dataset) : v.isNan = false := by
    obtain ⟨obs, hobs, rfl⟩ := List.mem_map.mp hv
    exact isNan_orient (h obs (List.mem_filter.mp hobs).1) lower
  cases lens with
  | raw => rfl
  | rankByDataset => exact byDataset_eq fun dataset => percentileRanks_eq (hnan dataset)
  | zByDataset => exact byDataset_eq fun dataset => zScores_eq sqrt _

theorem datasetScores_perm {observations observations' : List ChainObservation}
    (h : observations.Perm observations') (lower : Bool) (dataset : Option String) :
    (datasetScores lower observations dataset).Perm (datasetScores lower observations' dataset) :=
  (h.filter _).map _

theorem goodnessOf_perm {observations observations' : List ChainObservation}
    (h : observations.Perm observations') (sqrt : K → K) (lens : ChainEffectLens) (lower : Bool) :
    goodnessOf sqrt lens lower observations = goodnessOf sqrt lens lower observations' := by
  funext obs
  have hscores := datasetScores_perm h lower obs.dataset
  cases lens with
  | raw => rfl
  | rankByDataset => exact congrFun (percentileRank_perm hscores) _
  | zByDataset => exact congrFun (zScore_perm sqrt hscores) _

theorem median_perm {values values' : List K} (h : values.Perm values') :
    median values = median values' := by
  simp only [median, Keyed.sort_eq_iff.mpr h]

-- ---------------------------------------------------------------------------
-- What is accepted
-- ---------------------------------------------------------------------------

/-- The facts of one chain that both validators demand. -/
structure SoundChain (id : String) (score : Binary64) (steps : List ChainEffectStep)
    (dataset source : Option String) : Prop where
  named : isBlank id = false
  finite : score.isFinite = true
  steps_ne : steps ≠ []
  steps_named : ∀ step ∈ steps, isBlank step.token = false ∧
    ∀ label, step.label = some label → isBlank label = false
  dataset_named : ∀ s, dataset = some s → isBlank s = false
  source_named : ∀ s, source = some s → isBlank s = false

theorem requireNonEmpty_ok : requireNonEmpty label value = .ok u ↔ isBlank value = false := by
  simp [requireNonEmpty, refuseIf_ok]

theorem ChainEffectStep.validate_ok {step : ChainEffectStep} : step.validate ctx = .ok u ↔
    isBlank step.token = false ∧ ∀ label, step.label = some label → isBlank label = false := by
  simp [ChainEffectStep.validate, bind_ok, requireNonEmpty_ok, whenSome_ok]

theorem checkObservation_ok {seen : Finset String} {obs : ChainObservation} :
    ChainEffectAnalysis.checkObservation seen obs = .ok s ↔
      SoundChain obs.id obs.score obs.steps obs.dataset obs.source ∧ obs.id ∉ seen ∧
        s = insert obs.id seen := by
  simp only [ChainEffectAnalysis.checkObservation, bind_ok, pure_ok, requireNonEmpty_ok,
    refuseIf_ok, each_ok, whenSome_ok, ChainEffectStep.validate_ok]
  constructor
  · rintro ⟨_, hid, _, hnew, _, hscore, _, hsteps, _, hnamed, _, hdataset, _, hsource, rfl⟩
    exact ⟨⟨hid, by simpa using hscore, hsteps, hnamed, hdataset, hsource⟩, hnew, rfl⟩
  · rintro ⟨⟨hid, hscore, hsteps, hnamed, hdataset, hsource⟩, hnew, rfl⟩
    exact ⟨(), hid, (), hnew, (), by simp [hscore], (), hsteps, (), hnamed, (), hdataset, (),
      hsource, rfl⟩

omit [Field K] [LinearOrder K] in
theorem ChainEffectPoint.validate_ok {seen : Finset String} {point : ChainEffectPoint K} :
    point.validate seen = .ok s ↔
      SoundChain point.id point.score point.orderedTokens point.dataset point.source ∧
        point.id ∉ seen ∧ s = insert point.id seen := by
  simp only [ChainEffectPoint.validate, bind_ok, pure_ok, requireNonEmpty_ok, refuseIf_ok, each_ok,
    whenSome_ok, ChainEffectStep.validate_ok]
  constructor
  · rintro ⟨_, hid, _, hnew, _, hscore, _, hsteps, _, hnamed, _, hdataset, _, hsource, rfl⟩
    exact ⟨⟨hid, by simpa using hscore, hsteps, hnamed, hdataset, hsource⟩, hnew, rfl⟩
  · rintro ⟨⟨hid, hscore, hsteps, hnamed, hdataset, hsource⟩, hnew, rfl⟩
    exact ⟨(), hid, (), hnew, (), by simp [hscore], (), hsteps, (), hnamed, (), hdataset, (),
      hsource, rfl⟩

namespace ChainEffectAnalysis

variable {metric : ChainEffectMetric} {lens : ChainEffectLens} {baseline : K}

/-- The observations a report is built from. -/
structure Accepts (observations : List ChainObservation) (metric : ChainEffectMetric)
    (lens : ChainEffectLens) : Prop where
  metric_ok : metric.validate = .ok ()
  nonempty : observations ≠ []
  sound : ∀ obs ∈ observations, SoundChain obs.id obs.score obs.steps obs.dataset obs.source
  ids_nodup : (observations.map (·.id)).Nodup
  one_scope : (observations.map (·.evaluationScope)).dedup.length ≤ 1
  datasets : lens.requiresDataset = true → ∀ obs ∈ observations, obs.dataset ≠ none

theorem Accepts.perm {observations observations' : List ChainObservation}
    (h : Accepts observations metric lens) (hperm : observations.Perm observations') :
    Accepts observations' metric lens where
  metric_ok := h.metric_ok
  nonempty := fun hnil => h.nonempty (hperm.trans (.of_eq hnil)).eq_nil
  sound := fun obs hobs => h.sound obs (hperm.mem_iff.mpr hobs)
  ids_nodup := (hperm.map _).nodup_iff.mp h.ids_nodup
  one_scope := (hperm.map fun obs => obs.evaluationScope).dedup.length_eq ▸ h.one_scope
  datasets := fun hlens obs hobs => h.datasets hlens obs (hperm.mem_iff.mpr hobs)

/-- The report on a list of observations with the given baseline. -/
def report (sqrt : K → K) (observations : List ChainObservation) (metric : ChainEffectMetric)
    (lens : ChainEffectLens) (baseline : K) : ChainEffectAnalysis K where
  schemaId := chainEffectSchemaId
  schemaVersion := chainEffectSchemaVersion
  metric := metric
  lens := lens
  baseline := baseline
  evaluationScope := (observations.map (·.evaluationScope)).dedup.head?.join
  points := observations.map fun obs =>
    point obs (goodnessOf sqrt lens metric.lowerIsBetter observations obs)

theorem exists_scopes_ok {observations : List ChainObservation} :
    (∃ s, loop checkObservation ∅ observations = .ok s) ↔
      (∀ obs ∈ observations, SoundChain obs.id obs.score obs.steps obs.dataset obs.source) ∧
        (observations.map (·.id)).Nodup :=
  loop_unique_ok fun _ _ _ => checkObservation_ok

omit [Field K] [LinearOrder K] in
theorem exists_ids_ok {points : List (ChainEffectPoint K)} :
    (∃ s, loop ChainEffectPoint.validate ∅ points = .ok s) ↔
      (∀ point ∈ points, SoundChain point.id point.score point.orderedTokens point.dataset
        point.source) ∧ (points.map (·.id)).Nodup :=
  loop_unique_ok fun _ _ _ => ChainEffectPoint.validate_ok

variable [IsStrictOrderedRing K]

theorem approxEq_refl (a : K) : approxEq a a := by
  unfold approxEq rankEps
  rw [sub_self, abs_zero]
  positivity

/-- What was built passes its own validation. -/
theorem report_validate {sqrt : K → K} {observations : List ChainObservation}
    (h : Accepts observations metric lens)
    (hbaseline : median (observations.map
      (goodnessOf sqrt lens metric.lowerIsBetter observations)) = some baseline) :
    (report sqrt observations metric lens baseline).validate = .ok () := by
  have hpoints : ∃ s, loop ChainEffectPoint.validate ∅
      (report sqrt observations metric lens baseline).points = .ok s := by
    refine exists_ids_ok.mpr ⟨List.forall_mem_map.mpr h.sound, ?_⟩
    simp only [report, List.map_map]
    exact h.ids_nodup
  have hmedian : (report sqrt observations metric lens baseline).points.map (·.goodness) =
      observations.map (goodnessOf sqrt lens metric.lowerIsBetter observations) := by
    simp only [report, List.map_map]
    rfl
  obtain ⟨ids, hpoints⟩ := hpoints
  simp only [validate, bind_ok, refuseIf_ok]
  refine ⟨(), by simp [report], (), by simp [report], (), h.metric_ok, (), ?_, ids, hpoints, (), ?_,
    (), ?_, ?_⟩
  · simpa [report] using h.nonempty
  · rintro ⟨hlens, _, hp, hnone⟩
    obtain ⟨obs, hobs, rfl⟩ := List.mem_map.mp hp
    exact h.datasets hlens obs hobs hnone
  · rw [hmedian, not_not]
    exact ⟨baseline, hbaseline, approxEq_refl _⟩
  · have hmem (obs : ChainObservation) (hobs : obs ∈ observations) :
        orient obs.score metric.lowerIsBetter ∈
          datasetScores metric.lowerIsBetter observations obs.dataset :=
      List.mem_map.mpr ⟨obs, List.mem_filter.mpr ⟨hobs, by simp⟩, rfl⟩
    have heps : (0 : K) < rankEps := by
      unfold rankEps
      positivity
    cases lens with
    | raw =>
      refine each_ok.mpr (List.forall_mem_map.mpr fun obs _ => ?_)
      exact refuseIf_ok.mpr (not_not.mpr (approxEq_refl _))
    | rankByDataset =>
      refine each_ok.mpr (List.forall_mem_map.mpr fun obs hobs => refuseIf_ok.mpr ?_)
      obtain ⟨hlow, hhigh⟩ := percentileRank_bounds (K := K) (hmem obs hobs)
      rw [not_or, not_lt, not_lt]
      exact ⟨(neg_nonpos.mpr heps.le).trans hlow, hhigh.trans (le_add_of_nonneg_right heps.le)⟩
    | zByDataset => rfl

/-- What the build accepts, and what it then gives. -/
theorem fromObservations_ok {sqrt : K → K} {observations : List ChainObservation} :
    fromObservations sqrt observations metric lens = .ok analysis ↔
      Accepts observations metric lens ∧ ∃ baseline,
        median (observations.map
          (goodnessOf sqrt lens metric.lowerIsBetter observations)) = some baseline ∧
        analysis = report sqrt observations metric lens baseline := by
  have hvalues (h : ∀ obs ∈ observations,
      SoundChain obs.id obs.score obs.steps obs.dataset obs.source) :
      goodness sqrt lens metric.lowerIsBetter observations =
        observations.map (goodnessOf sqrt lens metric.lowerIsBetter observations) :=
    goodness_eq sqrt lens _ fun obs hobs => (h obs hobs).finite
  have hpoints (f : ChainObservation → K) :
      (observations.zip (observations.map f)).map (fun (obs, value) => point obs value) =
        observations.map fun obs => point obs (f obs) := by
    rw [List.zip_map_right, List.map_map, List.zip_eq_zipWith, List.zipWith_self, List.map_map]
    rfl
  simp only [fromObservations, bind_ok, refuseIf_ok, need_ok, pure_ok]
  constructor
  · rintro ⟨_, hmetric, _, hne, _, hloop, _, hscope, _, hdataset, baseline, hbaseline, _, -, rfl⟩
    obtain ⟨hsound, hids⟩ := exists_scopes_ok.mp ⟨_, hloop⟩
    refine ⟨⟨hmetric, hne, hsound, hids, Nat.le_of_not_lt hscope, fun hlens obs hobs hnone =>
      hdataset ⟨hlens, obs, hobs, hnone⟩⟩, baseline, hvalues hsound ▸ hbaseline, ?_⟩
    rw [hvalues hsound, hpoints]
    rfl
  · rintro ⟨h, baseline, hbaseline, rfl⟩
    obtain ⟨_, hloop⟩ := exists_scopes_ok.mpr ⟨h.sound, h.ids_nodup⟩
    have hdataset : ¬(lens.requiresDataset = true ∧ ∃ obs ∈ observations, obs.dataset = none) := by
      rintro ⟨hlens, obs, hobs, hnone⟩
      exact h.datasets hlens obs hobs hnone
    refine ⟨(), h.metric_ok, (), h.nonempty, _, hloop, (), Nat.not_lt.mpr h.one_scope, (),
      hdataset, baseline, ?_, ?_⟩
    · rw [hvalues h.sound, hbaseline]
    · rw [hvalues h.sound, hpoints]
      exact ⟨(), report_validate h hbaseline, rfl⟩

theorem scope_perm {scopes scopes' : List (Option EvaluationScope)} (h : scopes.Perm scopes')
    (hone : scopes.dedup.length ≤ 1) : scopes.dedup.head?.join = scopes'.dedup.head?.join := by
  have hperm := h.dedup
  match hscopes : scopes.dedup with
  | [] =>
    rw [hscopes] at hperm
    rw [hperm.symm.eq_nil]
  | [scope] =>
    rw [hscopes] at hperm
    rw [List.perm_singleton.mp hperm.symm]
  | _ :: _ :: _ => simp [hscopes] at hone

/-- Two reports that differ at most in the order of their points. -/
structure SameUpToOrder (report report' : ChainEffectAnalysis K) : Prop where
  schemaId_eq : report'.schemaId = report.schemaId
  schemaVersion_eq : report'.schemaVersion = report.schemaVersion
  metric_eq : report'.metric = report.metric
  lens_eq : report'.lens = report.lens
  baseline_eq : report'.baseline = report.baseline
  evaluationScope_eq : report'.evaluationScope = report.evaluationScope
  points_perm : report.points.Perm report'.points

theorem fromObservations_perm {sqrt : K → K} {observations observations' : List ChainObservation}
    (hperm : observations.Perm observations')
    (h : fromObservations sqrt observations metric lens = .ok analysis) :
    ∃ analysis', fromObservations sqrt observations' metric lens = .ok analysis' ∧
      SameUpToOrder analysis analysis' := by
  obtain ⟨haccepts, baseline, hbaseline, rfl⟩ := fromObservations_ok.mp h
  have hgoodness := goodnessOf_perm hperm sqrt lens metric.lowerIsBetter
  refine ⟨_, fromObservations_ok.mpr ⟨haccepts.perm hperm, baseline, ?_, rfl⟩, ?_⟩
  · rw [← hgoodness, ← hbaseline]
    exact median_perm (hperm.symm.map _)
  · refine ⟨rfl, rfl, rfl, rfl, rfl, ?_, ?_⟩
    · exact (scope_perm (hperm.map _) haccepts.one_scope).symm
    · simp only [report, hgoodness]
      exact hperm.map _

end ChainEffectAnalysis

variable [IsStrictOrderedRing K]

/-- Ranks keep the order and the ties of the values, move with them and are
mirrored with them; a report follows the order of the observations only in the
order of its points. -/
theorem chainEffect_order_free (sqrt : K → K) :
    (∀ n (f : Fin n → Binary64), (∀ i, (f i).isNan = false) →
      ∃ g : Fin n → K, percentileRanks (List.ofFn f) = List.ofFn g ∧
        (∀ i j, (f i).lt (f j) = true → g i ≤ g j) ∧
        (∀ i j, (f i).eq (f j) = true → g i = g j) ∧
        (∀ σ : Equiv.Perm (Fin n), percentileRanks (List.ofFn (f ∘ σ)) = List.ofFn (g ∘ σ)) ∧
        percentileRanks (List.ofFn fun i => (f i).negate) = List.ofFn fun i => 1 - g i) ∧
    (∀ (observations observations' : List ChainObservation) metric lens analysis,
      observations.Perm observations' →
      ChainEffectAnalysis.fromObservations sqrt observations metric lens = .ok analysis →
      ∃ analysis', ChainEffectAnalysis.fromObservations sqrt observations' metric lens =
          .ok analysis' ∧
        ChainEffectAnalysis.SameUpToOrder analysis analysis') := by
  refine ⟨fun n f hnan => ?_, fun observations observations' metric lens analysis hperm h =>
    ChainEffectAnalysis.fromObservations_perm hperm h⟩
  have hranks (h : Fin n → Binary64) (hh : ∀ i, (h i).isNan = false) :
      percentileRanks (K := K) (List.ofFn h) =
        List.ofFn (percentileRank (List.ofFn h) ∘ h) := by
    rw [percentileRanks_eq (by simpa [List.mem_ofFn] using hh), List.map_ofFn]
  have hmem (i : Fin n) : f i ∈ List.ofFn f := List.mem_ofFn.mpr ⟨i, rfl⟩
  refine ⟨percentileRank (List.ofFn f) ∘ f, hranks f hnan, fun i j hlt => ?_, fun i j heq => ?_,
    fun σ => ?_, ?_⟩
  · exact percentileRank_mono (hmem i) (Binary64.lt_eq_true hlt)
  · rw [Binary64.eq_eq_decide (hnan i) (hnan j)] at heq
    exact percentileRank_congr (of_decide_eq_true heq)
  · rw [hranks (f ∘ σ) fun i => hnan (σ i), percentileRank_perm (Equiv.Perm.ofFn_comp_perm σ f)]
    rfl
  · have hnegated : List.ofFn (fun i => (f i).negate) = (List.ofFn f).map Binary64.negate := by
      rw [List.map_ofFn]
      rfl
    rw [hranks _ fun i => (Binary64.isNan_negate _).trans (hnan i), hnegated]
    congr 1
    funext i
    exact percentileRank_negate (hmem i)

end Analysis

/-- A chain of one step with a score of `n`. -/
def oneStepChain (id : String) (n : Nat) : ChainObservation :=
  ⟨id, [⟨"PLS", none, .model⟩], .ofNat n, some "corn", none, none⟩

def rmseMetric : ChainEffectMetric := ⟨"rmse", "RMSE", true⟩

theorem chainEffect_order_free_pair :
    (∃ g : Fin 2 → ℚ, percentileRanks [Binary64.ofNat 1, .ofNat 2] = List.ofFn g ∧ g 0 ≤ g 1) ∧
    ∃ analysis analysis' : ChainEffectAnalysis ℚ,
      ChainEffectAnalysis.fromObservations id [oneStepChain "chain:1" 1, oneStepChain "chain:2" 2]
          rmseMetric .rankByDataset = .ok analysis ∧
      ChainEffectAnalysis.fromObservations id [oneStepChain "chain:2" 2, oneStepChain "chain:1" 1]
          rmseMetric .rankByDataset = .ok analysis' ∧
        analysis'.baseline = analysis.baseline := by
  obtain ⟨hranks, hreport⟩ := chainEffect_order_free (K := ℚ) id
  obtain ⟨g, hg, hle, -⟩ := hranks 2 ![.ofNat 1, .ofNat 2] (by decide +kernel)
  obtain ⟨analysis, h⟩ : ∃ analysis : ChainEffectAnalysis ℚ,
      ChainEffectAnalysis.fromObservations id [oneStepChain "chain:1" 1, oneStepChain "chain:2" 2]
        rmseMetric .rankByDataset = .ok analysis :=
    ⟨_, eq_ok_valueOf (by decide +kernel)⟩
  obtain ⟨analysis', h', hsame⟩ := hreport _ _ _ _ analysis (.swap _ _ []) h
  exact ⟨⟨g, hg, hle 0 1 (by decide +kernel)⟩, analysis, analysis', h, h', hsame.baseline_eq⟩

/-- The points stand in the order of the observations. -/
theorem chainEffect_points_ordered :
    ¬∀ (observations observations' : List ChainObservation) metric lens
      (analysis : ChainEffectAnalysis ℚ), observations.Perm observations' →
      ChainEffectAnalysis.fromObservations id observations metric lens = .ok analysis →
      ChainEffectAnalysis.fromObservations id observations' metric lens = .ok analysis := by
  intro h
  obtain ⟨analysis, hbuilt⟩ : ∃ analysis : ChainEffectAnalysis ℚ,
      ChainEffectAnalysis.fromObservations id [oneStepChain "chain:1" 1, oneStepChain "chain:2" 2]
        rmseMetric .raw = .ok analysis :=
    ⟨_, eq_ok_valueOf (by decide +kernel)⟩
  have hbuilt' := h _ _ _ _ _ (.swap _ _ []) hbuilt
  obtain ⟨-, _, -, hreport⟩ := ChainEffectAnalysis.fromObservations_ok.mp hbuilt
  obtain ⟨-, _, -, hreport'⟩ := ChainEffectAnalysis.fromObservations_ok.mp hbuilt'
  have hids := congrArg (fun a => a.points.map (·.id)) (hreport.symm.trans hreport')
  revert hids
  simp [ChainEffectAnalysis.report, ChainEffectAnalysis.point, oneStepChain]

end DagMl
