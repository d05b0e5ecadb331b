import DagMl.Lib.Framing
import DagMl.Metrics.Scoring

/-!
# The metrics of a report

Both scoring paths fill one map: a metric's name holds its aggregate, the name
and a target's suffix hold that target's component. A suffix that two columns
carry keeps the component of the last one. `Scores` says what such a map holds
at every key, so two maps with the same aggregates and components are equal.
-/

namespace DagMl

open Checked

-- ---------------------------------------------------------------------------
-- Keys
-- ---------------------------------------------------------------------------

theorem RegressionMetricKind.name_injective : Function.Injective RegressionMetricKind.name := by
  intro a b h
  cases a <;> cases b <;> first | rfl | exact absurd h (by decide)

theorem RegressionMetricKind.name_inj {a b : RegressionMetricKind} : a.name = b.name ↔ a = b :=
  RegressionMetricKind.name_injective.eq_iff

theorem RegressionMetricKind.ne_colon (metric : RegressionMetricKind) :
    ∀ c ∈ metric.name.toList, ¬c = ':' := by
  cases metric <;> simp [name]

theorem toList_componentKey (metric : RegressionMetricKind) (suffix : String) :
    (componentKey metric suffix).toList = metric.name.toList ++ ':' :: suffix.toList := by
  have hkey : componentKey metric suffix = metric.name ++ ":" ++ suffix := rfl
  simp [hkey]

@[simp] theorem componentKey_inj {metric metric' : RegressionMetricKind} {suffix suffix' : String} :
    componentKey metric suffix = componentKey metric' suffix' ↔ metric = metric' ∧ suffix = suffix' := by
  rw [← String.toList_inj, toList_componentKey, toList_componentKey,
    Framing.cut_inj (· = ':') metric.ne_colon metric'.ne_colon rfl rfl, String.toList_inj,
    String.toList_inj, RegressionMetricKind.name_inj]
  simp

@[simp] theorem componentKey_ne_name {metric metric' : RegressionMetricKind} {suffix : String} :
    componentKey metric suffix ≠ metric'.name := by
  intro h
  have hcolon : ':' ∈ metric'.name.toList := by simp [← h, toList_componentKey]
  exact metric'.ne_colon ':' hcolon rfl

@[simp] theorem name_ne_componentKey {metric metric' : RegressionMetricKind} {suffix : String} :
    metric'.name ≠ componentKey metric suffix := componentKey_ne_name.symm

/-- A key that is neither a name nor a component's. -/
structure Foreign (k : String) : Prop where
  name : ∀ metric : RegressionMetricKind, metric.name ≠ k
  component : ∀ metric suffix, componentKey metric suffix ≠ k

theorem key_cases (k : String) : (∃ metric : RegressionMetricKind, k = metric.name) ∨
    (∃ metric suffix, k = componentKey metric suffix) ∨ Foreign k := by
  by_cases hname : ∃ metric : RegressionMetricKind, k = metric.name
  · exact .inl hname
  · by_cases hkey : ∃ metric suffix, k = componentKey metric suffix
    · exact .inr (.inl hkey)
    · refine .inr (.inr ⟨fun metric h => hname ⟨metric, h.symm⟩, fun metric suffix h => ?_⟩)
      exact hkey ⟨metric, suffix, h.symm⟩

-- ---------------------------------------------------------------------------
-- What a map of scores holds
-- ---------------------------------------------------------------------------

/-- The last column with a suffix. -/
def lastWith (columns : List (String × Nat)) (suffix : String) : Option Nat :=
  ((columns.filter (·.1 = suffix)).getLast?).map Prod.snd

theorem lastWith_append_singleton {columns : List (String × Nat)} {column : String × Nat}
    {suffix : String} : lastWith (columns ++ [column]) suffix =
      if column.1 = suffix then some column.2 else lastWith columns suffix := by
  by_cases h : column.1 = suffix
  · simp [lastWith, List.filter_append, h]
  · simp [lastWith, List.filter_append, h]

section

variable {K : Type}

structure Scores (metrics : List RegressionMetricKind) (columns : List (String × Nat))
    (value : RegressionMetricKind → Nat → K) (mean : RegressionMetricKind → K)
    (values : BTreeMap String K) : Prop where
  aggregate : ∀ metric, values[metric.name]? = if metric ∈ metrics then some (mean metric) else none
  component : ∀ metric suffix, values[componentKey metric suffix]? =
    if metric ∈ metrics then (lastWith columns suffix).map (value metric) else none
  foreign : ∀ k, Foreign k → values[k]? = none

variable {metrics : List RegressionMetricKind} {columns : List (String × Nat)}
  {value : RegressionMetricKind → Nat → K} {mean : RegressionMetricKind → K}
  {values values' : BTreeMap String K}

theorem Scores.unique (h : Scores metrics columns value mean values)
    (h' : Scores metrics columns value mean values') : values = values' := by
  refine BTreeMap.ext fun k => ?_
  rcases key_cases k with ⟨metric, rfl⟩ | ⟨metric, suffix, rfl⟩ | hforeign
  · rw [h.aggregate, h'.aggregate]
  · rw [h.component, h'.component]
  · rw [h.foreign k hforeign, h'.foreign k hforeign]

theorem Scores.congr {value' : RegressionMetricKind → Nat → K} {mean' : RegressionMetricKind → K}
    (h : Scores metrics columns value mean values)
    (hvalue : ∀ metric ∈ metrics, ∀ e ∈ columns, value metric e.2 = value' metric e.2)
    (hmean : ∀ metric ∈ metrics, mean metric = mean' metric) :
    Scores metrics columns value' mean' values where
  aggregate metric := by
    rw [h.aggregate]
    split
    · rename_i hm
      rw [hmean metric hm]
    · rfl
  component metric suffix := by
    rw [h.component]
    split
    · rename_i hm
      rw [lastWith, Option.map_map, Option.map_map]
      refine Option.map_congr fun e he => ?_
      exact hvalue metric hm e (List.mem_of_mem_filter (List.mem_of_getLast? he))
    · rfl
  foreign := h.foreign

-- ---------------------------------------------------------------------------
-- The complete path
-- ---------------------------------------------------------------------------

variable {init : BTreeMap String K}

/-- The components of one metric, written over a map. -/
def writeComponents (metric : RegressionMetricKind) (value : Nat → K)
    (columns : List (String × Nat)) (init : BTreeMap String K) : BTreeMap String K :=
  columns.foldl (fun values e => values.insert (componentKey metric e.1) (value e.2)) init

theorem getElem?_writeComponents_key {metric metric' : RegressionMetricKind} {value : Nat → K}
    {suffix : String} : (writeComponents metric value columns init)[componentKey metric' suffix]? =
      if metric' = metric then ((lastWith columns suffix).map value).or
        init[componentKey metric' suffix]?
      else init[componentKey metric' suffix]? := by
  induction columns using List.reverseRecOn with
  | nil => simp [writeComponents, lastWith]
  | append_singleton columns e ih =>
    rw [writeComponents, List.foldl_append, List.foldl_cons, List.foldl_nil,
      BTreeMap.getElem?_insert, lastWith_append_singleton, ← writeComponents, ih]
    by_cases hmetric : metric' = metric
    · subst hmetric
      by_cases hsuffix : e.1 = suffix
      · simp [hsuffix]
      · simp [hsuffix]
    · simp [hmetric, Ne.symm hmetric]

theorem getElem?_writeComponents_other {metric : RegressionMetricKind} {value : Nat → K}
    {k : String} (h : ∀ suffix, componentKey metric suffix ≠ k) :
    (writeComponents metric value columns init)[k]? = init[k]? := by
  induction columns using List.reverseRecOn with
  | nil => rfl
  | append_singleton columns e ih =>
    rw [writeComponents, List.foldl_append, List.foldl_cons, List.foldl_nil,
      BTreeMap.getElem?_insert, if_neg (h e.1)]
    exact ih

def writeMetric (columns : List (String × Nat)) (value : RegressionMetricKind → Nat → K)
    (mean : RegressionMetricKind → K) (values : BTreeMap String K) (metric : RegressionMetricKind) :
    BTreeMap String K :=
  writeComponents metric (value metric) columns (values.insert metric.name (mean metric))

theorem foldl_writeMetric :
    Scores metrics columns value mean (metrics.foldl (writeMetric columns value mean) ∅) := by
  induction metrics using List.reverseRecOn with
  | nil => exact ⟨by simp, by simp, by simp⟩
  | append_singleton metrics metric ih =>
    rw [List.foldl_append, List.foldl_cons, List.foldl_nil, writeMetric]
    constructor
    · intro other
      rw [getElem?_writeComponents_other (by simp), BTreeMap.getElem?_insert, ih.aggregate]
      simp only [RegressionMetricKind.name_inj]
      by_cases hother : metric = other
      · simp [hother]
      · simp [hother, Ne.symm hother]
    · intro other suffix
      rw [getElem?_writeComponents_key, BTreeMap.getElem?_insert, if_neg name_ne_componentKey,
        ih.component]
      by_cases hother : other = metric
      · subst hother
        cases lastWith columns suffix <;> simp
      · simp [hother]
    · intro k hk
      rw [getElem?_writeComponents_other (hk.component metric), BTreeMap.getElem?_insert,
        if_neg (hk.name metric), ih.foreign k hk]

end

-- ---------------------------------------------------------------------------
-- The masked path
-- ---------------------------------------------------------------------------

section

variable {K : Type} [Field K] {metrics : List RegressionMetricKind} {columns : List (String × Nat)}
  {value : RegressionMetricKind → Nat → K} {width : Nat} {init : BTreeMap String K}

/-- The component of one metric in one column, and its share of the mean. -/
def addComponent (width : Nat) (suffix : String) (value : RegressionMetricKind → K)
    (values : BTreeMap String K) (metric : RegressionMetricKind) : BTreeMap String K :=
  let values := values.insert (componentKey metric suffix) (value metric)
  values.insert metric.name (values[metric.name]?.getD 0 + value metric / width)

section

variable {suffix : String} {value : RegressionMetricKind → K} {values : BTreeMap String K}
  {metric other : RegressionMetricKind}

theorem getElem?_addComponent_name : (addComponent width suffix value values metric)[other.name]? =
    if metric = other then some (values[other.name]?.getD 0 + value other / width)
    else values[other.name]? := by
  simp only [addComponent, BTreeMap.getElem?_insert, RegressionMetricKind.name_inj,
    componentKey_ne_name, if_false]
  by_cases h : metric = other
  · simp [h]
  · simp [h]

theorem getElem?_addComponent_key {suffix' : String} :
    (addComponent width suffix value values metric)[componentKey other suffix']? =
      if metric = other ∧ suffix = suffix' then some (value other)
      else values[componentKey other suffix']? := by
  simp only [addComponent, BTreeMap.getElem?_insert, name_ne_componentKey, if_false, componentKey_inj]
  by_cases h : metric = other
  · simp [h]
  · simp [h]

theorem getElem?_addComponent_foreign {k : String} (h : Foreign k) :
    (addComponent width suffix value values metric)[k]? = values[k]? := by
  simp only [addComponent, BTreeMap.getElem?_insert, h.name, h.component, if_false]

end

/-- One column of every metric. -/
def addColumn (metrics : List RegressionMetricKind) (width : Nat)
    (value : RegressionMetricKind → Nat → K) (values : BTreeMap String K) (column : String × Nat) :
    BTreeMap String K :=
  metrics.foldl (addComponent width column.1 fun metric => value metric column.2) values

theorem getElem?_addColumn_name (hnodup : metrics.Nodup) {column : String × Nat}
    {metric : RegressionMetricKind} :
    (addColumn metrics width value init column)[metric.name]? =
      if metric ∈ metrics then some (init[metric.name]?.getD 0 + value metric column.2 / width)
      else init[metric.name]? := by
  unfold addColumn
  induction metrics generalizing init with
  | nil => simp
  | cons head metrics ih =>
    obtain ⟨hhead, hnodup⟩ := List.nodup_cons.mp hnodup
    rw [List.foldl_cons, ih hnodup, getElem?_addComponent_name]
    by_cases h : head = metric
    · subst h
      simp [hhead]
    · simp [h, Ne.symm h]

theorem getElem?_addColumn_key {column : String × Nat} {metric : RegressionMetricKind}
    {suffix : String} : (addColumn metrics width value init column)[componentKey metric suffix]? =
      if metric ∈ metrics ∧ column.1 = suffix then some (value metric column.2)
      else init[componentKey metric suffix]? := by
  unfold addColumn
  induction metrics generalizing init with
  | nil => simp
  | cons head metrics ih =>
    rw [List.foldl_cons, ih, getElem?_addComponent_key]
    by_cases hsuffix : column.1 = suffix
    · by_cases h : head = metric
      · simp [h, hsuffix]
      · simp [h, Ne.symm h, hsuffix]
    · simp [hsuffix]

theorem getElem?_addColumn_foreign {column : String × Nat} {k : String} (h : Foreign k) :
    (addColumn metrics width value init column)[k]? = init[k]? := by
  unfold addColumn
  induction metrics generalizing init with
  | nil => rfl
  | cons head metrics ih => rw [List.foldl_cons, ih, getElem?_addComponent_foreign h]

/-- The shares of the columns add up to the mean. -/
theorem foldl_addColumn (hnodup : metrics.Nodup) (hne : columns ≠ []) :
    Scores metrics columns value
      (fun metric => (columns.map fun e => value metric e.2).sum / width)
      (columns.foldl (addColumn metrics width value) ∅) := by
  have hname (metric : RegressionMetricKind) (columns : List (String × Nat)) :
      (columns.foldl (addColumn metrics width value) ∅)[metric.name]? =
        if metric ∈ metrics ∧ columns ≠ [] then
          some ((columns.map fun e => value metric e.2).sum / width) else none := by
    induction columns using List.reverseRecOn with
    | nil => simp
    | append_singleton columns e ih =>
      rw [List.foldl_append, List.foldl_cons, List.foldl_nil, getElem?_addColumn_name hnodup, ih]
      by_cases hmetric : metric ∈ metrics
      · by_cases hcolumns : columns = []
        · simp [hmetric, hcolumns]
        · simp [hmetric, hcolumns, add_div]
      · simp [hmetric]
  constructor
  · intro metric
    rw [hname]
    simp [hne]
  · intro metric suffix
    clear hname hne
    induction columns using List.reverseRecOn with
    | nil => simp [lastWith]
    | append_singleton columns e ih =>
      rw [List.foldl_append, List.foldl_cons, List.foldl_nil, getElem?_addColumn_key, ih,
        lastWith_append_singleton]
      by_cases hmetric : metric ∈ metrics
      · by_cases hsuffix : e.1 = suffix
        · simp [hmetric, hsuffix]
        · simp [hmetric, hsuffix]
      · simp [hmetric]
  · intro k hk
    clear hname hne
    induction columns using List.reverseRecOn with
    | nil => simp
    | append_singleton columns e ih =>
      rw [List.foldl_append, List.foldl_cons, List.foldl_nil, getElem?_addColumn_foreign hk, ih]

end

end DagMl
