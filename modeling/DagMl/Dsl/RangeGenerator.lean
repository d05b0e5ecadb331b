import DagMl.Dsl.Fanout

/-!
# Range generators

A range generator adds its step until it passes its stop, and the values become
the choices of a dimension. Numbers are exact here: where the source reckons in
floating point its tolerance stands for the rational it denotes.
-/

namespace DagMl

open Checked

-- ---------------------------------------------------------------------------
-- Choices of one parameter
-- ---------------------------------------------------------------------------

inductive PipelineDslGeneratorValue
  | labeled (label : String) (value : JsonDocument)
  | value (value : JsonDocument)

namespace PipelineDslGeneratorValue

def toDocument : PipelineDslGeneratorValue → JsonDocument
  | .labeled _ document => document
  | .value document => document

def labelFragment (floats : FloatWriter) : PipelineDslGeneratorValue → String
  | .labeled label _ => sanitizeGenerationLabel label
  | .value document =>
    sanitizeGenerationLabel (document.value.asStr.getD (document.value.text floats))

end PipelineDslGeneratorValue

/-- `{index:04}`. -/
def paddedIndex (index : Nat) : String :=
  String.ofList (List.replicate (4 - (Nat.toDigits 10 index).length) '0' ++ Nat.toDigits 10 index)

section

variable (floats : FloatWriter) (nodeId : NodeId) (param : String)

def singleParamGenerationChoice (index : Nat) (value : PipelineDslGeneratorValue) :
    GenerationChoice :=
  let params : BTreeMap String JsonDocument := .collect [(param, value.toDocument)]
  { label := s!"{paddedIndex index}_{sanitizeGenerationLabel param}_{value.labelFragment floats}"
    value := metadataDocument params
    paramOverrides := [⟨nodeId, params⟩] }

def generatorDimensionName (name param : Option String) (suffix : String) : String :=
  match name, param with
  | some name, _ => name
  | none, some param => s!"{nodeId}.{param}.{suffix}"
  | none, none => s!"{nodeId}.{suffix}"

def validateParamName : Result Unit :=
  refuseIf (isBlank param) (.graphValidation
    s!"pipeline DSL param generator for node `{nodeId}` has an empty param name")

def validateCount (name : Option String) (count : Option Nat) : Result Unit :=
  let dimension := generatorDimensionName nodeId name none "params"
  whenSome count fun n => refuseIf (n = 0 ∨ 10000 < n) (.graphValidation
    s!"pipeline DSL generator `{dimension}` for node `{nodeId}` has count=0")

/-- `choices.truncate(limit)`. -/
def applyChoiceCount (choices : List α) (count : Option Nat) : List α :=
  match count with
  | some limit => choices.take limit
  | none => choices

def compileOrGenerator (name : Option String) (values : List PipelineDslGeneratorValue)
    (count : Option Nat) : Result GenerationDimension := do
  validateParamName nodeId param
  validateCount nodeId name count
  let dimension := generatorDimensionName nodeId name (some param) "or"
  refuseIf (values.isEmpty = true) (.graphValidation
    s!"pipeline DSL generator `{dimension}` for node `{nodeId}` has no values")
  let choices := values.zipIdx.map fun entry =>
    singleParamGenerationChoice floats nodeId param entry.2 entry.1
  pure { name := dimension, choices := applyChoiceCount choices count }

end

-- ---------------------------------------------------------------------------
-- Ranges
-- ---------------------------------------------------------------------------

structure RangeGeneratorSpec where
  nodeId : NodeId
  name : Option String
  param : String
  start : ℚ
  stop : ℚ
  step : ℚ
  inclusive : Bool
  count : Option Nat

/-- A generated value, as it is handed to the JSON library. -/
inductive RangeValue
  | integer (n : Int)
  | number (x : ℚ)
  deriving DecidableEq

def RangeValue.toRat : RangeValue → ℚ
  | .integer n => n
  | .number x => x

namespace RangeGeneratorSpec

variable (spec : RangeGeneratorSpec)

/-- `1e-12` of the step and `f64::EPSILON`. -/
def epsilon (step : ℚ) : ℚ := |step| * (1 / 10 ^ 12) + 1 / 2 ^ 52

def rangeContains (current stop step : ℚ) (inclusive : Bool) : Bool :=
  if 0 < step then
    if inclusive then current ≤ stop + epsilon step else current < stop - epsilon step
  else if inclusive then stop - epsilon step ≤ current
  else stop + epsilon step < current

/-- `x.fract() == 0.0`. -/
def isWhole (x : ℚ) : Bool := x.den = 1

def rangeValue (current : ℚ) : RangeValue :=
  if isWhole spec.start && isWhole spec.step && isWhole current && -2 ^ 63 ≤ current &&
    current < 2 ^ 63 then .integer current.num
  else .number current

def tooManyValues : DagMlError := .graphValidation
  s!"pipeline DSL range generator for `{spec.nodeId}.{spec.param}` produced more than 10000 values"

/-- The loop from a value on, for at most `turns` runs of its body. -/
def rangeLoop : Nat → ℚ → Nat → List RangeValue → Option (Result (List RangeValue))
  | turns, current, guard, values =>
    if rangeContains current spec.stop spec.step spec.inclusive then
      match turns with
      | 0 => none
      | turns + 1 =>
        let values := values ++ [spec.rangeValue current]
        if 10000 < guard + 1 then some (.error spec.tooManyValues)
        else rangeLoop turns (current + spec.step) (guard + 1) values
    else some (.ok values)

/-- The values of the loop, which is done after 10001 turns. -/
def rangeValues : Result (List RangeValue) :=
  (spec.rangeLoop 10001 spec.start 0 []).getD (.error (.panicked "the loop runs on"))

def compileRangeGenerator (floats : FloatWriter) (json : RangeValue → JsonDocument) :
    Result GenerationDimension := do
  validateParamName spec.nodeId spec.param
  validateCount spec.nodeId spec.name spec.count
  refuseIf (spec.step = 0) (.graphValidation
    s!"pipeline DSL range generator for `{spec.nodeId}.{spec.param}` has zero step")
  refuseIf (spec.start < spec.stop ∧ spec.step < 0) (.graphValidation
    s!"pipeline DSL range generator for `{spec.nodeId}.{spec.param}` steps away from stop")
  refuseIf (spec.stop < spec.start ∧ 0 < spec.step) (.graphValidation
    s!"pipeline DSL range generator for `{spec.nodeId}.{spec.param}` steps away from stop")
  let values ← spec.rangeValues
  refuseIf (values.isEmpty = true) (.graphValidation
    s!"pipeline DSL range generator for `{spec.nodeId}.{spec.param}` produced no values")
  let dimension ← compileOrGenerator floats spec.nodeId spec.param spec.name
    (values.map fun value => .value (json value)) spec.count
  pure { dimension with
    name := generatorDimensionName spec.nodeId spec.name (some spec.param) "range" }

-- ---------------------------------------------------------------------------
-- The loop
-- ---------------------------------------------------------------------------

/-- The value after `k` turns. -/
def valueAt (k : Nat) : ℚ := spec.start + k * spec.step

/-- The loop goes on at a value. -/
def Admits (x : ℚ) : Prop := rangeContains x spec.stop spec.step spec.inclusive = true

variable {spec}

theorem valueAt_succ : spec.valueAt (k + 1) = spec.valueAt k + spec.step := by
  rw [valueAt, valueAt]
  push_cast
  ring

/-- The guard ends every loop that the stop does not. -/
theorem rangeLoop_stops {turns guard : Nat} (hguard : guard ≤ 10000)
    (hturns : turns + guard = 10001) (current : ℚ) (values : List RangeValue) :
    (spec.rangeLoop turns current guard values).isSome = true := by
  induction turns generalizing current guard values with
  | zero => omega
  | succ turns ih =>
    simp only [rangeLoop]
    split
    · split
      · rfl
      · rename_i hmore
        exact ih (Nat.le_of_not_lt hmore) (by omega) _ _
    · rfl

theorem rangeLoop_ok {turns k : Nat} {values out : List RangeValue} (hk : k ≤ 10000)
    (h : spec.rangeLoop turns (spec.valueAt k) k values = some (.ok out)) :
    ∃ n, k ≤ n ∧ n ≤ 10000 ∧ (∀ j, k ≤ j → j < n → spec.Admits (spec.valueAt j)) ∧
      ¬spec.Admits (spec.valueAt n) ∧
      out = values ++ (List.range' k (n - k)).map fun j => spec.rangeValue (spec.valueAt j) := by
  induction turns generalizing k values with
  | zero =>
    simp only [rangeLoop] at h
    split at h
    · cases h
    · rename_i hstop
      cases h
      exact ⟨k, le_rfl, hk, fun j hj hlt => absurd hlt (Nat.not_lt_of_le hj), hstop, by simp⟩
  | succ turns ih =>
    simp only [rangeLoop] at h
    split at h
    · rename_i hadmits
      split at h
      · cases h
      · rename_i hmore
        rw [← valueAt_succ] at h
        obtain ⟨n, hkn, hn, hall, hstop, rfl⟩ := ih (Nat.le_of_not_lt hmore) h
        refine ⟨n, by omega, hn, fun j hj hlt => ?_, hstop, ?_⟩
        · rcases Nat.eq_or_lt_of_le hj with rfl | hj
          · exact hadmits
          · exact hall j hj hlt
        · have hlength : n - k = (n - (k + 1)) + 1 := by omega
          rw [hlength, List.range'_succ]
          simp
    · rename_i hstop
      cases h
      exact ⟨k, le_rfl, hk, fun j hj hlt => absurd hlt (Nat.not_lt_of_le hj), hstop, by simp⟩

theorem rangeValue_toRat : (spec.rangeValue x).toRat = x := by
  unfold rangeValue
  split
  · rename_i hwhole
    simp only [isWhole, Bool.and_eq_true, decide_eq_true_eq] at hwhole
    exact Rat.coe_int_num_of_den_eq_one hwhole.1.1.2
  · rfl

-- ---------------------------------------------------------------------------
-- The tolerance
-- ---------------------------------------------------------------------------

variable (spec) in
/-- How far a value lies past the stop. -/
def past (x : ℚ) : ℚ := if 0 < spec.step then x - spec.stop else spec.stop - x

variable (spec) in
/-- A value that does not pass the stop; the stop itself counts when it is inclusive. -/
def Within (x : ℚ) : Prop := if spec.inclusive then spec.past x ≤ 0 else spec.past x < 0

variable (spec) in
/-- A value that misses the stop by no more than the tolerance. -/
def NearMiss (x : ℚ) : Prop := spec.past x ≠ 0 ∧ |spec.past x| ≤ epsilon spec.step

theorem epsilon_pos (step : ℚ) : 0 < epsilon step := by
  have := abs_nonneg step
  unfold epsilon
  positivity

theorem admits_iff : spec.Admits x ↔
    if spec.inclusive then spec.past x ≤ epsilon spec.step else spec.past x < -epsilon spec.step := by
  rw [Admits, rangeContains, past]
  by_cases hstep : 0 < spec.step
  · rw [if_pos hstep, if_pos hstep]
    cases spec.inclusive with
    | true => simp [add_comm]
    | false =>
      simp only [Bool.false_eq_true, if_false, decide_eq_true_eq]
      constructor <;> intro <;> linarith
  · rw [if_neg hstep, if_neg hstep]
    cases spec.inclusive with
    | true =>
      simp only [if_true, decide_eq_true_eq]
      constructor <;> intro <;> linarith
    | false =>
      simp only [Bool.false_eq_true, if_false, decide_eq_true_eq]
      constructor <;> intro <;> linarith

/-- The loop moves past the stop, never back. -/
theorem past_mono (hle : n ≤ m) : spec.past (spec.valueAt n) ≤ spec.past (spec.valueAt m) := by
  have hcast : (n : ℚ) ≤ m := Nat.cast_le.mpr hle
  rw [past, past, valueAt, valueAt]
  by_cases hstep : 0 < spec.step
  · have hgrows : (n : ℚ) * spec.step ≤ m * spec.step :=
      mul_le_mul_of_nonneg_right hcast hstep.le
    rw [if_pos hstep, if_pos hstep]
    linarith
  · have hshrinks : (m : ℚ) * spec.step ≤ n * spec.step :=
      mul_le_mul_of_nonpos_right hcast (not_lt.mp hstep)
    rw [if_neg hstep, if_neg hstep]
    linarith

/-- What the loop turns away it turns away for good. -/
theorem not_admits_mono (h : ¬spec.Admits (spec.valueAt n)) (hle : n ≤ m) :
    ¬spec.Admits (spec.valueAt m) := by
  have hpast : spec.past (spec.valueAt n) ≤ spec.past (spec.valueAt m) := past_mono hle
  rw [admits_iff] at h ⊢
  cases hinclusive : spec.inclusive with
  | true =>
    simp only [hinclusive, if_true] at h ⊢
    exact fun hadmits => h (hpast.trans hadmits)
  | false =>
    simp only [hinclusive, Bool.false_eq_true, if_false] at h ⊢
    exact fun hadmits => h (hpast.trans_lt hadmits)

/-- Away from the stop, and on it, the tolerance makes no difference. -/
theorem admits_iff_within (h : ¬spec.NearMiss x) : spec.Admits x ↔ spec.Within x := by
  have hpos := epsilon_pos spec.step
  rw [admits_iff, Within]
  have hfar : spec.past x = 0 ∨ epsilon spec.step < |spec.past x| := by
    by_contra hnear
    rw [not_or, not_lt] at hnear
    exact h hnear
  rcases hfar with hzero | hfar
  · rw [hzero]
    cases spec.inclusive with
    | true => simp [hpos.le]
    | false => simp [hpos.le]
  · rcases lt_abs.mp hfar with hfar | hfar
    · cases spec.inclusive with
      | true =>
        simp only [if_true]
        constructor <;> intro <;> linarith
      | false =>
        simp only [Bool.false_eq_true, if_false]
        constructor <;> intro <;> linarith
    · cases spec.inclusive with
      | true =>
        simp only [if_true]
        constructor <;> intro <;> linarith
      | false =>
        simp only [Bool.false_eq_true, if_false]
        constructor <;> intro <;> linarith

-- ---------------------------------------------------------------------------
-- What a range generates
-- ---------------------------------------------------------------------------

theorem rangeValues_ok {values : List RangeValue} (h : spec.rangeValues = .ok values) :
    ∃ n, n ≤ 10000 ∧ (∀ k, k < n ↔ spec.Admits (spec.valueAt k)) ∧
      values = (List.range n).map fun k => spec.rangeValue (spec.valueAt k) := by
  obtain ⟨result, hresult⟩ := Option.isSome_iff_exists.mp
    (rangeLoop_stops (Nat.zero_le _) rfl spec.start [] : (spec.rangeLoop 10001 _ 0 _).isSome = true)
  rw [rangeValues, hresult, Option.getD_some] at h
  rw [h] at hresult
  have hstart : spec.valueAt 0 = spec.start := by simp [valueAt]
  rw [← hstart] at hresult
  obtain ⟨n, -, hn, hall, hstop, rfl⟩ := rangeLoop_ok (Nat.zero_le _) hresult
  refine ⟨n, hn, fun k => ⟨fun hk => hall k (Nat.zero_le _) hk, fun hadmits => ?_⟩, ?_⟩
  · by_contra hle
    exact not_admits_mono hstop (Nat.le_of_not_lt hle) hadmits
  · simp [List.range_eq_range']

variable (spec) in
/-- The first `n` values of a range, as choices and cut to its count. -/
def choicesUpTo (floats : FloatWriter) (json : RangeValue → JsonDocument) (n : Nat) :
    List GenerationChoice :=
  applyChoiceCount ((List.range n).map fun k =>
    singleParamGenerationChoice floats spec.nodeId spec.param k
      (.value (json (spec.rangeValue (spec.valueAt k))))) spec.count

theorem compileRangeGenerator_ok {floats : FloatWriter} {json : RangeValue → JsonDocument}
    {dimension : GenerationDimension}
    (h : spec.compileRangeGenerator floats json = .ok dimension) :
    ∃ n, n ≤ 10000 ∧ (∀ k, k < n ↔ spec.Admits (spec.valueAt k)) ∧
      dimension.choices = spec.choicesUpTo floats json n := by
  simp only [compileRangeGenerator, compileOrGenerator, bind_ok, pure_ok] at h
  obtain ⟨_, -, _, -, _, -, _, -, _, -, values, hvalues, _, -, _, ⟨_, -, _, -, _, -, rfl⟩, rfl⟩ := h
  obtain ⟨n, hn, hadmits, rfl⟩ := rangeValues_ok hvalues
  refine ⟨n, hn, hadmits, ?_⟩
  change applyChoiceCount _ spec.count = applyChoiceCount _ spec.count
  congr 1
  rw [List.map_map]
  refine List.ext_getElem (by simp) fun i _ _ => ?_
  simp

/-- The values are those the tolerance admits, in order and cut to the count;
but for near misses they are those that do not pass the stop. The loop is done
after 10001 turns whatever it starts from. -/
theorem compileRangeGenerator_values (floats : FloatWriter) (json : RangeValue → JsonDocument)
    (spec : RangeGeneratorSpec) :
    (∀ current, (spec.rangeLoop 10001 current 0 []).isSome = true) ∧
    ∀ dimension, spec.compileRangeGenerator floats json = .ok dimension → ∃ n,
      (∀ k, k < n ↔ if spec.inclusive then spec.past (spec.valueAt k) ≤ epsilon spec.step
        else spec.past (spec.valueAt k) < -epsilon spec.step) ∧
      (∀ k, ¬spec.NearMiss (spec.valueAt k) → (k < n ↔ spec.Within (spec.valueAt k))) ∧
      (∀ k, (spec.rangeValue (spec.valueAt k)).toRat = spec.start + k * spec.step) ∧
      dimension.choices = spec.choicesUpTo floats json n := by
  refine ⟨fun current => rangeLoop_stops (Nat.zero_le _) rfl current [], fun dimension h => ?_⟩
  obtain ⟨n, -, hadmits, hchoices⟩ := compileRangeGenerator_ok h
  refine ⟨n, fun k => ?_, fun k hmiss => ?_, fun k => rangeValue_toRat, hchoices⟩
  · rw [hadmits, admits_iff]
  · rw [hadmits, admits_iff_within hmiss]

-- ---------------------------------------------------------------------------
-- A near miss
-- ---------------------------------------------------------------------------

/-- From zero to zero, by a step of the rounding unit. -/
def tinyRange : RangeGeneratorSpec where
  nodeId := ⟨"model:ranged", by decide⟩
  name := none
  param := "alpha"
  start := 0
  stop := 0
  step := 1 / 2 ^ 52
  inclusive := true
  count := none

/-- The JSON of a value that is not negative. -/
def tinyJson : RangeValue → JsonDocument
  | .integer n => ⟨.number (.posInt (.ofNat n.toNat)), trivial⟩
  | .number x =>
    let float := (Binary64.ofNat x.num.natAbs).div (.ofNat x.den)
    if h : float.isFinite = true then ⟨.number (.float float), h⟩ else nullDocument

theorem compileRangeGenerator_values_tiny : ∃ dimension n,
    tinyRange.compileRangeGenerator .ofBits tinyJson = .ok dimension ∧
      (∀ k, ¬tinyRange.NearMiss (tinyRange.valueAt k) →
        (k < n ↔ tinyRange.Within (tinyRange.valueAt k))) ∧
      dimension.choices = tinyRange.choicesUpTo .ofBits tinyJson n := by
  have hrun : (tinyRange.compileRangeGenerator .ofBits tinyJson).isOk = true := by decide +kernel
  obtain ⟨n, -, hwithin, -, hchoices⟩ :=
    (compileRangeGenerator_values .ofBits tinyJson tinyRange).2 _ (eq_ok_valueOf hrun)
  exact ⟨_, n, eq_ok_valueOf hrun, hwithin, hchoices⟩

/-- A value past the stop is generated. -/
theorem compileRangeGenerator_passes_stop :
    ¬∀ floats json (spec : RangeGeneratorSpec) dimension,
      spec.compileRangeGenerator floats json = .ok dimension → ∃ n,
        (∀ k, k < n ↔ spec.Within (spec.valueAt k)) ∧
          dimension.choices = spec.choicesUpTo floats json n := by
  intro h
  have hrun : (tinyRange.compileRangeGenerator .ofBits tinyJson).isOk = true := by decide +kernel
  obtain ⟨n, hwithin, hchoices⟩ := h _ _ _ _ (eq_ok_valueOf hrun)
  obtain ⟨m, -, hadmits, hchoices'⟩ := compileRangeGenerator_ok (eq_ok_valueOf hrun)
  have hlength : n = m := by
    have := congrArg List.length (hchoices.symm.trans hchoices')
    simpa [choicesUpTo, applyChoiceCount, tinyRange] using this
  have hone : tinyRange.Admits (tinyRange.valueAt 1) := by
    rw [admits_iff]
    norm_num [tinyRange, past, valueAt, epsilon]
  have hpasses : ¬tinyRange.Within (tinyRange.valueAt 1) := by
    norm_num [Within, tinyRange, past, valueAt]
  rw [hlength] at hwithin
  exact hpasses ((hwithin 1).mp ((hadmits 1).mpr hone))

end RangeGeneratorSpec

end DagMl
