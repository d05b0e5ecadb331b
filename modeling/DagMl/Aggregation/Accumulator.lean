import Mathlib
import DagMl.Lib.Binary64
import DagMl.Lib.Checked
import DagMl.Error

/-!
# Sample accumulators

What is kept of the rows of one aggregation unit, and the reducers over it.
Rows have the width of the block, so a column is read with a default that is
never used.
-/

namespace DagMl

open Checked

/-- `1 / 10`, the share `robust_mean` drops on each side. -/
def defaultRobustTrimFraction : Binary64 := .ofDecimal false 1 (-1)

def defaultHotellingT2Threshold : Binary64 := .ofDecimal false 5023886 (-6)

/-- `f64::EPSILON`. -/
def epsilon : Binary64 := .make false ((1023 - 52) * 2 ^ 52)

structure SampleAccumulator where
  sum : List Binary64
  weightedSum : List Binary64
  weightSum : Binary64
  rows : List (List Binary64)
  firstRow : Option (List Binary64)
  storeRows : Bool
  count : Nat

/-- `for (idx, value) in row.iter().enumerate() { acc[idx] += f(value) }`. -/
def addInto (acc row : List Binary64) (f : Binary64 → Binary64) : List Binary64 :=
  acc.mapIdx fun idx value =>
    match row[idx]? with
    | some x => value.add (f x)
    | none => value

/-- `rows.iter().map(|row| row[idx])`. -/
def column (rows : List (List Binary64)) (idx : Nat) : List Binary64 :=
  rows.map fun row => row.getD idx .zero

/-- `column.sort_by(f64::total_cmp)`. -/
def sortTotal (values : List Binary64) : List Binary64 :=
  values.insertionSort fun x y => x.totalKey ≤ y.totalKey

/-- Runs of equal values in a sorted list: the value of the longest, the first
one among equals. State: best value and count, current value and count. -/
def modeRuns (bestValue : Binary64) (bestCount : Nat) (currentValue : Binary64)
    (currentCount : Nat) : List Binary64 → Binary64
  | [] => if bestCount < currentCount then currentValue else bestValue
  | value :: values =>
    if value.eq currentValue then
      modeRuns bestValue bestCount currentValue (currentCount + 1) values
    else if bestCount < currentCount then modeRuns currentValue currentCount value 1 values
    else modeRuns bestValue bestCount value 1 values

def modeSorted : List Binary64 → Binary64
  | [] => .zero
  | value :: values => modeRuns value 1 value 1 values

namespace SampleAccumulator

def new (width : Nat) (storeRows : Bool) : SampleAccumulator where
  sum := .replicate width .zero
  weightedSum := .replicate width .zero
  weightSum := .zero
  rows := []
  firstRow := none
  storeRows := storeRows
  count := 0

def push (self : SampleAccumulator) (row : List Binary64) (weight : Binary64) :
    SampleAccumulator where
  sum := addInto self.sum row id
  weightedSum := addInto self.weightedSum row (·.mul weight)
  weightSum := self.weightSum.add weight
  rows := if self.storeRows then self.rows ++ [row] else self.rows
  firstRow := some (self.firstRow.getD row)
  storeRows := self.storeRows
  count := self.count + 1

def mean (self : SampleAccumulator) : List Binary64 :=
  self.sum.map (·.div (.ofNat self.count))

def weightedMean (self : SampleAccumulator) (unitLabel : String) : Result (List Binary64) := do
  refuseIf (self.weightSum.le .zero)
    (.oofValidation s!"aggregation unit `{unitLabel}` has zero total prediction weight")
  pure (self.weightedSum.map (·.div self.weightSum))

/-- One value for each column. -/
def perColumn (self : SampleAccumulator) (f : List Binary64 → Binary64) : List Binary64 :=
  (List.range self.sum.length).map fun idx => f (sortTotal (column self.rows idx))

def median (self : SampleAccumulator) : List Binary64 :=
  self.perColumn fun values =>
    let middle := values.length / 2
    if values.length % 2 = 1 then values.getD middle .zero
    else ((values.getD (middle - 1) .zero).add (values.getD middle .zero)).div (.ofNat 2)

def vote (self : SampleAccumulator) : List Binary64 := self.perColumn modeSorted

def robustMean (self : SampleAccumulator) (trimFraction : Binary64) : List Binary64 :=
  self.perColumn fun values =>
    let trimCount := ((Binary64.ofNat values.length).mul trimFraction).floorToNat
    let maxTrim := (values.length - 1) / 2
    let trimCount := min trimCount maxTrim
    let kept := (values.drop trimCount).take (values.length - trimCount - trimCount)
    (Binary64.sum kept).div (.ofNat kept.length)

/-- The contribution of one column to the leave-one-out `T²` of a row. -/
def columnT2 (self : SampleAccumulator) (skipIdx : Nat) (row : List Binary64) (idx : Nat) :
    Binary64 :=
  let others := Binary64.ofNat (self.count - 1)
  let meanOthers := ((self.sum.getD idx .zero).sub (row.getD idx .zero)).div others
  let deltas := self.rows.zipIdx.filterMap fun (other, otherIdx) =>
    if otherIdx = skipIdx then none
    else
      let delta := (other.getD idx .zero).sub meanOthers
      some (delta.mul delta)
  let varOthers := (Binary64.sum deltas).div others
  if varOthers.le epsilon then .zero
  else
    let delta := (row.getD idx .zero).sub meanOthers
    (delta.mul delta).div varOthers

def hotellingT2ExcludeMean (self : SampleAccumulator) (threshold : Binary64) :
    Result (List Binary64) := do
  let width := self.sum.length
  refuseIf (self.count = 0) (.oofValidation
    "exclude_outliers aggregation requires at least one prediction")
  if self.count < 3 then pure self.mean
  else
    let kept := self.rows.zipIdx.filterMap fun (row, skipIdx) =>
      let t2 := Binary64.sum ((List.range width).map (self.columnT2 skipIdx row))
      if t2.le threshold then some row else none
    if kept = [] then pure self.mean
    else pure ((List.range width).map fun idx =>
      (Binary64.sum (column kept idx)).div (.ofNat kept.length))

end SampleAccumulator

end DagMl
