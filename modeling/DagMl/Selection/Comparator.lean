import Mathlib
import DagMl.Lib.Binary64
import DagMl.Lib.Sorting

/-!
# Comparing candidates

`compareScores` orders candidates by score and breaks ties by id: by trial
number between two trials of one tuning scope, as strings otherwise. The two
ways to compare ids do not always fit together; `totalOn_iff` says when.
-/

namespace DagMl

open Sorting

inductive MetricObjective
  | minimize
  | maximize
  deriving DecidableEq

/-- `s.rsplit_once(pattern)` on characters, for a pattern that is not empty. -/
def rsplitOnceChars (pattern : List Char) : List Char → Option (List Char × List Char)
  | [] => none
  | c :: cs =>
    match rsplitOnceChars pattern cs with
    | some (before, after) => some (c :: before, after)
    | none =>
      if pattern.isPrefixOf (c :: cs) then some ([], (c :: cs).drop pattern.length) else none

def rsplitOnce (s pattern : String) : Option (String × String) :=
  (rsplitOnceChars pattern.toList s.toList).map fun (before, after) =>
    (.ofList before, .ofList after)

/-- The value of a digit string, if it is one and not empty. -/
def parseDigits (cs : List Char) : Option Nat :=
  if cs ≠ [] ∧ cs.all Char.isDigit then
    some (cs.foldl (fun n c => 10 * n + (c.toNat - '0'.toNat)) 0)
  else none

/-- `s.parse::<u64>()`, which takes a leading plus sign. -/
def parseU64 (s : String) : Option Nat :=
  let digits := match s.toList with
    | '+' :: cs => cs
    | cs => cs
  (parseDigits digits).filter (· < 2 ^ 64)

/-- The scopes whose trials are compared by number. -/
def isTrialScope (scope : String) : Bool :=
  scope = "hpo" || "hpo:scope:".toList.isPrefixOf scope.toList

/-- The order of two ids with one score. -/
def compareIds (left right : String) : Ordering :=
  match rsplitOnce left ":trial:", rsplitOnce right ":trial:" with
  | some (leftScope, leftId), some (rightScope, rightId) =>
    if leftScope = rightScope ∧ isTrialScope leftScope then
      match parseU64 leftId, parseU64 rightId with
      | some leftId, some rightId => (compare leftId rightId).then (compare left right)
      | _, _ => compare left right
    else compare left right
  | _, _ => compare left right

def compareScores (objective : MetricObjective) (left right : String × Binary64) : Ordering :=
  let scoreOrder := match objective with
    | .minimize => left.2.totalCmp right.2
    | .maximize => right.2.totalCmp left.2
  scoreOrder.then (compareIds left.1 right.1)

-- ---------------------------------------------------------------------------
-- Ids
-- ---------------------------------------------------------------------------

/-- The scope and the number of a trial whose number counts in comparisons. -/
def trialOf (id : String) : Option (String × Nat) :=
  match rsplitOnce id ":trial:" with
  | some (scope, number) =>
    if isTrialScope scope then (parseU64 number).map (scope, ·) else none
  | none => none

/-- Two trials of one scope. -/
def SameScope (left right : String) : Prop :=
  ∃ scope n m, trialOf left = some (scope, n) ∧ trialOf right = some (scope, m)

theorem SameScope.symm (h : SameScope left right) : SameScope right left := by
  obtain ⟨scope, n, m, hl, hr⟩ := h
  exact ⟨scope, m, n, hr, hl⟩

theorem SameScope.trans (h : SameScope a b) (h' : SameScope b c) : SameScope a c := by
  obtain ⟨scope, n, m, ha, hb⟩ := h
  obtain ⟨scope', m', k, hb', hc⟩ := h'
  cases hb.symm.trans hb'
  exact ⟨scope, n, k, ha, hc⟩

theorem trialOf_eq_some {id : String} : trialOf id = some (scope, n) ↔ ∃ number,
    rsplitOnce id ":trial:" = some (scope, number) ∧ isTrialScope scope = true ∧
      parseU64 number = some n := by
  unfold trialOf
  split
  · rename_i scope' number h
    split
    · rename_i hs
      simp only [h, Option.map_eq_some_iff, Prod.mk.injEq, Option.some.injEq]
      constructor
      · rintro ⟨k, hk, rfl, rfl⟩
        exact ⟨number, ⟨rfl, rfl⟩, hs, hk⟩
      · rintro ⟨_, ⟨rfl, rfl⟩, -, hk⟩
        exact ⟨n, hk, rfl, rfl⟩
    · rename_i hs
      simp only [h, reduceCtorEq, Option.some.injEq, Prod.mk.injEq, false_iff, not_exists, not_and]
      rintro _ ⟨rfl, -⟩ hs'
      exact absurd hs' hs
  · rename_i h
    simp [h]

/-- Trials of one scope are compared by number first. -/
theorem compareIds_trials (hl : trialOf left = some (scope, n))
    (hr : trialOf right = some (scope, m)) :
    compareIds left right = (compare n m).then (compare left right) := by
  obtain ⟨number, hls, hs, hln⟩ := trialOf_eq_some.mp hl
  obtain ⟨number', hrs, -, hrn⟩ := trialOf_eq_some.mp hr
  unfold compareIds
  rw [hls, hrs]
  simp only [hs, and_self, if_true, hln, hrn]

/-- Any other two ids are compared as strings. -/
theorem compareIds_strings (h : ¬SameScope left right) :
    compareIds left right = compare left right := by
  unfold compareIds
  split
  · rename_i leftScope leftId rightScope rightId hl hr
    split
    · rename_i hs
      split
      · rename_i n m hn hm
        refine absurd ⟨leftScope, n, m, ?_, ?_⟩ h
        · exact trialOf_eq_some.mpr ⟨leftId, hl, hs.2, hn⟩
        · exact trialOf_eq_some.mpr ⟨rightId, hs.1 ▸ hr, hs.2, hm⟩
      · rfl
    · rfl
  · rfl

theorem compareIds_lt : compareIds left right = .lt ↔
    (∃ scope n m, trialOf left = some (scope, n) ∧ trialOf right = some (scope, m) ∧
      (n < m ∨ n = m ∧ left < right)) ∨ ¬SameScope left right ∧ left < right := by
  by_cases h : SameScope left right
  · obtain ⟨scope, n, m, hl, hr⟩ := h
    have hs : SameScope left right := ⟨scope, n, m, hl, hr⟩
    rw [compareIds_trials hl hr, Ordering.then_eq_lt, compare_lt_iff_lt, compare_eq_iff_eq,
      compare_lt_iff_lt]
    simp only [hl, hr, hs, not_true_eq_false, false_and, or_false, Option.some.injEq, Prod.mk.injEq]
    constructor
    · intro hlt
      exact ⟨scope, n, m, ⟨rfl, rfl⟩, ⟨rfl, rfl⟩, hlt⟩
    · rintro ⟨_, _, _, ⟨rfl, rfl⟩, ⟨-, rfl⟩, hlt⟩
      exact hlt
  · rw [compareIds_strings h, compare_lt_iff_lt]
    constructor
    · intro hlt
      exact .inr ⟨h, hlt⟩
    · rintro (⟨scope, n, m, hl, hr, -⟩ | ⟨-, hlt⟩)
      · exact absurd ⟨scope, n, m, hl, hr⟩ h
      · exact hlt

theorem compareIds_eq : compareIds left right = .eq ↔ left = right := by
  constructor
  · intro heq
    by_cases h : SameScope left right
    · obtain ⟨scope, n, m, hl, hr⟩ := h
      rw [compareIds_trials hl hr, Ordering.then_eq_eq, compare_eq_iff_eq, compare_eq_iff_eq] at heq
      exact heq.2
    · rwa [compareIds_strings h, compare_eq_iff_eq] at heq
  · rintro rfl
    by_cases h : SameScope left left
    · obtain ⟨scope, n, m, hl, hr⟩ := h
      cases hl.symm.trans hr
      rw [compareIds_trials hl hr, Ordering.then_eq_eq, compare_eq_iff_eq, compare_eq_iff_eq]
      exact ⟨rfl, rfl⟩
    · rw [compareIds_strings h, compare_eq_iff_eq]

theorem compareIds_swap : compareIds right left = (compareIds left right).swap := by
  have hstring : compare right left = (compare left right).swap := by
    rw [Std.OrientedOrd.eq_swap (a := right)]
  by_cases h : SameScope left right
  · obtain ⟨scope, n, m, hl, hr⟩ := h
    rw [compareIds_trials hl hr, compareIds_trials hr hl, Ordering.swap_then, hstring,
      Std.OrientedOrd.eq_swap (a := m)]
  · rw [compareIds_strings h, compareIds_strings (fun h' => h h'.symm), hstring]

-- ---------------------------------------------------------------------------
-- Candidates
-- ---------------------------------------------------------------------------

/-- A score as an integer that grows as the score gets worse. -/
def scoreKey (objective : MetricObjective) (score : Binary64) : Int :=
  match objective with
  | .minimize => score.totalKey
  | .maximize => -score.totalKey

theorem compareScores_eq_then (objective : MetricObjective) (a b : String × Binary64) :
    compareScores objective a b =
      (compare (scoreKey objective a.2) (scoreKey objective b.2)).then (compareIds a.1 b.1) := by
  cases objective with
  | minimize => rfl
  | maximize =>
    have hneg : compare b.2.totalKey a.2.totalKey = compare (-a.2.totalKey) (-b.2.totalKey) := by
      rcases lt_trichotomy b.2.totalKey a.2.totalKey with h | h | h
      · rw [compare_lt_iff_lt.mpr h, compare_lt_iff_lt.mpr (Int.neg_lt_neg h)]
      · rw [h]
        exact (compare_eq_iff_eq.mpr rfl).trans (compare_eq_iff_eq.mpr rfl).symm
      · rw [compare_gt_iff_gt.mpr h, compare_gt_iff_gt.mpr (Int.neg_lt_neg h)]
    exact congrArg (·.then (compareIds a.1 b.1)) hneg

theorem scoreKey_inj : scoreKey objective x = scoreKey objective y ↔ x = y := by
  cases objective with
  | minimize => exact Binary64.totalKey_inj
  | maximize => exact neg_inj.trans Binary64.totalKey_inj

theorem compareScores_lt : compareScores objective a b = .lt ↔
    scoreKey objective a.2 < scoreKey objective b.2 ∨
      a.2 = b.2 ∧ compareIds a.1 b.1 = .lt := by
  rw [compareScores_eq_then, Ordering.then_eq_lt, compare_lt_iff_lt, compare_eq_iff_eq,
    scoreKey_inj]

/-- Only a candidate itself compares equal to it. -/
theorem compareScores_eq : compareScores objective a b = .eq ↔ a = b := by
  rw [compareScores_eq_then, Ordering.then_eq_eq, compare_eq_iff_eq, scoreKey_inj, compareIds_eq,
    Prod.ext_iff, and_comm]

theorem compareScores_swap : compareScores objective b a = (compareScores objective a b).swap := by
  rw [compareScores_eq_then, compareScores_eq_then, Ordering.swap_then, compareIds_swap,
    Std.OrientedOrd.eq_swap (a := scoreKey objective b.2)]

/-- With one score, two trials of one scope whose numbers order them against
their ids, and an id outside the scope between the two. -/
def Crossing (scored : List (String × Binary64)) : Prop :=
  ∃ a ∈ scored, ∃ b ∈ scored, ∃ c ∈ scored, a.2 = b.2 ∧ b.2 = c.2 ∧
    ∃ scope n m, trialOf a.1 = some (scope, n) ∧ trialOf b.1 = some (scope, m) ∧ n < m ∧
      b.1 < c.1 ∧ c.1 < a.1 ∧ ∀ k, trialOf c.1 ≠ some (scope, k)

/-- Ids alone are compared transitively unless three of them cross. -/
theorem compareIds_lt_trans
    (hcross : ∀ x ∈ [a, b, c], ∀ y ∈ [a, b, c], ∀ z ∈ [a, b, c], ∀ scope n m,
      trialOf x = some (scope, n) → trialOf y = some (scope, m) → n < m → y < z → z < x →
        ∃ k, trialOf z = some (scope, k))
    (hab : compareIds a b = .lt) (hbc : compareIds b c = .lt) : compareIds a c = .lt := by
  rw [compareIds_lt] at *
  rcases hab with ⟨scope, n, m, ha, hb, hab⟩ | ⟨hnab, hab⟩
  · rcases hbc with ⟨scope', m', k, hb', hc, hbc⟩ | ⟨hnbc, hbc⟩
    · -- Three trials of one scope.
      cases hb.symm.trans hb'
      refine .inl ⟨scope, n, k, ha, hc, ?_⟩
      rcases hab with hab | ⟨rfl, hab⟩
      · exact .inl (hbc.elim (hab.trans ·) (·.1 ▸ hab))
      · exact hbc.imp id fun h => ⟨h.1, hab.trans h.2⟩
    · -- Only `a` and `b` share a scope.
      have hnac : ¬SameScope a c := fun h => hnbc ((SameScope.symm ⟨scope, n, m, ha, hb⟩).trans h)
      refine .inr ⟨hnac, ?_⟩
      rcases hab with hab | ⟨-, hab⟩
      · by_contra hac
        have hne : c ≠ a := fun h => hnac ⟨scope, n, n, ha, h ▸ ha⟩
        obtain ⟨k, hk⟩ := hcross a (by simp) b (by simp) c (by simp) scope n m ha hb hab hbc
          (lt_of_le_of_ne (not_lt.mp hac) hne)
        exact hnbc ⟨scope, m, k, hb, hk⟩
      · exact hab.trans hbc
  · rcases hbc with ⟨scope, n, m, hb, hc, hbc⟩ | ⟨hnbc, hbc⟩
    · -- Only `b` and `c` share a scope.
      have hnac : ¬SameScope a c := fun h => hnab (h.trans ⟨scope, m, n, hc, hb⟩)
      refine .inr ⟨hnac, ?_⟩
      rcases hbc with hbc | ⟨-, hbc⟩
      · by_contra hac
        have hne : c ≠ a := fun h => hnac ⟨scope, m, m, h ▸ hc, hc⟩
        obtain ⟨k, hk⟩ := hcross b (by simp) c (by simp) a (by simp) scope n m hb hc hbc
          (lt_of_le_of_ne (not_lt.mp hac) hne) hab
        exact hnab ⟨scope, k, n, hk, hb⟩
      · exact hab.trans hbc
    · have hac : a < c := hab.trans hbc
      by_cases hs : SameScope a c
      · -- Only `a` and `c` share a scope.
        obtain ⟨scope, n, m, ha, hc⟩ := hs
        refine .inl ⟨scope, n, m, ha, hc, ?_⟩
        rcases lt_trichotomy n m with h | h | h
        · exact .inl h
        · exact .inr ⟨h, hac⟩
        · obtain ⟨k, hk⟩ := hcross c (by simp) a (by simp) b (by simp) scope m n hc ha h hab hbc
          exact absurd ⟨scope, n, k, ha, hk⟩ hnab
      · exact .inr ⟨hs, hac⟩

/-- The comparator is a total order exactly when no three candidates cross. -/
theorem totalOn_iff : TotalOn (compareScores objective) scored ↔ ¬Crossing scored := by
  constructor
  · rintro h ⟨a, ha, b, hb, c, hc, hsab, hsbc, scope, n, m, hta, htb, hnm, hbc, hca, htc⟩
    have hnot (x : String) (k : Nat) (hx : trialOf x = some (scope, k)) : ¬SameScope x c.1 := by
      rintro ⟨scope', _, k', hx', hc'⟩
      cases hx.symm.trans hx'
      exact htc k' hc'
    have hlab : compareScores objective a b = .lt :=
      compareScores_lt.mpr (.inr ⟨hsab, compareIds_lt.mpr
        (.inl ⟨scope, n, m, hta, htb, .inl hnm⟩)⟩)
    have hlbc : compareScores objective b c = .lt :=
      compareScores_lt.mpr (.inr ⟨hsbc, compareIds_lt.mpr (.inr ⟨hnot b.1 m htb, hbc⟩)⟩)
    have hlca : compareScores objective c a = .lt :=
      compareScores_lt.mpr (.inr ⟨(hsab.trans hsbc).symm, compareIds_lt.mpr
        (.inr ⟨fun hs => hnot a.1 n hta hs.symm, hca⟩)⟩)
    have hlac := h.lt_trans a ha b hb c hc hlab hlbc
    rw [h.swap a ha c hc, hlac] at hlca
    cases hlca
  · intro hcross
    refine ⟨fun a _ b _ => compareScores_swap, fun a ha b hb c hc hab hbc => ?_,
      fun a _ b _ c _ hab hbc => ?_⟩
    · rw [compareScores_lt] at *
      rcases hab with hab | ⟨hsab, hab⟩
      · exact .inl (hbc.elim (hab.trans ·) (·.1 ▸ hab))
      · rcases hbc with hbc | ⟨hsbc, hbc⟩
        · exact .inl (hsab ▸ hbc)
        · refine .inr ⟨hsab.trans hsbc, compareIds_lt_trans ?_ hab hbc⟩
          intro x hx y hy z hz scope n m htx hty hnm hyz hzx
          have lift (w : String) (hw : w ∈ [a.1, b.1, c.1]) : ∃ p ∈ scored, p.1 = w ∧ p.2 = a.2 := by
            simp only [List.mem_cons, List.not_mem_nil, or_false] at hw
            rcases hw with rfl | rfl | rfl
            · exact ⟨a, ha, rfl, rfl⟩
            · exact ⟨b, hb, rfl, hsab.symm⟩
            · exact ⟨c, hc, rfl, (hsab.trans hsbc).symm⟩
          obtain ⟨p, hp, rfl, hps⟩ := lift x hx
          obtain ⟨q, hq, rfl, hqs⟩ := lift y hy
          obtain ⟨r, hr, rfl, hrs⟩ := lift z hz
          by_contra hno
          rw [not_exists] at hno
          exact hcross ⟨p, hp, q, hq, r, hr, hps.trans hqs.symm, hqs.trans hrs.symm, scope, n, m,
            htx, hty, hnm, hyz, hzx, hno⟩
    · rw [compareScores_eq] at *
      exact hab.trans hbc

end DagMl
