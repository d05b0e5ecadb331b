import Mathlib
import DagMl.Generation.Variant
import DagMl.Lib.Odometer

/-!
# Enumerating variants

The product of the dimensions, or their zip, filtered by the constraints. A
candidate is read as the position it takes in the dimensions: candidates are
held against the odometer's positions, so the result has every allowed
assignment once, in order.
-/

namespace DagMl

open Checked

-- ---------------------------------------------------------------------------
-- Candidates
-- ---------------------------------------------------------------------------

/-- One turn of the loop over the dimensions. -/
def extendChoices (variants : List Choices) (dimension : GenerationDimension) : List Choices :=
  variants.flatMap fun existing => dimension.choices.map fun choice =>
    existing.insert dimension.name choice

def cartesianChoices (dimensions : List GenerationDimension) : List Choices :=
  dimensions.foldl extendChoices [∅]

/-- `(dimension.name.clone(), dimension.choices[idx].clone())`. -/
def choiceAt (idx : Nat) (dimension : GenerationDimension) : Result (String × GenerationChoice) :=
  match dimension.choices[idx]? with
  | some choice => .ok (dimension.name, choice)
  | none => .error (.panicked
      s!"index out of bounds: the len is {dimension.choices.length} but the index is {idx}")

def zipChoices (dimensions : List GenerationDimension) : Result (List Choices) := do
  let len := (dimensions.head?.map (·.choices.length)).getD 0
  collect (List.range len) fun idx => do
    let entries ← collect dimensions (choiceAt idx)
    pure (BTreeMap.collect entries)

-- ---------------------------------------------------------------------------
-- Constraints
-- ---------------------------------------------------------------------------

def constraintsSatisfied (present : ChoiceRef → Bool) (constraints : GenerationConstraints) : Bool :=
  !(constraints.mutex.any fun group => group.all present) &&
    !(constraints.requires.any fun pair => present pair.1 && !present pair.2) &&
      !(constraints.exclude.any fun pair => present pair.1 && present pair.2)

def isPresent (choices : Choices) (reference : ChoiceRef) : Bool :=
  choices[reference.dimension]?.any (·.label = reference.label)

def satisfiesConstraints (constraints : GenerationConstraints) (choices : Choices) : Bool :=
  constraintsSatisfied (isPresent choices) constraints

-- ---------------------------------------------------------------------------
-- Enumeration
-- ---------------------------------------------------------------------------

namespace GenerationSpec

/-- `a.checked_mul(b)`. -/
def checkedMul (a b : Nat) : Option Nat := if a * b < 2 ^ 64 then some (a * b) else none

/-- The size of the product before pruning, `none` when it overflows. -/
def cardinality (self : GenerationSpec) : Result (Option Nat) :=
  match self.strategy with
  | .none => .ok (some 1)
  | .zip => do
    let width ← self.firstWidth
    pure (some width)
  | .cartesian => .ok (self.dimensions.foldl
      (fun n d => n.bind (checkedMul · d.choices.length)) (some 1))

/-- How many assignments may be allocated. -/
def limit (self : GenerationSpec) : Nat :=
  if self.constraints.isEmpty then min (self.maxVariants.getD 10000) 10000 else 10000

def candidates (self : GenerationSpec) : Result (List Choices) :=
  match self.strategy with
  | .none => .ok [∅]
  | .cartesian => .ok (cartesianChoices self.dimensions)
  | .zip => zipChoices self.dimensions

def prune (self : GenerationSpec) (variants : List Choices) : Result (List Choices) :=
  if self.constraints.isEmpty then .ok variants
  else do
    let kept := variants.filter (satisfiesConstraints self.constraints)
    refuseIf (kept.isEmpty) (.campaignValidation "generation constraints pruned every variant")
    pure kept

def exceedsLimit (self : GenerationSpec) : DagMlError :=
  .campaignValidation s!"generation product exceeds allocation limit {self.limit}"

def enumerateVariants (floats : FloatWriter) (sha256 : Digest) (spec : GenerationSpec)
    (rootSeed : Option UInt64) : Result (List VariantPlan) := do
  spec.validate
  let cardinality ← spec.cardinality
  refuseIf (∀ n ∈ cardinality, spec.limit < n) spec.exceedsLimit
  let variants ← spec.candidates
  let variants ← spec.prune variants
  whenSome spec.maxVariants fun maxVariants =>
    refuseIf (maxVariants < variants.length) (.campaignValidation
      s!"generation produced {variants.length} variants, above max_variants={maxVariants}")
  collect variants (variantFromChoices floats sha256 rootSeed)

end GenerationSpec

-- ---------------------------------------------------------------------------
-- Positions
-- ---------------------------------------------------------------------------

/-- `choices` is the choice at `position` in every dimension, and nothing else. -/
structure Takes (dimensions : List GenerationDimension) (position : List Nat) (choices : Choices) :
    Prop where
  taken : List.Forall₂ (fun d i => ∃ c, d.choices[i]? = some c ∧ choices[d.name]? = some c)
    dimensions position
  only : ∀ name : String, name ∈ choices → name ∈ dimensions.map (·.name)

section Takes

variable {dimensions : List GenerationDimension} {p q : List Nat} {m m' : Choices}

theorem Takes.unique (h : Takes dimensions p m) (h' : Takes dimensions p m') : m = m' := by
  apply BTreeMap.ext
  intro name
  by_cases hname : name ∈ dimensions.map (·.name)
  · obtain ⟨d, hd, rfl⟩ := List.mem_map.mp hname
    obtain ⟨k, hk, rfl⟩ := List.getElem_of_mem hd
    obtain ⟨hlength, hget⟩ := List.forall₂_iff_get.mp h.taken
    obtain ⟨c, hc, hm⟩ := hget k hk (hlength ▸ hk)
    obtain ⟨c', hc', hm'⟩ := (List.forall₂_iff_get.mp h'.taken).2 k hk (hlength ▸ hk)
    rw [hc] at hc'
    exact hm.trans (hc'.trans hm'.symm)
  · have hnone {n : Choices} (hn : Takes dimensions p n) : n[name]? = none := by
      by_contra hsome
      obtain ⟨c, hc⟩ := Option.ne_none_iff_exists'.mp hsome
      exact hname (hn.only name (BTreeMap.mem_iff.mpr ⟨c, hc⟩))
    rw [hnone h, hnone h']

/-- Distinct labels tell two positions of one dimension apart. -/
theorem index_unique {d : GenerationDimension} {i j : Nat} (hn : (d.choices.map (·.label)).Nodup)
    (hi : d.choices[i]? = some c) (hj : d.choices[j]? = some c) : i = j := by
  have hnodup := List.Nodup.of_map _ hn
  obtain ⟨hil, hi⟩ := List.getElem?_eq_some_iff.mp hi
  obtain ⟨hjl, hj⟩ := List.getElem?_eq_some_iff.mp hj
  exact (hnodup.getElem_inj_iff).mp (hi.trans hj.symm)

theorem Takes.position_unique
    (hlabels : ∀ d ∈ dimensions, (d.choices.map (·.label)).Nodup)
    (h : Takes dimensions p m) (h' : Takes dimensions q m) : p = q := by
  obtain ⟨hp, hget⟩ := List.forall₂_iff_get.mp h.taken
  obtain ⟨hq, hget'⟩ := List.forall₂_iff_get.mp h'.taken
  apply List.ext_get (hp.symm.trans hq)
  intro k hk hk'
  obtain ⟨c, hc, hm⟩ := hget k (hp ▸ hk) hk
  obtain ⟨c', hc', hm'⟩ := hget' k (hp ▸ hk) hk'
  rw [hm, Option.some.injEq] at hm'
  subst hm'
  exact index_unique (hlabels _ (List.get_mem _ _)) hc hc'

theorem takes_nil : Takes [] [] ∅ where
  taken := .nil
  only name h := by simp at h

/-- A choice in one more dimension leaves the earlier ones. -/
theorem Takes.concat {d : GenerationDimension} (h : Takes dimensions p m)
    (hname : d.name ∉ dimensions.map (·.name)) (hc : d.choices[i]? = some c) :
    Takes (dimensions ++ [d]) (p ++ [i]) (m.insert d.name c) where
  taken := by
    refine List.rel_append ?_ (.cons ⟨c, hc, by simp⟩ .nil)
    refine (List.forall₂_iff_get.mpr ?_)
    obtain ⟨hlength, hget⟩ := List.forall₂_iff_get.mp h.taken
    refine ⟨hlength, fun k hk hk' => ?_⟩
    obtain ⟨c', hc', hm⟩ := hget k hk hk'
    have hne : d.name ≠ (dimensions.get ⟨k, hk⟩).name := fun heq =>
      hname (heq ▸ List.mem_map_of_mem (List.get_mem _ _))
    exact ⟨c', hc', by rw [BTreeMap.getElem?_insert, if_neg hne, hm]⟩
  only name hm := by
    rw [BTreeMap.mem_iff] at hm
    obtain ⟨c', hc'⟩ := hm
    rw [BTreeMap.getElem?_insert] at hc'
    rw [List.map_append, List.mem_append, List.map_singleton, List.mem_singleton]
    split at hc'
    · rename_i heq
      exact .inr heq.symm
    · exact .inl (h.only name (BTreeMap.mem_iff.mpr ⟨c', hc'⟩))

end Takes

theorem cartesianChoices_takes {dimensions : List GenerationDimension}
    (hnames : (dimensions.map (·.name)).Nodup) :
    List.Forall₂ (Takes dimensions) (Odometer.positions (dimensions.map (·.choices.length)))
      (cartesianChoices dimensions) := by
  induction dimensions using List.reverseRecOn with
  | nil => exact .cons takes_nil .nil
  | append_singleton dimensions d ih =>
    rw [List.map_append, List.map_singleton, ← List.concat_eq_append, List.nodup_concat] at hnames
    rw [List.map_append, List.map_singleton, Odometer.positions_concat, cartesianChoices,
      List.foldl_append]
    refine List.rel_flatMap (ih hnames.2) ?_
    intro p m hm
    refine List.forall₂_iff_get.mpr ⟨by simp, fun k hk hk' => ?_⟩
    have hlt : k < d.choices.length := by simpa using hk'
    simpa using hm.concat hnames.1 (List.getElem?_eq_getElem hlt)

theorem choiceAt_ok : choiceAt idx d = .ok e ↔ ∃ c, d.choices[idx]? = some c ∧ e = (d.name, c) := by
  cases h : d.choices[idx]? <;> simp [choiceAt, h, eq_comm]

theorem collect_choiceAt_takes {dimensions : List GenerationDimension}
    (hnames : (dimensions.map (·.name)).Nodup)
    (h : collect dimensions (choiceAt idx) = .ok entries) :
    Takes dimensions (List.replicate dimensions.length idx) (BTreeMap.collect entries) := by
  obtain ⟨hlength, hget⟩ := List.forall₂_iff_get.mp (collect_ok.mp h)
  have hkeys : entries.map Prod.fst = dimensions.map (·.name) := by
    apply List.ext_get (by simp [hlength])
    intro k hk hk'
    obtain ⟨c, -, he⟩ := choiceAt_ok.mp (hget k (by simpa using hk') (by simpa using hk))
    simpa using congrArg Prod.fst he
  have hfun := BTreeMap.functional_of_nodup (hkeys ▸ hnames)
  constructor
  · refine List.forall₂_iff_get.mpr ⟨by simp, fun k hk _ => ?_⟩
    obtain ⟨c, hc, he⟩ := choiceAt_ok.mp (hget k hk (hlength ▸ hk))
    refine ⟨c, by simpa using hc, ?_⟩
    rw [BTreeMap.getElem?_collect hfun]
    exact he ▸ List.get_mem _ _
  · intro name hname
    obtain ⟨c, hc⟩ := BTreeMap.mem_iff.mp hname
    rw [BTreeMap.getElem?_collect hfun] at hc
    exact hkeys ▸ List.mem_map_of_mem hc

/-- The positions the declared strategy combines. -/
def GenerationSpec.Admissible (spec : GenerationSpec) (p : List Nat) : Prop :=
  List.Forall₂ (fun i d => i < d.choices.length) p spec.dimensions ∧
    (spec.strategy = .zip → ∀ i ∈ p, ∀ j ∈ p, i = j)

/-- The candidates of every admissible position, in order. -/
structure GenerationSpec.Lists (spec : GenerationSpec) (positions : List (List Nat))
    (variants : List Choices) : Prop where
  ordered : positions.Pairwise (· < ·)
  admissible : ∀ p, p ∈ positions ↔ spec.Admissible p
  takes : List.Forall₂ (Takes spec.dimensions) positions variants

theorem zip_lists {spec : GenerationSpec} (hv : spec.Valid) (hzip : spec.strategy = .zip)
    (h : zipChoices spec.dimensions = .ok variants) : ∃ positions, spec.Lists positions variants := by
  obtain ⟨first, rest, hdims⟩ := List.exists_cons_of_ne_nil (hv.nonempty (by simp [hzip]))
  have hfirst : first ∈ spec.dimensions := by simp [hdims]
  have hlen : (spec.dimensions.head?.map (·.choices.length)).getD 0 = first.choices.length := by
    simp [hdims]
  rw [zipChoices, hlen, collect_ok] at h
  refine ⟨(List.range first.choices.length).map (List.replicate spec.dimensions.length), ?_, ?_, ?_⟩
  · rw [List.pairwise_map, hdims]
    exact List.pairwise_lt_range.imp fun hlt => List.cons_lt_cons_iff.mpr (.inl hlt)
  · intro p
    rw [List.mem_map]
    constructor
    · rintro ⟨i, hi, rfl⟩
      refine ⟨List.forall₂_iff_get.mpr ⟨by simp, fun k _ hk => ?_⟩, fun _ i hi j hj => ?_⟩
      · have hwidth := hv.widths hzip _ (List.get_mem spec.dimensions ⟨k, hk⟩) first hfirst
        have hlt : i < spec.dimensions[k].choices.length := hwidth ▸ List.mem_range.mp hi
        simpa using hlt
      · rw [List.eq_of_mem_replicate hi, List.eq_of_mem_replicate hj]
    · rintro ⟨hwidths, hsame⟩
      rw [hdims] at hwidths ⊢
      obtain ⟨i, p', hi, -, rfl⟩ := List.forall₂_cons_right_iff.mp hwidths
      refine ⟨i, List.mem_range.mpr hi, (List.eq_replicate_iff.mpr ⟨hwidths.length_eq, ?_⟩).symm⟩
      exact fun j hj => hsame hzip j hj i List.mem_cons_self
  · rw [List.forall₂_map_left_iff]
    refine h.imp fun idx choices hidx => ?_
    simp only [bind_ok, pure_ok] at hidx
    obtain ⟨entries, hentries, rfl⟩ := hidx
    exact collect_choiceAt_takes hv.names hentries

theorem cartesian_lists {spec : GenerationSpec} (hv : spec.Valid) (hzip : spec.strategy ≠ .zip) :
    spec.Lists (Odometer.positions (spec.dimensions.map (·.choices.length)))
      (cartesianChoices spec.dimensions) where
  ordered := Odometer.pairwise_positions _
  admissible p := by
    rw [Odometer.mem_positions, List.forall₂_map_right_iff, GenerationSpec.Admissible]
    exact (and_iff_left fun hz => (hzip hz).elim).symm
  takes := cartesianChoices_takes hv.names

/-- Every strategy lists the candidates of its admissible positions. -/
theorem candidates_lists {spec : GenerationSpec} (hv : spec.Valid)
    (h : spec.candidates = .ok variants) : ∃ positions, spec.Lists positions variants := by
  unfold GenerationSpec.candidates at h
  split at h
  · rename_i hnone
    cases h
    have hlists := cartesian_lists hv (by simp [hnone])
    rw [hv.none hnone] at hlists
    exact ⟨_, hlists⟩
  · rename_i hcartesian
    cases h
    exact ⟨_, cartesian_lists hv (by simp [hcartesian])⟩
  · rename_i hzip
    exact zip_lists hv hzip h

-- ---------------------------------------------------------------------------
-- Assignments
-- ---------------------------------------------------------------------------

/-- A choice assignment of the declared strategy. -/
def GenerationSpec.Assignment (spec : GenerationSpec) (choices : Choices) : Prop :=
  ∃ p, spec.Admissible p ∧ Takes spec.dimensions p choices

/-- `m` comes before `m'` in the order of the dimensions and of their choices. -/
def GenerationSpec.Before (spec : GenerationSpec) (m m' : Choices) : Prop :=
  ∀ p p', Takes spec.dimensions p m → Takes spec.dimensions p' m' → p < p'

/-- Exactly the assignments in `P`, each one once, in order. -/
structure GenerationSpec.Enumerates (spec : GenerationSpec) (P : Choices → Prop)
    (variants : List Choices) : Prop where
  mem_iff : ∀ m, m ∈ variants ↔ spec.Assignment m ∧ P m
  nodup : variants.Nodup
  ordered : variants.Pairwise spec.Before

theorem GenerationSpec.Lists.enumerates {spec : GenerationSpec} (hv : spec.Valid)
    (h : spec.Lists positions variants) : spec.Enumerates (fun _ => True) variants := by
  have hordered : variants.Pairwise spec.Before := by
    obtain ⟨hlength, hget⟩ := List.forall₂_iff_get.mp h.takes
    rw [List.pairwise_iff_getElem]
    intro i j hi hj hij p p' hp hp'
    have hlt := List.pairwise_iff_getElem.mp h.ordered i j (hlength ▸ hi) (hlength ▸ hj) hij
    rw [hp.position_unique hv.labels (hget i (hlength ▸ hi) hi),
      hp'.position_unique hv.labels (hget j (hlength ▸ hj) hj)]
    exact hlt
  refine ⟨fun m => ?_, ?_, hordered⟩
  · rw [and_true]
    constructor
    · intro hm
      obtain ⟨p, hp, htakes⟩ := exists_left_of_mem h.takes hm
      exact ⟨p, (h.admissible p).mp hp, htakes⟩
    · rintro ⟨p, hp, htakes⟩
      obtain ⟨m', hm', htakes'⟩ := exists_right_of_mem h.takes ((h.admissible p).mpr hp)
      exact htakes.unique htakes' ▸ hm'
  · refine hordered.imp_of_mem fun {m m'} hm _ hbefore => ?_
    rintro rfl
    obtain ⟨p, -, htakes⟩ := exists_left_of_mem h.takes hm
    exact lt_irrefl p (hbefore p p htakes htakes)

/-- Filtering keeps the order and each assignment once. -/
theorem GenerationSpec.Enumerates.filter {spec : GenerationSpec} {P : Choices → Prop}
    {keep : Choices → Bool} (h : spec.Enumerates (fun _ => True) variants)
    (hkeep : ∀ m, keep m = true ↔ P m) : spec.Enumerates P (variants.filter keep) where
  mem_iff m := by
    rw [List.mem_filter, h.mem_iff, and_true, hkeep]
  nodup := h.nodup.filter _
  ordered := h.ordered.filter _

-- ---------------------------------------------------------------------------
-- What the constraints say
-- ---------------------------------------------------------------------------

/-- The referenced choice is the one taken. -/
def Has (choices : Choices) (reference : ChoiceRef) : Prop :=
  ∃ choice, choices[reference.dimension]? = some choice ∧ choice.label = reference.label

/-- No group is taken whole, what a choice requires is taken with it, and no
excluded pair is taken together. -/
structure GenerationConstraints.Allows (constraints : GenerationConstraints) (choices : Choices) :
    Prop where
  mutex : ∀ group ∈ constraints.mutex, ∃ reference ∈ group, ¬Has choices reference
  requires : ∀ pair ∈ constraints.requires, Has choices pair.1 → Has choices pair.2
  exclude : ∀ pair ∈ constraints.exclude, ¬(Has choices pair.1 ∧ Has choices pair.2)

theorem isPresent_iff : isPresent choices reference = true ↔ Has choices reference := by
  simp [isPresent, Has, Option.any_eq_true]

theorem satisfiesConstraints_iff {constraints : GenerationConstraints} :
    satisfiesConstraints constraints choices = true ↔ constraints.Allows choices := by
  have hpresent (reference : ChoiceRef) :
      isPresent choices reference = false ↔ ¬Has choices reference := by
    rw [← isPresent_iff, Bool.not_eq_true]
  simp only [satisfiesConstraints, constraintsSatisfied, Bool.and_eq_true, Bool.not_eq_true',
    List.any_eq_false, List.all_eq_true, not_forall, not_and, isPresent_iff, hpresent, not_not,
    exists_prop]
  constructor
  · rintro ⟨⟨hmutex, hrequires⟩, hexclude⟩
    exact ⟨hmutex, hrequires, fun pair hp h => hexclude pair hp h.1 h.2⟩
  · intro h
    exact ⟨⟨h.mutex, h.requires⟩, fun pair hp hl hr => h.exclude pair hp ⟨hl, hr⟩⟩

theorem allows_of_isEmpty {constraints : GenerationConstraints} (h : constraints.isEmpty = true)
    (choices : Choices) : constraints.Allows choices := by
  simp only [GenerationConstraints.isEmpty, Bool.and_eq_true, List.isEmpty_iff] at h
  obtain ⟨⟨hm, hr⟩, he⟩ := h
  exact ⟨by simp [hm], by simp [hr], by simp [he]⟩

/-- One pass prunes what three passes prune, one for each kind of constraint. -/
theorem filter_constraintsSatisfied {α : Type} (constraints : GenerationConstraints)
    (present : α → ChoiceRef → Bool) (variants : List α) :
    variants.filter (fun v => constraintsSatisfied (present v) constraints) =
      ((variants.filter fun v => constraintsSatisfied (present v) { mutex := constraints.mutex }).filter
        fun v => constraintsSatisfied (present v) { requires := constraints.requires }).filter
        fun v => constraintsSatisfied (present v) { exclude := constraints.exclude } := by
  rw [List.filter_filter, List.filter_filter]
  congr 1
  funext v
  simp only [constraintsSatisfied, List.any_nil, Bool.not_false, Bool.and_true, Bool.true_and]
  rw [Bool.and_comm, Bool.and_comm (!constraints.mutex.any _), Bool.and_assoc]

-- ---------------------------------------------------------------------------
-- The enumeration cap
-- ---------------------------------------------------------------------------

namespace GenerationSpec

/-- A list the enumeration holds before the filter: the product after some of
the dimensions, or the finished candidates. -/
def Materialises (spec : GenerationSpec) (variants : List Choices) : Prop :=
  (spec.strategy = .cartesian ∧ ∃ k, variants = cartesianChoices (spec.dimensions.take k)) ∨
    spec.candidates = .ok variants

theorem limit_le (spec : GenerationSpec) : spec.limit ≤ 10000 := by
  unfold limit
  split
  · exact Nat.min_le_right _ _
  · exact le_refl _

theorem length_cartesianChoices (dimensions : List GenerationDimension) :
    (cartesianChoices dimensions).length = (dimensions.map (·.choices.length)).prod := by
  induction dimensions using List.reverseRecOn with
  | nil => rfl
  | append_singleton dimensions d ih =>
    rw [cartesianChoices, List.foldl_append, ← cartesianChoices]
    simp [extendChoices, ih]

theorem checkedMul_fold {widths : List Nat} {start n : Nat}
    (h : widths.foldl (fun n w => n.bind (checkedMul · w)) (some start) = some n) :
    n = start * widths.prod := by
  induction widths generalizing start with
  | nil => simpa [eq_comm] using h
  | cons w ws ih =>
    rw [List.foldl_cons, Option.bind_some, checkedMul] at h
    split at h
    · rw [ih h, List.prod_cons, Nat.mul_assoc]
    · have hnone (l : List Nat) :
          l.foldl (fun n w => n.bind (checkedMul · w)) (none : Option Nat) = none := by
        induction l with
        | nil => rfl
        | cons _ _ ih => exact ih
      rw [hnone] at h
      cases h

/-- Validated dimensions only grow the product. -/
theorem prod_take_le {widths : List Nat} (hpos : ∀ w ∈ widths, 0 < w) (k : Nat) :
    (widths.take k).prod ≤ widths.prod := by
  conv_rhs => rw [← List.take_append_drop k widths, List.prod_append]
  exact Nat.le_mul_of_pos_right _
    (List.prod_pos fun w hw => hpos w (List.mem_of_mem_drop hw))

/-- What passes the check on the product stays below the limit throughout. -/
theorem materialises_le {spec : GenerationSpec} (hv : spec.Valid)
    (hc : spec.cardinality = .ok (some n)) (hn : n ≤ spec.limit)
    (h : spec.Materialises variants) : variants.length ≤ spec.limit := by
  refine le_trans ?_ hn
  have hcartesian (hs : spec.strategy = .cartesian) :
      n = (spec.dimensions.map (·.choices.length)).prod := by
    simp only [cardinality, hs, Except.ok.injEq] at hc
    rw [← List.foldl_map (g := fun (n : Option Nat) w => n.bind (checkedMul · w))] at hc
    simpa using checkedMul_fold hc
  rcases h with ⟨hs, k, rfl⟩ | h
  · rw [hcartesian hs, length_cartesianChoices, List.map_take]
    refine prod_take_le ?_ k
    simp only [List.forall_mem_map]
    exact fun d hd => List.length_pos_iff.mpr (hv.choices d hd)
  · unfold candidates at h
    split at h
    · rename_i hs
      cases h
      simp only [cardinality, hs, Except.ok.injEq, Option.some.injEq] at hc
      simp [← hc]
    · rename_i hs
      cases h
      rw [hcartesian hs, length_cartesianChoices]
    · rename_i hs
      simp only [cardinality, hs, bind_ok, pure_ok, Option.some.injEq] at hc
      obtain ⟨width, hwidth, rfl⟩ := hc
      rw [zipChoices, collect_ok] at h
      have hlength := h.length_eq
      unfold firstWidth at hwidth
      split at hwidth
      · cases hwidth
      · rename_i hd
        cases hwidth
        simpa [hd] using hlength.ge

-- ---------------------------------------------------------------------------
-- Exactness
-- ---------------------------------------------------------------------------

theorem prune_enumerates {spec : GenerationSpec} {candidates variants : List Choices}
    (h : spec.Enumerates (fun _ => True) candidates) (hp : spec.prune candidates = .ok variants) :
    spec.Enumerates spec.constraints.Allows variants := by
  unfold prune at hp
  split at hp
  · rename_i hempty
    cases hp
    have hall (m : Choices) : spec.constraints.Allows m ↔ True :=
      iff_true_intro (allows_of_isEmpty hempty m)
    exact { h with mem_iff := fun m => by rw [h.mem_iff, hall] }
  · simp only [bind_ok, pure_ok] at hp
    obtain ⟨_, -, rfl⟩ := hp
    exact h.filter fun m => satisfiesConstraints_iff

theorem cardinality_ok {spec : GenerationSpec} (hv : spec.Valid) : ∃ n, spec.cardinality = .ok n := by
  unfold cardinality
  split
  · exact ⟨_, rfl⟩
  · rename_i hzip
    obtain ⟨d, ds, hd⟩ := List.exists_cons_of_ne_nil (hv.nonempty (by simp [hzip]))
    exact ⟨some d.choices.length, by simp [firstWidth, hd]⟩
  · exact ⟨_, rfl⟩

/-- Every allowed assignment once and in order; one filter for three; and no
list longer than the limit before it. -/
theorem enumerateVariants_exact (floats : FloatWriter) (sha256 : Digest) (spec : GenerationSpec)
    (rootSeed : Option UInt64) (hvalid : spec.validate = .ok ()) :
    (∀ variants, spec.enumerateVariants floats sha256 rootSeed = .ok variants →
      spec.Enumerates spec.constraints.Allows (variants.map (·.choices))) ∧
    (∀ candidates : List Choices, candidates.filter (satisfiesConstraints spec.constraints) =
      ((candidates.filter (satisfiesConstraints { mutex := spec.constraints.mutex })).filter
        (satisfiesConstraints { requires := spec.constraints.requires })).filter
        (satisfiesConstraints { exclude := spec.constraints.exclude })) ∧
    spec.limit ≤ 10000 ∧
    (spec.enumerateVariants floats sha256 rootSeed = .error spec.exceedsLimit ∨
      ∀ variants, spec.Materialises variants → variants.length ≤ spec.limit) := by
  have hv := validate_ok hvalid
  refine ⟨fun variants h => ?_, fun candidates => ?_, limit_le spec, ?_⟩
  · simp only [enumerateVariants, bind_ok] at h
    obtain ⟨_, -, _, -, _, -, candidates, hcandidates, kept, hkept, _, -, h⟩ := h
    obtain ⟨positions, hlists⟩ := candidates_lists hv hcandidates
    have hchoices : variants.map (·.choices) = kept := by
      rw [← List.forall₂_eq_eq_eq, List.forall₂_map_left_iff]
      exact (collect_ok.mp h).flip.imp fun _ _ hm => variantFromChoices_choices hm
    rw [hchoices]
    exact prune_enumerates (hlists.enumerates hv) hkept
  · exact filter_constraintsSatisfied spec.constraints isPresent candidates
  · obtain ⟨cardinality, hc⟩ := cardinality_ok hv
    by_cases hexceeds : ∀ n ∈ cardinality, spec.limit < n
    · left
      have hrefuse : refuseIf (∀ n ∈ cardinality, spec.limit < n) spec.exceedsLimit =
          .error spec.exceedsLimit := if_pos hexceeds
      simp only [enumerateVariants, hvalid, hc, hrefuse, bind, Except.bind]
    · right
      push Not at hexceeds
      obtain ⟨n, hn, hle⟩ := hexceeds
      rw [Option.mem_def] at hn
      subst hn
      exact fun variants hm => materialises_le hv hc hle hm

/-- Two dimensions of two choices each, one pair excluded. -/
def pairSpec : GenerationSpec where
  strategy := .cartesian
  dimensions := [
    { name := "a", choices := [⟨"a1", nullDocument, [], none⟩, ⟨"a2", nullDocument, [], none⟩] },
    { name := "b", choices := [⟨"b1", nullDocument, [], none⟩, ⟨"b2", nullDocument, [], none⟩] }]
  maxVariants := some 4
  constraints := { exclude := [(⟨"a", "a1"⟩, ⟨"b", "b1"⟩)] }

theorem enumerateVariants_exact_pair :
    pairSpec.validate = .ok () ∧
    (∀ variants, pairSpec.enumerateVariants .ofBits (fun _ => .replicate 32 0) none = .ok variants →
      pairSpec.Enumerates pairSpec.constraints.Allows (variants.map (·.choices))) ∧
    (pairSpec.enumerateVariants .ofBits (fun _ => .replicate 32 0) none =
        .error pairSpec.exceedsLimit ∨
      ∀ variants, pairSpec.Materialises variants → variants.length ≤ pairSpec.limit) := by
  have h := enumerateVariants_exact .ofBits (fun _ => .replicate 32 0) pairSpec none (by decide)
  exact ⟨by decide, h.1, h.2.2.2⟩

end GenerationSpec

end DagMl
