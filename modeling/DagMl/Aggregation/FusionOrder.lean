import DagMl.Aggregation.FusionLaws

/-!
# The order of blocks and rows

Blocks handed over in another order, with their weights, and rows listed in
another order inside them fuse to the same rows.
-/

namespace DagMl

open Checked WeightedRows

variable {K : Type}

/-- The same block with its rows in another order. -/
structure Reordered (b b' : ExactBlock K) : Prop where
  header : { b' with sampleIds := b.sampleIds, values := b.values } = b
  length_eq : b'.sampleIds.length = b'.values.length
  rows : b'.rows.Perm b.rows

/-- The same weighted blocks in another order, each perhaps reordered. -/
def SameWeighted (blocks blocks' : List (ExactBlock K × K)) : Prop :=
  ∃ between, blocks.Perm between ∧
    List.Forall₂ (fun b b' => Reordered b.1 b'.1 ∧ b.2 = b'.2) between blocks'

/-- The arguments of a reducer in another order: blocks go with their weights. -/
inductive Shuffled [One K] :
    List (ExactBlock K) → Option (List K) → List (ExactBlock K) → Option (List K) → Prop
  | unweighted (h : SameWeighted (blocks.map (·, 1)) (blocks'.map (·, 1))) :
    Shuffled blocks none blocks' none
  | paired (h : SameWeighted pairs pairs') :
    Shuffled (pairs.map Prod.fst) (some (pairs.map Prod.snd))
      (pairs'.map Prod.fst) (some (pairs'.map Prod.snd))

namespace Reordered

variable {b b' : ExactBlock K}

theorem producerNode (h : Reordered b b') : b'.producerNode = b.producerNode := by
  rw [← h.header]

theorem partition (h : Reordered b b') : b'.partition = b.partition := by
  rw [← h.header]

theorem foldId (h : Reordered b b') : b'.foldId = b.foldId := by
  rw [← h.header]

theorem targetNames (h : Reordered b b') : b'.targetNames = b.targetNames := by
  rw [← h.header]

theorem sampleIds (h : Reordered b b') (hb : b.Content) : b'.sampleIds.Perm b.sampleIds := by
  rw [← ExactBlock.map_fst_rows h.length_eq, ← ExactBlock.map_fst_rows hb.length_eq]
  exact h.rows.map _

theorem values (h : Reordered b b') (hb : b.Content) : b'.values.Perm b.values := by
  rw [← ExactBlock.map_snd_rows h.length_eq, ← ExactBlock.map_snd_rows hb.length_eq]
  exact h.rows.map _

theorem width (h : Reordered b b') (hb : b.Content) : b'.width = b.width := by
  have hvalues := h.values hb
  have hall : ∀ row ∈ b'.values, row.length = b.width :=
    fun row hrow => hb.rows_width row (hvalues.subset hrow)
  unfold ExactBlock.width at hall ⊢
  cases hnil : b'.values with
  | nil =>
    have hb_nil : b.values = [] := by simpa [hnil] using hvalues
    simp [hb_nil]
  | cons row rows => exact hall row (by simp [hnil])

theorem content (h : Reordered b b') (hb : b.Content) : b'.Content where
  length_eq := h.length_eq
  width_pos := by
    rw [h.width hb]
    exact hb.width_pos
  rows_width := fun row hrow => by
    rw [h.width hb]
    exact hb.rows_width row ((h.values hb).subset hrow)
  targets := by
    rw [h.targetNames, h.width hb]
    exact hb.targets
  nodup := (h.sampleIds hb).nodup_iff.mpr hb.nodup

theorem rowOf (h : Reordered b b') (hb : b.Content) (s : SampleId) : b'.rowOf s = b.rowOf s := by
  ext row
  rw [(h.content hb).rowOf_eq_some, hb.rowOf_eq_some, h.rows.mem_iff]

end Reordered

namespace SameWeighted

variable {blocks blocks' : List (ExactBlock K × K)}

theorem exists_left (h : SameWeighted blocks blocks') (hb' : b' ∈ blocks') :
    ∃ b ∈ blocks, Reordered b.1 b'.1 ∧ b.2 = b'.2 := by
  obtain ⟨between, hperm, hrel⟩ := h
  obtain ⟨b, hb, hbb'⟩ := exists_left_of_mem hrel hb'
  exact ⟨b, hperm.mem_iff.mpr hb, hbb'⟩

theorem exists_right (h : SameWeighted blocks blocks') (hb : b ∈ blocks) :
    ∃ b' ∈ blocks', Reordered b.1 b'.1 ∧ b.2 = b'.2 := by
  obtain ⟨between, hperm, hrel⟩ := h
  exact exists_right_of_mem hrel (hperm.mem_iff.mp hb)

theorem length_eq (h : SameWeighted blocks blocks') : blocks.length = blocks'.length := by
  obtain ⟨between, hperm, hrel⟩ := h
  exact hperm.length_eq.trans hrel.length_eq

/-- The blocks give a sample the same rows. -/
theorem coverage_perm (h : SameWeighted blocks blocks') (hcontent : ∀ b ∈ blocks, b.1.Content)
    (s : SampleId) : (coverage blocks' s).Perm (coverage blocks s) := by
  obtain ⟨between, hperm, hrel⟩ := h
  have hsame : coverage blocks' s = coverage between s := by
    have hbetween : ∀ b ∈ between, b.1.Content := fun b hb => hcontent b (hperm.mem_iff.mpr hb)
    clear hperm
    induction hrel with
    | nil => rfl
    | cons hbb' hrest ih =>
      rw [List.forall_mem_cons] at hbetween
      simp only [coverage, List.filterMap_cons, hbb'.1.rowOf hbetween.1, ← hbb'.2]
      have hrest := ih hbetween.2
      simp only [coverage] at hrest
      rw [hrest]
  rw [hsame]
  exact (hperm.filterMap _).symm

end SameWeighted

-- ---------------------------------------------------------------------------
-- Fusion
-- ---------------------------------------------------------------------------

variable [Field K]

theorem map_fst_weighted {blocks : List (ExactBlock K)} {weights : Option (List K)}
    (h : ∀ ws ∈ weights, ws.length = blocks.length) :
    (weighted blocks weights).map Prod.fst = blocks := by
  rw [weighted, List.map_fst_zip]
  cases weights with
  | none => simp
  | some ws => simp [h ws rfl]

theorem weighted_none (blocks : List (ExactBlock K)) :
    weighted blocks none = blocks.map (·, 1) := by
  simp only [weighted, Option.getD_none]
  induction blocks with
  | nil => rfl
  | cons b blocks ih => simp [List.replicate_succ, ih]

theorem weighted_some (pairs : List (ExactBlock K × K)) :
    weighted (pairs.map Prod.fst) (some (pairs.map Prod.snd)) = pairs := by
  simp [weighted, ← List.unzip_fst, ← List.unzip_snd, List.zip_unzip]

namespace Shuffled

variable {blocks blocks' : List (ExactBlock K)} {weights weights' : Option (List K)}

theorem sameWeighted (h : Shuffled blocks weights blocks' weights') :
    SameWeighted (weighted blocks weights) (weighted blocks' weights') := by
  cases h with
  | unweighted h => rwa [weighted_none, weighted_none]
  | paired h => rwa [weighted_some, weighted_some]

theorem length_weights (h : Shuffled blocks weights blocks' weights') :
    ∀ ws ∈ weights', ws.length = blocks'.length := by
  cases h with
  | unweighted h => simp
  | paired h => simp

theorem length_weights_left (h : Shuffled blocks weights blocks' weights') :
    ∀ ws ∈ weights, ws.length = blocks.length := by
  cases h with
  | unweighted h => simp
  | paired h => simp

/-- Every block of the new order is one of the old. -/
theorem exists_left (h : Shuffled blocks weights blocks' weights') (hb' : b' ∈ blocks') :
    ∃ b ∈ blocks, Reordered b b' := by
  rw [← map_fst_weighted h.length_weights] at hb'
  obtain ⟨p', hp', rfl⟩ := List.mem_map.mp hb'
  obtain ⟨p, hp, hpp', -⟩ := h.sameWeighted.exists_left hp'
  rw [← map_fst_weighted h.length_weights_left]
  exact ⟨p.1, List.mem_map_of_mem hp, hpp'⟩

theorem exists_right (h : Shuffled blocks weights blocks' weights') (hb : b ∈ blocks) :
    ∃ b' ∈ blocks', Reordered b b' := by
  rw [← map_fst_weighted h.length_weights_left] at hb
  obtain ⟨p, hp, rfl⟩ := List.mem_map.mp hb
  obtain ⟨p', hp', hpp', -⟩ := h.sameWeighted.exists_right hp
  rw [← map_fst_weighted h.length_weights]
  exact ⟨p'.1, List.mem_map_of_mem hp', hpp'⟩

theorem length_eq (h : Shuffled blocks weights blocks' weights') :
    blocks.length = blocks'.length := by
  have hlen := h.sameWeighted.length_eq
  have hleft := congrArg List.length (map_fst_weighted h.length_weights_left)
  have hright := congrArg List.length (map_fst_weighted h.length_weights)
  rw [List.length_map] at hleft hright
  rw [← hleft, hlen, hright]

end Shuffled

section Order

variable [LinearOrder K] {blocks blocks' : List (ExactBlock K × K)} {width : Nat}

/-- Fusible blocks stay so in another order, if the new first block agrees alike. -/
theorem Fusible.shuffled {agrees agrees' : ExactBlock K → Result Unit}
    (h : Fusible agrees width blocks) (hsame : SameWeighted blocks blocks')
    (hagrees : ∀ b ∈ blocks, ∀ b', Reordered b.1 b' → agrees' b' = .ok ()) :
    Fusible agrees' width blocks' := by
  constructor
  · intro b' hb'
    obtain ⟨b, hb, hbb', hweight⟩ := hsame.exists_left hb'
    have hmember := h.member b hb
    exact ⟨hagrees b hb b'.1 hbb', hbb'.content hmember.content, hweight ▸ hmember.nonneg,
      (hbb'.width hmember.content).trans hmember.width⟩
  · intro b' hb' s hs
    obtain ⟨b, hb, hbb', -⟩ := hsame.exists_left hb'
    rw [weightSum_perm (hsame.coverage_perm h.content s)]
    exact h.total_pos b hb s (((hbb'.sampleIds (h.content b hb)).mem_iff).mp hs)

theorem WeightedMeans.lookup_eq_some {order : List SampleId} {values : List (List K)}
    (h : WeightedMeans width blocks order values) :
    (order.zip values).lookup s = some row ↔ (s, row) ∈ order.zip values := by
  refine Keyed.lookup_eq_some ?_
  rw [List.map_fst_zip h.length_eq.le]
  exact h.nodup

/-- Means over the same blocks are the same rows. -/
theorem WeightedMeans.rowOf_eq {order order' : List SampleId} {values values' : List (List K)}
    (h : WeightedMeans width blocks order values)
    (h' : WeightedMeans width blocks' order' values') (hsame : SameWeighted blocks blocks')
    (hcontent : ∀ b ∈ blocks, b.1.Content) (s : SampleId) :
    (order'.zip values').lookup s = (order.zip values).lookup s := by
  have hmem : s ∈ order' ↔ s ∈ order := by
    rw [h'.covers, h.covers]
    constructor
    · rintro ⟨b', hb', hs⟩
      obtain ⟨b, hb, hbb', -⟩ := hsame.exists_left hb'
      exact ⟨b, hb, (hbb'.sampleIds (hcontent b hb)).mem_iff.mp hs⟩
    · rintro ⟨b, hb, hs⟩
      obtain ⟨b', hb', hbb', -⟩ := hsame.exists_right hb
      exact ⟨b', hb', (hbb'.sampleIds (hcontent b hb)).mem_iff.mpr hs⟩
  have hfst : (order.zip values).map Prod.fst = order := List.map_fst_zip h.length_eq.le
  have hfst' : (order'.zip values').map Prod.fst = order' := List.map_fst_zip h'.length_eq.le
  by_cases hs : s ∈ order
  · obtain ⟨row, hrow⟩ := Option.isSome_iff_exists.mp (Keyed.lookup_isSome.mpr (hfst.symm ▸ hs))
    obtain ⟨row', hrow'⟩ :=
      Option.isSome_iff_exists.mp (Keyed.lookup_isSome.mpr (hfst'.symm ▸ hmem.mpr hs))
    have hin := h.lookup_eq_some.mp hrow
    have hin' := h'.lookup_eq_some.mp hrow'
    rw [hrow, hrow']
    congr 1
    refine ext_entry ?_ fun j => ?_
    · rw [h.length_row row (List.of_mem_zip hin).2, h'.length_row row' (List.of_mem_zip hin').2]
    · rw [h.mean s row hin, h'.mean s row' hin',
        weightedMean_perm (hsame.coverage_perm hcontent s)]
  · have hnone : (order.zip values).lookup s = none := by
      rw [← Option.not_isSome_iff_eq_none, Keyed.lookup_isSome, hfst]
      exact hs
    have hnone' : (order'.zip values').lookup s = none := by
      rw [← Option.not_isSome_iff_eq_none, Keyed.lookup_isSome, hfst', hmem]
      exact hs
    rw [hnone, hnone']

end Order

end DagMl
