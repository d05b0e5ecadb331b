import DagMl.Aggregation.Fusion

/-!
# What fusion computes

A fused sample is the weighted mean of the rows the blocks have for it. The
loop is a fold over all rows; what it holds after any of them is `Holds`.
-/

namespace DagMl

open Checked WeightedRows BTreeMap

variable {K : Type}

/-- The rows of a block, each under its sample with the block's weight. -/
def weightedRows (b : ExactBlock K × K) : List (SampleId × (List K × K)) :=
  b.1.rows.map fun e => (e.1, e.2, b.2)

def contributions (blocks : List (ExactBlock K × K)) : List (SampleId × (List K × K)) :=
  blocks.flatMap weightedRows

/-- The rows of a sample, one for each block that holds it. -/
def coverage (blocks : List (ExactBlock K × K)) (s : SampleId) : List (List K × K) :=
  blocks.filterMap fun b => (b.1.rowOf s).map (·, b.2)

-- ---------------------------------------------------------------------------
-- Coverage
-- ---------------------------------------------------------------------------

section Coverage

variable {blocks : List (ExactBlock K × K)} {s : SampleId}

theorem map_fst_weightedRows (b : ExactBlock K × K) :
    (weightedRows b).map Prod.fst = b.1.rows.map Prod.fst := by
  rw [weightedRows, List.map_map]
  rfl

/-- In blocks without repetition the rows of a sample are one a block. -/
theorem bucket_contributions (h : ∀ b ∈ blocks, b.1.Content) (s : SampleId) :
    bucket (contributions blocks) s = coverage blocks s := by
  induction blocks with
  | nil => rfl
  | cons b blocks ih =>
    rw [List.forall_mem_cons] at h
    have hrest : contributions (b :: blocks) =
        weightedRows b ++ contributions blocks := rfl
    have hcoverage : coverage (b :: blocks) s =
        ((b.1.rowOf s).map (·, b.2)).toList ++ coverage blocks s := by
      cases hrow : b.1.rowOf s with
      | none => simp [coverage, hrow]
      | some row => simp [coverage, hrow]
    rw [hrest, bucket_append, ih h.2, hcoverage]
    have hkeys : (weightedRows b).map Prod.fst = b.1.rows.map Prod.fst := map_fst_weightedRows b
    cases hrow : b.1.rowOf s with
    | none =>
      have hnone : bucket (weightedRows b) s = [] := by
        by_contra hne
        have hmem := bucket_ne_nil.mp hne
        rw [hkeys, ← Keyed.lookup_isSome] at hmem
        rw [ExactBlock.rowOf] at hrow
        simp [hrow] at hmem
      simp [hnone]
    | some row =>
      have hone : bucket (weightedRows b) s = [(row, b.2)] := by
        have hmem : (s, row, b.2) ∈ weightedRows b :=
          List.mem_map.mpr ⟨(s, row), (h.1.rowOf_eq_some).mp hrow, rfl⟩
        obtain ⟨v, hv⟩ := bucket_of_nodup (hkeys ▸ h.1.nodup_fst) (List.mem_map_of_mem hmem)
        have hrowv : (row, b.2) ∈ bucket (weightedRows b) s := mem_bucket.mpr hmem
        rw [hv, List.mem_singleton] at hrowv
        rw [hv, hrowv]
      simp [hone]

theorem mem_contributions (h : ∀ b ∈ blocks, b.1.Content) (s : SampleId) :
    s ∈ (contributions blocks).map Prod.fst ↔ ∃ b ∈ blocks, s ∈ b.1.sampleIds := by
  simp only [contributions, List.map_flatMap, List.mem_flatMap, map_fst_weightedRows]
  refine exists_congr fun b => and_congr_right fun hb => ?_
  rw [ExactBlock.map_fst_rows (h b hb).length_eq]

theorem mem_coverage {r : List K × K} (h : ∀ b ∈ blocks, b.1.Content) :
    r ∈ coverage blocks s ↔ ∃ b ∈ blocks, (s, r.1) ∈ b.1.rows ∧ b.2 = r.2 := by
  simp only [coverage, List.mem_filterMap, Option.map_eq_some_iff]
  refine exists_congr fun b => and_congr_right fun hb => ?_
  constructor
  · rintro ⟨row, hrow, rfl⟩
    exact ⟨(h b hb).rowOf_eq_some.mp hrow, rfl⟩
  · rintro ⟨hrow, hweight⟩
    exact ⟨r.1, (h b hb).rowOf_eq_some.mpr hrow, by rw [hweight]⟩

end Coverage

-- ---------------------------------------------------------------------------
-- The loop
-- ---------------------------------------------------------------------------

variable [Field K]

namespace Fusion

/-- The slot of a sample, zeros if it has none. -/
def slotOf (width : Nat) (self : Fusion K) (s : SampleId) : List K × K :=
  self.sums.getD s (List.replicate width 0, 0)

/-- The state after some rows. -/
structure Holds (width : Nat) (entries : List (SampleId × (List K × K))) (fusion : Fusion K) :
    Prop where
  nodup : fusion.order.Nodup
  mem_order : ∀ s, s ∈ fusion.order ↔ s ∈ entries.map Prod.fst
  mem_sums : ∀ s, s ∈ fusion.sums ↔ s ∈ entries.map Prod.fst
  length_slot : ∀ s, (fusion.slotOf width s).1.length = width
  total : ∀ s, (fusion.slotOf width s).2 = weightSum (bucket entries s)
  sum : ∀ s j, entry (fusion.slotOf width s).1 j = weightedSum (bucket entries s) j

variable {width : Nat} {entries : List (SampleId × (List K × K))} {fusion : Fusion K}

theorem Holds.empty : Holds width [] (empty : Fusion K) where
  nodup := .nil
  mem_order := by simp [Fusion.empty]
  mem_sums := by simp [Fusion.empty]
  length_slot := by simp [slotOf, Fusion.empty]
  total := by simp [slotOf, Fusion.empty, bucket, weightSum]
  sum := by simp [slotOf, Fusion.empty, bucket, weightedSum]

theorem slotOf_push (weight : K) (e : SampleId × List K) (s : SampleId) :
    (fusion.push width weight e).slotOf width s =
      if e.1 = s then (addRow (· * weight) (fusion.slotOf width e.1).1 e.2,
        (fusion.slotOf width e.1).2 + weight)
      else fusion.slotOf width s := by
  simp only [slotOf, push, Std.ExtTreeMap.getD_eq_getD_getElem?, getElem?_insert]
  split
  · rfl
  · rfl

/-- One more row. -/
theorem Holds.push (h : Holds width entries fusion) {e : SampleId × List K}
    (hrow : e.2.length = width) (weight : K) :
    Holds width (entries ++ [(e.1, e.2, weight)]) (fusion.push width weight e) := by
  have hbucket (s : SampleId) : bucket (entries ++ [(e.1, e.2, weight)]) s =
      bucket entries s ++ if e.1 = s then [(e.2, weight)] else [] := by
    rw [bucket_append, bucket_singleton]
  refine ⟨?_, fun s => ?_, fun s => ?_, fun s => ?_, fun s => ?_, fun s j => ?_⟩
  · unfold Fusion.push
    split
    · exact h.nodup
    · next hnew =>
      refine h.nodup.append (List.nodup_singleton _) ?_
      rw [List.disjoint_singleton, h.mem_order, ← h.mem_sums]
      exact hnew
  · unfold Fusion.push
    split
    · next hold =>
      rw [h.mem_order, List.map_append, List.mem_append]
      refine (or_iff_left_of_imp fun hs => ?_).symm
      rw [List.mem_singleton.mp hs]
      exact (h.mem_sums _).mp hold
    · simp [h.mem_order]
  · simp only [Fusion.push, Std.ExtTreeMap.mem_insert, Std.LawfulEqCmp.compare_eq_iff_eq,
      h.mem_sums, List.map_append, List.mem_append, List.map_cons, List.map_nil,
      List.mem_singleton]
    rw [or_comm, eq_comm]
  · rw [slotOf_push]
    split
    · simp [h.length_slot]
    · exact h.length_slot s
  · rw [slotOf_push, hbucket, weightSum_append, ← h.total]
    split
    · next heq => simp [heq, weightSum]
    · simp [weightSum]
  · rw [slotOf_push, hbucket, weightedSum_append, ← h.sum]
    split
    · next heq =>
      have hle : e.2.length ≤ (fusion.slotOf width e.1).1.length := by rw [h.length_slot, hrow]
      rw [entry_addRow (by simp) hle, heq]
      simp [weightedSum]
    · simp [weightedSum]

/-- One more block. -/
theorem Holds.pushRows (h : Holds width entries fusion) {rows : List (SampleId × List K)}
    (hrows : ∀ e ∈ rows, e.2.length = width) (weight : K) :
    Holds width (entries ++ rows.map fun e => (e.1, e.2, weight))
      (rows.foldl (Fusion.push width weight) fusion) := by
  induction rows generalizing entries fusion with
  | nil => simpa using h
  | cons e rows ih =>
    rw [List.forall_mem_cons] at hrows
    simpa using ih (h.push hrows.1 weight) hrows.2

theorem Holds.pushBlocks (h : Holds width entries fusion) {blocks : List (ExactBlock K × K)}
    (hblocks : ∀ b ∈ blocks, ∀ e ∈ b.1.rows, e.2.length = width) :
    Holds width (entries ++ contributions blocks)
      (blocks.foldl (fun fusion b => b.1.rows.foldl (Fusion.push width b.2) fusion) fusion) := by
  induction blocks generalizing entries fusion with
  | nil => simpa [contributions] using h
  | cons b blocks ih =>
    rw [List.forall_mem_cons] at hblocks
    simpa [contributions, weightedRows] using ih (h.pushRows hblocks.1 b.2) hblocks.2

end Fusion

-- ---------------------------------------------------------------------------
-- When fusion succeeds, and with what
-- ---------------------------------------------------------------------------

section Fuse

variable {texts : FusionTexts} {agrees : ExactBlock K → Result Unit} {width : Nat}
  {blocks : List (ExactBlock K × K)}

theorem fuseRows_ok {weight : K} {fusion fusion' : Fusion K} {rows : List (SampleId × List K)} :
    loop (fuseRow texts width weight) fusion rows = .ok fusion' ↔
      (∀ e ∈ rows, e.2.length = width) ∧ rows.foldl (Fusion.push width weight) fusion = fusion' := by
  refine loop_foldl fun fusion e fusion' => ?_
  simp only [fuseRow, bind_ok, refuseIf_ok, pure_ok, not_not, exists_const]

/-- The slot of a sample that was met. -/
theorem Fusion.Holds.getElem? {entries : List (SampleId × (List K × K))} {fusion : Fusion K}
    (h : Fusion.Holds width entries fusion) {s : SampleId} (hs : s ∈ fusion.order) :
    fusion.sums[s]? = some (fusion.slotOf width s) := by
  obtain ⟨slot, hslot⟩ := mem_iff.mp ((h.mem_sums s).mpr ((h.mem_order s).mp hs))
  rw [hslot, Fusion.slotOf, Std.ExtTreeMap.getD_eq_getD_getElem?, hslot]
  rfl

variable [LinearOrder K]

/-- What the loop asks of a block and its weight. -/
structure FusionMember (agrees : ExactBlock K → Result Unit) (width : Nat)
    (b : ExactBlock K × K) : Prop where
  agrees : agrees b.1 = .ok ()
  content : b.1.Content
  nonneg : 0 ≤ b.2
  width : b.1.width = width

theorem FusionMember.length_row {b : ExactBlock K × K} (h : FusionMember agrees width b) :
    ∀ e ∈ b.1.rows, e.2.length = width :=
  fun _ he => (h.content.length_row he).trans h.width

theorem fuseBlocks_ok {fusion fusion' : Fusion K} :
    loop (fuseBlock texts agrees width) fusion blocks = .ok fusion' ↔
      (∀ b ∈ blocks, FusionMember agrees width b) ∧
        blocks.foldl (fun fusion b => b.1.rows.foldl (Fusion.push width b.2) fusion) fusion =
          fusion' := by
  refine loop_foldl fun fusion b fusion' => ?_
  simp only [fuseBlock, bind_ok, ExactBlock.validateContent_ok, refuseIf_ok, fuseRows_ok]
  constructor
  · rintro ⟨u, hagrees, w, ⟨hcontent, rfl⟩, _, hweight, hrows, hfold⟩
    refine ⟨⟨hagrees, hcontent, not_lt.mp hweight, ?_⟩, hfold⟩
    -- a block has a row, of the width of all
    obtain ⟨row, hrow⟩ : ∃ row, row ∈ b.1.values := by
      refine List.exists_mem_of_ne_nil _ fun hnil => ?_
      have hpos := hcontent.width_pos
      simp [ExactBlock.width, hnil] at hpos
    rw [← ExactBlock.map_snd_rows hcontent.length_eq] at hrow
    obtain ⟨e, he, rfl⟩ := List.mem_map.mp hrow
    exact (hcontent.length_row he).symm.trans (hrows e he)
  · rintro ⟨h, hfold⟩
    exact ⟨(), h.agrees, _, ⟨h.content, rfl⟩, (), not_lt.mpr h.nonneg, h.length_row, hfold⟩

theorem Fusion.Holds.finishSample_ok {entries : List (SampleId × (List K × K))}
    {fusion : Fusion K} (h : Fusion.Holds width entries fusion) {s : SampleId}
    (hs : s ∈ fusion.order) : finishSample texts fusion.sums s = .ok row ↔
      0 < weightSum (bucket entries s) ∧
        (fusion.slotOf width s).1.map (· / weightSum (bucket entries s)) = row := by
  simp only [finishSample, bind_ok, need_ok, refuseIf_ok, pure_ok, not_le, exists_const,
    h.getElem? hs, Option.some.injEq, exists_eq_left', h.total]

/-- What the loop leaves behind. -/
theorem Fusion.holds_fold (h : ∀ b ∈ blocks, FusionMember agrees width b) :
    Fusion.Holds width (contributions blocks)
      (blocks.foldl (fun fusion b => b.1.rows.foldl (Fusion.push width b.2) fusion) .empty) := by
  simpa using Fusion.Holds.empty.pushBlocks fun b hb => (h b hb).length_row

/-- The weighted means of the samples of some blocks, a sample at a time. -/
structure WeightedMeans (width : Nat) (blocks : List (ExactBlock K × K)) (order : List SampleId)
    (values : List (List K)) : Prop where
  length_eq : order.length = values.length
  nodup : order.Nodup
  covers : ∀ s, s ∈ order ↔ ∃ b ∈ blocks, s ∈ b.1.sampleIds
  length_row : ∀ row ∈ values, row.length = width
  total_pos : ∀ s ∈ order, 0 < weightSum (coverage blocks s)
  mean : ∀ s row, (s, row) ∈ order.zip values →
    ∀ j, entry row j = weightedMean (coverage blocks s) j

/-- The blocks can be fused: each passes, and no sample is without weight. -/
structure Fusible (agrees : ExactBlock K → Result Unit) (width : Nat)
    (blocks : List (ExactBlock K × K)) : Prop where
  member : ∀ b ∈ blocks, FusionMember agrees width b
  total_pos : ∀ b ∈ blocks, ∀ s ∈ b.1.sampleIds, 0 < weightSum (coverage blocks s)

theorem Fusible.content (h : Fusible agrees width blocks) : ∀ b ∈ blocks, b.1.Content :=
  fun b hb => (h.member b hb).content

theorem fuse_ok (h : fuse texts agrees width blocks = .ok (order, values)) :
    Fusible agrees width blocks ∧ WeightedMeans width blocks order values := by
  simp only [fuse, bind_ok, pure_ok, fuseBlocks_ok] at h
  obtain ⟨fusion, ⟨hmember, hfusion⟩, values', hvalues, hpair⟩ := h
  obtain ⟨rfl, rfl⟩ := Prod.mk.inj hpair
  have hcontent : ∀ b ∈ blocks, b.1.Content := fun b hb => (hmember b hb).content
  have hholds : Fusion.Holds width (contributions blocks) fusion := by
    rw [← hfusion]
    exact Fusion.holds_fold hmember
  have hbucket := bucket_contributions hcontent
  have hrows := collect_ok.mp hvalues
  have hcovers (s : SampleId) : s ∈ fusion.order ↔ ∃ b ∈ blocks, s ∈ b.1.sampleIds := by
    rw [hholds.mem_order, mem_contributions hcontent]
  have htotal : ∀ s ∈ fusion.order, 0 < weightSum (coverage blocks s) := by
    intro s hs
    obtain ⟨row, -, hrow⟩ := exists_right_of_mem hrows hs
    rw [← hbucket]
    exact ((hholds.finishSample_ok hs).mp hrow).1
  refine ⟨⟨hmember, fun b hb s hs => htotal s ((hcovers s).mpr ⟨b, hb, hs⟩)⟩, ?_⟩
  refine ⟨hrows.length_eq, hholds.nodup, hcovers, ?_, htotal, ?_⟩
  · intro row hrow
    obtain ⟨s, hs, hfinish⟩ := exists_left_of_mem hrows hrow
    rw [← ((hholds.finishSample_ok hs).mp hfinish).2, List.length_map, hholds.length_slot]
  · intro s row hrow j
    have hfinish := (List.forall₂_iff_zip.mp hrows).2 hrow
    rw [← ((hholds.finishSample_ok (List.of_mem_zip hrow).1).mp hfinish).2, entry_map (by simp),
      hholds.sum, hbucket]
    rfl

/-- Blocks that can be fused are. -/
theorem Fusible.fuse (h : Fusible agrees width blocks) :
    ∃ order values, fuse texts agrees width blocks = .ok (order, values) := by
  have hholds := Fusion.holds_fold h.member
  simp only [DagMl.fuse, bind_ok, pure_ok, fuseBlocks_ok]
  generalize hfusion : blocks.foldl
    (fun fusion b => b.1.rows.foldl (Fusion.push width b.2) fusion) .empty = fusion at hholds
  obtain ⟨values, hvalues⟩ : ∃ values, collect fusion.order (finishSample texts fusion.sums) =
      .ok values := by
    refine exists_collect fun s hs => ⟨_, (hholds.finishSample_ok hs).mpr ⟨?_, rfl⟩⟩
    obtain ⟨b, hb, hmem⟩ := (mem_contributions h.content s).mp ((hholds.mem_order s).mp hs)
    rw [bucket_contributions h.content]
    exact h.total_pos b hb s hmem
  exact ⟨fusion.order, values, fusion, ⟨h.member, rfl⟩, values, hvalues, rfl⟩

end Fuse

end DagMl
