import DagMl.Lib.Index
import DagMl.Lib.Keyed
import DagMl.Oof.Join

/-!
# Joining whole blocks

`joinOofFeatures` joins blocks that each cover every sample. Its columns are
named as the campaign join names them; on campaigns with one block a producer
the two joins differ only in the order of the producers.
-/

namespace DagMl

open Checked

def placeRow (block : PredictionBlock) (bySample : BTreeMap SampleId (List Binary64))
    (entry : SampleId × List Binary64) : Result (BTreeMap SampleId (List Binary64)) := do
  refuseIf (entry.1 ∈ bySample) (block.duplicateSample entry.1)
  pure (bySample.insert entry.1 entry.2)

def extendRow (block : PredictionBlock) (bySample : BTreeMap SampleId (List Binary64))
    (rows : BTreeMap SampleId (List Binary64)) (s : SampleId) :
    Result (BTreeMap SampleId (List Binary64)) := do
  let values ← need bySample[s]? (.oofValidation
    s!"producer `{block.producerNode}` is missing required sample `{s}`")
  let row ← need rows[s]? (.panicked "required sample row exists")
  pure (rows.insert s (row ++ values))

def blockColumns (block : PredictionBlock) (width : Nat) : List String :=
  (List.range width).map fun column =>
    let name := (block.targetNames[column]?).getD s!"p{column}"
    s!"{block.producerNode}__{name}"

def joinBlockFeatures (required : List SampleId)
    (joined : BTreeMap SampleId (List Binary64) × List String) (block : PredictionBlock) :
    Result (BTreeMap SampleId (List Binary64) × List String) := do
  let width ← block.validateContent
  let bySample ← loop (placeRow block) ∅ block.rows
  let rows ← loop (extendRow block bySample) joined.1 required
  pure (rows, joined.2 ++ blockColumns block width)

/-- The policy the direct join holds its blocks to. -/
def directPolicy : PredictionJoinPolicy where
  nodeId := ⟨"prediction_join", by decide⟩
  allowTrainPredictionsAsFeatures := false
  includePartitions := [.validation]

def joinOofFeatures (blocks : List PredictionBlock) (requiredSamples : List SampleId) :
    Result OofMatrix := do
  validatePredictionBlocksAreOof directPolicy blocks
  ensureRequiredSamples requiredSamples
  let start := BTreeMap.tabulate requiredSamples fun _ => []
  let joined ← loop (joinBlockFeatures requiredSamples) (start, []) blocks
  -- The required samples are distinct, so removing a row is reading it.
  let values ← collect requiredSamples fun s => need joined.1[s]? (.panicked "row exists")
  pure { sampleIds := requiredSamples, columns := joined.2, values }

-- ---------------------------------------------------------------------------
-- What the direct join returns
-- ---------------------------------------------------------------------------

/-- The row a block holds for a sample. -/
def PredictionBlock.rowOf (block : PredictionBlock) (s : SampleId) : List Binary64 :=
  ((BTreeMap.collect block.rows)[s]?).getD []

def PredictionBlock.Covers (block : PredictionBlock) (required : List SampleId) : Prop :=
  block.Content ∧ ∀ s ∈ required, s ∈ block.sampleIds

/-- The columns of a block: its producer with each of its targets. -/
def PredictionBlock.columnPairs (block : PredictionBlock) : List (NodeId × String) :=
  (normalizedTargets block block.width).map fun target => (block.producerNode, target)

def columnName (pair : NodeId × String) : String := s!"{pair.1}__{pair.2}"

theorem blockColumns_eq {block : PredictionBlock} (h : block.Shape) :
    blockColumns block block.width = block.columnPairs.map columnName := by
  simp only [blockColumns, PredictionBlock.columnPairs, List.map_map, normalizedTargets]
  split
  · rename_i hnil
    simp [hnil, columnName]
  · rename_i hne
    have hlength := h.targets.resolve_left hne
    apply List.ext_getElem
    · simp [hlength]
    · intro i h₁ h₂
      have hi : i < block.targetNames.length := by simpa using h₂
      simp [columnName, hi]

theorem placeRow_loop_ok : loop (placeRow block) ∅ rows = .ok bySample ↔
    (rows.map Prod.fst).Nodup ∧ bySample = BTreeMap.collect rows := by
  have hstep (bySample : BTreeMap SampleId (List Binary64)) (entry : SampleId × List Binary64)
      (bySample' : BTreeMap SampleId (List Binary64)) :
      placeRow block bySample entry = .ok bySample' ↔
        True ∧ entry.1 ∉ bySample ∧ bySample' = bySample.insert entry.1 entry.2 := by
    simp only [placeRow, bind_ok, refuseIf_ok, pure_ok]
    simp [eq_comm]
  simpa using BTreeMap.collect_loop_ok hstep

/-- Extending the rows of distinct samples touches each of them once. -/
theorem extendRow_loop_ok {bySample rows rows' : BTreeMap SampleId (List Binary64)}
    (hn : todo.Nodup) : loop (extendRow block bySample) rows todo = .ok rows' ↔
      (∀ s ∈ todo, s ∈ bySample ∧ s ∈ rows) ∧ ∀ k, rows'[k]? =
        if k ∈ todo then some ((rows[k]?).getD [] ++ (bySample[k]?).getD []) else rows[k]? := by
  induction todo generalizing rows with
  | nil =>
    simp only [loop_nil, Except.ok.injEq, List.not_mem_nil, false_imp_iff, implies_true, true_and,
      if_false]
    exact ⟨fun h _ => h ▸ rfl, fun h => BTreeMap.ext fun k => (h k).symm⟩
  | cons s rest ih =>
    obtain ⟨hs, hrest⟩ := List.nodup_cons.mp hn
    -- the step leaves the rows of the other samples alone
    have hmem (row : List Binary64) : (∀ k ∈ rest, k ∈ bySample ∧ k ∈ rows.insert s row) ↔
        ∀ k ∈ rest, k ∈ bySample ∧ k ∈ rows := by
      refine forall₂_congr fun k hk => and_congr_right fun _ => ?_
      have hne : s ≠ k := fun h => hs (h ▸ hk)
      rw [BTreeMap.mem_iff, BTreeMap.mem_iff, BTreeMap.getElem?_insert, if_neg hne]
    have hget {values row : List Binary64} (hvalues : bySample[s]? = some values)
        (hrow : rows[s]? = some row) (k : SampleId) :
        (if k ∈ rest then some (((rows.insert s (row ++ values))[k]?).getD [] ++
            (bySample[k]?).getD []) else (rows.insert s (row ++ values))[k]?) =
          if k ∈ s :: rest then some ((rows[k]?).getD [] ++ (bySample[k]?).getD []) else rows[k]? := by
      rw [BTreeMap.getElem?_insert]
      by_cases hk : s = k
      · subst hk
        simp [hs, hvalues, hrow]
      · simp [hk, Ne.symm hk]
    simp only [loop_cons, extendRow, bind_ok, need_ok, pure_ok, ih hrest, List.forall_mem_cons]
    constructor
    · rintro ⟨_, ⟨values, hvalues, row, hrow, rfl⟩, hall, hrows⟩
      exact ⟨⟨⟨BTreeMap.mem_iff.mpr ⟨_, hvalues⟩, BTreeMap.mem_iff.mpr ⟨_, hrow⟩⟩,
        (hmem _).mp hall⟩, fun k => (hrows k).trans (hget hvalues hrow k)⟩
    · rintro ⟨⟨⟨hvalues, hrow⟩, hall⟩, hrows⟩
      obtain ⟨values, hvalues⟩ := BTreeMap.mem_iff.mp hvalues
      obtain ⟨row, hrow⟩ := BTreeMap.mem_iff.mp hrow
      exact ⟨_, ⟨values, hvalues, row, hrow, rfl⟩, (hmem _).mpr hall,
        fun k => (hrows k).trans (hget hvalues hrow k).symm⟩

theorem PredictionBlock.Content.mem_collect {block : PredictionBlock} (h : block.Content) :
    s ∈ BTreeMap.collect block.rows ↔ s ∈ block.sampleIds := by
  rw [BTreeMap.mem_collect h.nodup_fst, h.map_fst_rows]

theorem joinBlockFeatures_ok {f : SampleId → List Binary64} (hn : required.Nodup) :
    joinBlockFeatures required (BTreeMap.tabulate required f, columns) block = .ok joined ↔
      block.Covers required ∧
        joined = (BTreeMap.tabulate required fun s => f s ++ block.rowOf s,
          columns ++ block.columnPairs.map columnName) := by
  simp only [joinBlockFeatures, bind_ok, PredictionBlock.validateContent_ok, placeRow_loop_ok,
    extendRow_loop_ok hn, pure_ok]
  have hrows (rows : BTreeMap SampleId (List Binary64)) :
      (∀ k, rows[k]? = if k ∈ required then
        some (((BTreeMap.tabulate required f)[k]?).getD [] ++
          ((BTreeMap.collect block.rows)[k]?).getD []) else (BTreeMap.tabulate required f)[k]?) ↔
      rows = BTreeMap.tabulate required fun s => f s ++ block.rowOf s := by
    constructor
    · intro h
      refine BTreeMap.ext fun k => (h k).trans ?_
      by_cases hk : k ∈ required <;> simp [BTreeMap.getElem?_tabulate, hk, PredictionBlock.rowOf]
    · rintro rfl k
      by_cases hk : k ∈ required <;> simp [BTreeMap.getElem?_tabulate, hk, PredictionBlock.rowOf]
  have hin (s : SampleId) (hs : s ∈ required) : s ∈ BTreeMap.tabulate required f :=
    BTreeMap.mem_iff.mpr ⟨f s, by simp [BTreeMap.getElem?_tabulate, hs]⟩
  constructor
  · rintro ⟨_, ⟨hc, rfl⟩, _, ⟨-, rfl⟩, rows, ⟨hall, hget⟩, rfl⟩
    refine ⟨⟨hc, fun s hs => hc.mem_collect.mp (hall s hs).1⟩, ?_⟩
    rw [(hrows rows).mp hget, blockColumns_eq hc.toShape]
  · rintro ⟨⟨hc, hcovers⟩, rfl⟩
    refine ⟨_, ⟨hc, rfl⟩, _, ⟨hc.nodup_fst, rfl⟩, _, ⟨fun s hs => ⟨hc.mem_collect.mpr (hcovers s hs),
      hin s hs⟩, (hrows _).mpr rfl⟩, ?_⟩
    rw [blockColumns_eq hc.toShape]

theorem joinBlockFeatures_loop_ok {f : SampleId → List Binary64} (hn : required.Nodup) :
    loop (joinBlockFeatures required) (BTreeMap.tabulate required f, columns) blocks = .ok joined ↔
      (∀ b ∈ blocks, b.Covers required) ∧
        joined = (BTreeMap.tabulate required fun s => f s ++ blocks.flatMap (·.rowOf s),
          columns ++ (blocks.flatMap (·.columnPairs)).map columnName) := by
  induction blocks generalizing f columns with
  | nil => simp [eq_comm]
  | cons b bs ih =>
    simp only [loop_cons, joinBlockFeatures_ok hn, List.forall_mem_cons, List.flatMap_cons,
      List.map_append]
    constructor
    · rintro ⟨_, ⟨hb, rfl⟩, h⟩
      obtain ⟨hbs, rfl⟩ := ih.mp h
      refine ⟨⟨hb, hbs⟩, ?_⟩
      simp
    · rintro ⟨⟨hb, hbs⟩, rfl⟩
      exact ⟨_, ⟨hb, rfl⟩, ih.mpr ⟨hbs, by simp⟩⟩

/-- The matrix of blocks that cover the samples: one column for each pair, and
each sample's rows side by side. -/
def joinedMatrix (blocks : List PredictionBlock) (required : List SampleId) : OofMatrix where
  sampleIds := required
  columns := (blocks.flatMap (·.columnPairs)).map columnName
  values := required.map fun s => blocks.flatMap (·.rowOf s)

theorem ensureRequiredSamples_ok : ensureRequiredSamples required = .ok u ↔
    required ≠ [] ∧ required.Nodup := by
  simp only [ensureRequiredSamples, bind_ok, refuseIf_ok, not_not]
  rw [card_toFinset_eq_length]
  simp

theorem joinOofFeatures_ok : joinOofFeatures blocks required = .ok m ↔
    (∀ b ∈ blocks, b.partition = .validation) ∧ required ≠ [] ∧ required.Nodup ∧
      (∀ b ∈ blocks, b.Covers required) ∧ m = joinedMatrix blocks required := by
  simp only [joinOofFeatures, bind_ok, validatePredictionBlocksAreOof_ok, ensureRequiredSamples_ok,
    pure_ok, directPolicy, true_imp_iff]
  constructor
  · rintro ⟨_, hval, _, ⟨hne, hn⟩, joined, hloop, values, hvalues, rfl⟩
    obtain ⟨hcovers, rfl⟩ := (joinBlockFeatures_loop_ok hn).mp hloop
    refine ⟨hval, hne, hn, hcovers, ?_⟩
    have hrows : List.Forall₂ (fun s row => row = blocks.flatMap (·.rowOf s)) required values := by
      refine ((List.forall₂_and_left _ _).mpr ⟨fun s hs => hs, collect_ok.mp hvalues⟩).imp ?_
      rintro s row ⟨hs, hrow⟩
      rw [need_ok, BTreeMap.getElem?_tabulate, if_pos hs] at hrow
      simpa using hrow.symm
    have heq : values = required.map fun s => blocks.flatMap (·.rowOf s) := by
      rw [← List.forall₂_eq_eq_eq, List.forall₂_map_right_iff]
      exact hrows.flip
    simp [joinedMatrix, heq]
  · rintro ⟨hval, hne, hn, hcovers, rfl⟩
    refine ⟨(), hval, (), ⟨hne, hn⟩, _, (joinBlockFeatures_loop_ok hn).mpr ⟨hcovers, rfl⟩,
      required.map fun s => blocks.flatMap (·.rowOf s), ?_, ?_⟩
    · rw [collect_ok, List.forall₂_map_right_iff, List.forall₂_same]
      intro s hs
      simp [need_ok, BTreeMap.getElem?_tabulate, hs]
    · simp [joinedMatrix]

-- ---------------------------------------------------------------------------
-- Column names
-- ---------------------------------------------------------------------------

/-- The second producer reads on into the first pair's target: the separator
can be found at two places of one name. -/
def Ambiguous (p q : NodeId × String) : Prop :=
  ∃ shift : String, shift ≠ "" ∧ q.1.value = p.1.value ++ shift ∧
    "__" ++ p.2 = shift ++ ("__" ++ q.2)

theorem columnName_toList (p : NodeId × String) :
    (columnName p).toList = p.1.value.toList ++ ("__" ++ p.2).toList := by
  simp [columnName, toString, String.toList_append]

theorem columnName_eq_iff {p q : NodeId × String} :
    columnName p = columnName q ↔ p = q ∨ Ambiguous p q ∨ Ambiguous q p := by
  have shifted {p q : NodeId × String} {shift : List Char}
      (hq : q.1.value.toList = p.1.value.toList ++ shift)
      (ht : ("__" ++ p.2).toList = shift ++ ("__" ++ q.2).toList) : p = q ∨ Ambiguous p q := by
    by_cases hnil : shift = []
    · subst hnil
      rw [List.append_nil] at hq
      rw [List.nil_append] at ht
      have htarget : p.2 = q.2 := by
        rw [String.toList_append, String.toList_append, List.append_cancel_left_eq] at ht
        exact String.toList_inj.mp ht
      exact .inl (Prod.ext (Id.value_inj.mp (String.toList_inj.mp hq.symm)) htarget)
    · refine .inr ⟨String.ofList shift, ?_, ?_, ?_⟩
      · simpa [← String.toList_inj] using hnil
      · simpa [← String.toList_inj] using hq
      · simpa [← String.toList_inj] using ht
  rw [← String.toList_inj, columnName_toList, columnName_toList]
  constructor
  · intro h
    rcases List.append_eq_append_iff.mp h with ⟨shift, hq, ht⟩ | ⟨shift, hp, ht⟩
    · exact (shifted hq ht).imp id .inl
    · exact (shifted hp ht).imp Eq.symm .inr
  · have hshift {p q : NodeId × String} (h : Ambiguous p q) :
        p.1.value.toList ++ ("__" ++ p.2).toList = q.1.value.toList ++ ("__" ++ q.2).toList := by
      obtain ⟨shift, -, hq, ht⟩ := h
      rw [hq, ht]
      simp only [String.toList_append, List.append_assoc]
    rintro (rfl | h | h)
    · rfl
    · exact hshift h
    · exact (hshift h).symm

/-- No pair is listed twice and no two pairs read as one name. -/
structure Unambiguous (pairs : List (NodeId × String)) : Prop where
  nodup : pairs.Nodup
  apart : ∀ p ∈ pairs, ∀ q ∈ pairs, ¬Ambiguous p q

theorem nodup_columnName_iff {pairs : List (NodeId × String)} :
    (pairs.map columnName).Nodup ↔ Unambiguous pairs := by
  constructor
  · intro h
    refine ⟨h.of_map columnName, fun p hp q hq hpq => ?_⟩
    have heq := List.inj_on_of_nodup_map h hp hq (columnName_eq_iff.mpr (.inr (.inl hpq)))
    obtain ⟨shift, hne, hvalue, -⟩ := hpq
    rw [heq] at hvalue
    have hlength := congrArg (fun s => s.toList.length) hvalue
    simp only [String.toList_append, List.length_append, Nat.left_eq_add, List.length_eq_zero_iff,
      String.toList_eq_nil_iff] at hlength
    exact hne hlength
  · rintro ⟨hn, hapart⟩
    refine hn.map_on fun p hp q hq heq => ?_
    rcases columnName_eq_iff.mp heq with h | h | h
    · exact h
    · exact absurd h (hapart p hp q hq)
    · exact absurd h (hapart q hq p hp)

/-- The columns a campaign join lists: its producers, each with its targets. -/
def layoutPairs (layout : List (NodeId × List String)) : List (NodeId × String) :=
  layout.flatMap fun (p, targets) => targets.map fun target => (p, target)

theorem columnsOf_eq (layout : List (NodeId × List String)) :
    columnsOf layout = (layoutPairs layout).map columnName := by
  simp only [columnsOf, layoutPairs, List.map_flatMap, List.map_map]
  rfl

/-- Every selected block of a producer names the targets its entry holds. -/
def TargetsKept (included : List PredictionPartition) (done : List PredictionBlock)
    (producers : BTreeMap NodeId ProducerPredictions) : Prop :=
  ∀ p q, producers[p]? = some q → ∀ b ∈ done, b.producerNode = p → b.partition ∈ included →
    q.targetNames = normalizedTargets b b.width

theorem joinBlock_targetsKept (hjoined : Joined included done producers)
    (hkept : TargetsKept included done producers)
    (h : joinBlock included required producers b = .ok producers') :
    TargetsKept included (done ++ [b]) producers' := by
  unfold joinBlock at h
  split at h
  · rename_i hex
    cases h
    intro p q hq b' hb' hp hin
    rcases List.mem_append.mp hb' with hb' | hb'
    · exact hkept p q hq b' hb' hp hin
    · rw [List.mem_singleton.mp hb'] at hin
      exact absurd hin hex
  · simp only [bind_ok, PredictionBlock.validateContent_ok, refuseIf_ok, not_not, pure_ok] at h
    obtain ⟨_, ⟨-, rfl⟩, _, -, _, htargets, bySample, -, rfl⟩ := h
    intro p q hq b' hb' hp hin
    rw [BTreeMap.getElem?_insert] at hq
    split at hq
    · rename_i heq
      subst heq
      cases hq
      rcases List.mem_append.mp hb' with hb' | hb'
      · obtain ⟨q, hprev⟩ := BTreeMap.mem_iff.mp ((hjoined.selected _).mpr ⟨b', hb', hp, hin⟩)
        rw [hprev] at htargets ⊢
        exact hkept _ q hprev b' hb' hp hin
      · rw [List.mem_singleton.mp hb']
        exact htargets
    · rename_i hne
      rcases List.mem_append.mp hb' with hb' | hb'
      · exact hkept p q hq b' hb' hp hin
      · rw [List.mem_singleton.mp hb'] at hp
        exact absurd hp hne

theorem joinBlock_loop_targetsKept
    (h : loop (joinBlock included required) ∅ blocks = .ok producers) :
    Joined included blocks producers ∧ TargetsKept included blocks producers := by
  refine loop_invariant (fun done producers => Joined included done producers ∧
    TargetsKept included done producers) ⟨Joined.start, ?_⟩ ?_ h
  · intro p q hq
    simp at hq
  · rintro done b producers producers' ⟨hjoined, hkept⟩ hstep
    exact ⟨joinBlock_ok hjoined hstep, joinBlock_targetsKept hjoined hkept hstep⟩

/-- The campaign join lists each selected producer once, in order, with the
targets its blocks name. -/
structure LayoutOf (policy : PredictionJoinPolicy) (blocks : List PredictionBlock)
    (layout : List (NodeId × List String)) : Prop where
  ordered : layout.Pairwise (·.1 < ·.1)
  selected : ∀ p targets, (p, targets) ∈ layout ↔ ∃ b ∈ blocks, b.producerNode = p ∧
    b.partition ∈ effectivePartitions policy ∧ normalizedTargets b b.width = targets

theorem joinOofCampaignFeatures_layout
    (h : joinOofCampaignFeatures policy blocks required = .ok m) :
    ∃ layout, LayoutOf policy blocks layout ∧ m.columns = (layoutPairs layout).map columnName := by
  simp only [joinOofCampaignFeatures, bind_ok, pure_ok] at h
  obtain ⟨_, -, _, -, producers, hloop, _, -, _, -, values, -, rfl⟩ := h
  obtain ⟨hjoined, hkept⟩ := joinBlock_loop_targetsKept hloop
  refine ⟨producers.toList.map fun e => (e.1, e.2.targetNames), ⟨?_, fun p targets => ?_⟩, ?_⟩
  · rw [List.pairwise_map]
    exact Std.ExtTreeMap.ordered_keys_toList.imp compare_lt_iff_lt.mp
  · constructor
    · intro hmem
      obtain ⟨⟨p, q⟩, hq, heq⟩ := List.mem_map.mp hmem
      cases heq
      have hq : producers[p]? = some q := BTreeMap.mem_toList.mp hq
      obtain ⟨b, hb, hp, hin⟩ := (hjoined.selected p).mp (BTreeMap.mem_iff.mpr ⟨q, hq⟩)
      exact ⟨b, hb, hp, hin, (hkept p q hq b hb hp hin).symm⟩
    · rintro ⟨b, hb, rfl, hin, rfl⟩
      obtain ⟨q, hq⟩ := BTreeMap.mem_iff.mp ((hjoined.selected _).mpr ⟨b, hb, rfl, hin⟩)
      refine List.mem_map.mpr ⟨(b.producerNode, q), BTreeMap.mem_toList.mpr hq, ?_⟩
      rw [hkept _ q hq b hb rfl hin]
  · rw [← columnsOf_eq, columnsOf, List.flatMap_map]

-- ---------------------------------------------------------------------------
-- One block for each producer
-- ---------------------------------------------------------------------------

/-- The entry a producer's only block leaves. -/
def PredictionBlock.entry (block : PredictionBlock) : NodeId × ProducerPredictions :=
  (block.producerNode, ⟨block.width, normalizedTargets block block.width,
    BTreeMap.collect block.rows⟩)

theorem insertRow_loop_ok : loop (insertRow producerNode required) ∅ rows = .ok bySample ↔
    (∀ e ∈ rows, e.1 ∈ required) ∧ (rows.map Prod.fst).Nodup ∧ bySample = BTreeMap.collect rows := by
  have hstep (bySample : BTreeMap SampleId (List Binary64)) (entry : SampleId × List Binary64)
      (bySample' : BTreeMap SampleId (List Binary64)) :
      insertRow producerNode required bySample entry = .ok bySample' ↔
        entry.1 ∈ required ∧ entry.1 ∉ bySample ∧
          bySample' = bySample.insert entry.1 entry.2 := by
    simp only [insertRow, bind_ok, refuseIf_ok, not_not, pure_ok]
    simp [eq_comm]
  simpa using BTreeMap.collect_loop_ok hstep

theorem joinBlock_fresh_ok (hin : b.partition ∈ included) (hnew : b.producerNode ∉ producers) :
    joinBlock included required producers b = .ok producers' ↔
      (b.Content ∧ ∀ s ∈ b.sampleIds, s ∈ required) ∧
        producers' = producers.insert b.entry.1 b.entry.2 := by
  have hnone : producers[b.producerNode]? = none := by simpa using hnew
  have hmem (hc : b.Content) : (∀ e ∈ b.rows, e.1 ∈ required) ↔ ∀ s ∈ b.sampleIds, s ∈ required := by
    rw [← hc.map_fst_rows, List.forall_mem_map]
  simp only [joinBlock, hin, not_true_eq_false, if_false, bind_ok,
    PredictionBlock.validateContent_ok, hnone, Option.getD_none, insertRow_loop_ok, refuseIf_ok,
    not_not, pure_ok, PredictionBlock.entry]
  constructor
  · rintro ⟨_, ⟨hc, rfl⟩, _, -, _, -, _, ⟨hrows, -, rfl⟩, rfl⟩
    exact ⟨⟨hc, (hmem hc).mp hrows⟩, rfl⟩
  · rintro ⟨⟨hc, hsamples⟩, rfl⟩
    exact ⟨_, ⟨hc, rfl⟩, (), trivial, (), trivial, _,
      ⟨(hmem hc).mpr hsamples, hc.nodup_fst, rfl⟩, rfl⟩

/-- Blocks of distinct producers each find their producer new. -/
theorem joinBlock_loop_fresh {producers : BTreeMap NodeId ProducerPredictions}
    (hin : ∀ b ∈ blocks, b.partition ∈ included) (hn : (blocks.map (·.producerNode)).Nodup)
    (hnew : ∀ b ∈ blocks, b.producerNode ∉ producers) :
    loop (joinBlock included required) producers blocks = .ok producers' ↔
      (∀ b ∈ blocks, b.Content ∧ ∀ s ∈ b.sampleIds, s ∈ required) ∧
        producers' = (blocks.map (·.entry)).foldl (fun m e => m.insert e.1 e.2) producers := by
  induction blocks generalizing producers with
  | nil => simp [eq_comm]
  | cons b bs ih =>
    rw [List.forall_mem_cons] at hin hnew
    rw [List.map_cons, List.nodup_cons] at hn
    have hrest (b' : PredictionBlock) (hb' : b' ∈ bs) :
        b'.producerNode ∉ producers.insert b.entry.1 b.entry.2 := by
      have hne : b.producerNode ≠ b'.producerNode := fun heq =>
        hn.1 (heq ▸ List.mem_map_of_mem hb')
      simp [PredictionBlock.entry, hne, hnew.2 b' hb']
    simp only [loop_cons, joinBlock_fresh_ok hin.1 hnew.1, List.forall_mem_cons, List.map_cons,
      List.foldl_cons]
    constructor
    · rintro ⟨_, ⟨hb, rfl⟩, h⟩
      obtain ⟨hbs, rfl⟩ := (ih hin.2 hn.2 hrest).mp h
      exact ⟨⟨hb, hbs⟩, rfl⟩
    · rintro ⟨⟨hb, hbs⟩, rfl⟩
      exact ⟨_, ⟨hb, rfl⟩, (ih hin.2 hn.2 hrest).mpr ⟨hbs, rfl⟩⟩

/-- The rows read from the entries of covering blocks. -/
theorem collect_segments {blocks : List PredictionBlock} {e : DagMlError}
    (hcovers : ∀ b ∈ blocks, b.Covers required) :
    (collect required fun s => do
      let segments ← collect (blocks.map (·.entry)) fun (_, producer) => need producer.bySample[s]? e
      pure segments.flatten) = .ok (required.map fun s => blocks.flatMap (·.rowOf s)) := by
  rw [collect_ok, List.forall₂_map_right_iff, List.forall₂_same]
  intro s hs
  simp only [bind_ok, pure_ok]
  refine ⟨blocks.map (·.rowOf s), ?_, by rw [List.flatMap_def]⟩
  rw [collect_ok, List.forall₂_map_left_iff, List.forall₂_map_right_iff, List.forall₂_same]
  intro b hb
  obtain ⟨hc, hall⟩ := hcovers b hb
  obtain ⟨row, hrow⟩ := BTreeMap.mem_iff.mp (hc.mem_collect.mpr (hall s hs))
  simp [need_ok, PredictionBlock.entry, PredictionBlock.rowOf, hrow]

/-- The producers the campaign join collects from blocks of distinct producers. -/
theorem toList_entries {blocks : List PredictionBlock} (hn : (blocks.map (·.producerNode)).Nodup) :
    (BTreeMap.collect (blocks.map (·.entry))).toList =
      (Keyed.sortBy (·.producerNode) blocks).map (·.entry) := by
  have hkeys : ((blocks.map (·.entry)).map Prod.fst).Nodup := by
    rw [List.map_map]
    exact hn
  rw [BTreeMap.toList_collect hkeys, Keyed.sortBy_map]
  rfl

/-- On validation blocks of distinct producers the campaign join is the direct
join of the blocks in the order of their producers, if the policy selects
validation and no block holds a further sample. -/
theorem joinOofCampaignFeatures_single_ok {blocks : List PredictionBlock}
    (hn : (blocks.map (·.producerNode)).Nodup)
    (hval : ∀ b ∈ blocks, b.partition = .validation) :
    joinOofCampaignFeatures policy blocks required = .ok m ↔
      (blocks ≠ [] ∧ .validation ∈ effectivePartitions policy ∧
        ∀ b ∈ blocks, ∀ s ∈ b.sampleIds, s ∈ required) ∧
      joinOofFeatures (Keyed.sortBy (·.producerNode) blocks) required = .ok m := by
  have hoof : validatePredictionBlocksAreOof policy blocks = .ok () :=
    validatePredictionBlocksAreOof_ok.mpr fun _ => hval
  have hcolumns (sorted : List PredictionBlock) :
      ((sorted.map (·.entry)).flatMap fun (p, producer) =>
        producer.targetNames.map fun target => s!"{p}__{target}") =
      (sorted.flatMap (·.columnPairs)).map columnName := by
    rw [List.flatMap_map, List.map_flatMap]
    simp only [PredictionBlock.entry, PredictionBlock.columnPairs, List.map_map]
    rfl
  simp only [joinOofCampaignFeatures, hoof, joinOofFeatures_ok, Keyed.mem_sortBy]
  constructor
  · intro h
    simp only [bind_ok, ensureRequiredSamples_ok, pure_ok, refuseIf_ok, each_ok, not_not,
      Bool.not_eq_true] at h
    obtain ⟨_, -, _, ⟨hne, hrn⟩, producers, hloop, _, hempty, _, hall, values, hvalues, rfl⟩ := h
    have hselected := (joinBlock_loop hloop).selected
    have hin : .validation ∈ effectivePartitions policy := by
      by_contra hout
      have hnone (p : NodeId) : p ∉ producers := by
        rw [hselected]
        rintro ⟨b, hb, -, hin⟩
        exact hout (hval b hb ▸ hin)
      have hnil : producers = ∅ := BTreeMap.ext fun p => by simpa using hnone p
      simp [hnil] at hempty
    have hin' (b : PredictionBlock) (hb : b ∈ blocks) : b.partition ∈ effectivePartitions policy :=
      hval b hb ▸ hin
    obtain ⟨hblocks, rfl⟩ := (joinBlock_loop_fresh hin' hn (by simp)).mp hloop
    rw [show List.foldl _ ∅ _ = BTreeMap.collect (blocks.map (·.entry)) from rfl] at *
    rw [toList_entries hn] at hall hvalues
    have hcovers : ∀ b ∈ Keyed.sortBy (·.producerNode) blocks, b.Covers required := by
      intro b hb
      have hc := (hblocks b (Keyed.mem_sortBy.mp hb)).1
      exact ⟨hc, fun s hs => hc.mem_collect.mp (hall _ (List.mem_map_of_mem hb) s hs)⟩
    refine ⟨⟨?_, hin, fun b hb => (hblocks b hb).2⟩, hval, hne, hrn,
      fun b hb => hcovers b (Keyed.mem_sortBy.mpr hb), ?_⟩
    · rintro rfl
      simp [BTreeMap.collect] at hempty
    · rw [collect_segments hcovers, Except.ok.injEq] at hvalues
      rw [toList_entries hn, hcolumns, ← hvalues]
      rfl
  · rintro ⟨⟨hne, hin, hsamples⟩, -, hrne, hrn, hcovers, rfl⟩
    have hin' (b : PredictionBlock) (hb : b ∈ blocks) : b.partition ∈ effectivePartitions policy :=
      hval b hb ▸ hin
    have hnew (b : PredictionBlock) (_ : b ∈ blocks) :
        b.producerNode ∉ (∅ : BTreeMap NodeId ProducerPredictions) := by
      simp
    have hall (b : PredictionBlock) (hb : b ∈ blocks) : b.Content ∧ ∀ s ∈ b.sampleIds, s ∈ required :=
      ⟨(hcovers b hb).1, hsamples b hb⟩
    have hloop := (joinBlock_loop_fresh hin' hn hnew).mpr ⟨hall, rfl⟩
    have hsorted (b : PredictionBlock) (hb : b ∈ Keyed.sortBy (·.producerNode) blocks) :
        b.Covers required := hcovers b (Keyed.mem_sortBy.mp hb)
    have hentries : List.foldl (fun m e => m.insert e.1 e.2) ∅ (blocks.map (·.entry)) =
      BTreeMap.collect (blocks.map (·.entry)) := rfl
    rw [hentries] at hloop
    simp only [bind_ok, ensureRequiredSamples_ok, pure_ok, refuseIf_ok, each_ok, not_not,
      Bool.not_eq_true]
    refine ⟨(), trivial, (), ⟨hrne, hrn⟩, _, hloop, (), ?_, (), ?_,
      required.map fun s => (Keyed.sortBy (·.producerNode) blocks).flatMap (·.rowOf s), ?_, ?_⟩
    · obtain ⟨b, hb⟩ := List.exists_mem_of_ne_nil _ hne
      have hmem : b.entry ∈ (BTreeMap.collect (blocks.map (·.entry))).toList := by
        rw [toList_entries hn]
        exact List.mem_map_of_mem (Keyed.mem_sortBy.mpr hb)
      by_contra hempty
      rw [Bool.not_eq_false, Std.ExtTreeMap.isEmpty_iff] at hempty
      rw [Std.ExtTreeMap.toList_eq_nil_iff.mpr hempty] at hmem
      cases hmem
    · rw [toList_entries hn, List.forall_mem_map]
      exact fun b hb s hs => (hsorted b hb).1.mem_collect.mpr ((hsorted b hb).2 s hs)
    · rw [toList_entries hn]
      exact collect_segments hsorted
    · rw [toList_entries hn, hcolumns]
      rfl

/-- The columns of both joins are the names of their pairs, and are distinct
exactly when the pairs are and none reads as another; on blocks of distinct
producers the campaign join is the direct join in the order of the producers. -/
theorem oofJoins_columns_distinct :
    (∀ blocks required m, joinOofFeatures blocks required = .ok m →
      m.columns = (blocks.flatMap (·.columnPairs)).map columnName ∧
      (m.columns.Nodup ↔ Unambiguous (blocks.flatMap (·.columnPairs)))) ∧
    (∀ policy blocks required m, joinOofCampaignFeatures policy blocks required = .ok m →
      ∃ layout, LayoutOf policy blocks layout ∧ m.columns = (layoutPairs layout).map columnName ∧
        (m.columns.Nodup ↔ Unambiguous (layoutPairs layout))) ∧
    ∀ policy (blocks : List PredictionBlock) required m m',
      (blocks.map (·.producerNode)).Nodup → joinOofFeatures blocks required = .ok m →
      joinOofCampaignFeatures policy blocks required = .ok m' →
      joinOofFeatures (Keyed.sortBy (·.producerNode) blocks) required = .ok m' ∧
      (blocks.Pairwise (·.producerNode ≤ ·.producerNode) → m = m') := by
  refine ⟨fun blocks required m h => ?_, fun policy blocks required m h => ?_,
    fun policy blocks required m m' hn h h' => ?_⟩
  · obtain ⟨-, -, -, -, rfl⟩ := joinOofFeatures_ok.mp h
    exact ⟨rfl, nodup_columnName_iff⟩
  · obtain ⟨layout, hlayout, hcolumns⟩ := joinOofCampaignFeatures_layout h
    refine ⟨layout, hlayout, hcolumns, ?_⟩
    rw [hcolumns, nodup_columnName_iff]
  · have hval := (joinOofFeatures_ok.mp h).1
    have hsorted := ((joinOofCampaignFeatures_single_ok hn hval).mp h').2
    refine ⟨hsorted, fun hordered => ?_⟩
    rw [Keyed.sortBy_of_sorted hordered, h] at hsorted
    exact Except.ok.inj hsorted

/-- One column of one producer for one sample. -/
def columnBlock (producerNode : NodeId) (target : String) (value : Binary64) : PredictionBlock where
  predictionId := none
  producerNode := producerNode
  producerPort := none
  partition := .validation
  foldId := none
  sampleIds := [⟨"joined:1", by decide⟩]
  values := [[value]]
  targetNames := [target]

def shortProducer : NodeId := ⟨"joined:a", by decide⟩
def longProducer : NodeId := ⟨"joined:a__b", by decide⟩

theorem oofJoins_columns_distinct_ordered :
    let blocks := [columnBlock shortProducer "c" .zero, columnBlock longProducer "d" .negZero]
    Unambiguous (blocks.flatMap (·.columnPairs)) ∧
    (∃ layout, LayoutOf directPolicy blocks layout ∧
      ["joined:a__c", "joined:a__b__d"] = (layoutPairs layout).map columnName ∧
      Unambiguous (layoutPairs layout)) ∧
    joinOofFeatures (Keyed.sortBy (·.producerNode) blocks) [⟨"joined:1", by decide⟩] =
      .ok ⟨[⟨"joined:1", by decide⟩], ["joined:a__c", "joined:a__b__d"], [[.zero, .negZero]]⟩ := by
  intro blocks
  have h : joinOofFeatures blocks [⟨"joined:1", by decide⟩] =
      .ok ⟨[⟨"joined:1", by decide⟩], ["joined:a__c", "joined:a__b__d"], [[.zero, .negZero]]⟩ := by
    decide
  have h' : joinOofCampaignFeatures directPolicy blocks [⟨"joined:1", by decide⟩] =
      .ok ⟨[⟨"joined:1", by decide⟩], ["joined:a__c", "joined:a__b__d"], [[.zero, .negZero]]⟩ := by
    decide
  obtain ⟨hdirect, hcampaign, hagree⟩ := oofJoins_columns_distinct
  obtain ⟨layout, hlayout, hcolumns, hdistinct⟩ := hcampaign _ _ _ _ h'
  exact ⟨(hdirect _ _ _ h).2.mp (by decide), ⟨layout, hlayout, hcolumns, hdistinct.mp (by decide)⟩,
    (hagree _ _ _ _ _ (by decide) h h').1⟩

/-- Two producers whose columns share a name, and two that the joins list in
different orders. -/
theorem oofJoins_names_collide :
    (∃ m, joinOofFeatures [columnBlock shortProducer "b__c" .zero,
        columnBlock longProducer "c" .negZero] [⟨"joined:1", by decide⟩] = .ok m ∧
      ¬m.columns.Nodup) ∧
    ∃ m m', joinOofFeatures [columnBlock longProducer "d" .zero,
        columnBlock shortProducer "c" .negZero] [⟨"joined:1", by decide⟩] = .ok m ∧
      joinOofCampaignFeatures directPolicy [columnBlock longProducer "d" .zero,
        columnBlock shortProducer "c" .negZero] [⟨"joined:1", by decide⟩] = .ok m' ∧ m ≠ m' := by
  refine ⟨⟨⟨[⟨"joined:1", by decide⟩], ["joined:a__b__c", "joined:a__b__c"], [[.zero, .negZero]]⟩,
    by decide, by decide⟩, ?_⟩
  exact ⟨⟨[⟨"joined:1", by decide⟩], ["joined:a__b__d", "joined:a__c"], [[.zero, .negZero]]⟩,
    ⟨[⟨"joined:1", by decide⟩], ["joined:a__c", "joined:a__b__d"], [[.negZero, .zero]]⟩,
    by decide, by decide, by decide⟩

end DagMl
