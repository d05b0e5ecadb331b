import DagMl.Fold.NestedIds
import DagMl.Lib.Balance
import DagMl.Lib.Index
import DagMl.Lib.Keyed

/-!
# Balanced splits

Every splitter answers when it is asked for no more folds than it has samples,
or groups. Its folds train on what they do not validate, and are as even as the
splitter says: in samples, in each class, or up to the largest group. The order
in which the samples are listed changes nothing.
-/

namespace DagMl

open Checked Balance BTreeMap

-- ---------------------------------------------------------------------------
-- The names of the folds
-- ---------------------------------------------------------------------------

/-- The name a splitter gives its `i`-th fold. -/
def foldName (i : Nat) : String := s!"fold{i}"

theorem toList_foldName (i : Nat) :
    (foldName i).toList = ['f', 'o', 'l', 'd'] ++ Nat.toDigits 10 i := by
  have hname : foldName i = "fold" ++ toString i := rfl
  simp [hname]

theorem foldName_injective : Function.Injective foldName := by
  intro i j h
  have hchars := congrArg String.toList h
  rw [toList_foldName, toList_foldName, List.append_cancel_left_eq] at hchars
  rw [← Nat.ofDigitChars_ten_toDigits (n := i), hchars, Nat.ofDigitChars_ten_toDigits]

theorem utf8Size_of_isDigit {c : Char} (h : c.isDigit = true) : c.utf8Size = 1 := by
  rw [Char.utf8Size_eq_one_iff]
  simp only [Char.isDigit, Bool.and_eq_true, decide_eq_true_eq] at h
  exact UInt32.le_trans h.2 (by decide)

/-- A `usize` is short enough to be part of an identifier. -/
theorem foldName_valid {i : Nat} (hi : i < 2 ^ 64) : validateIdentifier (foldName i) = .ok () := by
  have hdigit (c : Char) (hc : c ∈ Nat.toDigits 10 i) : c.isDigit = true :=
    Nat.isDigit_of_mem_toDigits (by decide) (by decide) hc
  have hlength : (Nat.toDigits 10 i).length ≤ 20 :=
    (Nat.length_toDigits_le_iff (by decide) (by decide)).mpr (hi.trans (by decide))
  have hsize : (foldName i).utf8ByteSize = 4 + (Nat.toDigits 10 i).length := by
    rw [← String.ofList_toList (s := foldName i), toList_foldName, Framing.utf8ByteSize_ofList,
      List.map_append, List.sum_append,
      List.map_congr_left fun c hc => utf8Size_of_isDigit (hdigit c hc)]
    simp
    decide
  have hchars : (foldName i).toList.all isIdentifierChar = true := by
    rw [toList_foldName, List.all_append, Bool.and_eq_true]
    refine ⟨rfl, List.all_eq_true.mpr fun c hc => ?_⟩
    simp [isIdentifierChar, Char.isAlphanum, hdigit c hc]
  have hne : (foldName i).isEmpty = false := by
    rw [String.isEmpty_eq_false_iff]
    rintro h
    rw [h, String.utf8ByteSize_empty] at hsize
    omega
  unfold validateIdentifier
  simp only [hne, hchars, hsize]
  simp
  omega

-- ---------------------------------------------------------------------------
-- Partitions
-- ---------------------------------------------------------------------------

/-- A partition of the samples into `n` folds that train on what they do not validate. -/
structure PartitionSplit (n : Nat) (samples : List SampleId) (foldSet : FoldSet) : Prop where
  valid : foldSet.Valid
  mode_eq : foldSet.partitionMode = .partition
  length_eq : foldSet.folds.length = n
  samples_perm : foldSet.sampleIds.Perm samples
  complement : ∀ fold ∈ foldSet.folds, ∀ s,
    s ∈ fold.trainSampleIds ↔ s ∈ samples ∧ s ∉ fold.validationSampleIds

section Parts

variable {β : Type} {number : β → Nat} {train validation : β → List SampleId} {parts : List β}
  {folds : List FoldAssignment} {samples listed : List SampleId}
  {groups : BTreeMap SampleId GroupId}

/-- One fold for each part. -/
def FoldsOf (number : β → Nat) (train validation : β → List SampleId) (parts : List β)
    (folds : List FoldAssignment) : Prop :=
  List.Forall₂ (fun part fold => fold.foldId.value = foldName (number part) ∧
    fold.trainSampleIds = train part ∧ fold.validationSampleIds = validation part) parts folds

theorem exists_foldsOf (number : β → Nat) (train validation : β → List SampleId) (parts : List β)
    (hnumber : ∀ part ∈ parts, number part < 2 ^ 64) :
    ∃ folds, collect parts (fun part => do
        let foldId ← Id.new s!"fold{number part}"
        pure (FoldAssignment.mk foldId (train part) (validation part) ∅)) = .ok folds ∧
      FoldsOf number train validation parts folds := by
  induction parts with
  | nil => exact ⟨[], rfl, .nil⟩
  | cons part parts ih =>
    rw [List.forall_mem_cons] at hnumber
    obtain ⟨folds, hfolds, hof⟩ := ih hnumber.2
    obtain ⟨foldId, hid⟩ : ∃ foldId : FoldId, foldId.value = foldName (number part) :=
      ⟨⟨_, foldName_valid hnumber.1⟩, rfl⟩
    refine ⟨⟨foldId, train part, validation part, ∅⟩ :: folds, ?_, .cons ⟨hid, rfl, rfl⟩ hof⟩
    have hnew : Id.new s!"fold{number part}" = .ok foldId := Id.new_ok.mpr hid
    simp only [Checked.collect, hnew, hfolds, bind_ok, pure_ok]
    exact ⟨_, ⟨foldId, rfl, rfl⟩, folds, rfl, rfl⟩

theorem FoldsOf.names (h : FoldsOf number train validation parts folds) :
    folds.map (·.foldId.value) = (parts.map number).map foldName := by
  induction h with
  | nil => rfl
  | cons hfold _ ih => simp [hfold.1, ih]

theorem FoldsOf.validated (h : FoldsOf number train validation parts folds) :
    FoldSet.validated folds = parts.flatMap validation := by
  induction h with
  | nil => rfl
  | cons hfold _ ih =>
    rw [FoldSet.validated, List.flatMap_cons, hfold.2.2, List.flatMap_cons, ← ih]
    rfl

/-- What every splitter has to see to for its fold set to be a partition. -/
theorem FoldsOf.partitionSplit (h : FoldsOf number train validation parts folds)
    (hid : isBlank foldSetId = false) (hn : samples.Nodup) (hperm : listed.Perm samples)
    (hgroups : groups.isEmpty ∨ ∀ s, s ∈ groups ↔ s ∈ samples)
    (hparts : parts ≠ []) (hnumbers : (parts.map number).Nodup)
    (hcover : (parts.flatMap validation).Perm samples)
    (hne : ∀ part ∈ parts, validation part ≠ [])
    (htrain : ∀ part ∈ parts, (train part).Nodup ∧
      ∀ s, s ∈ train part ↔ s ∈ samples ∧ s ∉ validation part)
    (hboundary : ∀ part ∈ parts, ∀ s ∈ validation part, ∀ g, groups[s]? = some g →
      ∀ t, groups[t]? = some g → t ∈ validation part) :
    PartitionSplit parts.length samples (partitionOf foldSetId listed folds groups) := by
  have hmem (s : SampleId) : s ∈ listed ↔ s ∈ samples := hperm.mem_iff
  have hvalidated : (FoldSet.validated folds).Perm samples := h.validated ▸ hcover
  have hpart (fold : FoldAssignment) (hfold : fold ∈ folds) :
      ∃ part ∈ parts, fold.trainSampleIds = train part ∧
        fold.validationSampleIds = validation part := by
    obtain ⟨part, hpart, -, hsides⟩ := exists_left_of_mem h hfold
    exact ⟨part, hpart, hsides⟩
  have hcovernodup := hcover.nodup_iff.mpr hn
  rw [List.nodup_flatMap] at hcovernodup
  refine ⟨?_, rfl, h.length_eq.symm, hperm, ?_⟩
  · constructor
    · exact hid
    · rintro rfl
      obtain ⟨part, hpart⟩ := List.exists_mem_of_ne_nil parts hparts
      obtain ⟨s, hs⟩ := List.exists_mem_of_ne_nil _ (hne part hpart)
      have hsample := hcover.subset (List.mem_flatMap.mpr ⟨part, hpart, hs⟩)
      rw [← hperm.mem_iff] at hsample
      cases hsample
    · rintro rfl
      exact hparts (List.length_eq_zero_iff.mp h.length_eq)
    · exact hperm.nodup_iff.mpr hn
    · simpa [partitionOf, hmem] using hgroups
    · exact .nil
    · simp [partitionOf]
    · apply List.Nodup.of_map (·.value)
      rw [List.map_map]
      exact h.names ▸ hnumbers.map foldName_injective
    · intro fold hfold
      obtain ⟨part, hpart, htr, hva⟩ := hpart fold hfold
      obtain ⟨htrn, htrm⟩ := htrain part hpart
      refine ⟨htr ▸ htrn, hva ▸ hcovernodup.1 part hpart, hva ▸ hne part hpart, ?_, ?_, ?_, ?_⟩
      · intro s hs
        rw [htr] at hs
        exact (hmem s).mpr ((htrm s).mp hs).1
      · intro s hs
        rw [hva] at hs
        exact (hmem s).mpr (hcover.subset (List.mem_flatMap.mpr ⟨part, hpart, hs⟩))
      · intro s hs hs'
        rw [hva] at hs
        rw [htr] at hs'
        exact ((htrm s).mp hs').2 hs
      · intro s hs g hg t ht htg
        rw [hva] at hs
        rw [htr] at ht
        exact ((htrm t).mp ht).2 (hboundary part hpart s hs g hg t htg)
    · intro _ s hs
      exact (hvalidated.count_eq s).trans (List.count_eq_one_of_mem hn ((hmem s).mp hs))
  · intro fold hfold s
    obtain ⟨part, hpart, htr, hva⟩ := hpart fold hfold
    rw [htr, hva]
    exact (htrain part hpart).2 s

end Parts

-- ---------------------------------------------------------------------------
-- Dealing samples
-- ---------------------------------------------------------------------------

section Dealing

variable {n : Nat} {samples samples' listed dealt : List SampleId}
  {train validation : Nat → List SampleId} {folds : List FoldAssignment}

/-- Folds that validate the parts of a dealt list. -/
structure Dealing (n : Nat) (dealt samples : List SampleId)
    (train validation : Nat → List SampleId) : Prop where
  nodup : dealt.Nodup
  perm : dealt.Perm samples
  validation_perm : ∀ i < n, (validation i).Perm (dealtFrom 0 n i dealt)
  train_nodup : ∀ i < n, (train i).Nodup
  train_iff : ∀ i < n, ∀ s, s ∈ train i ↔ s ∈ samples ∧ s ∉ validation i

theorem Dealing.mem_validation (h : Dealing n dealt samples train validation) (hi : i < n) :
    s ∈ validation i ↔ s ∈ dealt ∧ dealt.idxOf s % n = i := by
  rw [(h.validation_perm i hi).mem_iff, mem_dealtFrom_of_nodup h.nodup]

theorem Dealing.length_validation (h : Dealing n dealt samples train validation) (hi : i < n) :
    (validation i).length = hits n i 0 samples.length := by
  rw [(h.validation_perm i hi).length_eq, length_dealtFrom, h.perm.length_eq]

theorem Dealing.partitionSplit (h : Dealing n dealt samples train validation)
    (hfolds : FoldsOf (fun i => i) train validation (List.range n) folds)
    (hid : isBlank foldSetId = false) (hperm : listed.Perm samples) (h2 : 2 ≤ n)
    (hle : n ≤ samples.length) : PartitionSplit n samples (partitionOf foldSetId listed folds ∅) := by
  have hn : samples.Nodup := h.perm.nodup_iff.mp h.nodup
  have hne : List.range n ≠ [] := by
    rw [Ne, List.range_eq_nil]
    omega
  have hsplit : PartitionSplit (List.range n).length samples
      (partitionOf foldSetId listed folds ∅) := by
    refine hfolds.partitionSplit hid hn hperm (by simp) hne (by simpa using List.nodup_range) ?_ ?_ ?_
      (by simp)
    · refine (perm_flatMap_range (fun s => dealt.idxOf s % n) h.nodup (fun i hi => ?_) ?_).trans h.perm
      · refine ⟨?_, fun s => h.mem_validation hi⟩
        rw [(h.validation_perm i hi).nodup_iff]
        exact sublist_dealtFrom.nodup h.nodup
      · intro s _
        exact Nat.mod_lt _ (by omega)
    · intro i hi hnil
      have hlength := h.length_validation (List.mem_range.mp hi)
      rw [hnil, hits_zero (List.mem_range.mp hi), List.length_nil] at hlength
      have hpos := Nat.div_pos hle (by omega)
      omega
    · intro i hi
      exact ⟨h.train_nodup i (List.mem_range.mp hi), h.train_iff i (List.mem_range.mp hi)⟩
  rwa [List.length_range] at hsplit

/-- Two dealt folds have as many members of a property that forms a block, up to one. -/
theorem Dealing.countP_le {before block after : List SampleId} {p : SampleId → Bool}
    (h : Dealing n dealt samples train validation) (hdealt : dealt = before ++ block ++ after)
    (hout : ∀ s ∈ before ++ after, p s = false) (hblock : ∀ s ∈ block, p s = true)
    (hi : i < n) (hj : j < n) : (validation i).countP p ≤ (validation j).countP p + 1 := by
  rw [(h.validation_perm i hi).countP_eq, (h.validation_perm j hj).countP_eq, hdealt,
    countP_dealtFrom_block hout hblock, countP_dealtFrom_block hout hblock]
  exact hits_le hi hj

end Dealing

variable {sha256 : Digest} {foldSetId : String} {samples samples' : List SampleId}

theorem orderedSamples_perm : (orderedSamples sha256 samples shuffle seed).Perm samples := by
  cases shuffle with
  | false => exact List.perm_insertionSort _ _
  | true => exact (List.perm_insertionSort _ _).trans (List.perm_insertionSort _ _)

theorem orderedSamples_congr (h : samples.Perm samples') :
    orderedSamples sha256 samples shuffle seed = orderedSamples sha256 samples' shuffle seed := by
  simp only [orderedSamples, Keyed.sort_eq_iff.mpr h]

theorem uniqueSamples_of_nodup (h : samples.Nodup) :
    uniqueSamples label samples = .ok samples.toFinset := FoldSet.uniqueSamples_ok.mpr ⟨h, rfl⟩

/-- Validation sizes differ by at most one. -/
def EvenSizes (folds : List FoldAssignment) : Prop :=
  ∀ f ∈ folds, ∀ g ∈ folds, f.validationSampleIds.length ≤ g.validationSampleIds.length + 1

variable (sha256) in
theorem KFoldSpec.split_balanced (self : KFoldSpec) (hid : isBlank foldSetId = false)
    (hn : samples.Nodup) (h2 : 2 ≤ self.nSplits) (hle : self.nSplits ≤ samples.length)
    (hword : self.nSplits < 2 ^ 64) :
    ∃ foldSet, self.split sha256 foldSetId samples = .ok foldSet ∧
      PartitionSplit self.nSplits samples foldSet ∧ EvenSizes foldSet.folds := by
  let ordered := orderedSamples sha256 samples self.shuffle (self.seed.getD 0)
  let validation (i : Nat) := dealtFrom 0 self.nSplits i ordered
  let train (i : Nat) := ordered.filter (· ∉ validation i)
  have hperm : ordered.Perm samples := orderedSamples_perm
  have hordered : ordered.Nodup := hperm.nodup_iff.mpr hn
  have hd : Dealing self.nSplits ordered samples train validation := by
    refine ⟨hordered, hperm, fun i _ => .refl _, fun i _ => hordered.filter _, fun i _ s => ?_⟩
    simp [train, hperm.mem_iff]
  obtain ⟨folds, hfolds, hof⟩ := exists_foldsOf (fun i => i) train validation
    (List.range self.nSplits) fun i hi => (List.mem_range.mp hi).trans hword
  have hlisted : (orderedSamples sha256 samples false 0).Perm samples := orderedSamples_perm
  have hsplit := hd.partitionSplit hof hid hlisted h2 hle
  refine ⟨_, ?_, hsplit, ?_⟩
  · simp only [split, uniqueSamples_of_nodup hn, bind_ok, refuseIf_ok, FoldSet.validate_ok, pure_ok]
    refine ⟨(), by omega, _, rfl, (), ?_, folds, hfolds, (), hsplit.valid, rfl⟩
    rw [List.toFinset_card_of_nodup hn]
    omega
  · intro f hf g hg
    obtain ⟨i, hi, -, -, hfval⟩ := exists_left_of_mem hof hf
    obtain ⟨j, hj, -, -, hgval⟩ := exists_left_of_mem hof hg
    rw [List.mem_range] at hi hj
    rw [hfval, hgval, hd.length_validation hi, hd.length_validation hj]
    exact hits_le hi hj

theorem KFoldSpec.split_congr (self : KFoldSpec) (hn : samples.Nodup) (h : samples.Perm samples') :
    self.split sha256 foldSetId samples = self.split sha256 foldSetId samples' := by
  simp only [split, orderedSamples_congr h, uniqueSamples_of_nodup hn,
    uniqueSamples_of_nodup (h.nodup_iff.mp hn), List.toFinset_eq_of_perm _ _ h]

-- ---------------------------------------------------------------------------
-- Classes
-- ---------------------------------------------------------------------------

variable {strata : BTreeMap SampleId String}

/-- The samples of each class. -/
def classMembers (strata : BTreeMap SampleId String) (samples : List SampleId) :
    BTreeMap String (List SampleId) :=
  samples.foldl (fun byLabel s => BTreeMap.pushEntry byLabel (strata.getD s "") s) ∅

theorem byLabel_loop {error : SampleId → DagMlError} (h : ∀ s ∈ samples, s ∈ strata) :
    loop (fun (byLabel : BTreeMap String (List SampleId)) s => do
      let label ← need strata[s]? (error s)
      pure (byLabel.pushEntry label s)) ∅ samples = .ok (classMembers strata samples) := by
  unfold classMembers
  generalize (∅ : BTreeMap String (List SampleId)) = m
  induction samples generalizing m with
  | nil => rfl
  | cons s rest ih =>
    rw [List.forall_mem_cons] at h
    obtain ⟨label, hlabel⟩ := BTreeMap.mem_iff.mp h.1
    have hgetD : strata.getD s "" = label := by
      rw [Std.ExtTreeMap.getD_eq_getD_getElem?, hlabel, Option.getD_some]
    rw [loop_cons, hlabel, List.foldl_cons, hgetD, ← ih h.2]
    exact ⟨m.pushEntry label s, rfl, rfl⟩

theorem classMembers_groupsOf (strata : BTreeMap SampleId String) (samples : List SampleId) :
    GroupsOf (samples.map fun s => (strata.getD s "", s)) (classMembers strata samples) :=
  GroupsOf.foldl (strata.getD · "") (fun s => s) samples

/-- The samples listed class by class. -/
def classOrder (strata : BTreeMap SampleId String) (samples : List SampleId) : List SampleId :=
  (classMembers strata samples).values.flatten

theorem classOrder_eq :
    classOrder strata samples = (classMembers strata samples).toList.flatMap Prod.snd := by
  rw [classOrder, values_eq, List.flatMap_def]

theorem classOrder_perm (hn : samples.Nodup) : (classOrder strata samples).Perm samples := by
  have hvalues : (samples.map fun s => (strata.getD s "", s)).map Prod.snd = samples := by
    simp [Function.comp_def]
  have hperm := (classMembers_groupsOf strata samples).perm_flatMap (hvalues.symm ▸ hn)
  rwa [hvalues, ← classOrder_eq] at hperm

theorem classOrder_block (strata : BTreeMap SampleId String) (samples : List SampleId)
    (label : String) :
    ∃ before block after, classOrder strata samples = before ++ block ++ after ∧
      (∀ s ∈ before ++ after, strata.getD s "" ≠ label) ∧ ∀ s ∈ block, strata.getD s "" = label := by
  obtain ⟨before, after, hsplit, hout⟩ := (classMembers_groupsOf strata samples).exists_block label
  refine ⟨before, _, after, classOrder_eq.trans hsplit, fun s hs => ?_, fun s hs => ?_⟩
  · obtain ⟨other, hne, hmem⟩ := hout s hs
    rw [List.mem_map] at hmem
    obtain ⟨t, -, ht⟩ := hmem
    cases ht
    exact hne
  · rw [mem_bucket, List.mem_map] at hs
    obtain ⟨t, -, ht⟩ := hs
    cases ht
    rfl

/-- The fold of a dealt sample. -/
theorem foldOf_eq_some {n i : Nat} {dealt : List SampleId} (hn : dealt.Nodup) :
    (BTreeMap.collect (dealt.zipIdx.map fun (s, position) => (s, position % n)))[s]? = some i ↔
      s ∈ dealtFrom 0 n i dealt := by
  have hkeys : ((dealt.zipIdx.map fun (s, position) => (s, position % n)).map Prod.fst).Nodup := by
    rw [List.map_map]
    change (dealt.zipIdx.map Prod.fst).Nodup
    rwa [List.zipIdx_map_fst]
  rw [getElem?_collect (functional_of_nodup hkeys), mem_dealtFrom]
  simp only [List.mem_map, Prod.exists, List.mk_mem_zipIdx_iff_getElem?, Prod.mk.injEq]
  constructor
  · rintro ⟨_, p, hp, rfl, hmod⟩
    exact ⟨p, hp, hmod⟩
  · rintro ⟨p, hp, hmod⟩
    exact ⟨s, p, hp, rfl, hmod⟩

/-- The members of each class in two validation sets differ by at most one. -/
def EvenClasses (strata : BTreeMap SampleId String) (folds : List FoldAssignment) : Prop :=
  ∀ label, ∀ f ∈ folds, ∀ g ∈ folds,
    f.validationSampleIds.countP (strata[·]? = some label) ≤
      g.validationSampleIds.countP (strata[·]? = some label) + 1

variable (sha256) in
theorem StratifiedKFoldSpec.split_balanced (self : StratifiedKFoldSpec)
    (hid : isBlank foldSetId = false) (hn : samples.Nodup) (h2 : 2 ≤ self.nSplits)
    (hle : self.nSplits ≤ samples.length) (hword : self.nSplits < 2 ^ 64)
    (hstrata : ∀ s ∈ samples, s ∈ strata) :
    ∃ foldSet, self.split sha256 foldSetId samples strata = .ok foldSet ∧
      PartitionSplit self.nSplits samples foldSet ∧ EvenClasses strata foldSet.folds := by
  let ordered := orderedSamples sha256 samples self.shuffle (self.seed.getD 0)
  let dealt := classOrder strata ordered
  let foldOf := BTreeMap.collect (dealt.zipIdx.map fun (s, position) => (s, position % self.nSplits))
  let validation (i : Nat) := ordered.filter fun s => foldOf[s]? = some i
  let train (i : Nat) := ordered.filter fun s => foldOf[s]? ≠ some i
  have hperm : ordered.Perm samples := orderedSamples_perm
  have hordered : ordered.Nodup := hperm.nodup_iff.mpr hn
  have hdealt : dealt.Perm ordered := classOrder_perm hordered
  have hdealtn : dealt.Nodup := hdealt.nodup_iff.mpr hordered
  have hd : Dealing self.nSplits dealt samples train validation := by
    refine ⟨hdealtn, hdealt.trans hperm, fun i _ => ?_, fun i _ => hordered.filter _, fun i _ s => ?_⟩
    · rw [List.perm_ext_iff_of_nodup (hordered.filter _) (sublist_dealtFrom.nodup hdealtn)]
      intro s
      rw [List.mem_filter, decide_eq_true_eq, foldOf_eq_some hdealtn]
      exact and_iff_right_of_imp fun hs => hdealt.subset (sublist_dealtFrom.subset hs)
    · simp only [train, validation, List.mem_filter, decide_eq_true_eq, hperm.mem_iff, not_and]
      exact and_congr_right fun hs => (imp_iff_right hs).symm
  obtain ⟨folds, hfolds, hof⟩ := exists_foldsOf (fun i => i) train validation
    (List.range self.nSplits) fun i hi => (List.mem_range.mp hi).trans hword
  have hlisted : (orderedSamples sha256 samples false 0).Perm samples := orderedSamples_perm
  have hsplit := hd.partitionSplit hof hid hlisted h2 hle
  have hlabels : ∀ s ∈ ordered, s ∈ strata := fun s hs => hstrata s (hperm.subset hs)
  refine ⟨_, ?_, hsplit, ?_⟩
  · simp only [split, uniqueSamples_of_nodup hn, bind_ok, refuseIf_ok, FoldSet.validate_ok, pure_ok]
    refine ⟨(), by omega, _, rfl, (), ?_, _, byLabel_loop hlabels, folds, hfolds, (), hsplit.valid,
      rfl⟩
    rw [List.toFinset_card_of_nodup hn]
    omega
  · intro label f hf g hg
    obtain ⟨i, hi, -, -, hfval⟩ := exists_left_of_mem hof hf
    obtain ⟨j, hj, -, -, hgval⟩ := exists_left_of_mem hof hg
    rw [List.mem_range] at hi hj
    have hlabel (l : List SampleId) (hl : l ⊆ ordered) :
        l.countP (strata[·]? = some label) = l.countP (strata.getD · "" = label) := by
      refine List.countP_congr fun s hs => ?_
      obtain ⟨found, hfound⟩ := BTreeMap.mem_iff.mp (hlabels s (hl hs))
      simp [Std.ExtTreeMap.getD_eq_getD_getElem?, hfound]
    rw [hfval, hgval, hlabel _ (List.filter_subset_self _), hlabel _ (List.filter_subset_self _)]
    obtain ⟨before, block, after, hblocks, hout, hblock⟩ := classOrder_block strata ordered label
    exact hd.countP_le hblocks (by simpa using hout) (by simpa using hblock) hi hj

theorem StratifiedKFoldSpec.split_congr (self : StratifiedKFoldSpec) (hn : samples.Nodup)
    (h : samples.Perm samples') :
    self.split sha256 foldSetId samples strata = self.split sha256 foldSetId samples' strata := by
  simp only [split, orderedSamples_congr h, uniqueSamples_of_nodup hn,
    uniqueSamples_of_nodup (h.nodup_iff.mp hn), List.toFinset_eq_of_perm _ _ h]

-- ---------------------------------------------------------------------------
-- Groups
-- ---------------------------------------------------------------------------

variable {groups : BTreeMap SampleId GroupId} {n M : Nat}

theorem shortest_spec {parts : List (List SampleId)} (hne : parts ≠ []) :
    ∃ i part, shortest parts = some i ∧ parts[i]? = some part ∧
      ∀ other ∈ parts, part.length ≤ other.length := by
  let sizes := parts.zipIdx.map fun e => toLex (e.1.length, e.2)
  have hsizes : sizes ≠ [] := by simpa [sizes] using hne
  obtain ⟨least, hleast⟩ := Option.isSome_iff_exists.mp (List.isSome_min?_of_ne_nil hsizes)
  obtain ⟨hmem, hle⟩ := List.min?_eq_some_iff.mp hleast
  obtain ⟨⟨part, i⟩, hpart, rfl⟩ := List.mem_map.mp hmem
  refine ⟨i, part, ?_, List.mem_zipIdx_iff_getElem?.mp hpart, fun other hother => ?_⟩
  · change sizes.min?.map _ = _
    rw [hleast]
    rfl
  · obtain ⟨j, hj⟩ := List.getElem?_of_mem hother
    have hlex := hle _ (List.mem_map_of_mem (List.mem_zipIdx_iff_getElem?.mpr hj : (other, j) ∈ _))
    rcases Prod.Lex.le_iff.mp hlex with hlt | heq
    · exact hlt.le
    · exact heq.1.le

/-- The samples of each group. -/
def groupMembers (groups : BTreeMap SampleId GroupId) : BTreeMap GroupId (List SampleId) :=
  groups.toList.foldl (fun members e => BTreeMap.pushEntry members e.2 e.1) ∅

theorem groupMembers_groupsOf (groups : BTreeMap SampleId GroupId) :
    GroupsOf (groups.toList.map fun e => (e.2, e.1)) (groupMembers groups) :=
  GroupsOf.foldl Prod.snd Prod.fst groups.toList

theorem groupMembers_get {g : GroupId} {members : List SampleId}
    (h : (g, members) ∈ (groupMembers groups).toList) :
    members ≠ [] ∧ members.length = groups.values.count g ∧
      ∀ s, s ∈ members ↔ groups[s]? = some g := by
  obtain ⟨hne, rfl⟩ := (groupMembers_groupsOf groups g members).mp (mem_toList.mp h)
  refine ⟨hne, ?_, fun s => ?_⟩
  · rw [values_eq, List.count, List.countP_map, List.countP_eq_length_filter, bucket, List.length_map,
      List.filter_map, List.length_map]
    congr 1
  · have hentry : groups[s]? = some g ↔ (s, g) ∈ groups.toList :=
      (mem_toList (p := (s, g))).symm
    rw [mem_bucket, hentry]
    simp

theorem mem_groupMembers_keys {g : GroupId} :
    g ∈ (groupMembers groups).toList.map Prod.fst ↔ g ∈ groups.toList.map Prod.snd := by
  constructor
  · intro hg
    obtain ⟨⟨g, members⟩, hmem, rfl⟩ := List.mem_map.mp hg
    have hbucket := (groupMembers_groupsOf groups g members).mp (mem_toList.mp hmem)
    have hkey := bucket_ne_nil.mp (hbucket.2 ▸ hbucket.1)
    rwa [List.map_map] at hkey
  · intro hg
    have hkey : bucket (groups.toList.map fun e => (e.2, e.1)) g ≠ [] := by
      rw [bucket_ne_nil, List.map_map]
      exact hg
    have hmem := (groupMembers_groupsOf groups g _).mpr ⟨hkey, rfl⟩
    exact List.mem_map_of_mem (f := Prod.fst) (mem_toList (p := (g, _)).mpr hmem)

theorem size_groupMembers : (groupMembers groups).size = groups.values.toFinset.card := by
  have hkeys := (List.toFinset_card_of_nodup (nodup_keys_toList (groupMembers groups))).symm
  rw [List.length_map, Std.ExtTreeMap.length_toList] at hkeys
  rw [hkeys, values_eq]
  congr 1
  ext g
  rw [List.mem_toFinset, List.mem_toFinset, mem_groupMembers_keys]

theorem groupMembers_perm :
    ((groupMembers groups).toList.flatMap Prod.snd).Perm groups.keys := by
  have hvalues : (groups.toList.map fun e => (e.2, e.1)).map Prod.snd = groups.keys := by
    rw [List.map_map, ← Std.ExtTreeMap.map_fst_toList_eq_keys]
    rfl
  rw [← hvalues]
  refine (groupMembers_groupsOf groups).perm_flatMap ?_
  rw [hvalues]
  exact Std.ExtTreeMap.nodup_keys

/-- Placing the groups one by one. -/
theorem placeGroups (hn : 0 < n) {entries : List (GroupId × List SampleId)}
    (hne : ∀ e ∈ entries, e.2 ≠ []) :
    ∃ parts, loop (fun (parts : List (List SampleId)) (entry : GroupId × _) => do
        let foldIdx ← need (shortest parts) (DagMlError.panicked "at least one fold")
        pure (parts.modify foldIdx (· ++ entry.2.insertionSort (· ≤ ·))))
        (List.replicate n []) entries = .ok parts ∧
      ∀ M, (∀ e ∈ entries, e.2.length ≤ M) →
        Placed n M (entries.map fun e => e.2.insertionSort (· ≤ ·)) parts := by
  induction entries using List.reverseRecOn with
  | nil => exact ⟨_, rfl, fun M _ => .start n M⟩
  | append_singleton entries e ih =>
    obtain ⟨parts, hparts, hplaced⟩ := ih fun e he => hne e (List.mem_append_left _ he)
    have hlength : parts.length = n :=
      (hplaced (entries.map (·.2.length)).sum fun e he =>
        List.le_sum_of_mem (List.mem_map_of_mem (f := (·.2.length)) he)).length
    have hpartsne : parts ≠ [] := by
      rintro rfl
      exact absurd hlength (by simp; omega)
    obtain ⟨i, part, hshortest, hpart, hleast⟩ := shortest_spec hpartsne
    refine ⟨parts.modify i (· ++ e.2.insertionSort (· ≤ ·)),
      loop_append.mpr ⟨parts, hparts, loop_cons.mpr ⟨_, ?_, rfl⟩⟩, fun M hM => ?_⟩
    · rw [hshortest]
      rfl
    · rw [List.map_append]
      refine (hplaced M fun e he => hM e (List.mem_append_left _ he)).place hpart hleast ?_ ?_
      · have := hne e (by simp)
        simpa [← List.length_eq_zero_iff] using this
      · simpa using hM e (by simp)

/-- The groups handed out whole to `n` parts. -/
structure PlacedGroups (n : Nat) (groups : BTreeMap SampleId GroupId)
    (parts : List (List SampleId)) : Prop where
  length_eq : parts.length = n
  perm : parts.flatten.Perm groups.keys
  ne_nil : ∀ part ∈ parts, part ≠ []
  whole : ∀ part ∈ parts, ∀ s ∈ part, ∀ g, groups[s]? = some g →
    ∀ t, groups[t]? = some g → t ∈ part
  balanced : ∀ M, (∀ g, groups.values.count g ≤ M) → ∀ part ∈ parts, ∀ other ∈ parts,
    part.length ≤ other.length + M

theorem PlacedGroups.of_placed {grouped : List (GroupId × List SampleId)}
    {parts : List (List SampleId)} (hgrouped : grouped.Perm (groupMembers groups).toList)
    (hle : n ≤ groups.values.toFinset.card)
    (hplaced : ∀ M, (∀ e ∈ grouped, e.2.length ≤ M) →
      Placed n M (grouped.map fun e => e.2.insertionSort (· ≤ ·)) parts) :
    PlacedGroups n groups parts := by
  have hmember (e : GroupId × List SampleId) (he : e ∈ grouped) :=
    groupMembers_get (hgrouped.subset he)
  have hplaced (M : Nat) (hM : ∀ g, groups.values.count g ≤ M) := hplaced M fun e he =>
    (hmember e he).2.1 ▸ hM e.1
  have hall := hplaced groups.values.length fun g => List.count_le_length
  have hblocks : (grouped.map fun e => e.2.insertionSort (· ≤ ·)).flatten.Perm groups.keys := by
    rw [← List.flatMap_def]
    refine .trans (.flatMap_left _ fun e _ => List.perm_insertionSort _ _) ?_
    exact (hgrouped.flatMap_right _).trans groupMembers_perm
  have hnodup := hblocks.nodup_iff.mpr Std.ExtTreeMap.nodup_keys
  refine ⟨hall.length, hall.perm.trans hblocks, fun part hpart => hall.ne_nil ?_ hpart, ?_,
    fun M hM => (hplaced M hM).balanced⟩
  · rwa [List.length_map, hgrouped.length_eq, Std.ExtTreeMap.length_toList, size_groupMembers]
  · intro part hpart s hs g hg t ht
    have hkey : g ∈ (groupMembers groups).toList.map Prod.fst := by
      rw [mem_groupMembers_keys]
      exact List.mem_map_of_mem (f := Prod.snd) (mem_toList (p := (s, g)).mpr hg)
    obtain ⟨⟨_, members⟩, he, rfl⟩ := List.mem_map.mp hkey
    have he := hgrouped.symm.subset he
    have hmembers := (hmember _ he).2.2
    have hsub := hall.closed hnodup hpart (List.mem_map_of_mem he) hs
      ((List.mem_insertionSort _).mpr ((hmembers s).mpr hg))
    exact hsub ((List.mem_insertionSort _).mpr ((hmembers t).mpr ht))

/-- No group is split, no fold is empty, and sizes differ by at most the largest group. -/
structure EvenGroups (groups : BTreeMap SampleId GroupId) (folds : List FoldAssignment) : Prop where
  whole : ∀ fold ∈ folds, ∀ s ∈ fold.validationSampleIds, ∀ t ∈ groups, groups[t]? = groups[s]? →
    t ∈ fold.validationSampleIds
  ne_nil : ∀ fold ∈ folds, fold.validationSampleIds ≠ []
  balanced : ∀ M, (∀ g, groups.values.count g ≤ M) → ∀ f ∈ folds, ∀ g ∈ folds,
    f.validationSampleIds.length ≤ g.validationSampleIds.length + M

theorem GroupKFoldSpec.split_balanced (self : GroupKFoldSpec) (hid : isBlank foldSetId = false)
    (h2 : 2 ≤ self.nSplits) (hle : self.nSplits ≤ groups.values.toFinset.card)
    (hword : self.nSplits < 2 ^ 64) :
    ∃ foldSet, self.split foldSetId groups = .ok foldSet ∧
      PartitionSplit self.nSplits groups.keys foldSet ∧ EvenGroups groups foldSet.folds := by
  let members := groupMembers groups
  let grouped := members.toList.insertionSort fun left right =>
    right.2.length < left.2.length ∨ right.2.length = left.2.length ∧ left.1 ≤ right.1
  let sampleIds := groups.keys.insertionSort (· ≤ ·)
  let validation (part : List SampleId × Nat) := part.1.insertionSort (· ≤ ·)
  let train (part : List SampleId × Nat) := sampleIds.filter (· ∉ validation part)
  have hgrouped : grouped.Perm members.toList := List.perm_insertionSort _ _
  have hids : sampleIds.Perm groups.keys := List.perm_insertionSort _ _
  have hsize : self.nSplits ≤ members.size := hle.trans_eq size_groupMembers.symm
  have hnonempty : ¬groups.isEmpty = true := by
    intro hempty
    rw [Std.ExtTreeMap.isEmpty_iff] at hempty
    subst hempty
    have hnil : (∅ : BTreeMap SampleId GroupId).values = [] := by rw [values_eq]; rfl
    rw [hnil, List.toFinset_nil, Finset.card_empty] at hle
    omega
  obtain ⟨parts, hparts, hplaced⟩ := placeGroups (n := self.nSplits) (by omega)
    fun e he => (groupMembers_get (hgrouped.subset he)).1
  have hplaced := PlacedGroups.of_placed hgrouped hle hplaced
  have hpart (part : List SampleId × Nat) (h : part ∈ parts.zipIdx) : part.1 ∈ parts ∧
      part.2 < self.nSplits := by
    obtain ⟨hlt, heq⟩ := List.getElem?_eq_some_iff.mp (List.mem_zipIdx_iff_getElem?.mp h)
    exact ⟨heq ▸ List.getElem_mem hlt, hplaced.length_eq ▸ hlt⟩
  obtain ⟨folds, hfolds, hof⟩ := exists_foldsOf Prod.snd train validation parts.zipIdx
    fun part h => (hpart part h).2.trans hword
  have hfold (fold : FoldAssignment) (h : fold ∈ folds) :
      ∃ part ∈ parts, fold.validationSampleIds.Perm part := by
    obtain ⟨part, hmem, -, -, hval⟩ := exists_left_of_mem hof h
    exact ⟨part.1, (hpart part hmem).1, hval ▸ List.perm_insertionSort _ _⟩
  have hsplit : PartitionSplit parts.zipIdx.length groups.keys
      (partitionOf foldSetId sampleIds folds groups) := by
    refine hof.partitionSplit hid Std.ExtTreeMap.nodup_keys hids
      (.inr fun s => Std.ExtTreeMap.mem_keys.symm) ?_ ?_ ?_ ?_ ?_ ?_
    · rw [Ne, ← List.length_eq_zero_iff, List.length_zipIdx, hplaced.length_eq]
      omega
    · rw [List.zipIdx_map_snd]
      exact List.nodup_range'
    · have hfst : parts.zipIdx.flatMap validation =
          (parts.zipIdx.map Prod.fst).flatMap fun part => part.insertionSort (· ≤ ·) :=
        (List.flatMap_map ..).symm
      rw [hfst, List.zipIdx_map_fst]
      refine .trans (.flatMap_left _ fun part _ => List.perm_insertionSort _ part) ?_
      rw [List.flatMap_id']
      exact hplaced.perm
    · intro part hmem hnil
      have hperm : (validation part).Perm part.1 := List.perm_insertionSort _ _
      rw [hnil, List.nil_perm] at hperm
      exact hplaced.ne_nil _ (hpart part hmem).1 hperm
    · intro part _
      refine ⟨(hids.nodup_iff.mpr Std.ExtTreeMap.nodup_keys).filter _, fun s => ?_⟩
      simp [train, hids.mem_iff]
    · intro part hmem s hs g hg t ht
      rw [List.mem_insertionSort] at hs ⊢
      exact hplaced.whole _ (hpart part hmem).1 s hs g hg t ht
  rw [List.length_zipIdx, hplaced.length_eq] at hsplit
  refine ⟨partitionOf foldSetId sampleIds folds groups, ?_, hsplit, ?_, ?_, ?_⟩
  · simp only [split, bind_ok, refuseIf_ok, FoldSet.validate_ok, pure_ok]
    exact ⟨(), by omega, (), hnonempty, (), hsize.not_gt, parts, hparts, folds, hfolds, (),
      hsplit.valid, rfl⟩
  · intro fold hmem s hs t _ heq
    obtain ⟨part, hpart, hperm⟩ := hfold fold hmem
    have hs := hperm.subset hs
    have hkey := hplaced.perm.subset (List.mem_flatten.mpr ⟨part, hpart, hs⟩)
    obtain ⟨g, hg⟩ := BTreeMap.mem_iff.mp (Std.ExtTreeMap.mem_keys.mp hkey)
    exact hperm.symm.subset (hplaced.whole part hpart s hs g hg t (heq.trans hg))
  · intro fold hmem hnil
    obtain ⟨part, hpart, hperm⟩ := hfold fold hmem
    rw [hnil, List.nil_perm] at hperm
    exact hplaced.ne_nil part hpart hperm
  · intro M hM f hf g hg
    obtain ⟨part, hpart, hperm⟩ := hfold f hf
    obtain ⟨other, hother, hperm'⟩ := hfold g hg
    rw [hperm.length_eq, hperm'.length_eq]
    exact hplaced.balanced M hM part hpart other hother

theorem collect_of_perm {entries : List (SampleId × GroupId)} (h : entries.Perm groups.toList) :
    BTreeMap.collect entries = groups := by
  have hkeys : (entries.map Prod.fst).Nodup :=
    (h.map Prod.fst).nodup_iff.mpr (nodup_keys_toList groups)
  refine BTreeMap.ext fun s => Option.ext fun g => ?_
  rw [getElem?_collect (functional_of_nodup hkeys), h.mem_iff, mem_toList]

-- ---------------------------------------------------------------------------
-- The splitters
-- ---------------------------------------------------------------------------

/-- The three splitters, on their preconditions, for any listing of the samples. -/
theorem splitters_balanced (sha256 : Digest) (foldSetId : String)
    (hid : isBlank foldSetId = false) :
    (∀ (spec : KFoldSpec) (samples : List SampleId), samples.Nodup → 2 ≤ spec.nSplits →
      spec.nSplits ≤ samples.length → spec.nSplits < 2 ^ 64 →
      ∃ foldSet, PartitionSplit spec.nSplits samples foldSet ∧ EvenSizes foldSet.folds ∧
        ∀ listing, listing.Perm samples → spec.split sha256 foldSetId listing = .ok foldSet) ∧
    (∀ (spec : StratifiedKFoldSpec) (samples : List SampleId) (strata : BTreeMap SampleId String),
      samples.Nodup → 2 ≤ spec.nSplits → spec.nSplits ≤ samples.length → spec.nSplits < 2 ^ 64 →
      (∀ s ∈ samples, s ∈ strata) →
      ∃ foldSet, PartitionSplit spec.nSplits samples foldSet ∧ EvenClasses strata foldSet.folds ∧
        ∀ listing, listing.Perm samples →
          spec.split sha256 foldSetId listing strata = .ok foldSet) ∧
    (∀ (spec : GroupKFoldSpec) (groups : BTreeMap SampleId GroupId), 2 ≤ spec.nSplits →
      spec.nSplits ≤ groups.values.toFinset.card → spec.nSplits < 2 ^ 64 →
      ∃ foldSet, PartitionSplit spec.nSplits groups.keys foldSet ∧
        EvenGroups groups foldSet.folds ∧
        ∀ listing : List (SampleId × GroupId), listing.Perm groups.toList →
          spec.split foldSetId (.collect listing) = .ok foldSet) := by
  refine ⟨?_, ?_, ?_⟩
  · intro spec samples hn h2 hle hword
    obtain ⟨foldSet, hok, hsplit, heven⟩ := spec.split_balanced sha256 hid hn h2 hle hword
    refine ⟨foldSet, hsplit, heven, fun listing hperm => ?_⟩
    rw [← hok, spec.split_congr hn hperm.symm]
  · intro spec samples strata hn h2 hle hword hstrata
    obtain ⟨foldSet, hok, hsplit, heven⟩ := spec.split_balanced sha256 hid hn h2 hle hword hstrata
    refine ⟨foldSet, hsplit, heven, fun listing hperm => ?_⟩
    rw [← hok, spec.split_congr hn hperm.symm]
  · intro spec groups h2 hle hword
    obtain ⟨foldSet, hok, hsplit, heven⟩ := spec.split_balanced hid h2 hle hword
    refine ⟨foldSet, hsplit, heven, fun listing hperm => ?_⟩
    rw [collect_of_perm hperm, hok]

def dealtSamples : List SampleId :=
  [⟨"dealt:3", by decide⟩, ⟨"dealt:1", by decide⟩, ⟨"dealt:2", by decide⟩]

def dealtStrata : BTreeMap SampleId String :=
  .collect (dealtSamples.map fun s => (s, if s.value = "dealt:2" then "high" else "low"))

def dealtGroups : BTreeMap SampleId GroupId :=
  .collect (dealtSamples.map fun s =>
    (s, if s.value = "dealt:2" then ⟨"pool:2", by decide⟩ else ⟨"pool:1", by decide⟩))

theorem splitters_balanced_dealt :
    (∃ foldSet, PartitionSplit 2 dealtSamples foldSet ∧ EvenSizes foldSet.folds ∧
      ∀ listing, listing.Perm dealtSamples →
        KFoldSpec.split (fun _ => .replicate 32 0) ⟨2, true, some 7⟩ "dealt" listing =
          .ok foldSet) ∧
    (∃ foldSet, PartitionSplit 2 dealtSamples foldSet ∧ EvenClasses dealtStrata foldSet.folds ∧
      ∀ listing, listing.Perm dealtSamples →
        StratifiedKFoldSpec.split (fun _ => .replicate 32 0) ⟨2, true, some 7⟩ "dealt" listing
          dealtStrata = .ok foldSet) ∧
    ∃ foldSet, PartitionSplit 2 dealtGroups.keys foldSet ∧ EvenGroups dealtGroups foldSet.folds ∧
      ∀ listing : List (SampleId × GroupId), listing.Perm dealtGroups.toList →
        GroupKFoldSpec.split ⟨2⟩ "dealt" (.collect listing) = .ok foldSet := by
  obtain ⟨hkfold, hstratified, hgroup⟩ :=
    splitters_balanced (fun _ => .replicate 32 0) "dealt" (by decide)
  exact ⟨hkfold ⟨2, true, some 7⟩ dealtSamples (by decide) (by decide) (by decide) (by decide),
    hstratified ⟨2, true, some 7⟩ dealtSamples dealtStrata (by decide) (by decide) (by decide)
      (by decide) (by decide +kernel),
    hgroup ⟨2⟩ dealtGroups (by decide) (by decide +kernel) (by decide)⟩

end DagMl
