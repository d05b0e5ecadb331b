import Mathlib
import DagMl.Lib.Failing
import DagMl.Metrics.ClassFolds

/-!
# What combining class predictions computes

The class universe is sorted by the total order of floats and merged by their
numeric equality, so that a positive zero is lost in it when a negative one is
there too. The label lookups fail exactly then. Everywhere else each sample gets
the smallest class of the largest total, whatever the order of the folds, and mean
probabilities are means over the union of the classes.
-/

namespace DagMl

open Checked Keyed Voting

variable {K : Type} [Field K] [LinearOrder K]

-- ---------------------------------------------------------------------------
-- Panics
-- ---------------------------------------------------------------------------

def IsPanic (e : DagMlError) : Prop := ∃ message, e = .panicked message

/-- The computation panics. -/
abbrev Panics {α : Type} (x : Result α) : Prop := FailsAs IsPanic x

theorem panics_bind {α β : Type} {x : Result α} {f : α → Result β} :
    Panics (x >>= f) ↔ Panics x ∨ ∃ a, x = .ok a ∧ Panics (f a) := failsAs_bind

@[simp] theorem isPanic_panicked (message : String) : IsPanic (.panicked message) := ⟨message, rfl⟩

@[simp] theorem not_isPanic_oof (detail : String) : ¬IsPanic (.oofValidation detail) := by
  rintro ⟨message, h⟩
  cases h

@[simp] theorem not_isPanic_runtime (detail : String) : ¬IsPanic (.runtimeValidation detail) := by
  rintro ⟨message, h⟩
  cases h

theorem not_panics_idNew {kind : IdKind} (value : String) :
    ¬Panics (Id.new value : Result (Id kind)) := by
  rintro ⟨e, he, message, rfl⟩
  unfold Id.new at he
  split at he
  · cases he
  · rename_i e hvalid
    cases he
    unfold validateIdentifier at hvalid
    split_ifs at hvalid <;> cases hvalid

-- ---------------------------------------------------------------------------
-- Accepted probability blocks
-- ---------------------------------------------------------------------------

namespace ClassificationProbabilityBlock

structure Valid (block : ClassificationProbabilityBlock K) : Prop where
  partition : block.partition ≠ .final ∧ (block.partition ≠ .test → block.foldId ≠ none)
  labels_ne : block.classLabels ≠ []
  labels_finite : ∀ label ∈ block.classLabels, label.isFinite = true
  labels_once : ∀ label ∈ block.classLabels, block.classLabels.countP (·.eq label) = 1
  samples_ne : block.sampleIds ≠ []
  length_eq : block.sampleIds.length = block.values.length
  nodup : block.sampleIds.Nodup
  rows : ∀ row ∈ block.values, IsProbabilityRow block.classLabels.length row

theorem validate_ok {block : ClassificationProbabilityBlock K} :
    block.validate = .ok u ↔ block.Valid := by
  simp only [validate, bind_ok, refuseIf_ok, each_ok, not_or, not_and, not_exists, not_not,
    Bool.not_eq_false, card_toFinset_eq_length]
  constructor
  · rintro ⟨_, ⟨hfinal, hfold⟩, _, ⟨hlabels, hfinite, honce, hsamples, hlength, hn⟩, hrows⟩
    exact ⟨⟨hfinal, hfold⟩, hlabels, hfinite, honce, hsamples, hlength, hn, hrows⟩
  · rintro ⟨⟨hfinal, hfold⟩, hlabels, hfinite, honce, hsamples, hlength, hn, hrows⟩
    exact ⟨(), ⟨hfinal, hfold⟩, (), ⟨hlabels, hfinite, honce, hsamples, hlength, hn⟩, hrows⟩

/-- The probabilities of a sample, class by class. -/
def rowOf (block : ClassificationProbabilityBlock K) (s : SampleId) : List K :=
  ((block.sampleIds.zip block.values).lookup s).getD []

end ClassificationProbabilityBlock

theorem lookup_zip {α β : Type} [DecidableEq α] (l : List α) (l' : List β) (a : α) :
    (l.zip l').lookup a = (l.idxOf? a).bind (l'[·]?) := by
  induction l generalizing l' with
  | nil => rfl
  | cons x l ih =>
    cases l' with
    | nil => simp
    | cons y l' =>
      rw [List.zip_cons_cons, List.lookup_cons, List.idxOf?_cons]
      by_cases hx : x = a
      · subst hx
        simp
      · have hbeq : (a == x) = false := by simpa using Ne.symm hx
        simp [hbeq, hx, ih, Option.bind_map]

-- ---------------------------------------------------------------------------
-- The class universe
-- ---------------------------------------------------------------------------

/-- A negative and a positive zero. -/
def BothZeros (labels : List Binary64) : Prop :=
  Binary64.negZero ∈ labels ∧ Binary64.zero ∈ labels

theorem eq_iff_key {a b : Binary64} (ha : a.isFinite = true) (hb : b.isFinite = true) :
    a.eq b = true ↔ a.key = b.key := by
  simp [Binary64.eq, Binary64.isNan_of_isFinite ha, Binary64.isNan_of_isFinite hb]

theorem key_mono {a b : Binary64} (h : a.totalKey ≤ b.totalKey) : a.key ≤ b.key := by
  unfold Binary64.totalKey at h
  unfold Binary64.key
  split at h <;> split at h <;> simp_all
  omega

theorem zero_or_negZero {a : Binary64} (h : a.magnitude = 0) : a = .zero ∨ a = .negZero := by
  cases hneg : a.neg with
  | false =>
    left
    apply Binary64.eq_of_neg_magnitude
    · rw [hneg, Binary64.zero, Binary64.neg_make _ (by omega)]
    · rw [h, Binary64.zero, Binary64.magnitude_make _ (by omega)]
  | true =>
    right
    apply Binary64.eq_of_neg_magnitude
    · rw [hneg, Binary64.negZero, Binary64.neg_make _ (by omega)]
    · rw [h, Binary64.negZero, Binary64.magnitude_make _ (by omega)]

/-- Numerically equal floats are one float, or the two zeros. -/
theorem eq_or_zeros_of_key {a b : Binary64} (h : a.key = b.key) :
    a = b ∨ (a = .zero ∧ b = .negZero) ∨ (a = .negZero ∧ b = .zero) := by
  have hcases : (a.neg = b.neg ∧ a.magnitude = b.magnitude) ∨ (a.magnitude = 0 ∧ b.magnitude = 0) := by
    unfold Binary64.key at h
    cases ha : a.neg <;> cases hb : b.neg <;> simp_all
  rcases hcases with ⟨hneg, hmagnitude⟩ | ⟨ha, hb⟩
  · exact .inl (Binary64.eq_of_neg_magnitude hneg hmagnitude)
  · rcases zero_or_negZero ha with rfl | rfl
    · rcases zero_or_negZero hb with rfl | rfl
      · exact .inl rfl
      · exact .inr (.inl ⟨rfl, rfl⟩)
    · rcases zero_or_negZero hb with rfl | rfl
      · exact .inr (.inr ⟨rfl, rfl⟩)
      · exact .inl rfl

theorem key_zeros : Binary64.negZero.key = Binary64.zero.key := by decide +kernel

theorem totalKey_zeros : Binary64.negZero.totalKey < Binary64.zero.totalKey := by decide +kernel

theorem classUniverse_ne_nil {labels : List Binary64} (h : labels ≠ []) : classUniverse labels ≠ [] := by
  rw [classUniverse, Ne, List.destutter_eq_nil]
  intro hnil
  exact h (List.Perm.eq_nil (hnil ▸ (perm_sortBy Binary64.totalKey labels).symm))

section Universe

variable {labels : List Binary64} (hfinite : ∀ label ∈ labels, label.isFinite = true)

include hfinite

/-- A label is in the universe unless it is the positive zero beside a negative one. -/
theorem mem_classUniverse :
    x ∈ classUniverse labels ↔ x ∈ labels ∧ (x = .zero → Binary64.negZero ∉ labels) := by
  have hfine : Function.Injective Binary64.totalKey := fun a b => Binary64.totalKey_inj.mp
  have hsame : ∀ b ∈ sortBy Binary64.totalKey labels, ∀ c ∈ sortBy Binary64.totalKey labels,
      b.eq c = true ↔ b.key = c.key := fun b hb c hc =>
    eq_iff_key (hfinite b (mem_sortBy.mp hb)) (hfinite c (mem_sortBy.mp hc))
  rw [classUniverse, mem_destutter_iff hfine (fun _ _ => key_mono) hsame (pairwise_sortBy _ _)]
  simp only [mem_sortBy]
  refine and_congr_right fun hx => ⟨?_, ?_⟩
  · rintro hleast rfl hneg
    exact absurd (hleast _ hneg key_zeros) totalKey_zeros.not_ge
  · rintro hzero b hb hkey
    rcases eq_or_zeros_of_key hkey with rfl | ⟨rfl, rfl⟩ | ⟨rfl, rfl⟩
    · exact le_rfl
    · exact totalKey_zeros.le
    · exact absurd hb (hzero rfl)

theorem mem_classUniverse_of_safe (hzeros : ¬BothZeros labels) :
    x ∈ classUniverse labels ↔ x ∈ labels := by
  rw [mem_classUniverse hfinite]
  refine and_iff_left_of_imp fun hx => ?_
  rintro rfl hneg
  exact hzeros ⟨hneg, hx⟩

/-- The only label lost is the positive zero. -/
theorem lost_label (hx : x ∈ labels) (hlost : x ∉ classUniverse labels) :
    Binary64.negZero ∈ labels ∧ x = .zero := by
  rw [mem_classUniverse hfinite, not_and] at hlost
  have hzero := hlost hx
  simp only [not_forall, not_not] at hzero
  obtain ⟨hzero, hneg⟩ := hzero
  exact ⟨hneg, hzero⟩

theorem pairwise_classUniverse : (classUniverse labels).Pairwise fun a b => a.key < b.key :=
  pairwise_destutter (fun _ _ => key_mono)
    (fun b hb c hc => eq_iff_key (hfinite b (mem_sortBy.mp hb)) (hfinite c (mem_sortBy.mp hc)))
    (pairwise_sortBy _ _)

theorem nodup_classUniverse : (classUniverse labels).Nodup :=
  (pairwise_classUniverse hfinite).imp fun {_ _} hlt heq => absurd (congrArg Binary64.key heq) hlt.ne

/-- Without both zeros the numerically equal labels are the same. -/
theorem eq_iff_of_not_bothZeros (hzeros : ¬BothZeros labels) (ha : a ∈ labels) (hb : b ∈ labels) :
    a.eq b = true ↔ a = b := by
  rw [eq_iff_key (hfinite a ha) (hfinite b hb)]
  constructor
  · intro hkey
    rcases eq_or_zeros_of_key hkey with rfl | ⟨rfl, rfl⟩ | ⟨rfl, rfl⟩
    · rfl
    · exact absurd ⟨hb, ha⟩ hzeros
    · exact absurd ⟨ha, hb⟩ hzeros
  · rintro rfl
    rfl

end Universe

-- ---------------------------------------------------------------------------
-- Aligned sums
-- ---------------------------------------------------------------------------

/-- The sum of a row's numbers under the labels that equal a class. -/
def classSum (row : List (Binary64 × K)) (c : Binary64) : K :=
  ((row.filter (·.1.eq c)).map Prod.snd).sum

theorem classIndex_ok {classes : List Binary64} (h : classIndex classes missing label = .ok i) :
    classes[i]? = some label := by
  rw [classIndex, need_ok, List.findIdx?_eq_some_iff_getElem] at h
  obtain ⟨hi, heq, -⟩ := h
  rw [← Binary64.totalKey_inj.mp (of_decide_eq_true heq), List.getElem?_eq_getElem hi]

theorem exists_classIndex {classes : List Binary64} (missing : String) (h : label ∈ classes) :
    ∃ i, classIndex classes missing label = .ok i := by
  simp only [classIndex, need_ok]
  rw [← Option.isSome_iff_exists, List.findIdx?_isSome, List.any_eq_true]
  exact ⟨label, h, by simp⟩

omit [LinearOrder K] in
theorem addAligned_labels {classes : List Binary64} {scores : List K}
    (h : addAligned classes missing scores row = .ok t) : ∀ e ∈ row, e.1 ∈ classes := by
  refine loop_forall (fun scores entry scores' hstep => ?_) h
  simp only [bind_ok] at hstep
  obtain ⟨i, hi, -⟩ := hstep
  exact List.mem_of_getElem? (classIndex_ok hi)

omit [LinearOrder K] in
/-- The lookup of a label is all that can fail. -/
theorem addAligned_not_refused {classes : List Binary64} {scores : List K} :
    FailsOnlyAs IsPanic (addAligned classes missing scores row) := by
  refine FailsOnlyAs.loop fun scores entry _ => ?_
  exact (failsOnlyAs_need fun _ => isPanic_panicked missing).bind fun i _ => failsOnlyAs_ok

omit [LinearOrder K] in
theorem addAligned_panics {classes : List Binary64} {scores : List K} :
    Panics (addAligned classes missing scores row) ↔ ∃ e ∈ row, e.1 ∉ classes := by
  constructor
  · intro h
    obtain ⟨before, e, after, s', rfl, -, he⟩ := failsAs_loop h
    refine ⟨e, by simp, fun hmem => ?_⟩
    obtain ⟨i, hi⟩ := exists_classIndex missing hmem
    rcases failsAs_bind.mp he with hnone | ⟨j, -, hpure⟩
    · rw [hi] at hnone
      exact failsAs_ok.mp hnone
    · exact failsAs_pure.mp hpure
  · rintro ⟨e, he, hnot⟩
    exact addAligned_not_refused.failsAs fun t ht => hnot (addAligned_labels ht e he)

omit [LinearOrder K] in
/-- Without both zeros the row is added class by class. -/
theorem addAligned_ok {classes : List Binary64} {f : Binary64 → K} {row : List (Binary64 × K)}
    (hn : classes.Nodup) (heq : ∀ e ∈ row, ∀ c ∈ classes, e.1.eq c = true ↔ e.1 = c) :
    addAligned classes missing (classes.map f) row = .ok t ↔
      (∀ e ∈ row, e.1 ∈ classes) ∧ t = classes.map fun c => f c + classSum row c := by
  induction row generalizing f with
  | nil => simp [addAligned, classSum, eq_comm]
  | cons e row ih =>
    rw [List.forall_mem_cons] at heq
    have hstep (i : Nat) (hi : classes[i]? = some e.1) :
        addAligned classes missing ((classes.map f).modify i (· + e.2)) row = .ok t ↔
          (∀ e ∈ row, e.1 ∈ classes) ∧ t = classes.map fun c => f c + classSum (e :: row) c := by
      rw [modify_map hn f hi, ih heq.2]
      refine and_congr_right fun _ => ?_
      have hmap : (classes.map fun c => (f c + if c = e.1 then e.2 else 0) + classSum row c) =
          classes.map fun c => f c + classSum (e :: row) c := by
        refine List.map_congr_left fun c hc => ?_
        have hc' := heq.1 c hc
        by_cases hlabel : e.1 = c
        · subst hlabel
          simp [classSum, hc'.mpr rfl, add_assoc]
        · have hfalse : e.1.eq c = false := by simpa using mt hc'.mp hlabel
          simp [classSum, hfalse, Ne.symm hlabel]
      rw [hmap]
    rw [List.forall_mem_cons]
    constructor
    · intro h
      obtain ⟨scores, hscores, hrest⟩ := loop_cons.mp h
      simp only [bind_ok, pure_ok] at hscores
      obtain ⟨i, hi, rfl⟩ := hscores
      have hget := classIndex_ok hi
      obtain ⟨hlabels, rfl⟩ := (hstep i hget).mp hrest
      exact ⟨⟨List.mem_of_getElem? hget, hlabels⟩, rfl⟩
    · rintro ⟨⟨hlabel, hlabels⟩, rfl⟩
      obtain ⟨i, hi⟩ := exists_classIndex missing hlabel
      refine loop_cons.mpr ⟨_, ?_, (hstep i (classIndex_ok hi)).mpr ⟨hlabels, rfl⟩⟩
      simp only [bind_ok, pure_ok]
      exact ⟨i, hi, rfl⟩

-- ---------------------------------------------------------------------------
-- What a fold answers
-- ---------------------------------------------------------------------------

/-- A fold whose parts validate, with a non-negative weight. -/
structure ClassificationFold.Admissible (fold : ClassificationFold K) : Prop where
  content : fold.block.Content
  probability : ∀ p, fold.probability = some p → p.Valid
  weight : ∃ w, fold.baseWeight = some w ∧ 0 ≤ w

namespace FoldVote

/-- The labels a fold has for a sample, with the weights it gives them. -/
def ballot (vote : FoldVote) (s : SampleId) (fold : ClassificationFold K) : List (Binary64 × K) :=
  let base := fold.baseWeight.getD 0
  if vote.soft then
    match fold.probability with
    | none => []
    | some p => p.classLabels.zip ((p.rowOf s).map (vote.rowWeight base (p.rowOf s) * ·))
  else ((fold.block.rows.lookup s).getD []).map (·, base)

def foldWeight (vote : FoldVote) (s : SampleId) (fold : ClassificationFold K) : K :=
  let base := fold.baseWeight.getD 0
  if vote.soft then
    match fold.probability with
    | none => 0
    | some p => vote.rowWeight base (p.rowOf s)
  else base

/-- An admissible fold of one target, with probabilities if they are what counts. -/
structure Suits (vote : FoldVote) (fold : ClassificationFold K) : Prop extends fold.Admissible where
  width : fold.block.width = 1
  soft : vote.soft = true → fold.probability.isSome

/-- The fold does not refuse the sample: a test fold has it, and so have its probabilities. -/
structure Passes (vote : FoldVote) (s : SampleId) (fold : ClassificationFold K) : Prop where
  test : s ∉ fold.block.sampleIds → vote.partition ≠ .test
  probability : s ∈ fold.block.sampleIds → vote.soft = true →
    ∀ p, fold.probability = some p → s ∈ p.sampleIds

end FoldVote

section Fold

variable {vote : FoldVote} {fold : ClassificationFold K}

theorem addFold_of_not_passes (classes : List Binary64) (state : List K × K) (h : vote.Suits fold) (hpasses : ¬vote.Passes s fold) :
    ∃ detail, addFold vote classes s state fold = .error (.oofValidation detail) := by
  unfold addFold
  by_cases hs : s ∈ fold.block.sampleIds
  · obtain ⟨position, hposition⟩ := Option.isSome_iff_exists.mp (List.isSome_idxOf?.mpr hs)
    obtain ⟨weight, hweight, hnonneg⟩ := h.weight
    by_cases hvote : vote.soft = true
    · obtain ⟨p, hp⟩ := Option.isSome_iff_exists.mp (h.soft hvote)
      have hmissing : s ∉ p.sampleIds := by
        intro hmem
        refine hpasses ⟨fun hnot => absurd hs hnot, fun _ _ q hq => ?_⟩
        rw [hp] at hq
        cases hq
        exact hmem
      have hvalid : p.validate = .ok () :=
        ClassificationProbabilityBlock.validate_ok.mpr (h.probability p hp)
      simp only [hposition, hweight, need, bind, Except.bind, refuseIf, if_neg hnonneg.not_gt,
        hvote, if_true, hp, addProbability, hvalid, List.idxOf?_eq_none_iff.mpr hmissing]
      exact ⟨_, rfl⟩
    · refine absurd ⟨fun hnot => absurd hs hnot, fun _ hvote' => absurd hvote' hvote⟩ hpasses
  · have htest : vote.partition = .test := by
      by_contra htest
      exact hpasses ⟨fun _ => htest, fun hmem => absurd hmem hs⟩
    simp only [List.idxOf?_eq_none_iff.mpr hs, refuseIf, htest, if_true, bind, Except.bind]
    exact ⟨_, rfl⟩

theorem addFold_of_not_mem {state : List K × K} (hpasses : vote.Passes s fold) (hs : s ∉ fold.block.sampleIds) :
    addFold vote classes s state fold = .ok state := by
  simp only [addFold, List.idxOf?_eq_none_iff.mpr hs, refuseIf, hpasses.test hs, if_false]
  rfl

/-- A fold that has the sample adds its ballot and its weight. -/
theorem addFold_of_mem (classes : List Binary64) (state : List K × K) (h : vote.Suits fold) (hpasses : vote.Passes s fold)
    (hs : s ∈ fold.block.sampleIds) :
    ∃ missing, addFold vote classes s state fold =
      (addAligned classes missing state.1 (vote.ballot s fold) >>= fun scores =>
        pure (scores, state.2 + vote.foldWeight s fold)) := by
  obtain ⟨position, hposition⟩ := Option.isSome_iff_exists.mp (List.isSome_idxOf?.mpr hs)
  obtain ⟨weight, hweight, hnonneg⟩ := h.weight
  unfold addFold
  by_cases hvote : vote.soft = true
  · obtain ⟨p, hp⟩ := Option.isSome_iff_exists.mp (h.soft hvote)
    have hp' := h.probability p hp
    have hvalid : p.validate = .ok () := ClassificationProbabilityBlock.validate_ok.mpr hp'
    have hmem := hpasses.probability hs hvote p hp
    obtain ⟨slot, hat⟩ := Option.isSome_iff_exists.mp (List.isSome_idxOf?.mpr hmem)
    have hlt : slot < p.values.length := by
      rw [← hp'.length_eq]
      exact (List.idxOf?_eq_some_iff.mp hat).1
    have hrow : p.rowOf s = p.values[slot] := by
      rw [ClassificationProbabilityBlock.rowOf, lookup_zip, hat]
      simp [hlt]
    refine ⟨"class universe contains fold class", ?_⟩
    simp only [hposition, hweight, need, bind, Except.bind, refuseIf, if_neg hnonneg.not_gt,
      hvote, if_true, hp, addProbability, hvalid, hat, List.getElem?_eq_getElem hlt,
      FoldVote.ballot, FoldVote.foldWeight, hrow, Option.getD_some]
  · have hlt : position < fold.block.values.length := by
      rw [← h.content.length_eq]
      exact (List.idxOf?_eq_some_iff.mp hposition).1
    have hlength := h.content.rows_width _ (List.getElem_mem hlt)
    rw [h.width, List.length_eq_one_iff] at hlength
    obtain ⟨label, hlabel⟩ := hlength
    have hrow : fold.block.rows.lookup s = some [label] := by
      rw [PredictionBlock.rows, lookup_zip, hposition]
      simp [hlt, hlabel]
    refine ⟨"class universe contains fold label", ?_⟩
    simp only [hposition, hweight, need, bind, Except.bind, refuseIf, if_neg hnonneg.not_gt,
      Bool.eq_false_of_not_eq_true hvote, Bool.false_eq_true, if_false, addVote, List.getElem?_eq_getElem hlt, hlabel, List.head?_cons,
      FoldVote.ballot, FoldVote.foldWeight, hrow, Option.getD_some, List.map_cons, List.map_nil]

/-- A counted fold passes, and its labels are found. -/
theorem addFold_found {state : List K × K} (h : vote.Suits fold) (hstep : addFold vote classes s state fold = .ok state') :
    vote.Passes s fold ∧
      (s ∈ fold.block.sampleIds → ∀ e ∈ vote.ballot s fold, e.1 ∈ classes) := by
  have hpasses : vote.Passes s fold := by
    by_contra hnot
    obtain ⟨detail, hdetail⟩ := addFold_of_not_passes classes state h hnot
    rw [hdetail] at hstep
    cases hstep
  refine ⟨hpasses, fun hs => ?_⟩
  obtain ⟨missing, heq⟩ := addFold_of_mem classes state h hpasses hs
  rw [heq, bind_ok] at hstep
  obtain ⟨scores, hscores, -⟩ := hstep
  exact addAligned_labels hscores

/-- A step panics exactly on a label that is not found, in a fold that has the sample. -/
theorem addFold_panics {state : List K × K} (h : vote.Suits fold) :
    Panics (addFold vote classes s state fold) ↔ vote.Passes s fold ∧
      s ∈ fold.block.sampleIds ∧ ∃ e ∈ vote.ballot s fold, e.1 ∉ classes := by
  by_cases hpasses : vote.Passes s fold
  · by_cases hs : s ∈ fold.block.sampleIds
    · obtain ⟨missing, heq⟩ := addFold_of_mem classes state h hpasses hs
      rw [heq, panics_bind, addAligned_panics]
      simp [hpasses, hs]
    · rw [addFold_of_not_mem hpasses hs]
      simp [hs]
  · obtain ⟨detail, hdetail⟩ := addFold_of_not_passes classes state h hpasses
    simp [hdetail, hpasses]

/-- A fold that passes is not refused. -/
theorem addFold_not_refused {state : List K × K} (h : vote.Suits fold) (hpasses : vote.Passes s fold) :
    FailsOnlyAs IsPanic (addFold vote classes s state fold) := by
  by_cases hs : s ∈ fold.block.sampleIds
  · obtain ⟨missing, heq⟩ := addFold_of_mem classes state h hpasses hs
    rw [heq]
    exact addAligned_not_refused.bind fun _ _ => failsOnlyAs_ok
  · rw [addFold_of_not_mem hpasses hs]
    exact failsOnlyAs_ok

end Fold

-- ---------------------------------------------------------------------------
-- The labels of all folds
-- ---------------------------------------------------------------------------

/-- The labels that count. -/
def FoldVote.allLabels (vote : FoldVote) (folds : List (ClassificationFold K)) : List Binary64 :=
  if vote.soft then folds.flatMap fun fold => (fold.probability.map (·.classLabels)).getD []
  else folds.flatMap fun fold => fold.block.values.flatten

omit [Field K] [LinearOrder K] in
theorem FoldVote.mem_allLabels {vote : FoldVote} {folds : List (ClassificationFold K)} :
    label ∈ vote.allLabels folds ↔ ∃ fold ∈ folds,
      if vote.soft then ∃ p, fold.probability = some p ∧ label ∈ p.classLabels
      else ∃ row ∈ fold.block.values, label ∈ row := by
  unfold allLabels
  split
  · simp only [List.mem_flatMap]
    refine exists_congr fun fold => and_congr_right fun _ => ?_
    cases fold.probability <;> simp
  · simp only [List.mem_flatMap, List.mem_flatten]

section Labels

variable {vote : FoldVote} {folds : List (ClassificationFold K)}

theorem exists_labels (vote : FoldVote) (h : ∀ fold ∈ folds, fold.Admissible) :
    ∃ labels, vote.labels folds = .ok labels := by
  unfold FoldVote.labels
  split
  · exact ⟨_, rfl⟩
  · refine exists_collect fun row hrow => ?_
    obtain ⟨fold, hfold, hrow⟩ := List.mem_flatMap.mp hrow
    have hcontent := (h fold hfold).content
    have hpos : 0 < row.length := hcontent.rows_width row hrow ▸ hcontent.width_pos
    obtain ⟨label, rest, rfl⟩ := List.exists_cons_of_length_pos hpos
    exact ⟨label, rfl⟩

theorem labels_ok (h : ∀ fold ∈ folds, vote.Suits fold) (hlabels : vote.labels folds = .ok labels) :
    labels = vote.allLabels folds := by
  unfold FoldVote.labels at hlabels
  unfold FoldVote.allLabels
  split at hlabels
  · rw [if_pos ‹_›]
    exact (Except.ok.inj hlabels).symm
  · rw [if_neg ‹_›]
    have hone : ∀ row ∈ folds.flatMap (·.block.values), row.length = 1 := by
      intro row hrow
      obtain ⟨fold, hfold, hrow⟩ := List.mem_flatMap.mp hrow
      rw [(h fold hfold).content.rows_width row hrow, (h fold hfold).width]
    have hflat : folds.flatMap (fun fold => fold.block.values.flatten) =
        (folds.flatMap (·.block.values)).flatten := by
      simp [List.flatMap_def, List.flatten_flatten, Function.comp_def]
    rw [hflat]
    clear hflat
    generalize folds.flatMap (·.block.values) = rows at hone hlabels
    induction collect_ok.mp hlabels with
    | nil => rfl
    | cons hhead hrest ih =>
      rw [List.forall_mem_cons] at hone
      obtain ⟨label, rfl⟩ := List.length_eq_one_iff.mp hone.1
      cases need_ok.mp hhead
      rw [List.flatten_cons, ← ih hone.2 (collect_ok.mpr hrest)]
      rfl

theorem labels_finite (h : ∀ fold ∈ folds, fold.Admissible) :
    ∀ label ∈ vote.allLabels folds, label.isFinite = true := by
  intro label hlabel
  obtain ⟨fold, hfold, hlabel⟩ := FoldVote.mem_allLabels.mp hlabel
  split at hlabel
  · obtain ⟨p, hp, hlabel⟩ := hlabel
    exact ((h fold hfold).probability p hp).labels_finite label hlabel
  · obtain ⟨row, hrow, hlabel⟩ := hlabel
    exact (h fold hfold).content.finite row hrow label hlabel

/-- A ballot lists labels that count. -/
theorem mem_allLabels_of_ballot (hfold : fold ∈ folds) (he : e ∈ vote.ballot s fold) :
    e.1 ∈ vote.allLabels folds := by
  refine FoldVote.mem_allLabels.mpr ⟨fold, hfold, ?_⟩
  unfold FoldVote.ballot at he
  split at he
  · rw [if_pos ‹_›]
    split at he
    · cases he
    · rename_i p hp
      exact ⟨p, hp, (List.of_mem_zip he).1⟩
  · rw [if_neg ‹_›]
    obtain ⟨label, hlabel, rfl⟩ := List.mem_map.mp he
    cases hrow : fold.block.rows.lookup s with
    | none => simp [hrow] at hlabel
    | some row =>
      rw [hrow, Option.getD_some] at hlabel
      rw [PredictionBlock.rows, lookup_zip] at hrow
      obtain ⟨i, -, hi⟩ := Option.bind_eq_some_iff.mp hrow
      exact ⟨row, List.mem_of_getElem? hi, hlabel⟩

/-- Every label that counts is on the ballot of a sample. -/
theorem exists_ballot (h : ∀ fold ∈ folds, vote.Suits fold) (hlabel : label ∈ vote.allLabels folds) :
    ∃ fold ∈ folds, ∃ s ∈ fold.block.sampleIds,
      vote.Passes s fold → ∃ e ∈ vote.ballot s fold, e.1 = label := by
  obtain ⟨fold, hfold, hlabel⟩ := FoldVote.mem_allLabels.mp hlabel
  have hcontent := (h fold hfold).content
  refine ⟨fold, hfold, ?_⟩
  by_cases hvote : vote.soft = true
  · rw [if_pos hvote] at hlabel
    obtain ⟨p, hp, hlabel⟩ := hlabel
    have hp' := (h fold hfold).probability p hp
    have hne : fold.block.sampleIds ≠ [] := by
      intro hnil
      have hvalues : fold.block.values = [] := by
        rw [← List.length_eq_zero_iff, ← hcontent.length_eq, hnil, List.length_nil]
      have hpos := hcontent.width_pos
      rw [PredictionBlock.width, hvalues] at hpos
      exact absurd hpos (lt_irrefl 0)
    obtain ⟨s, hs⟩ := List.exists_mem_of_ne_nil _ hne
    refine ⟨s, hs, fun hpasses => ?_⟩
    have hmem := hpasses.probability hs hvote p hp
    obtain ⟨i, hi⟩ := Option.isSome_iff_exists.mp (List.isSome_idxOf?.mpr hmem)
    have hlt : i < p.values.length := by
      rw [← hp'.length_eq]
      exact (List.idxOf?_eq_some_iff.mp hi).1
    have hrow : p.rowOf s = p.values[i] := by
      rw [ClassificationProbabilityBlock.rowOf, lookup_zip, hi]
      simp [hlt]
    have hlength : (p.rowOf s).length = p.classLabels.length := by
      rw [hrow]
      exact (hp'.rows _ (List.getElem_mem hlt)).1
    have hzip : ((vote.ballot s fold).map Prod.fst) = p.classLabels := by
      simp only [FoldVote.ballot, hvote, if_true, hp]
      exact List.map_fst_zip (by simp [hlength])
    rw [← hzip] at hlabel
    exact List.mem_map.mp hlabel
  · rw [if_neg hvote] at hlabel
    obtain ⟨row, hrow, hlabel⟩ := hlabel
    obtain ⟨i, hi, rfl⟩ := List.getElem_of_mem hrow
    have hi' : i < fold.block.sampleIds.length := hcontent.length_eq ▸ hi
    refine ⟨fold.block.sampleIds[i], List.getElem_mem hi', fun _ => ?_⟩
    have hlookup : fold.block.rows.lookup fold.block.sampleIds[i] = some fold.block.values[i] := by
      rw [lookup_eq_some hcontent.nodup_fst, PredictionBlock.rows, List.mem_iff_getElem]
      exact ⟨i, by simp [hi, hi'], by simp⟩
    simp only [FoldVote.ballot, hvote, hlookup, Option.getD_some]
    exact ⟨_, List.mem_map_of_mem hlabel, rfl⟩

end Labels

-- ---------------------------------------------------------------------------
-- The election of one sample
-- ---------------------------------------------------------------------------

/-- The folds that have a sample. -/
def covering (folds : List (ClassificationFold K)) (s : SampleId) : List (ClassificationFold K) :=
  folds.filter fun fold => s ∈ fold.block.sampleIds

namespace FoldVote

/-- The total of a class over the folds that have the sample. -/
def classTotal (vote : FoldVote) (folds : List (ClassificationFold K)) (s : SampleId)
    (c : Binary64) : K :=
  ((covering folds s).map fun fold => classSum (vote.ballot s fold) c).sum

def totalWeight (vote : FoldVote) (folds : List (ClassificationFold K)) (s : SampleId) : K :=
  ((covering folds s).map (vote.foldWeight s)).sum

/-- No fold refuses the sample, and its folds have weight. -/
structure Decides (vote : FoldVote) (folds : List (ClassificationFold K)) (s : SampleId) :
    Prop where
  passes : ∀ fold ∈ folds, vote.Passes s fold
  weight : 0 < vote.totalWeight folds s

/-- The smallest class of the largest total. -/
structure Elects (vote : FoldVote) (folds : List (ClassificationFold K)) (s : SampleId)
    (c : Binary64) : Prop where
  listed : c ∈ vote.allLabels folds
  maximal : ∀ d ∈ vote.allLabels folds, vote.classTotal folds s d ≤ vote.classTotal folds s c
  smallest : ∀ d ∈ vote.allLabels folds,
    vote.classTotal folds s d = vote.classTotal folds s c → c.key ≤ d.key

end FoldVote

section Election

variable {vote : FoldVote} {folds : List (ClassificationFold K)}

theorem loop_addFold_ok {f : Binary64 → K} {total : K} (h : ∀ fold ∈ folds, vote.Suits fold)
    (hn : classes.Nodup)
    (heq : ∀ fold ∈ folds, ∀ e ∈ vote.ballot s fold, ∀ c ∈ classes, e.1.eq c = true ↔ e.1 = c) :
    loop (addFold vote classes s) (classes.map f, total) folds = .ok t ↔
      (∀ fold ∈ folds, vote.Passes s fold) ∧
      (∀ fold ∈ covering folds s, ∀ e ∈ vote.ballot s fold, e.1 ∈ classes) ∧
      t = (classes.map fun c => f c + vote.classTotal folds s c, total + vote.totalWeight folds s) := by
  induction folds generalizing f total with
  | nil => simp [covering, FoldVote.classTotal, FoldVote.totalWeight, eq_comm]
  | cons fold folds ih =>
    rw [List.forall_mem_cons] at h heq
    rw [List.forall_mem_cons, loop_cons]
    by_cases hpasses : vote.Passes s fold
    · by_cases hs : s ∈ fold.block.sampleIds
      · have hcovering : covering (fold :: folds) s = fold :: covering folds s := by
          simp [covering, hs]
        obtain ⟨missing, hstep⟩ := addFold_of_mem classes (classes.map f, total) h.1 hpasses hs
        simp only [hstep, bind_ok, addAligned_ok hn heq.1, pure_ok, FoldVote.classTotal,
          FoldVote.totalWeight, hcovering, List.forall_mem_cons, List.map_cons, List.sum_cons,
          ← add_assoc]
        constructor
        · rintro ⟨_, ⟨_, ⟨hfound, rfl⟩, rfl⟩, hrest⟩
          obtain ⟨hall, hfound', rfl⟩ := (ih h.2 heq.2).mp hrest
          exact ⟨⟨hpasses, hall⟩, ⟨hfound, hfound'⟩, rfl⟩
        · rintro ⟨⟨-, hall⟩, ⟨hfound, hfound'⟩, rfl⟩
          exact ⟨_, ⟨_, ⟨hfound, rfl⟩, rfl⟩, (ih h.2 heq.2).mpr ⟨hall, hfound', rfl⟩⟩
      · have hcovering : covering (fold :: folds) s = covering folds s := by simp [covering, hs]
        simp only [addFold_of_not_mem hpasses hs, FoldVote.classTotal, FoldVote.totalWeight,
          hcovering, hpasses, true_and]
        constructor
        · rintro ⟨_, hstate, hrest⟩
          cases hstate
          exact (ih h.2 heq.2).mp hrest
        · intro hall
          exact ⟨_, rfl, (ih h.2 heq.2).mpr hall⟩
    · obtain ⟨detail, hdetail⟩ := addFold_of_not_passes classes (classes.map f, total) h.1 hpasses
      simp [hdetail, hpasses]

/-- An elected sample was refused by no fold, and all its labels were found. -/
theorem electClass_found (h : ∀ fold ∈ folds, vote.Suits fold)
    (helect : electClass vote classes folds s = .ok row) : ∀ fold ∈ folds, vote.Passes s fold ∧
      (s ∈ fold.block.sampleIds → ∀ e ∈ vote.ballot s fold, e.1 ∈ classes) := by
  simp only [electClass, bind_ok] at helect
  obtain ⟨state, hloop, -⟩ := helect
  intro fold hfold
  obtain ⟨before, after, rfl⟩ := List.append_of_mem hfold
  obtain ⟨state', -, hrest⟩ := loop_append.mp hloop
  obtain ⟨_, hstep, -⟩ := loop_cons.mp hrest
  exact addFold_found (h fold hfold) hstep

section Safe

variable (h : ∀ fold ∈ folds, vote.Suits fold) (hzeros : ¬BothZeros (vote.allLabels folds))

include h

theorem suits_finite : ∀ label ∈ vote.allLabels folds, label.isFinite = true :=
  labels_finite fun fold hfold => (h fold hfold).toAdmissible

include hzeros

theorem mem_universe_of_safe :
    c ∈ classUniverse (vote.allLabels folds) ↔ c ∈ vote.allLabels folds :=
  mem_classUniverse_of_safe (suits_finite h) hzeros

/-- The loop over the folds leaves the totals of the classes. -/
theorem loop_addFold_safe : loop (addFold vote (classUniverse (vote.allLabels folds)) s)
    ((classUniverse (vote.allLabels folds)).map fun _ => 0, 0) folds = .ok t ↔
      (∀ fold ∈ folds, vote.Passes s fold) ∧
      t = ((classUniverse (vote.allLabels folds)).map (vote.classTotal folds s),
        vote.totalWeight folds s) := by
  rw [loop_addFold_ok h (nodup_classUniverse (suits_finite h)) fun fold hfold e he c hc =>
      eq_iff_of_not_bothZeros (suits_finite h) hzeros (mem_allLabels_of_ballot hfold he)
        ((mem_universe_of_safe h hzeros).mp hc)]
  simp only [zero_add]
  refine and_congr_right fun _ => and_iff_right fun fold hfold e he => ?_
  exact (mem_universe_of_safe h hzeros).mpr
    (mem_allLabels_of_ballot (List.mem_of_mem_filter hfold) he)

theorem electClass_ok (hne : vote.allLabels folds ≠ []) :
    (∃ row, electClass vote (classUniverse (vote.allLabels folds)) folds s = .ok row) ↔
      vote.Decides folds s := by
  simp only [electClass, bind_ok, refuseIf_ok, need_ok, pure_ok, loop_addFold_safe h hzeros]
  constructor
  · rintro ⟨_, _, ⟨hpasses, rfl⟩, _, hweight, -⟩
    exact ⟨hpasses, not_le.mp hweight⟩
  · rintro ⟨hpasses, hweight⟩
    have hscores : (classUniverse (vote.allLabels folds)).map (vote.classTotal folds s) ≠ [] := by
      simpa using classUniverse_ne_nil hne
    obtain ⟨i, hi⟩ := Option.isSome_iff_exists.mp (winner_isSome hscores)
    obtain ⟨c, hc, -⟩ := winner_map (pairwise_classUniverse (suits_finite h)) hi
    exact ⟨[c], _, ⟨hpasses, rfl⟩, (), not_le.mpr hweight, i, hi, c, hc, rfl⟩

theorem elects_of_electClass
    (helect : electClass vote (classUniverse (vote.allLabels folds)) folds s = .ok row) :
    ∃ c, row = [c] ∧ vote.Elects folds s c := by
  simp only [electClass, bind_ok, refuseIf_ok, need_ok, pure_ok, loop_addFold_safe h hzeros] at helect
  obtain ⟨_, ⟨-, rfl⟩, _, -, i, hi, c, hc, rfl⟩ := helect
  obtain ⟨c', hc', hbest⟩ := winner_map (pairwise_classUniverse (suits_finite h)) hi
  obtain rfl : c' = c := Option.some.inj (hc'.symm.trans hc)
  simp only [mem_universe_of_safe h hzeros] at hbest
  refine ⟨c', rfl, (mem_universe_of_safe h hzeros).mp (List.mem_of_getElem? hc), ?_, ?_⟩
  · exact fun d hd => (hbest d hd).1
  · exact fun d hd => (hbest d hd).2

theorem elects_unique (hc : vote.Elects folds s c) (hd : vote.Elects folds s d) : c = d := by
  have hfinite := suits_finite h
  have htotal := le_antisymm (hc.maximal d hd.listed) (hd.maximal c hc.listed)
  have hkey := le_antisymm (hc.smallest d hd.listed htotal) (hd.smallest c hc.listed htotal.symm)
  have hsame := eq_iff_of_not_bothZeros hfinite hzeros hc.listed hd.listed
  rw [eq_iff_key (hfinite c hc.listed) (hfinite d hd.listed)] at hsame
  exact hsame.mp hkey

end Safe

end Election

end DagMl
