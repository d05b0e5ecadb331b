import Mathlib
import DagMl.Metrics.ClassFoldLaws

/-!
# Runs over folds

When combining folds succeeds, when it panics, and what it returns: the classes
elected by all folds, and mean probabilities over the union of the classes.
-/

namespace DagMl

open Checked Keyed Voting

variable {K : Type} [Field K] [LinearOrder K]

-- ---------------------------------------------------------------------------
-- Success
-- ---------------------------------------------------------------------------

theorem PredictionBlock.Content.width_eq_one_iff {block : PredictionBlock} (h : block.Content) :
    block.width = 1 ↔ ∀ row ∈ block.values, row.length = 1 := by
  constructor
  · intro hwidth row hrow
    rw [h.rows_width row hrow, hwidth]
  · intro hrows
    have hpos := h.width_pos
    unfold PredictionBlock.width at hpos ⊢
    split
    · rename_i hnil
      simp [hnil] at hpos
    · rename_i row rest hvalues
      exact hrows row (by simp [hvalues])

/-- Folds that a vote combines. -/
structure Combinable (vote : FoldVote) (folds : List (ClassificationFold K)) (foldLabel : String) :
    Prop where
  nonempty : folds ≠ []
  oneTarget : ∀ fold ∈ folds, fold.block.width = 1
  zeros : ¬BothZeros (vote.allLabels folds)
  decided : ∀ fold ∈ folds, ∀ s ∈ fold.block.sampleIds, vote.Decides folds s
  label : ∃ foldId : FoldId, Id.new foldLabel = .ok foldId

/-- What combined folds say of each sample of theirs: the class they elect. -/
structure ElectsEach (vote : FoldVote) (folds : List (ClassificationFold K))
    (out : PredictionBlock) : Prop where
  samples : ∀ s, s ∈ out.sampleIds ↔ ∃ fold ∈ folds, s ∈ fold.block.sampleIds
  nodup : out.sampleIds.Nodup
  rows : List.Forall₂ (fun s row => ∃ c, row = [c] ∧ vote.Elects folds s c) out.sampleIds out.values

section

variable {folds folds' : List (ClassificationFold K)} {weighted : Bool}
  {partition : PredictionPartition}

theorem suits_of_admissible (weighted : Bool) (partition : PredictionPartition) (h : ∀ fold ∈ folds, fold.Admissible)
    (hwidth : ∀ fold ∈ folds, fold.block.width = 1) :
    ∀ fold ∈ folds, (foldVote weighted folds partition).Suits fold := by
  intro fold hfold
  refine ⟨h fold hfold, hwidth fold hfold, fun hsoft => ?_⟩
  exact List.all_eq_true.mp hsoft fold hfold

theorem allLabels_ne_nil {vote : FoldVote} (h : ∀ fold ∈ folds, vote.Suits fold) (hne : folds ≠ []) :
    vote.allLabels folds ≠ [] := by
  obtain ⟨fold, hfold⟩ := List.exists_mem_of_ne_nil folds hne
  have hfold' := h fold hfold
  suffices hlabel : ∃ label, label ∈ vote.allLabels folds by
    obtain ⟨label, hlabel⟩ := hlabel
    exact List.ne_nil_of_mem hlabel
  by_cases hvote : vote.soft = true
  · obtain ⟨p, hp⟩ := Option.isSome_iff_exists.mp (hfold'.soft hvote)
    obtain ⟨label, hlabel⟩ := List.exists_mem_of_ne_nil _ (hfold'.probability p hp).labels_ne
    refine ⟨label, FoldVote.mem_allLabels.mpr ⟨fold, hfold, ?_⟩⟩
    rw [if_pos hvote]
    exact ⟨p, hp, hlabel⟩
  · have hpos := hfold'.content.width_pos
    unfold PredictionBlock.width at hpos
    split at hpos
    · exact absurd hpos (lt_irrefl 0)
    · rename_i row rest hvalues
      obtain ⟨label, hlabel⟩ := List.exists_mem_of_length_pos hpos
      refine ⟨label, FoldVote.mem_allLabels.mpr ⟨fold, hfold, ?_⟩⟩
      rw [if_neg hvote]
      exact ⟨row, by simp [hvalues], hlabel⟩

/-- When every sample is elected, each label was found, so the two zeros are not both there. -/
theorem not_bothZeros_of_elected {vote : FoldVote} {foldRows : List (List Binary64)}
    (h : ∀ fold ∈ folds, vote.Suits fold)
    (hrows : collect (firstMet (folds.flatMap (·.block.sampleIds)))
      (electClass vote (classUniverse (vote.allLabels folds)) folds) = .ok foldRows) :
    ¬BothZeros (vote.allLabels folds) := by
  rintro ⟨hneg, hzero⟩
  obtain ⟨fold, hfold, s, hs, hballot⟩ := exists_ballot h hzero
  have hmem : s ∈ firstMet (folds.flatMap (·.block.sampleIds)) := by
    rw [mem_firstMet, List.mem_flatMap]
    exact ⟨fold, hfold, hs⟩
  obtain ⟨row, -, helect⟩ := exists_right_of_mem (collect_ok.mp hrows) hmem
  obtain ⟨hpasses, hfound⟩ := electClass_found h helect fold hfold
  obtain ⟨e, he, heq⟩ := hballot hpasses
  have hlost := hfound hs e he
  rw [heq, mem_classUniverse (suits_finite h)] at hlost
  exact hlost.2 rfl hneg

/-- A run up to its election: what was checked, and the rows elected. -/
theorem combineFolds_run (h : ∀ fold ∈ folds, fold.Admissible)
    (hrun : combineFolds weighted folds foldLabel partition = .ok out) :
    folds ≠ [] ∧ (∀ fold ∈ folds, fold.block.width = 1) ∧
    out.sampleIds = firstMet (folds.flatMap (·.block.sampleIds)) ∧
    (∃ foldId : FoldId, Id.new foldLabel = .ok foldId) ∧
    collect out.sampleIds (electClass (foldVote weighted folds partition)
      (classUniverse ((foldVote weighted folds partition).allLabels folds)) folds) =
        .ok out.values := by
  simp only [combineFolds, bind_ok, need_ok, refuseIf_ok, pure_ok, not_exists, not_and,
    not_not] at hrun
  obtain ⟨first, hfirst, labels, hlabels, _, hwidth, _, -, rows, hrows, foldId, hfoldId, rfl⟩ := hrun
  have hone : ∀ fold ∈ folds, fold.block.width = 1 := fun fold hfold =>
    (h fold hfold).content.width_eq_one_iff.mpr (hwidth fold hfold)
  obtain rfl := labels_ok (suits_of_admissible weighted partition h hone) hlabels
  refine ⟨?_, hone, rfl, ⟨foldId, hfoldId⟩, hrows⟩
  rintro rfl
  cases hfirst

theorem combineFolds_combinable (h : ∀ fold ∈ folds, fold.Admissible)
    (hrun : combineFolds weighted folds foldLabel partition = .ok out) :
    Combinable (foldVote weighted folds partition) folds foldLabel := by
  obtain ⟨hne, hone, hsamples, hlabel, hrows⟩ := combineFolds_run h hrun
  have hsuits := suits_of_admissible weighted partition h hone
  rw [hsamples] at hrows
  have hzeros := not_bothZeros_of_elected hsuits hrows
  refine ⟨hne, hone, hzeros, fun fold hfold s hs => ?_, hlabel⟩
  have hmem : s ∈ firstMet (folds.flatMap (·.block.sampleIds)) := by
    rw [mem_firstMet, List.mem_flatMap]
    exact ⟨fold, hfold, hs⟩
  obtain ⟨row, -, helect⟩ := exists_right_of_mem (collect_ok.mp hrows) hmem
  exact (electClass_ok hsuits hzeros (allLabels_ne_nil hsuits hne)).mp ⟨row, helect⟩

theorem combineFolds_elects (h : ∀ fold ∈ folds, fold.Admissible)
    (hrun : combineFolds weighted folds foldLabel partition = .ok out) :
    ElectsEach (foldVote weighted folds partition) folds out := by
  obtain ⟨hne, hone, hsamples, -, hrows⟩ := combineFolds_run h hrun
  have hsuits := suits_of_admissible weighted partition h hone
  have hzeros := (combineFolds_combinable h hrun).zeros
  constructor
  · intro s
    rw [hsamples, mem_firstMet, List.mem_flatMap]
  · rw [hsamples]
    exact nodup_firstMet _
  · exact (collect_ok.mp hrows).imp fun s row helect => elects_of_electClass hsuits hzeros helect

theorem exists_combineFolds (h : ∀ fold ∈ folds, fold.Admissible)
    (hcomb : Combinable (foldVote weighted folds partition) folds foldLabel) :
    ∃ out, combineFolds weighted folds foldLabel partition = .ok out := by
  have hsuits := suits_of_admissible weighted partition h hcomb.oneTarget
  have hlabels := allLabels_ne_nil hsuits hcomb.nonempty
  obtain ⟨first, rest, rfl⟩ := List.exists_cons_of_ne_nil hcomb.nonempty
  obtain ⟨labels, hok⟩ := exists_labels (foldVote weighted (first :: rest) partition) h
  obtain rfl := labels_ok hsuits hok
  obtain ⟨foldId, hfoldId⟩ := hcomb.label
  have helect : ∀ s ∈ firstMet ((first :: rest).flatMap (·.block.sampleIds)),
      ∃ row, electClass (foldVote weighted (first :: rest) partition) (classUniverse
        ((foldVote weighted (first :: rest) partition).allLabels (first :: rest)))
          (first :: rest) s = .ok row := by
    intro s hs
    rw [mem_firstMet, List.mem_flatMap] at hs
    obtain ⟨fold, hfold, hs⟩ := hs
    exact (electClass_ok hsuits hcomb.zeros hlabels).mpr (hcomb.decided fold hfold s hs)
  obtain ⟨rows, hrows⟩ := exists_collect helect
  simp only [combineFolds, bind_ok, need_ok, refuseIf_ok, pure_ok, not_exists, not_and, not_not,
    not_or]
  refine ⟨_, first, rfl, _, hok, (), fun fold hfold => ?_, (), ⟨?_, fun c hc => ?_⟩, rows, hrows,
    foldId, hfoldId, rfl⟩
  · exact (h fold hfold).content.width_eq_one_iff.mp (hcomb.oneTarget fold hfold)
  · exact classUniverse_ne_nil hlabels
  · rw [suits_finite hsuits c ((mem_universe_of_safe hsuits hcomb.zeros).mp hc)]
    exact Bool.true_eq_false_eq_False

-- ---------------------------------------------------------------------------
-- The order of the folds
-- ---------------------------------------------------------------------------

omit [Field K] [LinearOrder K] in
theorem foldVote_perm (hperm : folds'.Perm folds) :
    foldVote weighted folds' partition = foldVote weighted folds partition := by
  simp only [foldVote, hperm.all_eq]

omit [Field K] [LinearOrder K] in
theorem mem_allLabels_perm {vote : FoldVote} (hperm : folds'.Perm folds) :
    label ∈ vote.allLabels folds' ↔ label ∈ vote.allLabels folds := by
  simp only [FoldVote.mem_allLabels, hperm.mem_iff]

theorem classTotal_perm {vote : FoldVote} (hperm : folds'.Perm folds) :
    vote.classTotal folds' s c = vote.classTotal folds s c :=
  ((hperm.filter _).map _).sum_eq

theorem totalWeight_perm {vote : FoldVote} (hperm : folds'.Perm folds) :
    vote.totalWeight folds' s = vote.totalWeight folds s :=
  ((hperm.filter _).map _).sum_eq

theorem Combinable.perm {vote : FoldVote} (h : Combinable vote folds foldLabel)
    (hperm : folds'.Perm folds) : Combinable vote folds' foldLabel where
  nonempty hnil := h.nonempty (List.Perm.eq_nil (hnil ▸ hperm.symm))
  oneTarget fold hfold := h.oneTarget fold (hperm.mem_iff.mp hfold)
  zeros := by
    simpa only [BothZeros, mem_allLabels_perm hperm] using h.zeros
  decided fold hfold s hs := by
    obtain ⟨hpasses, hweight⟩ := h.decided fold (hperm.mem_iff.mp hfold) s hs
    refine ⟨fun fold' hfold' => hpasses fold' (hperm.mem_iff.mp hfold'), ?_⟩
    rwa [totalWeight_perm hperm]
  label := h.label

theorem FoldVote.Elects.perm {vote : FoldVote} (h : vote.Elects folds' s c)
    (hperm : folds'.Perm folds) : vote.Elects folds s c := by
  obtain ⟨hlisted, hmaximal, hsmallest⟩ := h
  simp only [mem_allLabels_perm hperm, classTotal_perm hperm] at hlisted hmaximal hsmallest
  exact ⟨hlisted, hmaximal, hsmallest⟩

/-- Lists paired by a function have the pairs of the function. -/
theorem mem_zip_of_forall₂ {α β : Type} {R : α → β → Prop} {l : List α} {l' : List β}
    {a : α} {b : β} (hR : ∀ a b b', R a b → R a b' → b = b') (h : List.Forall₂ R l l') :
    (a, b) ∈ l.zip l' ↔ a ∈ l ∧ R a b := by
  induction h with
  | nil => simp
  | cons hxy hrest ih =>
    rename_i x y xs ys
    rw [List.zip_cons_cons, List.mem_cons, ih, List.mem_cons, Prod.mk.injEq]
    constructor
    · rintro (⟨rfl, rfl⟩ | ⟨ha, hab⟩)
      · exact ⟨.inl rfl, hxy⟩
      · exact ⟨.inr ha, hab⟩
    · rintro ⟨rfl | ha, hab⟩
      · exact .inl ⟨rfl, hR _ _ _ hab hxy⟩
      · exact .inr ⟨ha, hab⟩

/-- Folds in another order elect the same classes. -/
theorem combineFolds_perm (h : ∀ fold ∈ folds, fold.Admissible) (hperm : folds'.Perm folds)
    (hrun : combineFolds weighted folds foldLabel partition = .ok out) :
    ∃ out', combineFolds weighted folds' foldLabel partition = .ok out' ∧
      out'.rows.Perm out.rows := by
  have h' : ∀ fold ∈ folds', fold.Admissible := fun fold hfold => h fold (hperm.mem_iff.mp hfold)
  have hcomb := combineFolds_combinable h hrun
  have hcomb' := hcomb.perm hperm
  rw [← foldVote_perm hperm] at hcomb'
  obtain ⟨out', hrun'⟩ := exists_combineFolds h' hcomb'
  refine ⟨out', hrun', ?_⟩
  have helects := combineFolds_elects h hrun
  have helects' := combineFolds_elects h' hrun'
  rw [foldVote_perm hperm] at helects'
  have hsamples : out'.sampleIds.Perm out.sampleIds := by
    rw [List.perm_ext_iff_of_nodup helects'.nodup helects.nodup]
    intro s
    simp only [helects'.samples, helects.samples, hperm.mem_iff]
  have hsuits := suits_of_admissible weighted partition h hcomb.oneTarget
  have hfun (s : SampleId) (row row' : List Binary64)
      (hc : ∃ c, row = [c] ∧ (foldVote weighted folds partition).Elects folds s c)
      (hd : ∃ c, row' = [c] ∧ (foldVote weighted folds partition).Elects folds s c) : row = row' := by
    obtain ⟨c, rfl, hc⟩ := hc
    obtain ⟨d, rfl, hd⟩ := hd
    rw [elects_unique hsuits hcomb.zeros hc hd]
  have hrows' : List.Forall₂ (fun s row => ∃ c, row = [c] ∧
      (foldVote weighted folds partition).Elects folds s c) out'.sampleIds out'.values :=
    helects'.rows.imp fun s row ⟨c, hrow, hc⟩ => ⟨c, hrow, hc.perm hperm⟩
  have hnodup : out.rows.Nodup := by
    refine List.Nodup.of_map Prod.fst ?_
    rw [PredictionBlock.rows, List.map_fst_zip helects.rows.length_eq.le]
    exact helects.nodup
  have hnodup' : out'.rows.Nodup := by
    refine List.Nodup.of_map Prod.fst ?_
    rw [PredictionBlock.rows, List.map_fst_zip hrows'.length_eq.le]
    exact helects'.nodup
  refine (List.perm_ext_iff_of_nodup hnodup' hnodup).mpr fun e => ?_
  rw [PredictionBlock.rows, PredictionBlock.rows, mem_zip_of_forall₂ hfun hrows',
    mem_zip_of_forall₂ hfun helects.rows, hsamples.mem_iff]

-- ---------------------------------------------------------------------------
-- Panics
-- ---------------------------------------------------------------------------

theorem panics_bind_ok {α β : Type} {x : Result α} {f : α → Result β} {a : α} (h : x = .ok a) :
    Panics (x >>= f) ↔ Panics (f a) := by
  rw [h]
  rfl

theorem panics_bind_total {α β : Type} {x : Result α} {f : α → Result β} (h : ∀ a, ¬Panics (f a)) :
    Panics (x >>= f) ↔ Panics x := by
  rw [panics_bind, or_iff_left]
  rintro ⟨a, -, ha⟩
  exact h a ha

/-- A refusal is no panic. -/
theorem panics_refuseIf {β : Type} {cond : Prop} [Decidable cond] {e : DagMlError}
    {f : Unit → Result β} (h : ¬IsPanic e) :
    Panics (refuseIf cond e >>= f) ↔ ¬cond ∧ Panics (f ()) := by
  by_cases hcond : cond
  · simp [refuseIf, hcond, bind, Except.bind, FailsAs, h]
  · simp [refuseIf, hcond, bind, Except.bind]

/-- A positive zero is looked up among labels with a negative one: the samples before it
were decided, and neither its fold nor those before that refuse the sample. -/
structure ReachesZero (vote : FoldVote) (folds : List (ClassificationFold K)) : Prop where
  oneTarget : ∀ fold ∈ folds, fold.block.width = 1
  negZero : Binary64.negZero ∈ vote.allLabels folds
  reached : ∃ before s after earlier fold later,
    firstMet (folds.flatMap (·.block.sampleIds)) = before ++ s :: after ∧
    (∀ r ∈ before, vote.Decides folds r) ∧
    folds = earlier ++ fold :: later ∧ (∀ g ∈ earlier, vote.Passes s g) ∧ vote.Passes s fold ∧
    s ∈ fold.block.sampleIds ∧ ∃ e ∈ vote.ballot s fold, e.1 = .zero

omit [LinearOrder K] in
theorem length_addAligned {classes : List Binary64} {scores : List K}
    (h : addAligned classes missing scores row = .ok t) : t.length = scores.length := by
  refine loop_invariant (fun _ t => t.length = scores.length) rfl ?_ h
  intro done entry t t' hlength hstep
  simp only [bind_ok, pure_ok] at hstep
  obtain ⟨i, -, rfl⟩ := hstep
  rw [List.length_modify, hlength]

theorem loop_addFold_shape {vote : FoldVote} {state : List K × K}
    (h : ∀ fold ∈ folds, vote.Suits fold) (hloop : loop (addFold vote classes s) state folds = .ok t) :
    t.1.length = state.1.length ∧ t.2 = state.2 + vote.totalWeight folds s := by
  induction folds generalizing state with
  | nil =>
    cases hloop
    simp [FoldVote.totalWeight, covering]
  | cons fold folds ih =>
    rw [List.forall_mem_cons] at h
    obtain ⟨state', hstep, hrest⟩ := loop_cons.mp hloop
    obtain ⟨hlength, hweight⟩ := ih h.2 hrest
    have hpasses := (addFold_found h.1 hstep).1
    by_cases hs : s ∈ fold.block.sampleIds
    · obtain ⟨missing, heq⟩ := addFold_of_mem classes state h.1 hpasses hs
      simp only [heq, bind_ok, pure_ok] at hstep
      obtain ⟨scores, hscores, rfl⟩ := hstep
      rw [hlength, hweight, length_addAligned hscores]
      simp [FoldVote.totalWeight, covering, hs, add_assoc]
    · rw [addFold_of_not_mem hpasses hs] at hstep
      cases hstep
      rw [hlength, hweight]
      simp [FoldVote.totalWeight, covering, hs]

theorem decides_of_electClass {vote : FoldVote} (h : ∀ fold ∈ folds, vote.Suits fold)
    (helect : electClass vote classes folds s = .ok row) : vote.Decides folds s := by
  refine ⟨fun fold hfold => (electClass_found h helect fold hfold).1, ?_⟩
  simp only [electClass, bind_ok, refuseIf_ok, not_le] at helect
  obtain ⟨state, hloop, _, hweight, -⟩ := helect
  rw [(loop_addFold_shape h hloop).2, zero_add] at hweight
  exact hweight

/-- The election of a sample that no fold refuses and that has weight can only panic. -/
theorem electClass_not_refused {vote : FoldVote} (h : ∀ fold ∈ folds, vote.Suits fold)
    (hdecides : vote.Decides folds s) :
    FailsOnlyAs IsPanic (electClass vote classes folds s) := by
  have hloop : FailsOnlyAs IsPanic
      (loop (addFold vote classes s) (classes.map fun _ => 0, 0) folds) :=
    FailsOnlyAs.loop fun state fold hfold =>
      addFold_not_refused (h fold hfold) (hdecides.passes fold hfold)
  refine hloop.bind fun state hstate => ?_
  have hweight := (loop_addFold_shape h hstate).2
  rw [zero_add] at hweight
  refine (failsOnlyAs_refuseIf (hweight ▸ hdecides.weight.not_ge)).bind fun _ _ => ?_
  refine (failsOnlyAs_need fun _ => isPanic_panicked _).bind fun i _ => ?_
  exact (failsOnlyAs_need fun _ => isPanic_panicked _).bind fun c _ => failsOnlyAs_ok

/-- An election panics at a fold that answers with a label that is not found. -/
theorem electClass_panics {vote : FoldVote} (h : ∀ fold ∈ folds, vote.Suits fold)
    (hclasses : classes ≠ []) :
    Panics (electClass vote classes folds s) ↔ ∃ earlier fold later,
      folds = earlier ++ fold :: later ∧ (∀ g ∈ earlier, vote.Passes s g) ∧ vote.Passes s fold ∧
      s ∈ fold.block.sampleIds ∧ ∃ e ∈ vote.ballot s fold, e.1 ∉ classes := by
  constructor
  · intro hpanics
    rcases panics_bind.mp hpanics with hloop | ⟨state, hstate, hrest⟩
    · obtain ⟨earlier, fold, later, state, rfl, hearlier, hfold⟩ := failsAs_loop hloop
      obtain ⟨hpasses, hs, hlost⟩ := (addFold_panics (h fold (by simp))).mp hfold
      refine ⟨earlier, fold, later, rfl, fun g hg => ?_, hpasses, hs, hlost⟩
      obtain ⟨before, after, rfl⟩ := List.append_of_mem hg
      obtain ⟨state', -, hstep⟩ := loop_append.mp hearlier
      obtain ⟨_, hg, -⟩ := loop_cons.mp hstep
      exact (addFold_found (h g (by simp)) hg).1
    · have hlength := (loop_addFold_shape h hstate).1
      simp only [failsAs_bind, failsAs_refuseIf, failsAs_need, not_isPanic_oof, and_false, false_or,
        isPanic_panicked, and_true, failsAs_pure, exists_const, exists_false, or_false, need_ok,
        refuseIf_ok] at hrest
      have hne : state.1 ≠ [] := by
        rw [← List.length_pos_iff, hlength, List.length_map]
        exact List.length_pos_iff.mpr hclasses
      rcases hrest with ⟨-, hnone | ⟨i, hi, hnone⟩⟩
      · have hsome := winner_isSome hne
        rw [hnone] at hsome
        cases hsome
      · obtain ⟨x, hx, -⟩ := winner_eq_some hi
        obtain ⟨hlt, -⟩ := List.getElem?_eq_some_iff.mp hx
        rw [hlength, List.length_map] at hlt
        rw [List.getElem?_eq_getElem hlt] at hnone
        cases hnone
  · rintro ⟨earlier, fold, later, rfl, hearlier, hpasses, hs, hlost⟩
    refine panics_bind.mpr (.inl (failsAs_loop_append (fun state g hg => ?_) fun state => ?_))
    · exact addFold_not_refused (h g (by simp [hg])) (hearlier g hg)
    · exact (addFold_panics (h fold (by simp))).mpr ⟨hpasses, hs, hlost⟩

theorem combineFolds_panics (h : ∀ fold ∈ folds, fold.Admissible) :
    Panics (combineFolds weighted folds foldLabel partition) ↔
      folds = [] ∨ ReachesZero (foldVote weighted folds partition) folds := by
  by_cases hne : folds = []
  · subst hne
    simp [combineFolds, need, failsAs_bind]
  rw [or_iff_right hne]
  obtain ⟨first, hfirst⟩ := Option.isSome_iff_exists.mp (List.isSome_head?.mpr hne)
  obtain ⟨labels, hlabels⟩ := exists_labels (foldVote weighted folds partition) h
  by_cases hone : ∀ fold ∈ folds, fold.block.width = 1
  · have hsuits := suits_of_admissible weighted partition h hone
    obtain rfl := labels_ok hsuits hlabels
    have hfinite := suits_finite hsuits
    have hclasses := classUniverse_ne_nil (allLabels_ne_nil hsuits hne)
    have hrun : Panics (combineFolds weighted folds foldLabel partition) ↔
        Panics (collect (firstMet (folds.flatMap (·.block.sampleIds)))
          (electClass (foldVote weighted folds partition)
            (classUniverse ((foldVote weighted folds partition).allLabels folds)) folds)) := by
      rw [combineFolds, panics_bind_ok (need_ok.mpr hfirst), panics_bind_ok hlabels,
        panics_refuseIf (not_isPanic_oof _), panics_refuseIf (not_isPanic_oof _)]
      rw [and_iff_right, and_iff_right, panics_bind_total]
      · rintro rows hfold
        rcases panics_bind.mp hfold with hid | ⟨foldId, -, hnone⟩
        · exact not_panics_idNew foldLabel hid
        · exact failsAs_pure.mp hnone
      · rintro (hnil | ⟨c, hc, hc'⟩)
        · exact hclasses hnil
        · have hmem := ((mem_classUniverse hfinite).mp hc).1
          rw [hfinite c hmem] at hc'
          cases hc'
      · rintro ⟨fold, hfold, row, hrow, hlength⟩
        exact hlength ((h fold hfold).content.width_eq_one_iff.mp (hone fold hfold) row hrow)
    rw [hrun]
    constructor
    · intro hpanics
      obtain ⟨before, s, after, rows, hids, hbefore, hs⟩ := failsAs_collect hpanics
      obtain ⟨earlier, fold, later, hfolds, hearlier, hpasses, hmem, e, he, hlost⟩ :=
        (electClass_panics hsuits hclasses).mp hs
      have hfold : fold ∈ folds := by simp [hfolds]
      obtain ⟨hneg, hzero⟩ := lost_label hfinite (mem_allLabels_of_ballot hfold he) hlost
      refine ⟨hone, hneg, before, s, after, earlier, fold, later, hids, fun r hr => ?_, hfolds,
        hearlier, hpasses, hmem, e, he, hzero⟩
      obtain ⟨row, -, helect⟩ := exists_right_of_mem (collect_ok.mp hbefore) hr
      exact decides_of_electClass hsuits helect
    · rintro ⟨-, hneg, before, s, after, earlier, fold, later, hids, hbefore, hfolds, hearlier,
        hpasses, hmem, e, he, hzero⟩
      rw [hids]
      refine failsAs_collect_append (fun r hr => electClass_not_refused hsuits (hbefore r hr)) ?_
      refine (electClass_panics hsuits hclasses).mpr
        ⟨earlier, fold, later, hfolds, hearlier, hpasses, hmem, e, he, fun hfound => ?_⟩
      exact ((mem_classUniverse hfinite).mp hfound).2 hzero hneg
  · refine iff_of_false ?_ fun hreach => hone hreach.oneTarget
    rw [combineFolds, panics_bind_ok (need_ok.mpr hfirst), panics_bind_ok hlabels,
      panics_refuseIf (not_isPanic_oof _)]
    rintro ⟨hall, -⟩
    refine absurd (fun fold hfold => ?_) hone
    rw [(h fold hfold).content.width_eq_one_iff]
    intro row hrow
    by_contra hlength
    exact hall ⟨fold, hfold, row, hrow, hlength⟩

end

end DagMl
