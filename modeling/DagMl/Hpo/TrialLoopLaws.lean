import DagMl.Hpo.TrialLoop

/-!
# The ledgers of a campaign agree

The calls of a campaign that succeeds are those of its trials, one trial after
the other, and a trial's calls are a proposal, a report per fold and one
outcome at the end. What the campaign returns lists the completed trials.
-/

namespace DagMl

open Checked Method

/-- How a trial ended, as the session saw it. -/
inductive HpoTrialOutcome
  | told (terminal : RuntimeHpoTerminal)
  | pruned

-- ---------------------------------------------------------------------------
-- Reading a log of calls
-- ---------------------------------------------------------------------------

namespace SessionCall

def isAsk : SessionCall → Bool
  | .asked _ => true
  | _ => false

def proposal? : SessionCall → Option RuntimeHpoProposal
  | .asked (.ok proposal) => proposal
  | _ => none

/-- The trial a call reports on or ends. -/
def trial? : SessionCall → Option Int
  | .reported intermediate _ => some intermediate.trialId
  | .told trialId _ _ => some trialId
  | _ => none

def outcome? : SessionCall → Option HpoTrialOutcome
  | .reported _ (.ok .pruned) => some .pruned
  | .told _ terminal _ => some (.told terminal)
  | _ => none

def step? : SessionCall → Option Int
  | .reported intermediate _ => some intermediate.step
  | _ => none

end SessionCall

def proposalsIn (calls : List SessionCall) : List RuntimeHpoProposal :=
  calls.filterMap (·.proposal?)

/-- What the calls on one trial show, in order. -/
def shownOf (trialId : Int) (show? : SessionCall → Option α) (calls : List SessionCall) : List α :=
  (calls.filter (·.trial? = some trialId)).filterMap show?

def outcomesOf (trialId : Int) (calls : List SessionCall) : List HpoTrialOutcome :=
  shownOf trialId (·.outcome?) calls

def stepsOf (trialId : Int) (calls : List SessionCall) : List Int :=
  shownOf trialId (·.step?) calls

/-- The score of a trial whose one outcome is its completion. -/
def completionOf : List HpoTrialOutcome → Option Binary64
  | [.told (.completed score)] => some score
  | _ => none

/-- The completed trials in the order they were asked, with the score told. -/
def completedIn (calls : List SessionCall) : List (RuntimeHpoProposal × Binary64) :=
  (proposalsIn calls).filterMap fun proposal =>
    (completionOf (outcomesOf proposal.trialId calls)).map (proposal, ·)

/-- No call on a trial comes after its outcome. -/
def EndsTrials (calls : List SessionCall) : Prop :=
  calls.Pairwise fun earlier later => earlier.outcome? ≠ none → later.trial? ≠ earlier.trial?

/-- The three listings of completed trials are one. -/
structure ListsCompleted (metric : String) (candidates : List ReportedCandidate)
    (proposals : List RuntimeHpoProposal) (reports : List RuntimeHpoCompletedReport)
    (completed : List (RuntimeHpoProposal × Binary64)) : Prop where
  candidates_eq : (candidates.map fun candidate => (candidate.proposal, candidate.score)) = completed
  proposals_eq : proposals = completed.map Prod.fst
  reports_eq :
    (reports.map fun entry => (entry.trialId, entry.variantId, entry.report.metrics[metric]?)) =
      completed.map fun entry => (entry.1.trialId, entry.1.variant.variantId, some entry.2)
  finite : ∀ entry ∈ completed, entry.2.isFinite = true

/-- What the calls of a campaign show beside what it returned. -/
structure CampaignAudit (hpo : RuntimeHpoExecutionContext) (history : Nat)
    (calls : List SessionCall) (result : RuntimeHpoCampaignResult) : Prop where
  counted : calls.head? = some (.counted (.ok history))
  budget : calls.countP (·.isAsk) ≤ hpo.trialBudgetTotal - history
  askedOnce : ((proposalsIn calls).map (·.trialId)).Nodup
  outcome : ∀ proposal ∈ proposalsIn calls, ∃ o, outcomesOf proposal.trialId calls = [o]
  ends : EndsTrials calls
  steps : ∀ trialId, ∃ n, stepsOf trialId calls = (List.range n).map Int.ofNat
  lists : ListsCompleted hpo.selection.metric.name result.candidates
    result.checkpoint.completedProposals result.checkpoint.completedReports (completedIn calls)

-- ---------------------------------------------------------------------------
-- The calls of a trial
-- ---------------------------------------------------------------------------

/-- The reports of a trial from `step` on, and whether they end with its pruning. -/
inductive FoldReports (trialId : Int) : Nat → Bool → List SessionCall → Prop
  | done : FoldReports trialId step false []
  | refused : FoldReports trialId step false [.reported ⟨trialId, step, score⟩ (.error e)]
  | pruned : FoldReports trialId step true [.reported ⟨trialId, step, score⟩ (.ok .pruned)]
  | more : FoldReports trialId (step + 1) ended calls →
      FoldReports trialId step ended (.reported ⟨trialId, step, score⟩ (.ok .continues) :: calls)

inductive TrialCalls (proposal : RuntimeHpoProposal) : HpoTrialOutcome → List SessionCall → Prop
  | pruned : FoldReports proposal.trialId 0 true calls → TrialCalls proposal .pruned calls
  | told : FoldReports proposal.trialId 0 false calls →
      TrialCalls proposal (.told terminal) (calls ++ [.told proposal.trialId terminal (.ok ())])

/-- Trials one after the other. -/
inductive TrialRuns : List (RuntimeHpoProposal × HpoTrialOutcome) → List SessionCall → Prop
  | nil : TrialRuns [] []
  | cons : TrialCalls proposal outcome calls → TrialRuns trials rest →
      TrialRuns ((proposal, outcome) :: trials) (.asked (.ok (some proposal)) :: calls ++ rest)

/-- The completed trials of a list of trials. -/
def completedOf (trials : List (RuntimeHpoProposal × HpoTrialOutcome)) :
    List (RuntimeHpoProposal × Binary64) :=
  trials.filterMap fun trial => (completionOf [trial.2]).map (trial.1, ·)

@[simp] theorem completedOf_completed :
    completedOf [(proposal, .told (.completed score))] = [(proposal, score)] := rfl

@[simp] theorem completedOf_failed : completedOf [(proposal, .told (.failed reason))] = [] := rfl

@[simp] theorem completedOf_pruned : completedOf [(proposal, .pruned)] = [] := rfl

section

variable {trialId : Int} {calls rest : List SessionCall} {proposal : RuntimeHpoProposal}
  {trials : List (RuntimeHpoProposal × HpoTrialOutcome)} {show? : SessionCall → Option α}

theorem shownOf_append :
    shownOf trialId show? (calls ++ rest) =
      shownOf trialId show? calls ++ shownOf trialId show? rest := by
  simp [shownOf]

theorem shownOf_eq_nil (h : ∀ call ∈ calls, call.trial? ≠ some trialId) :
    shownOf trialId show? calls = [] := by
  rw [shownOf, List.filter_eq_nil_iff.mpr (by simpa using h), List.filterMap_nil]

theorem shownOf_eq (h : ∀ call ∈ calls, call.trial? = some trialId) :
    shownOf trialId show? calls = calls.filterMap show? := by
  rw [shownOf, List.filter_eq_self.mpr (by simpa using h)]

namespace FoldReports

theorem trial (h : FoldReports trialId step ended calls) :
    ∀ call ∈ calls, call.trial? = some trialId ∧ call.proposal? = none ∧ call.isAsk = false := by
  induction h with
  | done => simp
  | refused => simp [SessionCall.trial?, SessionCall.proposal?, SessionCall.isAsk]
  | pruned => simp [SessionCall.trial?, SessionCall.proposal?, SessionCall.isAsk]
  | more _ ih =>
    refine List.forall_mem_cons.mpr ⟨⟨rfl, rfl, rfl⟩, ih⟩

theorem outcomes (h : FoldReports trialId step ended calls) :
    calls.filterMap (·.outcome?) = if ended then [.pruned] else [] := by
  induction h with
  | done => rfl
  | refused => rfl
  | pruned => rfl
  | more _ ih => exact ih

theorem steps (h : FoldReports trialId step ended calls) :
    calls.filterMap (·.step?) = (List.range' step calls.length).map Int.ofNat := by
  induction h with
  | done => rfl
  | refused => rfl
  | pruned => rfl
  | @more step _ calls score _ ih =>
    change (step : Int) :: calls.filterMap (·.step?) = _
    rw [ih]
    rfl

theorem endsTrials (h : FoldReports trialId step ended calls) : EndsTrials calls := by
  induction h with
  | done => exact List.Pairwise.nil
  | refused => exact List.pairwise_singleton _ _
  | pruned => exact List.pairwise_singleton _ _
  | more _ ih => exact List.pairwise_cons.mpr ⟨fun _ _ h => (h rfl).elim, ih⟩

end FoldReports

namespace TrialCalls

theorem trial (h : TrialCalls proposal outcome calls) :
    ∀ call ∈ calls, call.trial? = some proposal.trialId ∧ call.proposal? = none ∧
      call.isAsk = false := by
  cases h with
  | pruned hfolds => exact hfolds.trial
  | told hfolds =>
    refine List.forall_mem_append.mpr ⟨hfolds.trial, ?_⟩
    simp [SessionCall.trial?, SessionCall.proposal?, SessionCall.isAsk]

theorem outcomes (h : TrialCalls proposal outcome calls) :
    calls.filterMap (·.outcome?) = [outcome] := by
  cases h with
  | pruned hfolds => exact hfolds.outcomes
  | told hfolds =>
    rw [List.filterMap_append, hfolds.outcomes]
    rfl

theorem steps (h : TrialCalls proposal outcome calls) :
    ∃ n, calls.filterMap (·.step?) = (List.range n).map Int.ofNat := by
  cases h with
  | pruned hfolds =>
    exact ⟨_, by rw [hfolds.steps, List.range_eq_range']⟩
  | @told folds _ hfolds =>
    refine ⟨folds.length, ?_⟩
    rw [List.filterMap_append, hfolds.steps, ← List.range_eq_range']
    exact List.append_nil _

theorem endsTrials (h : TrialCalls proposal outcome calls) : EndsTrials calls := by
  cases h with
  | pruned hfolds => exact hfolds.endsTrials
  | @told folds _ hfolds =>
    refine List.pairwise_append.mpr ⟨hfolds.endsTrials, List.pairwise_singleton _ _, ?_⟩
    -- an outcome among the reports would be a pruning
    intro call hcall _ _ hsome
    obtain ⟨o, ho⟩ := Option.ne_none_iff_exists'.mp hsome
    have hmem : o ∈ folds.filterMap (·.outcome?) := List.mem_filterMap.mpr ⟨call, hcall, ho⟩
    rw [hfolds.outcomes] at hmem
    cases hmem

end TrialCalls

namespace TrialRuns

theorem trial (h : TrialRuns trials calls) :
    ∀ call ∈ calls, ∀ id, call.trial? = some id → id ∈ trials.map (·.1.trialId) := by
  induction h with
  | nil => simp
  | cons hcalls _ ih =>
    intro call hcall id hid
    rw [List.cons_append, List.mem_cons, List.mem_append] at hcall
    rw [List.map_cons, List.mem_cons]
    obtain rfl | hcall | hcall := hcall
    · cases hid
    · rw [(hcalls.trial call hcall).1] at hid
      exact .inl (Option.some.inj hid).symm
    · exact .inr (ih call hcall id hid)

theorem proposals (h : TrialRuns trials calls) : proposalsIn calls = trials.map Prod.fst := by
  induction h with
  | nil => rfl
  | @cons proposal _ calls _ rest hcalls _ ih =>
    have hnone : proposalsIn calls = [] :=
      List.filterMap_eq_nil_iff.mpr fun call hcall => (hcalls.trial call hcall).2.1
    have hsplit : proposalsIn (.asked (.ok (some proposal)) :: calls ++ rest) =
        proposal :: (proposalsIn calls ++ proposalsIn rest) := by
      simp [proposalsIn, SessionCall.proposal?]
    rw [hsplit, hnone, ih]
    rfl

theorem asks (h : TrialRuns trials calls) : calls.countP (·.isAsk) = trials.length := by
  induction h with
  | nil => rfl
  | @cons _ _ own _ _ hcalls _ ih =>
    have hnone : own.countP (·.isAsk) = 0 :=
      List.countP_eq_zero.mpr fun call hcall => by simp [(hcalls.trial call hcall).2.2]
    rw [List.cons_append, List.countP_cons_of_pos rfl, List.countP_append, hnone, ih]
    simp

/-- The calls on a trial of the list are those made when it ran. -/
theorem shown (h : TrialRuns trials calls) (hnodup : (trials.map (·.1.trialId)).Nodup)
    (hmem : (proposal, outcome) ∈ trials) : ∃ own, TrialCalls proposal outcome own ∧
      ∀ (α : Type) (show? : SessionCall → Option α),
        shownOf proposal.trialId show? calls = own.filterMap show? := by
  induction h with
  | nil => cases hmem
  | @cons first _ own trials rest hcalls hrest ih =>
    rw [List.map_cons, List.nodup_cons] at hnodup
    have hsplit (α : Type) (show? : SessionCall → Option α) :
        shownOf proposal.trialId show? (.asked (.ok (some first)) :: own ++ rest) =
          shownOf proposal.trialId show? own ++ shownOf proposal.trialId show? rest := by
      rw [List.cons_append, ← shownOf_append]
      simp [shownOf, SessionCall.trial?]
    cases hmem with
    | head =>
      refine ⟨own, hcalls, ?_⟩
      intro α show?
      rw [hsplit, shownOf_eq fun call hcall => (hcalls.trial call hcall).1]
      rw [shownOf_eq_nil fun call hcall hid => hnodup.1 (hrest.trial call hcall _ hid),
        List.append_nil]
    | tail _ hmem =>
      obtain ⟨own', hown', hshown⟩ := ih hnodup.2 hmem
      refine ⟨own', hown', ?_⟩
      intro α show?
      have hne : first.trialId ≠ proposal.trialId := by
        intro heq
        exact hnodup.1 (heq ▸ List.mem_map.mpr ⟨_, hmem, rfl⟩)
      rw [hsplit, hshown, shownOf_eq_nil fun call hcall hid => hne ?_, List.nil_append]
      exact Option.some.inj ((hcalls.trial call hcall).1.symm.trans hid)

theorem endsTrials (h : TrialRuns trials calls) (hnodup : (trials.map (·.1.trialId)).Nodup) :
    EndsTrials calls := by
  induction h with
  | nil => exact List.Pairwise.nil
  | cons hcalls hrest ih =>
    rw [List.map_cons, List.nodup_cons] at hnodup
    rw [List.cons_append]
    refine List.pairwise_cons.mpr ⟨fun _ _ h => (h rfl).elim, ?_⟩
    refine List.pairwise_append.mpr ⟨hcalls.endsTrials, ih hnodup.2, ?_⟩
    intro call hcall later hlater _ hsame
    rw [(hcalls.trial call hcall).1] at hsame
    exact hnodup.1 (hrest.trial later hlater _ hsame)

end TrialRuns

end

-- ---------------------------------------------------------------------------
-- The calls the procedures make
-- ---------------------------------------------------------------------------

section

variable {C W Rest : Type} {services : HpoServices C W Rest} {session : TunerSession W}
  {plan candidatePlan : HpoPlan} {hpo : RuntimeHpoExecutionContext} {trialId : Int}
  {ctx : CandidateContext Rest} {books : TrialBooks} {proposal : RuntimeHpoProposal}
  {completed : List (RuntimeHpoProposal × Binary64)}

theorem emitsOk_telling {terminal : RuntimeHpoTerminal} :
    (session.telling trialId terminal).EmitsOk fun _ made =>
      made = [.told trialId terminal (.ok ())] :=
  (emitsOk_recorded _ _).mono fun _ _ h => h

theorem emitsOk_catching {m : Campaign W α} {P : Result α → List SessionCall → Prop}
    (h : m.Emits P) : (catching m).EmitsOk P := by
  refine EmitsOk.bind h.attempt fun answer first hP => ?_
  split
  · exact emitsOk_error _ _
  · refine (emitsOk_pure _).mono ?_
    rintro _ _ ⟨rfl, rfl⟩
    rwa [List.append_nil]

def isPruned (answer : Result (HpoCandidateFitCvOutcome × CandidateContext Rest)) : Bool :=
  match answer with
  | .ok (.pruned, _) => true
  | _ => false

theorem evaluateFolds_emits {variant : VariantPlan} {folds : List FoldAssignment} {step : Nat} :
    (evaluateFolds services session plan hpo trialId variant step folds ctx).Emits
      fun answer made => FoldReports trialId step (isPruned answer) made := by
  induction folds generalizing step ctx with
  | nil =>
    refine (emits_lift _).mono ?_
    rintro _ _ ⟨rfl, rfl⟩
    exact .done
  | cons fold folds ih =>
    refine Emits.quiet_bind (emits_silent _) (fun scored => ?_) fun _ => .done
    refine Emits.lift_bind (fun score _ => ?_) fun _ => .done
    refine Emits.lift_bind (fun intermediate hstep => ?_) fun _ => .done
    simp only [intermediateStep, Checked.bind_ok, pure_ok] at hstep
    obtain ⟨_, -, rfl⟩ := hstep
    refine Emits.bind (emits_recorded _ _) ?_ ?_
    · rintro outcome _ rfl
      cases outcome with
      | pruned =>
        refine (emits_lift _).mono ?_
        rintro _ _ ⟨rfl, rfl⟩
        exact .pruned
      | continues => exact ih.mono fun _ _ h => .more h
    · rintro e _ rfl
      exact .refused

theorem executeHpoCandidateFitCv_emits :
    (executeHpoCandidateFitCv services session plan hpo trialId ctx).Emits
      fun answer made => FoldReports trialId 0 (isPruned answer) made := by
  refine Emits.quiet_bind (emits_silent _) (fun ctx => ?_) fun _ => .done
  refine Emits.lift_bind (fun foldSet _ => ?_) fun _ => .done
  refine Emits.lift_bind (fun variant _ => ?_) fun _ => .done
  exact evaluateFolds_emits

def TrialBooks.Lists (hpo : RuntimeHpoExecutionContext) (books : TrialBooks)
    (completed : List (RuntimeHpoProposal × Binary64)) : Prop :=
  ListsCompleted hpo.selection.metric.name books.candidates books.completedProposals
    books.completedReports completed

/-- The trial is told once, and the books follow what it was told. -/
def Terminates (hpo : RuntimeHpoExecutionContext) (proposal : RuntimeHpoProposal)
    (completed : List (RuntimeHpoProposal × Binary64)) (before books : TrialBooks)
    (made : List SessionCall) : Prop :=
  ∃ terminal, made = [.told proposal.trialId terminal (.ok ())] ∧
    books.Lists hpo (completed ++ completedOf [(proposal, .told terminal)]) ∧
    books.trialVariants = before.trialVariants

theorem emitsOk_tellingFailed (hlists : books.Lists hpo completed) {code message : String}
    {after : TrialBooks} (hafter : after.candidates = books.candidates ∧
      after.completedProposals = books.completedProposals ∧
      after.completedReports = books.completedReports ∧
      after.trialVariants = books.trialVariants) :
    Method.EmitsOk (do session.tellingFailed proposal.trialId code message; pure after)
      (Terminates hpo proposal completed books) := by
  obtain ⟨hcandidates, hproposals, hreports, hvariants⟩ := hafter
  refine EmitsOk.bind emitsOk_telling fun _ first hfirst => (emitsOk_pure after).mono ?_
  rintro _ _ ⟨rfl, rfl⟩
  subst hfirst
  refine ⟨_, rfl, ?_, hvariants⟩
  rw [completedOf_failed, List.append_nil, TrialBooks.Lists, hcandidates, hproposals, hreports]
  exact hlists

theorem completeTrial_emits (hlists : books.Lists hpo completed) {report : RegressionMetricReport}
    (hscore : report.finiteMetric hpo.selection.metric.name = some score) :
    (completeTrial services session books proposal ctx report score).EmitsOk
      (Terminates hpo proposal completed books) := by
  refine EmitsOk.bind emitsOk_telling fun _ first hfirst => (emitsOk_pure _).mono ?_
  rintro _ _ ⟨rfl, rfl⟩
  subst hfirst
  obtain ⟨hmetric, hfinite⟩ := Option.filter_eq_some_iff.mp hscore
  refine ⟨_, rfl, ⟨?_, ?_, ?_, ?_⟩, rfl⟩
  · simp [hlists.candidates_eq, TrialBooks.terminated]
  · simp [hlists.proposals_eq, TrialBooks.terminated]
  · simp [hlists.reports_eq, TrialBooks.terminated, hmetric]
  · rw [completedOf_completed]
    refine List.forall_mem_append.mpr ⟨hlists.finite, ?_⟩
    simpa using hfinite

theorem scoreTrial_emits (hlists : books.Lists hpo completed) :
    (scoreTrial services session plan hpo books proposal ctx).EmitsOk
      (Terminates hpo proposal completed books) := by
  unfold scoreTrial
  dsimp only
  split
  · exact emitsOk_tellingFailed hlists ⟨rfl, rfl, rfl, rfl⟩
  · split
    · exact emitsOk_tellingFailed hlists ⟨rfl, rfl, rfl, rfl⟩
    · rename_i hscore
      exact completeTrial_emits hlists hscore

theorem finishTrial_emits (hlists : books.Lists hpo completed) :
    (finishTrial services session plan hpo candidatePlan books proposal ctx).EmitsOk
      (Terminates hpo proposal completed books) := by
  refine EmitsOk.bind (emitsOk_catching (emits_lift _)) ?_
  rintro scored _ ⟨-, rfl⟩
  cases scored with
  | ok ctx => exact scoreTrial_emits hlists
  | error e => exact EmitsOk.bind emitsOk_telling fun _ _ _ => emitsOk_error e _

theorem failTrial_emits (hlists : books.Lists hpo completed) {error : DagMlError} :
    (failTrial session books proposal.trialId error).EmitsOk
      (Terminates hpo proposal completed books) := by
  unfold failTrial
  split
  · exact emitsOk_tellingFailed hlists ⟨rfl, rfl, rfl, rfl⟩
  · exact emitsOk_error _ _

theorem admitProposal_ok (h : admitProposal services hpo books proposal = .ok admitted) :
    books.trialVariants[proposal.trialId]? = none ∧
      admitted.trialVariants =
        books.trialVariants.insert proposal.trialId proposal.variant.variantId ∧
      ∀ completed, books.Lists hpo completed → admitted.Lists hpo completed := by
  simp only [admitProposal, Checked.bind_ok, vacant_ok, pure_ok] at h
  obtain ⟨_, hfresh, _, -, _, -, _, -, rfl⟩ := h
  exact ⟨hfresh, rfl, fun _ hlists => hlists⟩

/-- A trial in the books: its calls are those of one trial, and its id was free. -/
theorem runTrial_emits (hlists : books.Lists hpo completed) :
    (runTrial services session plan hpo ctx books proposal).EmitsOk fun books' made =>
      ∃ outcome, TrialCalls proposal outcome made ∧
        books'.Lists hpo (completed ++ completedOf [(proposal, outcome)]) ∧
        books.trialVariants[proposal.trialId]? = none ∧ books'.trialVariants =
          books.trialVariants.insert proposal.trialId proposal.variant.variantId := by
  refine EmitsOk.lift_bind fun admitted hadmit => ?_
  obtain ⟨hfresh, hvariants, hkeep⟩ := admitProposal_ok hadmit
  have hlists := hkeep completed hlists
  refine EmitsOk.lift_bind fun _ _ => ?_
  refine EmitsOk.bind (emitsOk_catching executeHpoCandidateFitCv_emits) ?_
  rintro (error | ⟨_ | _, ctx⟩) folds hfolds
  · refine (failTrial_emits hlists).mono ?_
    rintro books' _ ⟨terminal, rfl, hbooks, hsame⟩
    exact ⟨_, .told hfolds, hbooks, hfresh, hsame.trans hvariants⟩
  · refine (finishTrial_emits hlists).mono ?_
    rintro books' _ ⟨terminal, rfl, hbooks, hsame⟩
    exact ⟨_, .told hfolds, hbooks, hfresh, hsame.trans hvariants⟩
  · refine (emitsOk_pure _).mono ?_
    rintro _ _ ⟨rfl, rfl⟩
    refine ⟨.pruned, ?_, ?_, hfresh, hvariants⟩
    · rw [List.append_nil]
      exact .pruned hfolds
    · rw [completedOf_pruned, List.append_nil]
      exact hlists

/-- The trials that took the books from `before` to `books`. -/
structure TrialsRan (hpo : RuntimeHpoExecutionContext) (before : TrialBooks)
    (completed : List (RuntimeHpoProposal × Binary64))
    (trials : List (RuntimeHpoProposal × HpoTrialOutcome)) (books : TrialBooks)
    (calls : List SessionCall) : Prop where
  runs : TrialRuns trials calls
  askedOnce : (trials.map (·.1.trialId)).Nodup
  fresh : ∀ trial ∈ trials, before.trialVariants[trial.1.trialId]? = none
  lists : books.Lists hpo (completed ++ completedOf trials)

theorem TrialsRan.nil (hlists : books.Lists hpo completed) :
    TrialsRan hpo books completed [] books [] where
  runs := .nil
  askedOnce := List.nodup_nil
  fresh := by simp
  lists := by rwa [show completedOf [] = [] from rfl, List.append_nil]

theorem TrialsRan.cons {middle : TrialBooks} {trials : List (RuntimeHpoProposal × HpoTrialOutcome)}
    (hcalls : TrialCalls proposal outcome own)
    (hfresh : before.trialVariants[proposal.trialId]? = none)
    (hvariants : middle.trialVariants =
      before.trialVariants.insert proposal.trialId proposal.variant.variantId)
    (h : TrialsRan hpo middle (completed ++ completedOf [(proposal, outcome)]) trials books calls) :
    TrialsRan hpo before completed ((proposal, outcome) :: trials) books
      (.asked (.ok (some proposal)) :: own ++ calls) where
  runs := .cons hcalls h.runs
  askedOnce := by
    refine List.nodup_cons.mpr ⟨?_, h.askedOnce⟩
    intro hmem
    obtain ⟨trial, htrial, heq⟩ := List.mem_map.mp hmem
    have hnone := h.fresh trial htrial
    rw [hvariants, heq, BTreeMap.getElem?_insert, if_pos rfl] at hnone
    cases hnone
  fresh := by
    refine List.forall_mem_cons.mpr ⟨hfresh, ?_⟩
    intro trial htrial
    have hnone := h.fresh trial htrial
    rw [hvariants, BTreeMap.getElem?_insert] at hnone
    split at hnone
    · cases hnone
    · exact hnone
  lists := by
    have hsplit : completedOf ((proposal, outcome) :: trials) =
        completedOf [(proposal, outcome)] ++ completedOf trials := by
      rw [completedOf, completedOf, completedOf, ← List.filterMap_append]
      rfl
    rw [hsplit, ← List.append_assoc]
    exact h.lists

/-- The call that ended the asking, if one did. -/
def Exhausted (calls : List SessionCall) : Prop := calls = [] ∨ calls = [.asked (.ok none)]

theorem runTrials_emits {remaining : Nat} (hlists : books.Lists hpo completed) :
    (runTrials services session plan hpo ctx remaining books).EmitsOk fun books' made =>
      ∃ trials calls last, made = calls ++ last ∧ Exhausted last ∧
        trials.length + last.length ≤ remaining ∧
        TrialsRan hpo books completed trials books' calls := by
  induction remaining generalizing books completed with
  | zero =>
    refine (emitsOk_pure books).mono ?_
    rintro _ _ ⟨rfl, rfl⟩
    exact ⟨[], [], [], rfl, .inl rfl, le_rfl, .nil hlists⟩
  | succ remaining ih =>
    refine EmitsOk.bind (emitsOk_recorded _ _) ?_
    rintro answer _ rfl
    cases answer with
    | none =>
      refine (emitsOk_pure books).mono ?_
      rintro _ _ ⟨rfl, rfl⟩
      exact ⟨[], [], [_], rfl, .inr rfl, by simp, .nil hlists⟩
    | some proposal =>
      refine EmitsOk.bind (runTrial_emits hlists) ?_
      rintro middle own ⟨outcome, hcalls, hmiddle, hfresh, hvariants⟩
      refine (ih hmiddle).mono ?_
      rintro books' _ ⟨trials, calls, last, rfl, hlast, hlen, hran⟩
      refine ⟨(proposal, outcome) :: trials, _, last, ?_, hlast, ?_,
        .cons hcalls hfresh hvariants hran⟩
      · simp
      · rw [List.length_cons]
        omega

theorem concludeCampaign_emits :
    (concludeCampaign services session plan hpo history books).EmitsOk fun result made =>
      (∃ n, made = [.counted (.ok n)]) ∧ result.candidates = books.candidates ∧
        result.checkpoint.completedProposals = books.completedProposals ∧
        result.checkpoint.completedReports = books.completedReports := by
  refine EmitsOk.bind (emitsOk_recorded _ _) ?_
  rintro n _ rfl
  refine EmitsOk.lift_bind fun _ _ => ?_
  refine EmitsOk.quiet_bind (emits_silent _) fun artifact => ?_
  refine EmitsOk.lift_bind fun _ _ => ?_
  refine EmitsOk.quiet_bind (emits_silent _) fun incumbent => ?_
  refine EmitsOk.lift_bind fun incumbent _ => ?_
  refine EmitsOk.lift_bind fun _ _ => ?_
  refine EmitsOk.quiet_bind (emits_silent _) fun terminalTrials => ?_
  refine EmitsOk.lift_bind fun _ _ => ?_
  refine (emitsOk_pure _).mono ?_
  rintro _ _ ⟨rfl, rfl⟩
  exact ⟨⟨n, rfl⟩, rfl, rfl, rfl⟩

-- ---------------------------------------------------------------------------
-- The campaign
-- ---------------------------------------------------------------------------

/-- The calls of a campaign around those of its trials. -/
def framed (history n : Nat) (calls last : List SessionCall) : List SessionCall :=
  .counted (.ok history) :: (calls ++ last ++ [.counted (.ok n)])

section

variable {history n : Nat} {calls last : List SessionCall}

theorem proposalsIn_framed (h : Exhausted last) :
    proposalsIn (framed history n calls last) = proposalsIn calls := by
  obtain rfl | rfl := h
  · simp [framed, proposalsIn, SessionCall.proposal?]
  · simp [framed, proposalsIn, SessionCall.proposal?]

theorem shownOf_framed (h : Exhausted last) {show? : SessionCall → Option α} :
    shownOf trialId show? (framed history n calls last) = shownOf trialId show? calls := by
  obtain rfl | rfl := h
  · simp [framed, shownOf, SessionCall.trial?]
  · simp [framed, shownOf, SessionCall.trial?]

theorem asks_framed (h : Exhausted last) :
    (framed history n calls last).countP (·.isAsk) = calls.countP (·.isAsk) + last.length := by
  obtain rfl | rfl := h
  · simp [framed, SessionCall.isAsk]
  · simp [framed, SessionCall.isAsk]

theorem endsTrials_framed (h : Exhausted last) (hcalls : EndsTrials calls) :
    EndsTrials (framed history n calls last) := by
  have hout : ∀ call : SessionCall, call.outcome? ≠ none → call.trial? ≠ none := by
    rintro (_ | _ | _ | _) <;> simp [SessionCall.outcome?, SessionCall.trial?]
  have hidle : ∀ call ∈ last ++ [.counted (.ok n)], call.outcome? = none ∧ call.trial? = none := by
    obtain rfl | rfl := h <;> simp [SessionCall.outcome?, SessionCall.trial?]
  refine List.pairwise_cons.mpr ⟨fun _ _ h => (h rfl).elim, ?_⟩
  rw [List.append_assoc]
  refine List.pairwise_append.mpr ⟨hcalls, ?_, ?_⟩
  · exact List.pairwise_of_forall_mem_list fun call hcall _ _ hsome =>
      (hsome (hidle call hcall).1).elim
  · intro call _ later hlater hsome hsame
    exact hout call hsome (hsame.symm.trans (hidle later hlater).2)

end

variable [RuntimeController C] {controllers : RuntimeControllerRegistry C}

theorem executeHpoCampaign_emits :
    (executeHpoCampaign services plan hpo controllers ctx).EmitsOk fun result made =>
      ∃ history n trials calls last books, made = framed history n calls last ∧
        Exhausted last ∧ trials.length + last.length ≤ hpo.trialBudgetTotal - history ∧
        TrialsRan hpo { incumbentVariants := hpo.resumeVariants } [] trials books calls ∧
        result.candidates = books.candidates ∧
        result.checkpoint.completedProposals = books.completedProposals ∧
        result.checkpoint.completedReports = books.completedReports := by
  refine EmitsOk.lift_bind fun _ _ => ?_
  refine EmitsOk.lift_bind fun _ _ => ?_
  refine EmitsOk.lift_bind fun _ _ => ?_
  refine EmitsOk.lift_bind fun controller _ => ?_
  refine EmitsOk.quiet_bind (emits_silent _) fun session => ?_
  refine EmitsOk.bind (emitsOk_recorded _ _) ?_
  rintro history _ rfl
  refine EmitsOk.lift_bind fun _ _ => ?_
  refine EmitsOk.lift_bind fun _ _ => ?_
  refine EmitsOk.bind (runTrials_emits ⟨rfl, rfl, rfl, by simp⟩) ?_
  rintro books _ ⟨trials, calls, last, rfl, hlast, hlen, hran⟩
  refine concludeCampaign_emits.mono ?_
  rintro result _ ⟨⟨n, rfl⟩, hresult⟩
  exact ⟨history, n, trials, calls, last, books, rfl, hlast, hlen, hran, hresult⟩

theorem TrialsRan.completed_eq {trials : List (RuntimeHpoProposal × HpoTrialOutcome)}
    (h : TrialsRan hpo before completed trials books calls) :
    completedIn calls = completedOf trials := by
  rw [completedIn, h.runs.proposals, List.filterMap_map, completedOf]
  refine List.filterMap_congr fun trial htrial => ?_
  obtain ⟨own, hown, hshown⟩ := h.runs.shown h.askedOnce htrial
  rw [Function.comp_apply, outcomesOf, hshown, hown.outcomes]

/-- Whatever the session, the controllers and the data do: the calls of a
campaign that succeeds end each trial once and for all, and the three listings
it returns are the completed trials in the order they were asked. -/
theorem executeHpoCampaign_audit (services : HpoServices C W Rest) (plan : HpoPlan)
    (hpo : RuntimeHpoExecutionContext) (controllers : RuntimeControllerRegistry C)
    (ctx : CandidateContext Rest) (world world' : W) (calls : List SessionCall)
    (result : RuntimeHpoCampaignResult)
    (hrun : executeHpoCampaign services plan hpo controllers ctx ⟨world, []⟩ =
      (.ok result, ⟨world', calls⟩)) :
    ∃ history, CampaignAudit hpo history calls result := by
  obtain ⟨history, n, trials, inner, last, books, rfl, hlast, hlen, hran, hcandidates, hproposals,
    hreports⟩ := executeHpoCampaign_emits.run hrun
  refine ⟨history, rfl, ?_, ?_, ?_, ?_, ?_, ?_⟩
  · rw [asks_framed hlast, hran.runs.asks]
    exact hlen
  · rw [proposalsIn_framed hlast, hran.runs.proposals, List.map_map]
    exact hran.askedOnce
  · rw [proposalsIn_framed hlast, hran.runs.proposals]
    intro proposal hproposal
    obtain ⟨trial, htrial, rfl⟩ := List.mem_map.mp hproposal
    obtain ⟨own, hown, hshown⟩ := hran.runs.shown hran.askedOnce htrial
    exact ⟨trial.2, by rw [outcomesOf, shownOf_framed hlast, hshown, hown.outcomes]⟩
  · exact endsTrials_framed hlast (hran.runs.endsTrials hran.askedOnce)
  · intro trialId
    rw [stepsOf, shownOf_framed hlast]
    by_cases hid : ∃ trial ∈ trials, trial.1.trialId = trialId
    · obtain ⟨trial, htrial, rfl⟩ := hid
      obtain ⟨own, hown, hshown⟩ := hran.runs.shown hran.askedOnce htrial
      rw [hshown]
      exact hown.steps
    · refine ⟨0, shownOf_eq_nil fun call hcall heq => hid ?_⟩
      exact List.mem_map.mp (hran.runs.trial call hcall _ heq)
  · have hsame : completedIn (framed history n inner last) = completedIn inner := by
      simp only [completedIn, proposalsIn_framed hlast, outcomesOf, shownOf_framed hlast]
    rw [hsame, hran.completed_eq, hcandidates, hproposals, hreports]
    exact hran.lists

end

-- ---------------------------------------------------------------------------
-- A campaign of two trials
-- ---------------------------------------------------------------------------

def tunedNode : NodeId := ⟨"model:tuned", by decide⟩
def tunerId : ControllerId := ⟨"controller:tuned", by decide⟩

def tunedVariant (trialId : Nat) : VariantPlan where
  variantId := if trialId = 0 then ⟨"variant:tuned:0", by decide⟩ else ⟨"variant:tuned:1", by decide⟩
  choices := ∅
  fingerprint := "tuned"
  seed := none

def tunedFold (foldId : FoldId) (train validation : SampleId) : FoldAssignment :=
  ⟨foldId, [train], [validation], ∅⟩

def tunedPlan : HpoPlan where
  id := "plan:tuned"
  graphPlan.graph := {
    id := "graph:tuned", interface := ⟨[], []⟩
    nodes := [⟨tunedNode, .model, none, ⟨[], [⟨"oof", .prediction, none, .one, none, none, none⟩]⟩, ∅⟩]
    edges := [], searchSpaceFingerprint := none, metadata := ∅ }
  graphPlan.storedLevels := []
  campaign := ⟨none, none⟩
  nodePlans := .collect [(tunedNode, {
    nodeId := tunedNode, kind := .model, controllerId := tunerId, controllerVersion := "1"
    supportedPhases := {.fitCv}, trainingLosses := [], inputNodes := [], shapePlan := none
    dataBindings := [], innerCv := none, paramsFingerprint := "" })]
  foldSet := some {
    id := "folds:tuned"
    sampleIds := [⟨"tuned:1", by decide⟩, ⟨"tuned:2", by decide⟩]
    folds := [
      tunedFold ⟨"fold:tuned1", by decide⟩ ⟨"tuned:1", by decide⟩ ⟨"tuned:2", by decide⟩,
      tunedFold ⟨"fold:tuned2", by decide⟩ ⟨"tuned:2", by decide⟩ ⟨"tuned:1", by decide⟩]
    sampleGroups := ∅, partitionMode := .partition, trainExclusion := .relations
    targetMissingSampleIds := [] }
  variants := [tunedVariant 0]
  selectionMetricLevel := .sample
  groupingKey := none

def tunedHpo : RuntimeHpoExecutionContext where
  operationId := "hpo:tuned"
  controllerId := tunerId
  targetNodeId := tunedNode
  baseVariant := tunedVariant 0
  trialBudgetTotal := 2
  study := ⟨tunerId.value, "study:tuned", "abi", .ok "space"⟩
  parameterPaths := .collect [("n_components", "n_components")]
  resumeVariants := ∅
  selection := ⟨tunedNode, "oof", .rmse, .minimize⟩
  provenance := ⟨"graph", "campaign", "controller", "data", none, "influence", "relation"⟩

def tunedReport (foldId : FoldId) : RegressionMetricReport where
  predictionId := none
  producerNode := tunedNode
  producerPort := some "oof"
  partition := .validation
  foldId := some foldId
  level := .sample
  rowCount := 1
  targetWidth := 1
  targetNames := []
  metrics := .collect [("rmse", .zero)]

def tunedTrial (id : Int) (status : HpoTrialStatus) : RuntimeHpoTerminalSnapshot where
  trial := {
    id, askSequence := id, terminalSequence := some id, parameters := ∅, parameterOrder := []
    status, score := none, rung := 0, duration := .zero, intermediates := [], failure := none }
  variantId := none

/-- The state is the number of trials asked; the first is pruned at its first fold. -/
def tunedSession : TunerSession Nat where
  trialHistoryLen n := (.ok n, n)
  ask n := (.ok (some ⟨n, tunedVariant n⟩), n + 1)
  reportIntermediate intermediate n :=
    (.ok (if intermediate.trialId = 0 then .pruned else .continues), n)
  tell _ _ n := (.ok (), n)
  incumbent _ n := (.ok (some ⟨1, .zero, "rmse", .minimize, (tunedVariant 1).variantId⟩), n)
  terminalTrialSnapshots _ n := (.ok [tunedTrial 0 .pruned, tunedTrial 1 .completed], n)
  checkpoint n := (.ok {
    schemaVersion := n4moptCheckpointSchemaVersion, artifactKind := n4moptArtifactKind
    format := n4moptFormat, abiMajor := methodsAbiMajor, abiMinMinor := methodsN4moptMinAbiMinor
    binding := ⟨tunerId.value, "study:tuned", "space", "optimizer"⟩
    methodsAbi := "abi", opaquePayload := [0]
    payloadSha256 := payloadSha256 plainExternals.sha256 [0] }, n)

/-- Every fold adds a report of the target, and scoring adds their average. -/
def tunedServices : HpoServices RuntimeControllerRegistry.MockController Nat Unit where
  externals := plainExternals
  sameChoice _ _ := true
  validatePlan _ := .ok ()
  validateForPlan _ _ := .ok ()
  createTunerSession _ _ _ n := (.ok tunedSession, n)
  limitedBy := id
  configureGlobalOofAggregation _ ctx n := (.ok ctx, n)
  executePhaseScope _ phaseScope ctx n := (.ok { ctx with
    scoreCollector := ctx.scoreCollector ++ phaseScope.foldId.toList.map tunedReport }, n)
  collectCrossFoldValidationScoresForTarget _ _ _ ctx := .ok { ctx with
    scoreCollector := ctx.scoreCollector ++ [tunedReport ⟨"avg", valid_avg⟩] }
  captureVariantValidationPredictions _ label _ := ⟨label, [], [], none⟩

def tunedControllers : RuntimeControllerRegistry RuntimeControllerRegistry.MockController :=
  ⟨.collect [(tunerId, ⟨tunerId, 1⟩)]⟩

def tunedContext : CandidateContext Unit :=
  { RunContext.new ⟨"run:tuned", by decide⟩ none with scoreCollector := [], rest := () }

theorem executeHpoCampaign_audit_tuned : ∃ result history log,
    result.candidates.length = 1 ∧ CampaignAudit tunedHpo history log result := by
  have hok : (executeHpoCampaign tunedServices tunedPlan tunedHpo tunedControllers tunedContext
      ⟨0, []⟩).1.toOption.any (·.candidates.length = 1) = true := by
    decide +kernel
  obtain ⟨result, hresult, hone⟩ := toOption_any.mp hok
  obtain ⟨history, haudit⟩ := executeHpoCampaign_audit tunedServices tunedPlan tunedHpo
    tunedControllers tunedContext 0 _ _ result (Prod.ext hresult rfl)
  exact ⟨result, history, _, of_decide_eq_true hone, haudit⟩

end DagMl
