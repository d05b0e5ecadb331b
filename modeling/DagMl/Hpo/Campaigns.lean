import DagMl.Hpo.Resume
import DagMl.Lib.Index

/-!
# Chains of resumed campaigns

`Consistent` is what the validator makes sure of: the completed trials of the
ledger, the proposals, the reports and the candidates list the same trials
with the same variants. `Grows` is what joining keeps, and `resumed_grows`
carries both along every chain of campaigns.
-/

namespace DagMl

open Checked Ledger

namespace MethodsHpoResumeState

-- ---------------------------------------------------------------------------
-- What an accepted state satisfies
-- ---------------------------------------------------------------------------

/-- The completed trials of the ledger with their variants. -/
def completedTrials (self : MethodsHpoResumeState) : List (Int × Option VariantId) :=
  (self.terminalTrials.filter (·.trial.status = .completed)).map fun evidence =>
    (evidence.trial.id, evidence.variantId)

def proposed (self : MethodsHpoResumeState) : List (Int × Option VariantId) :=
  self.completedProposals.map fun proposal => (proposal.trialId, some proposal.variant.variantId)

def reported (self : MethodsHpoResumeState) : List (Int × Option VariantId) :=
  self.completedReports.map fun report => (report.trialId, some report.variantId)

def evidenced (self : MethodsHpoResumeState) : List (Int × Option VariantId) :=
  self.candidates.map fun candidate => (candidate.trialId, some candidate.variantId)

structure Ordered (state : MethodsHpoResumeState) : Prop where
  history : state.terminalTrials.length = state.trialHistoryLen
  ledger : Ascends (·.trial.id) state.terminalTrials
  terminal : ∀ evidence ∈ state.terminalTrials, evidence.trial.status.isTerminal = true
  proposals : Ascends (·.trialId) state.completedProposals
  reports : Ascends (·.trialId) state.completedReports
  candidates : Ascends (·.trialId) state.candidates

/-- The four listings are one, and the incumbent is the completed trial it names. -/
structure Consistent (state : MethodsHpoResumeState) : Prop extends Ordered state where
  proposed_eq : state.proposed = state.completedTrials
  reported_eq : state.reported = state.completedTrials
  evidenced_eq : state.evidenced = state.completedTrials
  incumbent : ∃ report ∈ state.completedReports, report.trialId = state.incumbent.trialId ∧
    report.variantId = state.incumbent.variantId ∧ report.score = state.incumbent.score

variable {checks : ResumeChecks} {self : MethodsHpoResumeState} {proposals : Proposals}

theorem windows_ids {key : α → Int} {l : List α} :
    (¬∃ pair ∈ windows (l.map key), pair.2 ≤ pair.1) ↔ Ascends key l := by
  rw [Ascends, ← List.pairwise_map (f := key) (R := (· < ·))]
  let value (i : Int) := i
  have hwindows : (∀ pair ∈ windows (l.map key), value pair.1 < value pair.2) ↔
      Ascends value (l.map key) := forall_windows
  simpa [Ascends, value] using hwindows

theorem validateOrder_ok (h : self.validateOrder = .ok u) : self.Ordered := by
  simp only [validateOrder, bind_ok, refuseIf_ok, each_ok, List.forall_mem_cons, windows_ids,
    not_or, not_not] at h
  obtain ⟨_, ⟨hlen, hledger, hterminal⟩, hproposals, hreports, hcandidates, -⟩ := h
  refine ⟨hlen, ?_, by simpa using hterminal, hproposals, hreports, hcandidates⟩
  exact forall_windows.mp (by simpa using hledger)

theorem proposalsByTrial_ok (h : self.proposalsByTrial = .ok proposals) :
    BTreeMap.IndexOf (·.trialId) self.completedProposals proposals := by
  refine (BTreeMap.indexOf_loop (P := fun proposal => proposal.variant.validate = .ok ()) ?_ h).2
  intro m proposal m' hstep
  simp only [bind_ok, vacant_ok, pure_ok] at hstep
  obtain ⟨_, hvalid, _, hvacant, rfl⟩ := hstep
  refine ⟨hvalid, ?_, rfl⟩
  rw [BTreeMap.mem_iff, hvacant]
  simp

theorem getElem?_terminalByTrial (h : self.Ordered) {id : Int} :
    self.terminalByTrial[id]? = some evidence ↔
      evidence ∈ self.terminalTrials ∧ evidence.trial.id = id := by
  have hnodup : ((self.terminalTrials.map fun e => (e.trial.id, e)).map Prod.fst).Nodup := by
    simpa [Function.comp_def] using h.ledger.nodup
  rw [terminalByTrial, BTreeMap.getElem?_collect (BTreeMap.functional_of_nodup hnodup)]
  simp only [List.mem_map, Prod.mk.injEq]
  constructor
  · rintro ⟨e, he, rfl, rfl⟩
    exact ⟨he, rfl⟩
  · rintro ⟨he, rfl⟩
    exact ⟨evidence, he, rfl, rfl⟩

/-- Of a list in strict order, the listing of trials with their variants is too. -/
theorem ascends_listing {key : α → Int} {f : α → Option VariantId} {l : List α}
    (h : Ascends key l) : Ascends Prod.fst (l.map fun a => (key a, f a)) :=
  List.pairwise_map.mpr h

theorem mem_keys (hindex : BTreeMap.IndexOf (·.trialId) self.completedProposals proposals)
    {id : Int} : id ∈ proposals.keys.toFinset ↔
      ∃ proposal ∈ self.completedProposals, proposal.trialId = id := by
  rw [List.mem_toFinset, Std.ExtTreeMap.mem_keys, hindex.mem, List.mem_map]

theorem validateProposals_ok (horder : self.Ordered)
    (hindex : BTreeMap.IndexOf (·.trialId) self.completedProposals proposals)
    (h : self.validateProposals proposals = .ok u) : self.proposed = self.completedTrials := by
  simp only [validateProposals, bind_ok, refuseIf_ok, not_or, not_not, not_exists, not_and] at h
  obtain ⟨_, -, hids, hvariants⟩ := h
  have hvariant (proposal) (hp : proposal ∈ self.completedProposals) :
      self.terminalByTrial[proposal.trialId]?.bind (·.variantId) =
        some proposal.variant.variantId :=
    hvariants (proposal.trialId, proposal)
      (BTreeMap.mem_toList.mpr ((hindex.get _ _).mpr ⟨hp, rfl⟩))
  refine (ascends_listing horder.proposals).eq_of_mem_iff
    (ascends_listing (horder.ledger.filter _)) ?_
  rintro ⟨id, variant⟩
  simp only [completedTrials, List.mem_map, List.mem_filter, decide_eq_true_eq, Prod.mk.injEq]
  constructor
  · rintro ⟨proposal, hp, rfl, rfl⟩
    have hid : proposal.trialId ∈ self.completedTerminalIds := by
      rw [hids, mem_keys hindex]
      exact ⟨proposal, hp, rfl⟩
    simp only [completedTerminalIds, List.mem_toFinset, List.mem_map, List.mem_filter,
      decide_eq_true_eq] at hid
    obtain ⟨evidence, ⟨he, hstatus⟩, hid⟩ := hid
    have hbound := hvariant proposal hp
    rw [(getElem?_terminalByTrial horder).mpr ⟨he, hid⟩] at hbound
    exact ⟨evidence, ⟨he, hstatus⟩, hid, hbound⟩
  · rintro ⟨evidence, ⟨he, hstatus⟩, rfl, rfl⟩
    have hid : evidence.trial.id ∈ proposals.keys.toFinset := by
      rw [← hids, completedTerminalIds, List.mem_toFinset]
      exact List.mem_map.mpr ⟨evidence, List.mem_filter.mpr ⟨he, by simpa using hstatus⟩, rfl⟩
    obtain ⟨proposal, hp, hid⟩ := (mem_keys hindex).mp hid
    have hbound := hvariant proposal hp
    rw [(getElem?_terminalByTrial horder).mpr ⟨he, hid.symm⟩] at hbound
    exact ⟨proposal, hp, hid, hbound.symm⟩

/-- Records that name known proposals, with their variants, and leave none out
list what the proposals list. -/
theorem listing_eq_proposed {items : List β} {trialOf : β → Int} {variantOf : β → VariantId}
    (hindex : BTreeMap.IndexOf (·.trialId) self.completedProposals proposals)
    (hproposals : Ascends (·.trialId) self.completedProposals) (hitems : Ascends trialOf items)
    (hknown : ∀ item ∈ items, ∃ proposal, proposals[trialOf item]? = some proposal ∧
      proposal.variant.variantId = variantOf item)
    (hcover : (items.map trialOf).toFinset = proposals.keys.toFinset) :
    (items.map fun item => (trialOf item, some (variantOf item))) = self.proposed := by
  refine (ascends_listing hitems).eq_of_mem_iff (ascends_listing hproposals) ?_
  rintro ⟨id, variant⟩
  simp only [proposed, List.mem_map, Prod.mk.injEq]
  constructor
  · rintro ⟨item, hitem, rfl, rfl⟩
    obtain ⟨proposal, hget, hvariant⟩ := hknown item hitem
    obtain ⟨hp, hid⟩ := (hindex.get _ _).mp hget
    exact ⟨proposal, hp, hid, by rw [hvariant]⟩
  · rintro ⟨proposal, hp, rfl, rfl⟩
    have hid : proposal.trialId ∈ (items.map trialOf).toFinset := by
      rw [hcover, mem_keys hindex]
      exact ⟨proposal, hp, rfl⟩
    obtain ⟨item, hitem, hid⟩ := List.mem_map.mp (List.mem_toFinset.mp hid)
    obtain ⟨proposal', hget, hvariant⟩ := hknown item hitem
    rw [hid, (hindex.get _ _).mpr ⟨hp, rfl⟩] at hget
    cases hget
    exact ⟨item, hitem, hid, by rw [hvariant]⟩

theorem validateReports_ok (horder : self.Ordered)
    (hindex : BTreeMap.IndexOf (·.trialId) self.completedProposals proposals)
    (h : self.validateReports checks proposals = .ok u) : self.reported = self.proposed := by
  simp only [validateReports, bind_ok, refuseIf_ok, not_not] at h
  obtain ⟨_, heach, hcover⟩ := h
  refine listing_eq_proposed hindex horder.proposals horder.reports ?_ hcover
  intro report hreport
  have hvalid := (eachUnique_ok heach).1 report hreport
  simp only [validateReport, bind_ok, need_ok, refuseIf_ok, not_or, not_not] at hvalid
  obtain ⟨proposal, hget, _, ⟨-, hvariant, -⟩, -⟩ := hvalid
  exact ⟨proposal, hget, hvariant⟩

theorem validateCandidates_ok (horder : self.Ordered)
    (hindex : BTreeMap.IndexOf (·.trialId) self.completedProposals proposals)
    (h : self.validateCandidates checks proposals = .ok u) : self.evidenced = self.proposed := by
  simp only [validateCandidates, bind_ok, refuseIf_ok, not_not] at h
  obtain ⟨_, heach, hcover⟩ := h
  refine listing_eq_proposed hindex horder.proposals horder.candidates ?_ hcover
  intro candidate hcandidate
  have hvalid := (eachUnique_ok heach).1 candidate hcandidate
  simp only [validateCandidate, bind_ok, need_ok, refuseIf_ok, not_not] at hvalid
  obtain ⟨proposal, hget, _, hvariant, -⟩ := hvalid
  exact ⟨proposal, hget, hvariant⟩

theorem validateIncumbent_ok (h : self.validateIncumbent = .ok u) :
    ∃ report ∈ self.completedReports, report.trialId = self.incumbent.trialId ∧
      report.variantId = self.incumbent.variantId ∧ report.score = self.incumbent.score := by
  simp only [validateIncumbent, bind_ok, need_ok, refuseIf_ok, not_or, not_not] at h
  obtain ⟨report, hfind, hvariant, hscore⟩ := h
  refine ⟨report, List.mem_of_find?_eq_some hfind, by simpa using List.find?_some hfind, hvariant,
    ?_⟩
  exact congrArg Binary64.mk hscore

theorem validate_ok (h : self.validate checks = .ok u) : self.Consistent := by
  simp only [validate, bind_ok] at h
  obtain ⟨_, -, _, horder, _, -, proposals, hproposals, _, hterminal, _, hreports, _, hincumbent,
    hcandidates⟩ := h
  have horder := validateOrder_ok horder
  have hindex := proposalsByTrial_ok hproposals
  have hproposed := validateProposals_ok horder hindex hterminal
  exact {
    toOrdered := horder
    proposed_eq := hproposed
    reported_eq := (validateReports_ok horder hindex hreports).trans hproposed
    evidenced_eq := (validateCandidates_ok horder hindex hcandidates).trans hproposed
    incumbent := validateIncumbent_ok hincumbent }

-- ---------------------------------------------------------------------------
-- What a join keeps
-- ---------------------------------------------------------------------------

/-- The later state holds the earlier ledger as a prefix, and under the trial
of every earlier record that record and no other. -/
structure Grows (earlier later : MethodsHpoResumeState) : Prop where
  ledger : startsWith MethodsHpoTerminalEvidence.eq later.terminalTrials
    earlier.terminalTrials = true
  proposals : ∀ proposal ∈ earlier.completedProposals,
    later.completedProposals.filter (·.trialId = proposal.trialId) = [proposal]
  reports : ∀ report ∈ earlier.completedReports,
    later.completedReports.filter (·.trialId = report.trialId) = [report]
  candidates : ∀ candidate ∈ earlier.candidates,
    later.candidates.filter (·.trialId = candidate.trialId) = [candidate]

theorem mem_of_filter_eq {p : α → Bool} {l : List α} (h : l.filter p = [a]) : a ∈ l :=
  List.mem_of_mem_filter (h ▸ List.mem_singleton_self a)

theorem Grows.trans {first second third : MethodsHpoResumeState} (h : first.Grows second)
    (h' : second.Grows third) : first.Grows third where
  ledger := MethodsHpoTerminalEvidence.carries.startsWith h'.ledger h.ledger
  proposals proposal hp := h'.proposals proposal (mem_of_filter_eq (h.proposals proposal hp))
  reports report hr := h'.reports report (mem_of_filter_eq (h.reports report hr))
  candidates candidate hc := h'.candidates candidate (mem_of_filter_eq (h.candidates candidate hc))

/-- An entry of the second part is the only one under its key once the merge is
in strict order. -/
theorem filter_merge {key : α → Int} {fresh previous : List α}
    (h : Ascends key (Keyed.sortBy key (fresh ++ previous))) (ha : a ∈ previous) :
    (Keyed.sortBy key (fresh ++ previous)).filter (key · = key a) = [a] :=
  h.filter_key (Keyed.mem_sortBy.mpr (List.mem_append_right fresh ha))

theorem join_grows {fresh previous state : MethodsHpoResumeState}
    (h : fresh.join checks previous = .ok state) (hstate : state.Consistent) :
    previous.Grows state := by
  simp only [join, bind_ok, refuseIf_ok, pure_ok, not_or, Bool.not_eq_false] at h
  obtain ⟨_, -, _, -, _, ⟨-, hledger⟩, rfl⟩ := h
  exact {
    ledger := hledger
    proposals := fun _ => filter_merge hstate.proposals
    reports := fun _ => filter_merge hstate.reports
    candidates := fun _ => filter_merge hstate.candidates }

/-- One campaign: the later state joins some fresh evidence to the earlier one. -/
def Resumes (checks : ResumeChecks) (earlier later : MethodsHpoResumeState) : Prop :=
  ∃ checkpoint selection candidates incumbent terminalTrials,
    fromRuntimeCheckpointWithPrevious checks checkpoint selection candidates incumbent
      terminalTrials (some earlier) = .ok later

theorem Resumes.validate {earlier later : MethodsHpoResumeState} (h : Resumes checks earlier later) :
    later.validate checks = .ok () := by
  obtain ⟨checkpoint, selection, candidates, incumbent, terminalTrials, h⟩ := h
  simp only [fromRuntimeCheckpointWithPrevious, bind_ok, pure_ok] at h
  obtain ⟨_, -, state, -, _, hvalid, rfl⟩ := h
  exact hvalid

theorem Resumes.grows {earlier later : MethodsHpoResumeState} (h : Resumes checks earlier later) :
    earlier.Grows later := by
  have hvalid := h.validate
  obtain ⟨checkpoint, selection, candidates, incumbent, terminalTrials, h⟩ := h
  simp only [fromRuntimeCheckpointWithPrevious, bind_ok, pure_ok, joinPrevious] at h
  obtain ⟨fresh, -, state, hjoin, _, -, rfl⟩ := h
  exact join_grows hjoin (validate_ok hvalid)

/-- Along any chain of campaigns the evidence only grows, and every accepted
state is consistent. -/
theorem resumed_grows (checks : ResumeChecks) :
    (∀ state : MethodsHpoResumeState, state.validate checks = .ok () → state.Consistent) ∧
      ∀ earlier later : MethodsHpoResumeState,
        Relation.TransGen (Resumes checks) earlier later →
        later.validate checks = .ok () ∧ earlier.Grows later := by
  refine ⟨fun state h => validate_ok h, fun earlier later h => ?_⟩
  induction h with
  | single hstep => exact ⟨hstep.validate, hstep.grows⟩
  | tail _ hstep ih => exact ⟨hstep.validate, ih.2.trans hstep.grows⟩

-- ---------------------------------------------------------------------------
-- Two campaigns
-- ---------------------------------------------------------------------------

def campaignNode : NodeId := ⟨"model:campaign", by decide⟩
def campaignController : ControllerId := ⟨"controller:campaign", by decide⟩
def campaignSample : SampleId := ⟨"campaign:1", by decide⟩
def averageFold : FoldId := ⟨"avg", valid_avg⟩
def firstVariant : VariantId := ⟨"variant:campaign:first", by decide⟩
def secondVariant : VariantId := ⟨"variant:campaign:second", by decide⟩

def campaignFingerprint : String := String.ofList (List.replicate 64 'a')

def campaignSelection : MethodsHpoResumeSelection := ⟨"select", campaignNode, "oof", "rmse"⟩

/-- The digest of the payload `[0]`, the only one asked for. -/
def campaignChecks : ResumeChecks where
  sha256 _ := #v[0x6e, 0x34, 0x0b, 0x9c, 0xff, 0xb3, 0x7a, 0x98, 0x9c, 0xa5, 0x44, 0xe6, 0xbb, 0x78,
    0x0a, 0x2c, 0x78, 0x90, 0x1d, 0x3f, 0xb3, 0x37, 0x38, 0x76, 0x85, 0x11, 0xa3, 0x06, 0x17, 0xaf,
    0xa0, 0x1d]
  readState _ := .ok ""
  lineage _ := .ok ()

def campaignVariant (variantId : VariantId) : VariantPlan := ⟨variantId, ∅, "kept", none⟩

def campaignTrial (id : Int) (status : HpoTrialStatus) (score : Option Binary64) : HpoTrial where
  id
  askSequence := id
  terminalSequence := some id
  parameters := ∅
  parameterOrder := []
  status
  score
  rung := 0
  duration := .zero
  intermediates := []
  failure := none

def campaignReport (variantId : VariantId) (score : Binary64) : RegressionMetricReport where
  predictionId := none
  producerNode := campaignNode
  producerPort := some "oof"
  variantId := some variantId
  partition := .validation
  foldId := some averageFold
  level := .sample
  rowCount := 1
  targetWidth := 1
  targetNames := []
  metrics := .collect [("rmse", score)]

def campaignCandidate (id : Int) (variantId : VariantId) (score : Binary64) :
    RuntimeHpoCandidateEvaluation :=
  let truth : RegressionTargetBlock := ⟨.sample, [.sample campaignSample], [[.zero]], none, []⟩
  { proposal := ⟨id, campaignVariant variantId⟩
    score
    validationPredictions := {
      variantLabel := none
      predictions := [
        ⟨none, campaignNode, some "oof", .validation, none, [campaignSample], [[score]], []⟩]
      regressionTargets := [truth]
      oofAverage := some {
        predictions := ⟨none, campaignNode, some "oof", .validation, some averageFold, .sample,
          [.sample campaignSample], [[score]], []⟩
        yTrue := truth } }
    lineage := [{
      recordId := ⟨"lineage:campaign", by decide⟩
      runId := ⟨"run:campaign", by decide⟩
      nodeId := campaignNode
      phase := .fitCv
      controllerId := campaignController
      controllerVersion := "1"
      variantId := some variantId
      foldId := none
      inputLineage := []
      paramsFingerprint := "params" }] }

/-- One campaign completes trial `id`; `ledger` is the native history after it. -/
def campaign (id : Int) (variantId : VariantId) (score : Binary64)
    (ledger : List RuntimeHpoTerminalSnapshot) (previous : Option MethodsHpoResumeState) :
    Result MethodsHpoResumeState :=
  fromRuntimeCheckpointWithPrevious campaignChecks
    { artifact := {
        schemaVersion := 1
        artifactKind := "n4m_optimizer_checkpoint"
        format := "N4MOPT"
        abiMajor := 2
        abiMinMinor := 2
        binding := ⟨"controller:campaign", "study", campaignFingerprint, campaignFingerprint⟩
        methodsAbi := "2.2"
        opaquePayload := [0]
        payloadSha256 := "6e340b9cffb37a989ca544e6bb780a2c78901d3fb33738768511a30617afa01d" }
      provenance := {
        graphFingerprint := campaignFingerprint
        campaignFingerprint := campaignFingerprint
        controllerFingerprint := campaignFingerprint
        dataIdentitiesFingerprint := campaignFingerprint
        foldSetFingerprint := some campaignFingerprint
        trainingInfluenceFingerprint := campaignFingerprint
        relationFingerprint := campaignFingerprint }
      operationId := "search"
      controllerId := campaignController
      targetNodeId := campaignNode
      completedProposals := [⟨id, campaignVariant variantId⟩]
      completedReports := [⟨id, variantId, campaignReport variantId score⟩]
      trialHistoryLen := ledger.length }
    campaignSelection [campaignCandidate id variantId score]
    ⟨id, score, "rmse", .minimize, variantId⟩ ledger previous

def firstLedger : List RuntimeHpoTerminalSnapshot :=
  [⟨campaignTrial 0 .completed (some (.ofNat 1)), some firstVariant⟩]

def firstCampaign : Result MethodsHpoResumeState :=
  campaign 0 firstVariant (.ofNat 1) firstLedger none

/-- A pruned trial, then a completed one with a larger error. -/
def secondCampaign (first : MethodsHpoResumeState) : Result MethodsHpoResumeState :=
  campaign 2 secondVariant (.ofNat 2) (firstLedger ++ [
    ⟨campaignTrial 1 .pruned none, none⟩,
    ⟨campaignTrial 2 .completed (some (.ofNat 2)), some secondVariant⟩]) (some first)

/-- The incumbent minimizes and some completed report has a smaller score. -/
def outdone (state : MethodsHpoResumeState) : Bool :=
  state.incumbent.direction = .minimize &&
    state.completedReports.any fun report => report.score.lt state.incumbent.score

theorem second_campaign_outdone :
    ∃ first second, Resumes campaignChecks first second ∧ outdone second = true := by
  have hrun : (firstCampaign >>= secondCampaign).toOption.any outdone = true := by
    decide +kernel
  obtain ⟨second, hboth, houtdone⟩ := toOption_any.mp hrun
  obtain ⟨first, -, hsecond⟩ := bind_ok.mp hboth
  exact ⟨first, second, ⟨_, _, _, _, _, hsecond⟩, houtdone⟩

theorem resumed_grows_second : ∃ first second : MethodsHpoResumeState,
    Relation.TransGen (Resumes campaignChecks) first second ∧ first.Grows second ∧
      second.Consistent := by
  obtain ⟨first, second, hresumes, -⟩ := second_campaign_outdone
  obtain ⟨hconsistent, hchain⟩ := resumed_grows campaignChecks
  obtain ⟨hvalid, hgrows⟩ := hchain first second (.single hresumes)
  exact ⟨first, second, .single hresumes, hgrows, hconsistent second hvalid⟩

/-- An accepted incumbent need not be the best of the merged history. -/
theorem incumbent_outdone : ¬∀ (checks : ResumeChecks) (earlier later : MethodsHpoResumeState),
    Relation.TransGen (Resumes checks) earlier later →
    ∀ report ∈ later.completedReports, later.incumbent.direction = .minimize →
      report.score.lt later.incumbent.score = false := by
  intro h
  obtain ⟨first, second, hresumes, houtdone⟩ := second_campaign_outdone
  simp only [outdone, Bool.and_eq_true, decide_eq_true_eq, List.any_eq_true] at houtdone
  obtain ⟨hdirection, report, hreport, hlt⟩ := houtdone
  have hbest := h campaignChecks first second (.single hresumes) report hreport hdirection
  rw [hlt] at hbest
  cases hbest

end MethodsHpoResumeState

end DagMl
