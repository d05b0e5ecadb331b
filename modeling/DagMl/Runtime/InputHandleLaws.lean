import DagMl.Runtime.InputHandles

/-!
# No input is lost

Everything `collectInputHandles` enters comes from one of seven kinds of
sources. All but two kinds refuse a key that is taken; the handles of a node
that runs are complete when the other two never share one.
-/

namespace DagMl

open Checked Entries

-- ---------------------------------------------------------------------------
-- Sources
-- ---------------------------------------------------------------------------

inductive InputSource
  | forwarded (port : PortRef)
  | dataEdge (edge : EdgeSpec)
  | oof (edge : EdgeSpec)
  | heldOut (suffix : String) (edge : EdgeSpec)
  | view (binding : DataBinding)
  | testView (binding : DataBinding)
  | validationView (binding : DataBinding)

namespace InputSource

def key : InputSource → String
  | forwarded port => port.key
  | dataEdge edge => dataViewKey edge.target.portName
  | oof edge => edge.baseKey
  | heldOut suffix edge => s!"{edge.baseKey}{suffix}"
  | view binding => dataViewKey binding.inputName
  | testView binding => s!"{dataViewKey binding.inputName}:test"
  | validationView binding => s!"{dataViewKey binding.inputName}:validation"

/-- The source refuses a key that is taken. -/
def Guarded : InputSource → Prop
  | forwarded _ | testView _ => False
  | _ => True

/-- The upstream port whose own handle the source passes on. -/
def rawPort : InputSource → Option PortRef
  | forwarded port => some port
  | dataEdge edge => some edge.source
  | _ => none

end InputSource

abbrev Offer := InputSource × HandleRef

def collectedHandle (result : Result (Option CollectedPredictionInput)) : Option HandleRef :=
  (result.toOption.bind id).map (·.handle)

section

variable {View : Type} (plan : ExecutionPlan) (nodePlan : NodePlan)
  (outputHandles : BTreeMap NodeId (BTreeMap String HandleRef)) (phase : Phase)
  (collectors : InputCollectors View)

def trainingEdges : List EdgeSpec :=
  if phase = .fitCv ∨ phase = .refit then oofEdgesInto plan nodePlan else []

def maskedEdges : List EdgeSpec :=
  if phase = .predict then oofEdgesInto plan nodePlan else trainingEdges plan nodePlan phase

def forwardedOffers : List Offer :=
  (forwardedHandles plan nodePlan outputHandles (maskedEdges plan nodePlan phase)).map
    fun entry => (.forwarded entry.1, entry.2)

def dataOffers (edge : EdgeSpec) : List Offer :=
  ((dataEdgeHandle nodePlan outputHandles edge).map fun handle => (.dataEdge edge, handle)).toList

def oofOffers (edge : EdgeSpec) : List Offer :=
  ((collectedHandle (collectors.oof edge)).map fun handle => (.oof edge, handle)).toList

def heldOutOffers (suffix : String) (edge : EdgeSpec) : List Offer :=
  ((collectedHandle (collectors.offFold edge)).map fun handle =>
    (.heldOut suffix edge, handle)).toList

def viewOffers (binding : DataBinding) : List Offer :=
  match collectors.bindViews binding with
  | .error _ => []
  | .ok views =>
    (.view binding, views.primary.2) ::
      ((views.test.map fun entry => (.testView binding, entry.2)).toList ++
        (views.validation.map fun entry => (.validationView binding, entry.2)).toList)

/-- The suffix under which a phase collects held-out inputs. -/
def heldOutSuffix : Option String :=
  if cvTestCapture plan nodePlan phase then some ":test" else offFoldSuffix phase

/-- What follows the forwarded handles. -/
def laterOffers : List Offer :=
  (dataEdges plan nodePlan).flatMap (dataOffers nodePlan outputHandles) ++
    (trainingEdges plan nodePlan phase).flatMap (oofOffers collectors) ++
    (heldOutSuffix plan nodePlan phase).toList.flatMap (fun suffix =>
      (oofEdgesInto plan nodePlan).flatMap (heldOutOffers collectors suffix)) ++
    (if collectors.hasProvider then nodePlan.dataBindings.flatMap (viewOffers collectors) else [])

/-- All that a collection enters, in order. -/
def offers : List Offer :=
  forwardedOffers plan nodePlan outputHandles phase ++
    laterOffers plan nodePlan outputHandles phase collectors

end

-- ---------------------------------------------------------------------------
-- What a collection records
-- ---------------------------------------------------------------------------

/-- The handles entered so far. -/
abbrev Entered {View : Type} (offers : List Offer) (inputs : CollectedInputs View) : Prop :=
  Entries.Recorded InputSource.key InputSource.Guarded offers inputs.handles

section

variable {View : Type} {plan : ExecutionPlan} {nodePlan : NodePlan}
  {outputHandles : BTreeMap NodeId (BTreeMap String HandleRef)}
  {outputDataViews : BTreeMap NodeId (BTreeMap String View)} {phase : Phase}
  {collectors : InputCollectors View} {inputs inputs' : CollectedInputs View}
  {done : List Offer}

theorem entered_loop {α : Type} {offersOf : α → List Offer} {l : List α}
    {f : CollectedInputs View → α → Result (CollectedInputs View)}
    (hdone : Entered done inputs) (h : loop f inputs l = .ok inputs')
    (hstep : ∀ {done inputs x inputs'}, Entered done inputs → f inputs x = .ok inputs' →
      Entered (done ++ offersOf x) inputs') :
    Entered (done ++ l.flatMap offersOf) inputs' := by
  refine loop_invariant (fun l inputs => Entered (done ++ l.flatMap offersOf) inputs)
    (by simpa using hdone) (fun l inputs x inputs' hl hx => ?_) h
  simpa [List.flatMap_append] using hstep hl hx

theorem entered_dataEdge (hdone : Entered done inputs)
    (h : addDataEdge nodePlan outputHandles outputDataViews inputs edge = .ok inputs') :
    Entered (done ++ dataOffers nodePlan outputHandles edge) inputs' := by
  unfold addDataEdge at h
  unfold dataOffers
  split at h
  · rename_i hnone
    cases h
    simpa [hnone] using hdone
  · rename_i handle hsome
    simp only [bind_ok, pure_ok] at h
    obtain ⟨handles, henter, _, -, rfl⟩ := h
    rw [hsome]
    change enter _ (InputSource.key (.dataEdge edge)) _ _ = _ at henter
    exact hdone.enter henter

theorem entered_prediction (hdone : Entered done inputs) (hkey : key = source.key)
    (h : addPredictionInput key input takenHandle takenSpec inputs = .ok inputs') :
    Entered (done ++ [(source, input.handle)]) inputs' := by
  subst hkey
  simp only [addPredictionInput, bind_ok, pure_ok] at h
  obtain ⟨handles, henter, _, -, rfl⟩ := h
  exact hdone.enter henter

theorem entered_training {edges : List EdgeSpec} (hdone : Entered done inputs)
    (h : addTrainingInputs nodePlan collectors edges inputs = .ok (some inputs')) :
    Entered (done ++ edges.flatMap (oofOffers collectors)) inputs' := by
  induction edges generalizing done inputs with
  | nil =>
    cases h
    simpa using hdone
  | cons edge edges ih =>
    simp only [addTrainingInputs, bind_ok] at h
    obtain ⟨_ | input, hinput, h⟩ := h
    · cases h
    · simp only [bind_ok] at h
      obtain ⟨next, hnext, h⟩ := h
      have hoffer : oofOffers collectors edge = [(.oof edge, input.handle)] := by
        simp [oofOffers, collectedHandle, hinput, Except.toOption]
      rw [List.flatMap_cons, hoffer, ← List.append_assoc]
      have hkey : edge.baseKey = (InputSource.oof edge).key := rfl
      exact ih (entered_prediction hdone hkey hnext) h

theorem entered_heldOut (hdone : Entered done inputs)
    (h : addHeldOutInput collectors suffix takenHandle takenSpec inputs edge = .ok inputs') :
    Entered (done ++ heldOutOffers collectors suffix edge) inputs' := by
  simp only [addHeldOutInput, bind_ok] at h
  obtain ⟨_ | input, hinput, h⟩ := h
  · cases h
    simpa [heldOutOffers, collectedHandle, hinput, Except.toOption] using hdone
  · have hoffer : heldOutOffers collectors suffix edge = [(.heldOut suffix edge, input.handle)] := by
      simp [heldOutOffers, collectedHandle, hinput, Except.toOption]
    have hkey : s!"{edge.baseKey}{suffix}" = (InputSource.heldOut suffix edge).key := rfl
    rw [hoffer]
    exact entered_prediction hdone hkey h

theorem entered_view (hdone : Entered done inputs) (hkey : key = source.key)
    (h : addView key entry takenView takenInput inputs = .ok inputs') :
    Entered (done ++ [(source, entry.2)]) inputs' := by
  subst hkey
  simp only [addView, bind_ok, pure_ok] at h
  obtain ⟨_, -, handles, henter, rfl⟩ := h
  exact hdone.enter henter

theorem entered_binding (hdone : Entered done inputs)
    (h : addBinding nodePlan collectors inputs binding = .ok inputs') :
    Entered (done ++ viewOffers collectors binding) inputs' := by
  simp only [addBinding, bind_ok] at h
  obtain ⟨views, hviews, next, hnext, h⟩ := h
  have hkey : dataViewKey binding.inputName = (InputSource.view binding).key := rfl
  have hprimary := entered_view hdone hkey hnext
  have htest : Entered (done ++ [(.view binding, views.primary.2)] ++
      (views.test.map fun entry => (InputSource.testView binding, entry.2)).toList)
      (placeTestView s!"{dataViewKey binding.inputName}:test" views.test next) := by
    cases views.test with
    | none => simpa [placeTestView] using hprimary
    | some entry =>
      have hfree : ¬(InputSource.testView binding).Guarded := id
      exact hprimary.replace hfree
  rw [viewOffers, hviews]
  dsimp only
  rw [List.append_cons, ← List.append_assoc]
  unfold addValidationView at h
  split at h
  · rename_i hnone
    cases h
    simpa [hnone] using htest
  · rename_i entry hsome
    have hkey : s!"{dataViewKey binding.inputName}:validation" =
        (InputSource.validationView binding).key := rfl
    rw [hsome]
    exact entered_view htest hkey h

theorem incomingTrainingOofEdges_ok (h : incomingTrainingOofEdges plan nodePlan phase = .ok edges) :
    edges = trainingEdges plan nodePlan phase := by
  unfold incomingTrainingOofEdges at h
  unfold trainingEdges
  split at h
  · rename_i hphase
    rw [if_pos hphase]
    exact (incomingOofEdges_ok.mp h).2
  · rename_i hphase
    cases h
    rw [if_neg hphase]

theorem maskedOofEdges_ok
    (h : maskedOofEdges plan nodePlan phase (trainingEdges plan nodePlan phase) = .ok edges) :
    edges = maskedEdges plan nodePlan phase := by
  unfold maskedOofEdges at h
  unfold maskedEdges
  split at h
  · rename_i hphase
    rw [if_pos hphase]
    exact (incomingOofEdges_ok.mp h).2
  · rename_i hphase
    cases h
    rw [if_neg hphase]

theorem entered_forwarded {masked : List EdgeSpec} :
    Entered ((forwardedHandles plan nodePlan outputHandles masked).map
      fun entry => (.forwarded entry.1, entry.2))
      (forwardedInputs plan nodePlan outputHandles masked : CollectedInputs View) := by
  have hnil : Entries.Recorded InputSource.key InputSource.Guarded ([] : List Offer) ∅ := .nil
  let more : List Offer := (forwardedHandles plan nodePlan outputHandles masked).map
    fun entry => (.forwarded entry.1, entry.2)
  have hplain : ∀ o ∈ more, ¬InputSource.Guarded o.1 := by
    intro o ho hguard
    obtain ⟨entry, -, rfl⟩ := List.mem_map.mp ho
    exact hguard
  have hentered := hnil.replaceAll hplain
  rw [List.foldl_map, List.nil_append] at hentered
  exact hentered

theorem entered_heldOuts
    (hfold : addFoldTestInputs plan nodePlan phase collectors inputs = .ok next)
    (hoff : addOffFoldInputs plan nodePlan phase collectors next = .ok inputs')
    (hdone : Entered done inputs) :
    Entered (done ++ (heldOutSuffix plan nodePlan phase).toList.flatMap (fun suffix =>
      (oofEdgesInto plan nodePlan).flatMap (heldOutOffers collectors suffix))) inputs' := by
  unfold addFoldTestInputs at hfold
  unfold heldOutSuffix
  split at hfold
  · rename_i hcapture
    have hphase : phase = .fitCv := by
      simp only [cvTestCapture, Bool.and_eq_true, decide_eq_true_eq] at hcapture
      exact hcapture.1
    simp only [bind_ok, incomingOofEdges_ok] at hfold
    obtain ⟨_, ⟨-, rfl⟩, hfold⟩ := hfold
    subst hphase
    cases hoff
    rw [if_pos hcapture]
    simpa using entered_loop hdone hfold fun h => entered_heldOut h
  · rename_i hcapture
    cases hfold
    rw [if_neg hcapture]
    unfold addOffFoldInputs at hoff
    split at hoff
    · rename_i hnone
      cases hoff
      simpa [hnone] using hdone
    · rename_i suffix hsome
      simp only [bind_ok, incomingOofEdges_ok] at hoff
      obtain ⟨_, ⟨-, rfl⟩, hoff⟩ := hoff
      rw [hsome]
      simpa using entered_loop hdone hoff fun h => entered_heldOut h

theorem entered_bindings (hdone : Entered done inputs)
    (h : addBindings nodePlan collectors inputs = .ok inputs') :
    Entered (done ++ if collectors.hasProvider then
      nodePlan.dataBindings.flatMap (viewOffers collectors) else []) inputs' := by
  simp only [addBindings, bind_ok] at h
  obtain ⟨_, -, h⟩ := h
  split at h
  · rename_i hprovider
    obtain ⟨_, -, h⟩ := bind_ok.mp h
    rw [if_pos hprovider]
    exact entered_loop hdone h fun h => entered_binding h
  · rename_i hprovider
    cases h
    rw [if_neg hprovider]
    simpa using hdone

/-- A node that is not skipped receives everything that was offered. -/
theorem collectInputHandles_entered {out : CollectedInputs View}
    (h : collectInputHandles plan nodePlan outputHandles outputDataViews phase collectors = .ok out)
    (hrun : out.skipNode = false) :
    Entered (offers plan nodePlan outputHandles phase collectors) out := by
  simp only [collectInputHandles, bind_ok] at h
  obtain ⟨_, htraining, masked, hmasked, inputs, hdata, training, hadd, h⟩ := h
  obtain rfl := incomingTrainingOofEdges_ok htraining
  obtain rfl := maskedOofEdges_ok hmasked
  cases training with
  | none =>
    cases h
    cases hrun
  | some training =>
    simp only [bind_ok] at h
    obtain ⟨tests, htests, held, hheld, h⟩ := h
    have hdata := entered_loop entered_forwarded hdata fun h => entered_dataEdge h
    have hheld := entered_heldOuts htests hheld (entered_training hdata hadd)
    have hall := entered_bindings hheld h
    simpa only [offers, laterOffers, forwardedOffers, List.append_assoc] using hall

end

end DagMl
