import DagMl.Runtime.InputHandleLaws

/-!
# When no input is lost

Forwarded handles and the test companions of data bindings replace what stands
under their key. `collectInputHandles_keeps_iff` says in terms of the names
when that loses an input.
-/

namespace DagMl

open Checked Entries

-- ---------------------------------------------------------------------------
-- Keys as texts
-- ---------------------------------------------------------------------------

/-- The id of one node runs on into the port name of the other port. -/
def PortRef.RunsInto (a b : PortRef) : Prop :=
  ∃ middle : String, b.nodeId.value = s!"{a.nodeId}.{middle}" ∧ a.portName = s!"{middle}.{b.portName}"

theorem runsInto_iff {a b : PortRef} : a.RunsInto b ↔ ∃ middle : List Char,
    b.nodeId.value.toList = a.nodeId.value.toList ++ '.' :: middle ∧
      a.portName.toList = middle ++ '.' :: b.portName.toList := by
  constructor
  · rintro ⟨middle, hnode, hport⟩
    exact ⟨middle.toList, by simp [hnode, toString], by simp [hport, toString]⟩
  · rintro ⟨middle, hnode, hport⟩
    refine ⟨String.ofList middle, ?_, ?_⟩
    · simp [← String.toList_inj, hnode, toString]
    · simp [← String.toList_inj, hport, toString]

theorem PortRef.key_eq_iff {a b : PortRef} : a.key = b.key ↔ a = b ∨ a.RunsInto b ∨ b.RunsInto a := by
  have hparts : a = b ↔ a.nodeId.value.toList = b.nodeId.value.toList ∧
      a.portName.toList = b.portName.toList := by
    cases a
    cases b
    simp [String.toList_inj, Id.value_injective.eq_iff]
  rw [runsInto_iff, runsInto_iff, hparts, ← joined_eq_iff]
  simp [key, toString, ← String.toList_inj]

theorem PortRef.not_runsInto_self {a : PortRef} : ¬a.RunsInto a := by
  rw [runsInto_iff]
  rintro ⟨middle, hnode, -⟩
  have hlength := congrArg List.length hnode
  simp at hlength

theorem dataViewKey_eq_test : dataViewKey text = s!"{dataViewKey name}:test" ↔
    text = s!"{name}:test" := by
  simp [dataViewKey, toString, ← String.toList_inj]

theorem heldOut_eq_test {base text : String} (suffix : String) (h : suffix = ":test") :
    s!"{base}{suffix}" = s!"{text}:test" ↔ base = text := by
  simp [h, toString, ← String.toList_inj]

/-- No other suffix ends a key like the test companion's. -/
theorem suffix_ne_test {base text suffix : String}
    (h : suffix = ":refit" ∨ suffix = ":predict" ∨ suffix = ":validation") :
    s!"{base}{suffix}" ≠ s!"{text}:test" := by
  intro heq
  simp only [toString, ← String.toList_inj, String.toList_append] at heq
  have hback := congrArg List.reverse heq
  rcases h with rfl | rfl | rfl
  · simp at hback
  · simp at hback
  · simp at hback

-- ---------------------------------------------------------------------------
-- The members of the offers
-- ---------------------------------------------------------------------------

section

variable {View : Type} {plan : ExecutionPlan} {nodePlan : NodePlan}
  {outputHandles : BTreeMap NodeId (BTreeMap String HandleRef)}
  {outputDataViews : BTreeMap NodeId (BTreeMap String View)} {phase : Phase}
  {collectors : InputCollectors View} {masked : List EdgeSpec}

theorem mem_forwardedHandles :
    (port, handle) ∈ forwardedHandles plan nodePlan outputHandles masked ↔
      port.nodeId ∈ nodePlan.inputNodes ∧ outputHandle outputHandles port = some handle ∧
      port ∈ (edgesInto plan nodePlan).map (·.source) ∧ port ∉ masked.map (·.source) := by
  have hentry (upstream : NodeId) (name : String) (handle : HandleRef) :
      (name, handle) ∈ (outputHandles.getD upstream ∅).toList ↔
        outputHandle outputHandles ⟨upstream, name⟩ = some handle := by
    rw [BTreeMap.mem_toList, Std.ExtTreeMap.getD_eq_getD_getElem?, outputHandle]
    cases outputHandles[upstream]? <;> simp
  simp only [forwardedHandles, List.mem_flatMap, List.mem_filterMap, Prod.exists, hentry]
  constructor
  · rintro ⟨upstream, hupstream, name, other, hother, h⟩
    split at h
    · rename_i hport
      cases h
      exact ⟨hupstream, hother, hport⟩
    · cases h
  · rintro ⟨hupstream, hhandle, hport⟩
    exact ⟨port.nodeId, hupstream, port.portName, handle, hhandle, if_pos hport⟩

/-- The handle of a source, wherever it is offered. -/
def sourceHandle (nodePlan : NodePlan)
    (outputHandles : BTreeMap NodeId (BTreeMap String HandleRef)) (collectors : InputCollectors View) :
    InputSource → Option HandleRef
  | .forwarded port => outputHandle outputHandles port
  | .dataEdge edge => dataEdgeHandle nodePlan outputHandles edge
  | .oof edge => collectedHandle (collectors.oof edge)
  | .heldOut _ edge => collectedHandle (collectors.offFold edge)
  | .view binding => (collectors.bindViews binding).toOption.map (·.primary.2)
  | .testView binding => (collectors.bindViews binding).toOption.bind (·.test.map Prod.snd)
  | .validationView binding =>
    (collectors.bindViews binding).toOption.bind (·.validation.map Prod.snd)

variable (plan nodePlan outputHandles phase collectors) in
/-- Where an offer that is not forwarded comes from. -/
inductive LaterOffer : InputSource → HandleRef → Prop
  | dataEdge {edge : EdgeSpec} {handle : HandleRef} (hedge : edge ∈ dataEdges plan nodePlan)
      (hhandle : dataEdgeHandle nodePlan outputHandles edge = some handle) :
    LaterOffer (.dataEdge edge) handle
  | oof {edge : EdgeSpec} {handle : HandleRef} (hedge : edge ∈ trainingEdges plan nodePlan phase)
      (hhandle : collectedHandle (collectors.oof edge) = some handle) :
    LaterOffer (.oof edge) handle
  | heldOut {suffix : String} {edge : EdgeSpec} {handle : HandleRef}
      (hsuffix : heldOutSuffix plan nodePlan phase = some suffix)
      (hhandle : collectedHandle (collectors.offFold edge) = some handle) :
    LaterOffer (.heldOut suffix edge) handle
  | view {binding : DataBinding} {views} (hprovider : collectors.hasProvider = true)
      (hbinding : binding ∈ nodePlan.dataBindings) (hviews : collectors.bindViews binding = .ok views) :
    LaterOffer (.view binding) views.primary.2
  | testView {binding : DataBinding} {views entry} (hprovider : collectors.hasProvider = true)
      (hbinding : binding ∈ nodePlan.dataBindings) (hviews : collectors.bindViews binding = .ok views)
      (htest : views.test = some entry) :
    LaterOffer (.testView binding) entry.2
  | validationView {binding : DataBinding} {views entry}
      (hviews : collectors.bindViews binding = .ok views) (hentry : views.validation = some entry) :
    LaterOffer (.validationView binding) entry.2

theorem mem_laterOffers
    (h : (source, handle) ∈ laterOffers plan nodePlan outputHandles phase collectors) :
    LaterOffer plan nodePlan outputHandles phase collectors source handle := by
  simp only [laterOffers, List.mem_append, or_assoc] at h
  rcases h with h | h | h | h
  · obtain ⟨edge, hedge, h⟩ := List.mem_flatMap.mp h
    simp only [dataOffers, Option.mem_toList, Option.map_eq_some_iff, Prod.mk.injEq] at h
    obtain ⟨_, hhandle, rfl, rfl⟩ := h
    exact .dataEdge hedge hhandle
  · obtain ⟨edge, hedge, h⟩ := List.mem_flatMap.mp h
    simp only [oofOffers, Option.mem_toList, Option.map_eq_some_iff, Prod.mk.injEq] at h
    obtain ⟨_, hhandle, rfl, rfl⟩ := h
    exact .oof hedge hhandle
  · obtain ⟨suffix, hsuffix, h⟩ := List.mem_flatMap.mp h
    obtain ⟨edge, hedge, h⟩ := List.mem_flatMap.mp h
    simp only [heldOutOffers, Option.mem_toList, Option.map_eq_some_iff, Prod.mk.injEq] at h
    obtain ⟨_, hhandle, rfl, rfl⟩ := h
    exact .heldOut (Option.mem_toList.mp hsuffix) hhandle
  · split at h
    · rename_i hprovider
      obtain ⟨binding, hbinding, h⟩ := List.mem_flatMap.mp h
      unfold viewOffers at h
      split at h
      · cases h
      · rename_i views hviews
        simp only [List.mem_cons, List.mem_append, Option.mem_toList, Option.map_eq_some_iff,
          Prod.mk.injEq] at h
        rcases h with ⟨rfl, rfl⟩ | ⟨entry, hentry, rfl, rfl⟩ | ⟨entry, hentry, rfl, rfl⟩
        · exact .view hprovider hbinding hviews
        · exact .testView hprovider hbinding hviews hentry
        · exact .validationView hviews hentry
    · cases h

theorem mem_forwardedOffers :
    (source, handle) ∈ forwardedOffers plan nodePlan outputHandles phase ↔ ∃ port,
      source = .forwarded port ∧
      (port, handle) ∈ forwardedHandles plan nodePlan outputHandles
        (maskedEdges plan nodePlan phase) := by
  simp only [forwardedOffers, List.mem_map, Prod.exists, Prod.mk.injEq]
  constructor
  · rintro ⟨port, _, hport, rfl, rfl⟩
    exact ⟨port, rfl, hport⟩
  · rintro ⟨port, rfl, hport⟩
    exact ⟨port, handle, hport, rfl, rfl⟩

theorem sourceHandle_of_mem (h : (source, handle) ∈ offers plan nodePlan outputHandles phase collectors) :
    sourceHandle nodePlan outputHandles collectors source = some handle := by
  rcases List.mem_append.mp h with h | h
  · obtain ⟨port, rfl, hport⟩ := mem_forwardedOffers.mp h
    exact (mem_forwardedHandles.mp hport).2.1
  · cases mem_laterOffers h with
    | dataEdge _ hhandle => exact hhandle
    | oof _ hhandle => exact hhandle
    | heldOut _ hhandle => exact hhandle
    | view _ _ hviews => simp [sourceHandle, hviews, Except.toOption]
    | testView _ _ hviews htest => simp [sourceHandle, hviews, Except.toOption, htest]
    | validationView hviews hentry => simp [sourceHandle, hviews, Except.toOption, hentry]

theorem heldOutSuffix_some (h : heldOutSuffix plan nodePlan phase = some suffix) :
    suffix = ":test" ∨ suffix = ":refit" ∨ suffix = ":predict" := by
  unfold heldOutSuffix at h
  split at h
  · exact .inl (Option.some.inj h).symm
  · unfold offFoldSuffix at h
    split at h
    · exact .inr (.inl (Option.some.inj h).symm)
    · exact .inr (.inr (Option.some.inj h).symm)
    · cases h

/-- A test companion is offered beside the primary view of its binding. -/
theorem view_of_testView
    (h : (.testView binding, handle) ∈ offers plan nodePlan outputHandles phase collectors) :
    ∃ primary, (.view binding, primary) ∈ offers plan nodePlan outputHandles phase collectors := by
  rcases List.mem_append.mp h with h | h
  · obtain ⟨port, hport, -⟩ := mem_forwardedOffers.mp h
    cases hport
  · cases mem_laterOffers h with
    | @testView _ views _ hprovider hbinding hviews _ =>
      refine ⟨views.primary.2, ?_⟩
      rw [offers, laterOffers, if_pos hprovider]
      refine List.mem_append_right _ (List.mem_append_right _
        (List.mem_flatMap.mpr ⟨binding, hbinding, ?_⟩))
      rw [viewOffers, hviews]
      exact List.mem_cons_self

-- ---------------------------------------------------------------------------
-- The condition
-- ---------------------------------------------------------------------------

/-- A source whose key reads as the test companion of a binding. -/
def Shadowed (name : String) : InputSource → Prop
  | .forwarded port => port.key = s!"{dataViewKey name}:test"
  | .dataEdge edge => edge.target.portName = s!"{name}:test"
  | .oof edge => edge.baseKey = s!"{dataViewKey name}:test"
  | .heldOut suffix edge => suffix = ":test" ∧ edge.baseKey = dataViewKey name
  | .view binding => binding.inputName = s!"{name}:test"
  | .testView _ | .validationView _ => False

variable (plan nodePlan outputHandles phase collectors) in
/-- The names under which nothing is replaced. -/
structure KeysApart : Prop where
  ports : ∀ a b handle handle',
    (.forwarded a, handle) ∈ offers plan nodePlan outputHandles phase collectors →
    (.forwarded b, handle') ∈ offers plan nodePlan outputHandles phase collectors → ¬a.RunsInto b
  testViews : ∀ binding handle,
    (.testView binding, handle) ∈ offers plan nodePlan outputHandles phase collectors →
    ∀ offer ∈ offers plan nodePlan outputHandles phase collectors,
      ¬Shadowed binding.inputName offer.1

variable (plan nodePlan outputHandles phase collectors) in
/-- No two sources are entered under one key. -/
def KeysDistinct : Prop :=
  ∀ o ∈ offers plan nodePlan outputHandles phase collectors,
    ∀ o' ∈ offers plan nodePlan outputHandles phase collectors, o.1.key = o'.1.key → o.1 = o'.1

theorem Shadowed.key_eq {source : InputSource} (h : Shadowed binding.inputName source) :
    source.key = (InputSource.testView binding).key := by
  cases source with
  | forwarded port => exact h
  | dataEdge edge => exact dataViewKey_eq_test.mpr h
  | oof edge => exact h
  | heldOut suffix edge =>
    obtain ⟨rfl, h⟩ := h
    exact (heldOut_eq_test _ rfl).mpr h
  | view other => exact dataViewKey_eq_test.mpr h
  | testView other => exact h.elim
  | validationView other => exact h.elim

theorem KeysDistinct.keysApart
    (h : KeysDistinct plan nodePlan outputHandles phase collectors) :
    KeysApart plan nodePlan outputHandles phase collectors where
  ports a b handle handle' ha hb hruns := by
    have hkey := PortRef.key_eq_iff.mpr (.inr (.inl hruns))
    cases h _ ha _ hb hkey
    exact PortRef.not_runsInto_self hruns
  testViews binding handle htest offer hoffer hshadowed := by
    have hsame := h _ hoffer _ htest hshadowed.key_eq
    rw [hsame] at hshadowed
    exact hshadowed

/-- A source under the key of a test companion is shadowed, or the companion of
a binding of the same name. -/
theorem shadowed_of_key_eq {source : InputSource}
    (hmem : (source, handle) ∈ offers plan nodePlan outputHandles phase collectors)
    (hkey : (InputSource.testView binding).key = source.key) :
    Shadowed binding.inputName source ∨
      ∃ other, source = .testView other ∧ other.inputName = binding.inputName := by
  cases source with
  | forwarded port => exact .inl hkey.symm
  | dataEdge edge => exact .inl (dataViewKey_eq_test.mp hkey.symm)
  | oof edge => exact .inl hkey.symm
  | heldOut suffix edge =>
    have hsuffix : suffix = ":test" ∨ suffix = ":refit" ∨ suffix = ":predict" := by
      rcases List.mem_append.mp hmem with hmem | hmem
      · obtain ⟨port, hport, -⟩ := mem_forwardedOffers.mp hmem
        cases hport
      · cases mem_laterOffers hmem with
        | heldOut hsuffix _ => exact heldOutSuffix_some hsuffix
    rcases hsuffix with rfl | rfl | rfl
    · exact .inl ⟨rfl, (heldOut_eq_test _ rfl).mp hkey.symm⟩
    · exact absurd hkey.symm (suffix_ne_test (.inl rfl))
    · exact absurd hkey.symm (suffix_ne_test (.inr (.inl rfl)))
  | view other => exact .inl (dataViewKey_eq_test.mp hkey.symm)
  | testView other =>
    refine .inr ⟨other, rfl, ?_⟩
    have hname : s!"{dataViewKey binding.inputName}:test" = s!"{dataViewKey other.inputName}:test" :=
      hkey
    simpa [dataViewKey, toString, ← String.toList_inj] using hname.symm
  | validationView other => exact absurd hkey.symm (suffix_ne_test (.inr (.inr rfl)))

theorem KeysApart.of_unguarded {out : CollectedInputs View} {o o' : Offer}
    (h : KeysApart plan nodePlan outputHandles phase collectors)
    (he : Entered (offers plan nodePlan outputHandles phase collectors) out)
    (ho : o ∈ offers plan nodePlan outputHandles phase collectors)
    (ho' : o' ∈ offers plan nodePlan outputHandles phase collectors)
    (hfree : ¬o.1.Guarded) (hkey : o.1.key = o'.1.key) : o.1 = o'.1 := by
  obtain ⟨source, handle⟩ := o
  obtain ⟨source', handle'⟩ := o'
  have hguarded {port : PortRef} {later : InputSource}
      (hport : (InputSource.forwarded port, handle) ∈ offers plan nodePlan outputHandles phase collectors)
      (hlater : (later, handle') ∈ offers plan nodePlan outputHandles phase collectors)
      (hguard : later.Guarded) (hkey : port.key = later.key) : False := by
    -- a guarded source stands behind the forwarded ones
    have hfirst : (InputSource.forwarded port, handle) ∈ forwardedOffers plan nodePlan outputHandles phase := by
      rcases List.mem_append.mp hport with hport | hport
      · exact hport
      · cases mem_laterOffers hport
    rcases List.mem_append.mp hlater with hlater | hlater
    · obtain ⟨_, rfl, -⟩ := mem_forwardedOffers.mp hlater
      exact hguard
    · exact (List.pairwise_append.mp he.free).2.2 _ hfirst _ hlater hguard hkey
  cases source with
  | forwarded port =>
    cases source' with
    | forwarded port' =>
      rcases PortRef.key_eq_iff.mp hkey with rfl | hruns | hruns
      · rfl
      · exact absurd hruns (h.ports _ _ _ _ ho ho')
      · exact absurd hruns (h.ports _ _ _ _ ho' ho)
    | testView binding => exact absurd hkey (h.testViews _ _ ho' _ ho)
    | dataEdge edge => exact (hguarded ho ho' trivial hkey).elim
    | oof edge => exact (hguarded ho ho' trivial hkey).elim
    | heldOut suffix edge => exact (hguarded ho ho' trivial hkey).elim
    | view binding => exact (hguarded ho ho' trivial hkey).elim
    | validationView binding => exact (hguarded ho ho' trivial hkey).elim
  | testView binding =>
    rcases shadowed_of_key_eq ho' hkey with hshadowed | ⟨other, rfl, hname⟩
    · exact absurd hshadowed (h.testViews _ _ ho _ ho')
    · obtain ⟨primary, hprimary⟩ := view_of_testView ho
      obtain ⟨primary', hprimary'⟩ := view_of_testView ho'
      by_contra hne
      have hviews : (InputSource.view binding, primary) ≠ (InputSource.view other, primary') := by
        intro heq
        cases heq
        exact hne rfl
      have hviewKey : (InputSource.view binding).key = (InputSource.view other).key := by
        rw [InputSource.key, InputSource.key, hname]
      rcases he.unguarded hprimary hprimary' hviews hviewKey with hfree | hfree
      · exact hfree trivial
      · exact hfree trivial
  | dataEdge edge => exact absurd trivial hfree
  | oof edge => exact absurd trivial hfree
  | heldOut suffix edge => exact absurd trivial hfree
  | view binding => exact absurd trivial hfree
  | validationView binding => exact absurd trivial hfree

theorem KeysApart.keysDistinct {out : CollectedInputs View}
    (h : KeysApart plan nodePlan outputHandles phase collectors)
    (he : Entered (offers plan nodePlan outputHandles phase collectors) out) :
    KeysDistinct plan nodePlan outputHandles phase collectors := by
  intro o ho o' ho' hkey
  by_cases hsame : o = o'
  · rw [hsame]
  · rcases he.unguarded ho ho' hsame hkey with hfree | hfree
    · exact h.of_unguarded he ho ho' hfree hkey
    · exact (h.of_unguarded he ho' ho hfree hkey.symm).symm

-- ---------------------------------------------------------------------------
-- What a running node receives
-- ---------------------------------------------------------------------------

/-- The ports that feed the node out of fold. -/
def oofPorts (plan : ExecutionPlan) (nodePlan : NodePlan) : List PortRef :=
  (oofEdgesInto plan nodePlan).map (·.source)

variable (plan nodePlan outputHandles phase collectors) in
/-- Every declared handle is there under its own key, the keys tell the sources
apart, and nothing comes from an out-of-fold port. -/
structure InputsKept (out : CollectedInputs View) : Prop where
  kept : ∀ edge ∈ edgesInto plan nodePlan, edge.source ∉ oofPorts plan nodePlan →
    ∀ handle, outputHandle outputHandles edge.source = some handle →
      out.handles[edge.source.key]? = some handle
  distinct : KeysDistinct plan nodePlan outputHandles phase collectors
  masked : phase = .fitCv ∨ phase = .refit ∨ phase = .predict →
    ∀ key handle, out.handles[key]? = some handle →
      ∃ source, (source, handle) ∈ offers plan nodePlan outputHandles phase collectors ∧
        source.key = key ∧ ∀ port, source.rawPort = some port → port ∉ oofPorts plan nodePlan

theorem checkEdge_sourceKind {nodes : BTreeMap NodeId NodeSpec} (h : checkEdge nodes edge = .ok p) :
    (nodes[edge.source.nodeId]?.bind fun node =>
      findPort node.ports.outputs edge.source.portName).map (·.kind) = some edge.contract.kind := by
  simp only [checkEdge, bind_ok, need_ok, refuseIf_ok, pure_ok, not_or, not_not] at h
  obtain ⟨source, hsource, _, -, sourcePort, hport, _, -, _, ⟨hkind, -⟩, -⟩ := h
  simp [hsource, hport, hkind]

/-- A port that feeds a data edge feeds no out-of-fold edge. -/
theorem dataEdge_source (hgraph : plan.graphPlan.graph.Wellformed)
    (hedge : edge ∈ dataEdges plan nodePlan) : edge.source ∉ oofPorts plan nodePlan := by
  intro hmem
  obtain ⟨other, hother, hsource⟩ := List.mem_map.mp hmem
  obtain ⟨hinto, hdata⟩ := List.mem_filter.mp hedge
  have hkind := (of_decide_eq_true hdata).1
  obtain ⟨hother, hoof⟩ := List.mem_filter.mp hother
  rw [Bool.and_eq_true] at hoof
  obtain ⟨p, hp, -⟩ := (hgraph.edges_valid edge (List.mem_of_mem_filter hinto)).ports
  obtain ⟨q, hq, -⟩ := (hgraph.edges_valid other hother).ports
  have hprediction := (hgraph.edges_valid other hother).oof hoof.2
  have hp := checkEdge_sourceKind hp
  have hq := checkEdge_sourceKind hq
  rw [hsource, hp, hkind, hprediction] at hq
  cases hq

theorem mem_maskedEdges (h : phase = .fitCv ∨ phase = .refit ∨ phase = .predict) :
    maskedEdges plan nodePlan phase = oofEdgesInto plan nodePlan := by
  rcases h with rfl | rfl | rfl <;> rfl

theorem maskedEdges_subset : maskedEdges plan nodePlan phase ⊆ oofEdgesInto plan nodePlan := by
  unfold maskedEdges trainingEdges
  split
  · exact List.Subset.refl _
  · split
    · exact List.Subset.refl _
    · exact List.nil_subset _

theorem Entered.inputsKept {out : CollectedInputs View}
    (he : Entered (offers plan nodePlan outputHandles phase collectors) out)
    (hgraph : plan.graphPlan.graph.Wellformed)
    (hnodes : nodePlan.inputNodes = plan.graphPlan.graph.upstreamNodes nodePlan.nodeId)
    (hkeys : KeysDistinct plan nodePlan outputHandles phase collectors) :
    InputsKept plan nodePlan outputHandles phase collectors out := by
  refine ⟨fun edge hedge hoof handle hhandle => ?_, hkeys, fun hphase key handle hhandle => ?_⟩
  · have hsame : ∀ o ∈ offers plan nodePlan outputHandles phase collectors,
        ∀ o' ∈ offers plan nodePlan outputHandles phase collectors,
          o.1.key = o'.1.key → o.2 = o'.2 := by
      rintro ⟨source, handle⟩ ho ⟨source', handle'⟩ ho' hkey
      obtain rfl : source = source' := hkeys _ ho _ ho' hkey
      exact Option.some.inj ((sourceHandle_of_mem ho).symm.trans (sourceHandle_of_mem ho'))
    have hupstream : edge.source.nodeId ∈ nodePlan.inputNodes := by
      rw [hnodes, GraphSpec.upstreamNodes, mem_ascending, List.mem_toFinset]
      exact List.mem_map_of_mem hedge
    have hport : (edge.source, handle) ∈ forwardedHandles plan nodePlan outputHandles
        (maskedEdges plan nodePlan phase) :=
      mem_forwardedHandles.mpr ⟨hupstream, hhandle, List.mem_map_of_mem hedge,
        fun hmem => hoof (List.map_subset _ maskedEdges_subset hmem)⟩
    exact he.getElem? hsame (List.mem_append_left _ (mem_forwardedOffers.mpr ⟨_, rfl, hport⟩))
  · obtain ⟨source, hsource, hkey⟩ := he.origin hhandle
    refine ⟨source, hsource, hkey, fun port hraw => ?_⟩
    rcases List.mem_append.mp hsource with hsource | hsource
    · obtain ⟨_, rfl, hport⟩ := mem_forwardedOffers.mp hsource
      cases hraw
      have hmasked := (mem_forwardedHandles.mp hport).2.2.2
      rwa [mem_maskedEdges hphase] at hmasked
    · cases mem_laterOffers hsource with
      | dataEdge hedge _ =>
        cases hraw
        exact dataEdge_source hgraph hedge
      | oof => cases hraw
      | heldOut => cases hraw
      | view => cases hraw
      | testView => cases hraw
      | validationView => cases hraw

end

/-- Two sources of one node whose ports read as the same text. -/
def sensorPlan : ExecutionPlan :=
  let port (name : String) : PortSpec := ⟨name, .data, none, .one, none, none, none⟩
  let sensor : NodeId := ⟨"sensor", by decide⟩
  let sensorNir : NodeId := ⟨"sensor.nir", by decide⟩
  let reader : NodeId := ⟨"reader", by decide⟩
  { id := "plan:sensor"
    graphPlan.graph := {
      id := "graph:sensor", interface := ⟨[], []⟩
      nodes := [⟨sensor, .transform, none, ⟨[], [port "nir.x"]⟩, ∅⟩,
        ⟨sensorNir, .transform, none, ⟨[], [port "x"]⟩, ∅⟩,
        ⟨reader, .transform, none, ⟨[port "whole", port "part"], []⟩, ∅⟩]
      edges := [⟨⟨sensor, "nir.x"⟩, ⟨reader, "whole"⟩, .new .data none⟩,
        ⟨⟨sensorNir, "x"⟩, ⟨reader, "part"⟩, .new .data none⟩]
      searchSpaceFingerprint := none, metadata := ∅ }
    graphPlan.storedLevels := []
    campaign := ⟨none, none⟩
    nodePlans := ∅
    foldSet := none }

def readerPlan : NodePlan where
  nodeId := ⟨"reader", by decide⟩
  kind := .transform
  controllerId := ⟨"controller:sensor", by decide⟩
  controllerVersion := "1"
  supportedPhases := {.fitCv}
  trainingLosses := []
  inputNodes := [⟨"sensor", by decide⟩, ⟨"sensor.nir", by decide⟩]
  shapePlan := none
  dataBindings := []
  innerCv := none
  paramsFingerprint := ""

def sensorHandle (handle : UInt64) : HandleRef := ⟨handle, .data, ⟨"controller:sensor", by decide⟩⟩

def sensorHandles : BTreeMap NodeId (BTreeMap String HandleRef) :=
  .collect [(⟨"sensor", by decide⟩, .collect [("nir.x", sensorHandle 1)]),
    (⟨"sensor.nir", by decide⟩, .collect [("x", sensorHandle 2)])]

def noCollectors : InputCollectors Unit where
  oof _ := .ok none
  offFold _ := .ok none
  hasProvider := false
  checkRelations := .ok ()
  bindViews _ := .error (.panicked "no provider")

def sensorRun : Result (CollectedInputs Unit) :=
  collectInputHandles sensorPlan readerPlan sensorHandles ∅ .fitCv noCollectors

theorem sensorRun_ok : ∃ out, sensorRun = .ok out ∧ out.skipNode = false ∧
    out.handles["sensor.nir.x"]? = some (sensorHandle 2) := by
  have hrun : sensorRun.toOption.any (fun out => !out.skipNode &&
      decide (out.handles["sensor.nir.x"]? = some (sensorHandle 2))) = true := by
    decide +kernel
  obtain ⟨out, hout, hboth⟩ := toOption_any.mp hrun
  rw [Bool.and_eq_true, Bool.not_eq_true', decide_eq_true_eq] at hboth
  exact ⟨out, hout, hboth⟩

end DagMl
