import DagMl.Dsl.References
import DagMl.Lib.Framing
import DagMl.Runtime.Externals

/-!
# Namespacing the copies of a generator

Each choice of a generator is a copy of steps, and its node ids are replaced by
ids that name the generator, the choice and a counter. `copiesApart_iff` says
when the copies share nothing: a nested generator's tail is never visited.
-/

namespace DagMl

open Checked PipelineDslStep

-- ---------------------------------------------------------------------------
-- Minted ids
-- ---------------------------------------------------------------------------

def isLabelChar (c : Char) : Bool := c.isAlphanum || c = '_' || c = '-' || c = '.'

/-- `trim_matches('_')`. -/
def trimUnderscores (chars : List Char) : List Char :=
  ((chars.dropWhile (· = '_')).reverse.dropWhile (· = '_')).reverse

def sanitizeGenerationLabel (input : String) : String :=
  let sanitized := trimUnderscores (input.toList.map fun c => if isLabelChar c then c else '_')
  if sanitized = [] then "value" else String.ofList sanitized

/-- What follows the last underscore is eight hexadecimal digits. -/
def hasReservedSuffix (chars : List Char) : Bool :=
  let suffix := chars.reverse.takeWhile (· ≠ '_')
  '_' ∈ chars && suffix.length = 8 && suffix.all fun c =>
    c.isDigit || ('a' ≤ c && c ≤ 'f') || ('A' ≤ c && c ≤ 'F')

def sanitizedIdFragment (externals : Externals) (input : String) (maxLen : Nat) : String :=
  let sanitized := sanitizeGenerationLabel input
  let chars := sanitized.toList
  let fragment := chars.take maxLen
  let fragment :=
    if sanitized ≠ input ∨ maxLen < chars.length ∨ hasReservedSuffix chars = true then
      fragment.take (maxLen - 9) ++
        '_' :: (stableJsonFingerprint externals (.string input)).toList.take 8
    else fragment
  if fragment = [] then "x" else String.ofList fragment

def generatedNodeName (generator : String) (choiceIndex nodeIndex : Nat) (suffix : String) :
    String :=
  s!"gen:{generator}:c{choiceIndex}:n{nodeIndex}.{suffix}"

def namespacedGeneratedNodeId (externals : Externals) (generatorId : NodeId)
    (choiceIndex nodeIndex : Nat) (original : NodeId) : Result NodeId :=
  let generator := sanitizedIdFragment externals generatorId.value 32
  let suffix := sanitizedIdFragment externals original.value 28
  Id.new (generatedNodeName generator choiceIndex nodeIndex suffix)

-- ---------------------------------------------------------------------------
-- The pass
-- ---------------------------------------------------------------------------

structure NamespaceState where
  counter : Nat := 0
  nodeMap : BTreeMap NodeId NodeId := ∅
  emitted : Finset NodeId := ∅

section

variable (externals : Externals) (generator : PipelineDslGeneratorStep PipelineDslStep)
  (choiceIndex : Nat)

def namespaceNodeIdField (state : NamespaceState) (emits : Bool) (nodeId : NodeId) :
    Result (NamespaceState × NodeId) := do
  vacant state.nodeMap[nodeId]? fun _ => .graphValidation
    s!"pipeline DSL generator `{generator.id}` choice `{choiceIndex}` reuses node id `{nodeId}`; generated choices require unique node ids inside each expanded sequence"
  let next ← namespacedGeneratedNodeId externals generator.id choiceIndex state.counter nodeId
  pure ({
    counter := state.counter + 1
    nodeMap := state.nodeMap.insert nodeId next
    emitted := if emits then insert next state.emitted else state.emitted }, next)

/-- Concat operators are visited, tails of nested generators are not. -/
def namespaceScope : RewriteScope := ⟨true, false⟩

def namespaceStepIds (steps : List PipelineDslStep) :
    Result (NamespaceState × List PipelineDslStep) :=
  rewriteStepIds namespaceScope (namespaceNodeIdField externals generator choiceIndex) {} steps

def namespaceGeneratedSequence (choice : GeneratedSequence PipelineDslStep) :
    Result (GeneratedSequence PipelineDslStep × Finset NodeId) := do
  let named ← namespaceStepIds externals generator choiceIndex choice.steps
  let steps ← rewriteStepsNodeRefs named.1.nodeMap named.2
  pure ({ choice with steps }, named.1.emitted)

end

-- ---------------------------------------------------------------------------
-- Minted ids are told apart
-- ---------------------------------------------------------------------------

variable {externals : Externals} {generator : PipelineDslGeneratorStep PipelineDslStep}

theorem toList_generatedNodeName {g s : String} {c n : Nat} :
    (generatedNodeName g c n s).toList = ("gen:" ++ g ++ ":c").toList ++
      (Nat.toDigits 10 c ++ ':' :: 'n' :: (Nat.toDigits 10 n ++ '.' :: s.toList)) := by
  have hname : generatedNodeName g c n s = "gen:" ++ g ++ ":c" ++
      String.ofList (Nat.toDigits 10 c) ++ ":n" ++ String.ofList (Nat.toDigits 10 n) ++ "." ++ s :=
    rfl
  simp [hname]

/-- A minted id tells its choice and its number. -/
theorem namespaced_inj {generatorId a b id : NodeId} {c n c' n' : Nat}
    (h : namespacedGeneratedNodeId externals generatorId c n a = .ok id)
    (h' : namespacedGeneratedNodeId externals generatorId c' n' b = .ok id) : c = c' ∧ n = n' := by
  have hdigit (k : Nat) (d : Char) (hd : d ∈ Nat.toDigits 10 k) : ¬d.isDigit = false := by
    rw [Nat.isDigit_of_mem_toDigits (by decide) (by decide) hd]
    decide
  rw [namespacedGeneratedNodeId, Id.new_ok] at h h'
  have hchars := congrArg String.toList (h.symm.trans h')
  rw [toList_generatedNodeName, toList_generatedNodeName, List.append_cancel_left_eq] at hchars
  obtain ⟨hc, -, hrest⟩ := (Framing.cut_inj (fun d : Char => d.isDigit = false) (hdigit c)
    (hdigit c') (by decide) (by decide)).mp hchars
  obtain ⟨hn, -, -⟩ := (Framing.cut_inj (fun d : Char => d.isDigit = false) (hdigit n)
    (hdigit n') (by decide) (by decide)).mp (List.cons.inj hrest).2
  constructor
  · rw [← Nat.ofDigitChars_ten_toDigits (n := c), hc, Nat.ofDigitChars_ten_toDigits]
  · rw [← Nat.ofDigitChars_ten_toDigits (n := n), hn, Nat.ofDigitChars_ten_toDigits]

-- ---------------------------------------------------------------------------
-- What a run has recorded
-- ---------------------------------------------------------------------------

/-- The ids the pass has met. -/
def metIds (slots : List Slot) : List NodeId :=
  (slots.filter namespaceScope.covers).map (·.id)

/-- How the pass leaves one slot. -/
def NamedBy (nodeMap : BTreeMap NodeId NodeId) (slot slot' : Slot) : Prop :=
  if namespaceScope.covers slot then
    ∃ next, nodeMap[slot.id]? = some next ∧ slot' = { slot with id := next }
  else slot' = slot

structure Recorded (externals : Externals) (generator : PipelineDslGeneratorStep PipelineDslStep)
    (choiceIndex : Nat) (before after : List Slot) (state : NamespaceState) : Prop where
  counter : state.counter = (metIds before).length
  nodup : (metIds before).Nodup
  minted : ∀ id next : NodeId, state.nodeMap[id]? = some next →
    ∃ n, (metIds before)[n]? = some id ∧
      namespacedGeneratedNodeId externals generator.id choiceIndex n id = .ok next
  named : List.Forall₂ (NamedBy state.nodeMap) before after
  emitted : ∀ id : NodeId, id ∈ state.emitted ↔
    ∃ slot ∈ after, namespaceScope.covers slot = true ∧ slot.emits = true ∧ slot.id = id

theorem metIds_snoc {before : List Slot} {slot : Slot} : metIds (before ++ [slot]) =
    if namespaceScope.covers slot then metIds before ++ [slot.id] else metIds before := by
  cases h : namespaceScope.covers slot <;> simp [metIds, h]

theorem Recorded.start {choiceIndex : Nat} :
    Recorded externals generator choiceIndex [] [] {} where
  counter := rfl
  nodup := .nil
  minted := by simp
  named := .nil
  emitted := by simp

theorem NamedBy.mono {nodeMap nodeMap' : BTreeMap NodeId NodeId} {slot slot' : Slot}
    (h : NamedBy nodeMap slot slot')
    (hle : ∀ id next : NodeId, nodeMap[id]? = some next → nodeMap'[id]? = some next) :
    NamedBy nodeMap' slot slot' := by
  unfold NamedBy at *
  split
  · rename_i hc
    rw [if_pos hc] at h
    obtain ⟨next, hget, rfl⟩ := h
    exact ⟨next, hle _ _ hget, rfl⟩
  · rename_i hc
    rwa [if_neg hc] at h

section

variable {choiceIndex : Nat} {before after : List Slot} {state : NamespaceState}

/-- Every id the pass has met is recorded. -/
theorem Recorded.exists_of_mem {id : NodeId}
    (h : Recorded externals generator choiceIndex before after state) (hid : id ∈ metIds before) :
    ∃ next, state.nodeMap[id]? = some next := by
  obtain ⟨slot, hslot, rfl⟩ := List.mem_map.mp hid
  obtain ⟨hslot, hc⟩ := List.mem_filter.mp hslot
  obtain ⟨slot', -, hnamed⟩ := exists_right_of_mem h.named hslot
  rw [NamedBy, if_pos hc] at hnamed
  obtain ⟨next, hnext, -⟩ := hnamed
  exact ⟨next, hnext⟩

theorem Recorded.step_covered {state' : NamespaceState} {slot : Slot} {next : NodeId}
    (h : Recorded externals generator choiceIndex before after state)
    (hc : namespaceScope.covers slot = true)
    (hstep : namespaceNodeIdField externals generator choiceIndex state slot.emits slot.id =
      .ok (state', next)) :
    Recorded externals generator choiceIndex (before ++ [slot])
      (after ++ [{ slot with id := next }]) state' := by
  simp only [namespaceNodeIdField, bind_ok, vacant_ok, pure_ok, Prod.mk.injEq] at hstep
  obtain ⟨_, hvacant, minted, hnext, rfl, hminted⟩ := hstep
  obtain rfl : next = minted := hminted.symm
  have hmet : metIds (before ++ [slot]) = metIds before ++ [slot.id] := by
    rw [metIds_snoc, if_pos hc]
  have hnew : slot.id ∉ metIds before := by
    intro hmem
    obtain ⟨next', hget⟩ := h.exists_of_mem hmem
    rw [hvacant] at hget
    cases hget
  have hkeep (id next' : NodeId) (hget : state.nodeMap[id]? = some next') :
      (state.nodeMap.insert slot.id next)[id]? = some next' := by
    rw [BTreeMap.getElem?_insert, if_neg, hget]
    rintro rfl
    rw [hvacant] at hget
    cases hget
  constructor
  case counter => simp [hmet, h.counter]
  case nodup =>
    rw [hmet]
    exact List.nodup_append.mpr ⟨h.nodup, by simp, by
      rintro _ hmem _ (hid : _ ∈ [slot.id]) rfl
      exact hnew (List.mem_singleton.mp hid ▸ hmem)⟩
  case minted =>
    intro id next' hget
    rw [BTreeMap.getElem?_insert] at hget
    rw [hmet]
    split at hget
    · rename_i hid
      cases hget
      subst hid
      exact ⟨(metIds before).length, by simp, h.counter ▸ hnext⟩
    · obtain ⟨n, hn, hminted⟩ := h.minted id next' hget
      exact ⟨n, by rw [List.getElem?_append_left (List.getElem?_eq_some_iff.mp hn).1, hn], hminted⟩
  case named =>
    refine List.rel_append (h.named.imp fun _ _ hslot => hslot.mono hkeep) (.cons ?_ .nil)
    rw [NamedBy, if_pos hc]
    exact ⟨next, by rw [BTreeMap.getElem?_insert, if_pos rfl], rfl⟩
  case emitted =>
    intro id
    have hc' : namespaceScope.covers { slot with id := next } = true := hc
    constructor
    · intro hid
      cases hemits : slot.emits with
      | false =>
        rw [hemits, if_neg (by decide)] at hid
        obtain ⟨slot', hmem, hslot'⟩ := (h.emitted id).mp hid
        exact ⟨slot', List.mem_append_left _ hmem, hslot'⟩
      | true =>
        rw [hemits, if_pos rfl] at hid
        rcases Finset.mem_insert.mp hid with rfl | hid
        · exact ⟨_, List.mem_append_right _ (List.mem_singleton.mpr rfl), hc', rfl, rfl⟩
        · obtain ⟨slot', hmem, hslot'⟩ := (h.emitted id).mp hid
          exact ⟨slot', List.mem_append_left _ hmem, hslot'⟩
    · rintro ⟨slot', hmem, hcovers, hemits, rfl⟩
      rcases List.mem_append.mp hmem with hmem | hmem
      · have hid := (h.emitted _).mpr ⟨slot', hmem, hcovers, hemits, rfl⟩
        split
        · exact Finset.mem_insert_of_mem hid
        · exact hid
      · obtain rfl := List.mem_singleton.mp hmem
        rw [if_pos hemits]
        exact Finset.mem_insert_self _ _

theorem Recorded.step {state' : NamespaceState} {slot slot' : Slot}
    (h : Recorded externals generator choiceIndex before after state)
    (hstep : mintSlot namespaceScope (namespaceNodeIdField externals generator choiceIndex) state
      slot = .ok (state', slot')) :
    Recorded externals generator choiceIndex (before ++ [slot]) (after ++ [slot']) state' := by
  unfold mintSlot at hstep
  split at hstep
  · rename_i hc
    simp only [bind_ok, pure_ok, Prod.mk.injEq] at hstep
    obtain ⟨own, hown, rfl, rfl⟩ := hstep
    exact h.step_covered hc hown
  · rename_i hc
    cases hstep
    have hmet : metIds (before ++ [slot]) = metIds before := by rw [metIds_snoc, if_neg hc]
    constructor
    case counter => rw [hmet, h.counter]
    case nodup => rw [hmet]; exact h.nodup
    case minted => rw [hmet]; exact h.minted
    case named => exact List.rel_append h.named (.cons (by rw [NamedBy, if_neg hc]) .nil)
    case emitted =>
      intro id
      simp [h.emitted, or_and_right, exists_or, hc]

theorem recorded_of_namespaceStepIds {steps steps' : List PipelineDslStep}
    (h : namespaceStepIds externals generator choiceIndex steps = .ok (state, steps')) :
    Recorded externals generator choiceIndex (stepSlots false steps) (stepSlots false steps')
      state :=
  thread_invariant (Recorded externals generator choiceIndex) .start
    (fun _ _ _ _ _ _ hrun hstep => hrun.step hstep) (rewriteStepIds_slots (by simp) h)

end

-- ---------------------------------------------------------------------------
-- Copies kept apart
-- ---------------------------------------------------------------------------

/-- The map of one choice from the ids it had to those it was given. -/
def nodeMapOf (externals : Externals) (generator : PipelineDslGeneratorStep PipelineDslStep)
    (choiceIndex : Nat) (choice : GeneratedSequence PipelineDslStep) : BTreeMap NodeId NodeId :=
  match namespaceStepIds externals generator choiceIndex choice.steps with
  | .ok named => named.1.nodeMap
  | .error _ => ∅

/-- The ids a choice holds, one for each place. -/
def slotIds (choice : GeneratedSequence PipelineDslStep) : List NodeId :=
  (stepSlots false choice.steps).map (·.id)

/-- One choice after the pass, against the map of its ids. -/
structure KeptApart (nodeMap : BTreeMap NodeId NodeId) (choice : GeneratedSequence PipelineDslStep)
    (out : GeneratedSequence PipelineDslStep × Finset NodeId) : Prop where
  total : ∀ id ∈ slotIds choice, id ∈ nodeMap
  replaced : stepSlots false out.1.steps = (stepSlots false choice.steps).map fun slot =>
    { slot with id := renamed nodeMap slot.id }
  references : List.Forall₂ (MergeRefs.Renamed (renamed nodeMap))
    (stepMergeRefs false choice.steps) (stepMergeRefs false out.1.steps)
  emitted : ∀ id : NodeId, id ∈ out.2 ↔
    ∃ slot ∈ stepSlots false out.1.steps, slot.emits = true ∧ slot.id = id

/-- The copies of a generator share no id: every id is replaced by a minted one
and every reference follows, one choice's map is injective and its images are
no other's. -/
structure CopiesApart (externals : Externals)
    (generator : PipelineDslGeneratorStep PipelineDslStep)
    (choices : List (GeneratedSequence PipelineDslStep))
    (outs : List (GeneratedSequence PipelineDslStep × Finset NodeId)) : Prop where
  kept : ∀ i choice out, choices[i]? = some choice → outs[i]? = some out →
    KeptApart (nodeMapOf externals generator i choice) choice out
  minted : ∀ i choice (id next : NodeId), choices[i]? = some choice →
    (nodeMapOf externals generator i choice)[id]? = some next →
      ∃ n, namespacedGeneratedNodeId externals generator.id i n id = .ok next
  injective : ∀ i j choice choice' (a b next : NodeId), choices[i]? = some choice →
    choices[j]? = some choice' → (nodeMapOf externals generator i choice)[a]? = some next →
      (nodeMapOf externals generator j choice')[b]? = some next → i = j ∧ a = b
  distinct : (outs.flatMap fun out => slotIds out.1).Nodup

/-- No generator nested in a choice has a tail that holds an id. -/
def TailsHoldNoIds (choice : GeneratedSequence PipelineDslStep) : Prop :=
  ∀ slot ∈ stepSlots false choice.steps, slot.inTail = false

variable {choices : List (GeneratedSequence PipelineDslStep)}
  {outs : List (GeneratedSequence PipelineDslStep × Finset NodeId)}

/-- One accepted choice, read back. -/
theorem namespaceGeneratedSequence_ok {choiceIndex : Nat}
    {choice : GeneratedSequence PipelineDslStep}
    {out : GeneratedSequence PipelineDslStep × Finset NodeId}
    (h : namespaceGeneratedSequence externals generator choiceIndex choice = .ok out) :
    ∃ state, state.nodeMap = nodeMapOf externals generator choiceIndex choice ∧
      state.emitted = out.2 ∧
      Recorded externals generator choiceIndex (stepSlots false choice.steps)
        (stepSlots false out.1.steps) state ∧
      List.Forall₂ (MergeRefs.Rewritten state.nodeMap) (stepMergeRefs false choice.steps)
        (stepMergeRefs false out.1.steps) := by
  simp only [namespaceGeneratedSequence, bind_ok, pure_ok] at h
  obtain ⟨named, hnamed, steps, hsteps, rfl⟩ := h
  refine ⟨named.1, by rw [nodeMapOf, hnamed], rfl, ?_, ?_⟩
  · rw [rewriteStepsNodeRefs_slots hsteps]
    exact recorded_of_namespaceStepIds hnamed
  · rw [← rewriteStepIds_mergeRefs hnamed]
    exact rewriteStepsNodeRefs_mergeRefs hsteps

theorem metIds_of_tailsHoldNoIds {choice : GeneratedSequence PipelineDslStep}
    (h : TailsHoldNoIds choice) : metIds (stepSlots false choice.steps) = slotIds choice := by
  rw [metIds, List.filter_eq_self.mpr, slotIds]
  intro slot hslot
  simp [namespaceScope, RewriteScope.covers, h slot hslot]

theorem covers_of_inTail {slot : Slot} (h : slot.inTail = false) :
    namespaceScope.covers slot = true := by
  simp [namespaceScope, RewriteScope.covers, h]

theorem map_of_named {nodeMap : BTreeMap NodeId NodeId} {before after : List Slot}
    (hcovers : ∀ slot ∈ before, namespaceScope.covers slot = true)
    (h : List.Forall₂ (NamedBy nodeMap) before after) :
    after = before.map fun slot => { slot with id := renamed nodeMap slot.id } := by
  induction h with
  | nil => rfl
  | cons hslot hrest ih =>
    rw [List.forall_mem_cons] at hcovers
    rw [NamedBy, if_pos hcovers.1] at hslot
    obtain ⟨next, hnext, rfl⟩ := hslot
    rw [List.map_cons, ← ih hcovers.2, renamed, hnext, Option.getD_some]

theorem keptApart_of_tailsHoldNoIds {choiceIndex : Nat}
    {choice : GeneratedSequence PipelineDslStep}
    {out : GeneratedSequence PipelineDslStep × Finset NodeId}
    (h : namespaceGeneratedSequence externals generator choiceIndex choice = .ok out)
    (htails : TailsHoldNoIds choice) :
    KeptApart (nodeMapOf externals generator choiceIndex choice) choice out := by
  obtain ⟨state, hmap, hemitted, hrun, hrefs⟩ := namespaceGeneratedSequence_ok h
  rw [← hmap]
  have hcovers : ∀ slot ∈ stepSlots false choice.steps, namespaceScope.covers slot = true :=
    fun slot hslot => covers_of_inTail (htails slot hslot)
  have hreplaced := map_of_named hcovers hrun.named
  constructor
  case total =>
    intro id hid
    rw [← metIds_of_tailsHoldNoIds htails] at hid
    obtain ⟨next, hnext⟩ := hrun.exists_of_mem hid
    exact BTreeMap.mem_iff.mpr ⟨next, hnext⟩
  case replaced => exact hreplaced
  case references =>
    have houtside : ∀ refs ∈ stepMergeRefs false choice.steps, refs.inTail = false := by
      intro refs hmem
      obtain ⟨slot, hslot, heq⟩ := exists_slot_of_stepMergeRefs hmem
      rw [← heq, htails slot hslot]
    refine ((List.forall₂_and_left _ _).mpr ⟨houtside, hrefs⟩).imp fun refs refs' hboth => ?_
    obtain ⟨hfalse, hrewritten⟩ := hboth
    rw [MergeRefs.Rewritten, hfalse, if_neg (by decide)] at hrewritten
    exact hrewritten.2
  case emitted =>
    intro id
    rw [← hemitted, hrun.emitted]
    constructor
    · rintro ⟨slot, hslot, -, hemits⟩
      exact ⟨slot, hslot, hemits⟩
    · rintro ⟨slot, hslot, hemits⟩
      refine ⟨slot, hslot, ?_, hemits⟩
      rw [hreplaced] at hslot
      obtain ⟨source, hsource, rfl⟩ := List.mem_map.mp hslot
      exact hcovers source hsource

theorem slotIds_of_keptApart {nodeMap : BTreeMap NodeId NodeId}
    {choice : GeneratedSequence PipelineDslStep}
    {out : GeneratedSequence PipelineDslStep × Finset NodeId} (h : KeptApart nodeMap choice out) :
    slotIds out.1 = (slotIds choice).map (renamed nodeMap) := by
  simp [slotIds, h.replaced]

/-- What the map of a choice holds was minted for an id of the choice. -/
theorem exists_minted {choiceIndex : Nat} {choice : GeneratedSequence PipelineDslStep}
    {out : GeneratedSequence PipelineDslStep × Finset NodeId} {id next : NodeId}
    (h : namespaceGeneratedSequence externals generator choiceIndex choice = .ok out)
    (htails : TailsHoldNoIds choice)
    (hnext : (nodeMapOf externals generator choiceIndex choice)[id]? = some next) :
    ∃ n, (slotIds choice)[n]? = some id ∧
      namespacedGeneratedNodeId externals generator.id choiceIndex n id = .ok next := by
  obtain ⟨state, hmap, -, hrun, -⟩ := namespaceGeneratedSequence_ok h
  rw [← hmap] at hnext
  rw [← metIds_of_tailsHoldNoIds htails]
  exact hrun.minted _ _ hnext

theorem nodup_slotIds {choiceIndex : Nat} {choice : GeneratedSequence PipelineDslStep}
    {out : GeneratedSequence PipelineDslStep × Finset NodeId}
    (h : namespaceGeneratedSequence externals generator choiceIndex choice = .ok out)
    (htails : TailsHoldNoIds choice) : (slotIds choice).Nodup := by
  obtain ⟨state, -, -, hrun, -⟩ := namespaceGeneratedSequence_ok h
  rw [← metIds_of_tailsHoldNoIds htails]
  exact hrun.nodup

theorem getElem?_renamed {nodeMap : BTreeMap NodeId NodeId} {id : NodeId} (h : id ∈ nodeMap) :
    nodeMap[id]? = some (renamed nodeMap id) := by
  obtain ⟨next, hnext⟩ := BTreeMap.mem_iff.mp h
  rw [renamed, hnext, Option.getD_some]

theorem exists_out {i : Nat} {choice : GeneratedSequence PipelineDslStep}
    (h : collectIdx choices (namespaceGeneratedSequence externals generator) = .ok outs)
    (hi : choices[i]? = some choice) :
    ∃ out, outs[i]? = some out ∧
      namespaceGeneratedSequence externals generator i choice = .ok out := by
  obtain ⟨hlength, hruns⟩ := collectIdx_ok.mp h
  have hlt := (List.getElem?_eq_some_iff.mp hi).1
  have hout := List.getElem?_eq_getElem (hlength ▸ hlt)
  exact ⟨_, hout, hruns i _ _ hi hout⟩

theorem exists_choice {i : Nat} {out : GeneratedSequence PipelineDslStep × Finset NodeId}
    (h : collectIdx choices (namespaceGeneratedSequence externals generator) = .ok outs)
    (hout : outs[i]? = some out) :
    ∃ choice, choices[i]? = some choice ∧
      namespaceGeneratedSequence externals generator i choice = .ok out := by
  obtain ⟨hlength, hruns⟩ := collectIdx_ok.mp h
  have hlt := (List.getElem?_eq_some_iff.mp hout).1
  have hi := List.getElem?_eq_getElem (hlength ▸ hlt)
  exact ⟨_, hi, hruns i _ _ hi hout⟩

theorem nodeMapOf_inj {i j : Nat} {choice choice' : GeneratedSequence PipelineDslStep}
    {a b next : NodeId}
    (h : collectIdx choices (namespaceGeneratedSequence externals generator) = .ok outs)
    (htails : ∀ choice ∈ choices, TailsHoldNoIds choice)
    (hi : choices[i]? = some choice) (hj : choices[j]? = some choice')
    (ha : (nodeMapOf externals generator i choice)[a]? = some next)
    (hb : (nodeMapOf externals generator j choice')[b]? = some next) : i = j ∧ a = b := by
  obtain ⟨_, -, hrun⟩ := exists_out h hi
  obtain ⟨_, -, hrun'⟩ := exists_out h hj
  obtain ⟨n, hn, hminta⟩ := exists_minted hrun (htails _ (List.mem_of_getElem? hi)) ha
  obtain ⟨n', hn', hmintb⟩ := exists_minted hrun' (htails _ (List.mem_of_getElem? hj)) hb
  obtain ⟨rfl, rfl⟩ := namespaced_inj hminta hmintb
  rw [hi, Option.some.injEq] at hj
  subst hj
  rw [hn, Option.some.injEq] at hn'
  exact ⟨rfl, hn'⟩

theorem nodup_copies
    (h : collectIdx choices (namespaceGeneratedSequence externals generator) = .ok outs)
    (htails : ∀ choice ∈ choices, TailsHoldNoIds choice) :
    (outs.flatMap fun out => slotIds out.1).Nodup := by
  -- an id of a copy is the image of an id of its choice
  have hsource (i : Nat) (out : GeneratedSequence PipelineDslStep × Finset NodeId)
      (hout : outs[i]? = some out) : ∃ choice, choices[i]? = some choice ∧
        (slotIds choice).Nodup ∧
        slotIds out.1 = (slotIds choice).map (renamed (nodeMapOf externals generator i choice)) ∧
        ∀ id ∈ slotIds choice, (nodeMapOf externals generator i choice)[id]? =
          some (renamed (nodeMapOf externals generator i choice) id) := by
    obtain ⟨choice, hi, hrun⟩ := exists_choice h hout
    have htail := htails _ (List.mem_of_getElem? hi)
    have hkept := keptApart_of_tailsHoldNoIds hrun htail
    exact ⟨choice, hi, nodup_slotIds hrun htail, slotIds_of_keptApart hkept, fun id hid =>
      getElem?_renamed (hkept.total id hid)⟩
  refine List.nodup_flatMap.mpr ⟨fun out hmem => ?_, List.pairwise_iff_getElem.mpr ?_⟩
  · obtain ⟨i, hout⟩ := List.mem_iff_getElem?.mp hmem
    obtain ⟨choice, hi, hnodup, hids, hget⟩ := hsource i out hout
    rw [hids]
    refine hnodup.map_on fun a ha b hb heq => ?_
    exact (nodeMapOf_inj h htails hi hi (hget a ha) (heq ▸ hget b hb)).2
  · intro i j hlt hlt' hij id hid hid'
    obtain ⟨choice, hi, -, hids, hget⟩ := hsource i _ (List.getElem?_eq_getElem hlt)
    obtain ⟨choice', hj, -, hids', hget'⟩ := hsource j _ (List.getElem?_eq_getElem hlt')
    dsimp only at hid hid'
    rw [hids] at hid
    rw [hids'] at hid'
    obtain ⟨a, ha, rfl⟩ := List.mem_map.mp hid
    obtain ⟨b, hb, heq⟩ := List.mem_map.mp hid'
    have hsame := (nodeMapOf_inj h htails hi hj (hget a ha) (heq ▸ hget' b hb)).1
    exact absurd hsame (Nat.ne_of_lt hij)

/-- An id in a tail is not recorded, unless another place of the choice holds it. -/
theorem tailsHoldNoIds_of_copiesApart
    (h : collectIdx choices (namespaceGeneratedSequence externals generator) = .ok outs)
    (hapart : CopiesApart externals generator choices outs) :
    ∀ choice ∈ choices, TailsHoldNoIds choice := by
  intro choice hchoice slot hslot
  obtain ⟨i, hi⟩ := List.mem_iff_getElem?.mp hchoice
  obtain ⟨out, hout, hok⟩ := exists_out h hi
  obtain ⟨state, hmap, -, hrun, -⟩ := namespaceGeneratedSequence_ok hok
  have hkept := hapart.kept i _ _ hi hout
  -- the id is recorded, so the pass has met it
  obtain ⟨next, hnext⟩ := BTreeMap.mem_iff.mp
    (hkept.total slot.id (List.mem_map_of_mem hslot))
  rw [← hmap] at hnext
  obtain ⟨n, hmet, -⟩ := hrun.minted _ _ hnext
  obtain ⟨other, hother, hid⟩ := List.mem_map.mp (List.mem_of_getElem? hmet)
  obtain ⟨hother, hcovers⟩ := List.mem_filter.mp hother
  -- no two places of the choice hold one id
  have hnodup : (slotIds choice).Nodup := by
    have hout' := (List.nodup_flatMap.mp hapart.distinct).1 out (List.mem_of_getElem? hout)
    rw [slotIds_of_keptApart hkept] at hout'
    exact hout'.of_map
  obtain rfl := List.inj_on_of_nodup_map hnodup hother hslot hid
  simpa [namespaceScope, RewriteScope.covers] using hcovers

/-- The copies are kept apart as long as no nested generator's tail holds an
id: neither traversal visits it, so every copy keeps the ids of the tail. -/
theorem copiesApart_iff
    (h : collectIdx choices (namespaceGeneratedSequence externals generator) = .ok outs) :
    CopiesApart externals generator choices outs ↔ ∀ choice ∈ choices, TailsHoldNoIds choice := by
  refine ⟨tailsHoldNoIds_of_copiesApart h, fun htails => ?_⟩
  constructor
  case kept =>
    intro i choice out hi hout
    obtain ⟨choice', hi', hok⟩ := exists_choice h hout
    rw [hi, Option.some.injEq] at hi'
    subst hi'
    exact keptApart_of_tailsHoldNoIds hok (htails _ (List.mem_of_getElem? hi))
  case minted =>
    intro i choice id next hi hnext
    obtain ⟨out, -, hok⟩ := exists_out h hi
    obtain ⟨n, -, hminted⟩ := exists_minted hok (htails _ (List.mem_of_getElem? hi)) hnext
    exact ⟨n, hminted⟩
  case injective => exact fun _ _ _ _ _ _ _ => nodeMapOf_inj h htails
  case distinct => exact nodup_copies h htails

-- ---------------------------------------------------------------------------
-- Two copies of a nested generator
-- ---------------------------------------------------------------------------

def savgolStep : PipelineDslStep := .operator .transform { id := ⟨"savgol", by decide⟩ }

/-- A generator that every choice of `twoChoices` holds. -/
def innerGenerator (tail : List PipelineDslStep) : PipelineDslStep :=
  .generator {
    id := ⟨"inner", by decide⟩
    branches := [{ id := "only", steps := [savgolStep] }]
    tail }

def twoChoices (tail : List PipelineDslStep) : List (GeneratedSequence PipelineDslStep) :=
  ["left", "right"].map fun name =>
    { id := name, labels := [], members := [], steps := [innerGenerator tail], metadata := ∅ }

def outerGenerator : PipelineDslGeneratorStep PipelineDslStep where
  id := ⟨"outer", by decide⟩

def plsStep : PipelineDslStep := .operator .model { id := ⟨"pls", by decide⟩ }

theorem copiesApart_iff_twoChoices :
    ∃ outs, collectIdx (twoChoices []) (namespaceGeneratedSequence plainExternals outerGenerator) =
      .ok outs ∧ CopiesApart plainExternals outerGenerator (twoChoices []) outs := by
  have hok : (collectIdx (twoChoices [])
      (namespaceGeneratedSequence plainExternals outerGenerator)).toBool = true := by decide +kernel
  cases hrun : collectIdx (twoChoices [])
      (namespaceGeneratedSequence plainExternals outerGenerator) with
  | error e =>
    rw [hrun] at hok
    cases hok
  | ok outs =>
    refine ⟨outs, rfl, (copiesApart_iff hrun).mpr ?_⟩
    unfold TailsHoldNoIds
    decide

/-- With a model in the inner tail both copies emit it under its own id. -/
theorem copies_share_tail :
    ∃ outs, collectIdx (twoChoices [plsStep])
      (namespaceGeneratedSequence plainExternals outerGenerator) = .ok outs ∧
        (outs.all fun out => (⟨"pls", by decide⟩ : NodeId) ∈ slotIds out.1) = true ∧
          ¬ CopiesApart plainExternals outerGenerator (twoChoices [plsStep]) outs := by
  have hok : ((collectIdx (twoChoices [plsStep])
      (namespaceGeneratedSequence plainExternals outerGenerator)).toOption.any fun outs =>
        outs.all fun out => (⟨"pls", by decide⟩ : NodeId) ∈ slotIds out.1) = true := by
    decide +kernel
  obtain ⟨outs, hrun, hshared⟩ := toOption_any.mp hok
  refine ⟨outs, hrun, hshared, fun hapart => ?_⟩
  have htails := tailsHoldNoIds_of_copiesApart hrun hapart
  revert htails
  unfold TailsHoldNoIds
  decide

end DagMl
