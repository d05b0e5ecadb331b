import DagMl.Lib.Stateful
import DagMl.Runtime.Context

/-!
# Residual gate records

Gates leave a context as JSON records and come back the same way. An import
checks and inserts one record after the other, so a record that is refused
leaves the gates of the records before it in place.
-/

namespace DagMl

open Checked

structure ResidualGateRecord where
  variantId : Option VariantId
  foldId : Option FoldId
  gate : Binary64
  rli : Binary64

namespace ResidualGateRecord

def scope (record : ResidualGateRecord) : GateScope := ⟨record.variantId, record.foldId⟩

def result (record : ResidualGateRecord) : ResidualGateResult := ⟨record.gate, record.rli⟩

-- ---------------------------------------------------------------------------
-- The derived JSON codec
-- ---------------------------------------------------------------------------

def idToValue (id : Option (Id kind)) : JsonValue :=
  match id with
  | some id => .string id.value
  | none => .null

/-- A float that JSON cannot write becomes `null`. -/
def floatToValue (x : Binary64) : JsonValue :=
  if x.isFinite then .number (.float x) else .null

def toValue (record : ResidualGateRecord) : JsonValue :=
  .object [("variant_id", idToValue record.variantId), ("fold_id", idToValue record.foldId),
    ("gate", floatToValue record.gate), ("rli", floatToValue record.rli)]

/-- An optional identifier: `null`, or a string the grammar accepts. -/
def idFromValue : JsonValue → Option (Option (Id kind))
  | .null => some none
  | .string s =>
    match Id.new s with
    | .ok id => some (some id)
    | .error _ => none
  | _ => none

def floatFromValue : JsonValue → Option Binary64
  | .number (.posInt n) => some (.ofNat n.toNat)
  | .number (.negInt n) => some (.ofInt n.toInt)
  | .number (.float x) => some x
  | _ => none

/-- An absent optional field is `None`; any other absent field is an error. -/
def fromFields (variantId foldId gate rli : Option JsonValue) : Option ResidualGateRecord := do
  let variantId ← idFromValue (variantId.getD .null)
  let foldId ← idFromValue (foldId.getD .null)
  let gate ← floatFromValue (← gate)
  let rli ← floatFromValue (← rli)
  pure ⟨variantId, foldId, gate, rli⟩

/-- `serde_json::from_value::<ResidualGateRecord>`, with `deny_unknown_fields`.
A record may also be written as the array of its fields. -/
def fromValue : JsonValue → Option ResidualGateRecord
  | .object entries =>
    if entries.all fun e => ["variant_id", "fold_id", "gate", "rli"].contains e.1 then
      fromFields (entries.lookup "variant_id") (entries.lookup "fold_id") (entries.lookup "gate")
        (entries.lookup "rli")
    else none
  | .array [variantId, foldId, gate, rli] =>
    fromFields (some variantId) (some foldId) (some gate) (some rli)
  | _ => none

def eachFromValue : List JsonValue → Option (List ResidualGateRecord)
  | [] => some []
  | item :: items => do
    let record ← fromValue item
    let records ← eachFromValue items
    pure (record :: records)

def listFromValue : JsonValue → Option (List ResidualGateRecord)
  | .array items => eachFromValue items
  | _ => none

def listToValue (records : List ResidualGateRecord) : JsonValue := .array (records.map toValue)

-- A record is read back as it was written, if it can be written at all.

theorem idFromValue_idToValue (id : Option (Id kind)) : idFromValue (idToValue id) = some id := by
  cases id with
  | none => rfl
  | some id => simp [idToValue, idFromValue, Id.new_ok.mpr (rfl : id.value = id.value)]

theorem floatFromValue_floatToValue (x : Binary64) :
    floatFromValue (floatToValue x) = if x.isFinite then some x else none := by
  unfold floatToValue
  split <;> rfl

theorem fromValue_toValue (record : ResidualGateRecord) :
    fromValue record.toValue =
      if record.gate.isFinite && record.rli.isFinite then some record else none := by
  have h : fromValue record.toValue = fromFields (some (idToValue record.variantId))
      (some (idToValue record.foldId)) (some (floatToValue record.gate))
      (some (floatToValue record.rli)) := rfl
  rw [h]
  simp only [fromFields, Option.getD_some, idFromValue_idToValue, floatFromValue_floatToValue,
    Option.bind_eq_bind, Option.bind_some]
  cases hg : record.gate.isFinite <;> cases hl : record.rli.isFinite <;> simp

theorem eachFromValue_toValue {records records' : List ResidualGateRecord} :
    eachFromValue (records.map toValue) = some records' ↔
      records' = records ∧ ∀ r ∈ records, r.gate.isFinite = true ∧ r.rli.isFinite = true := by
  induction records generalizing records' with
  | nil => simp [eachFromValue, @eq_comm _ [] records']
  | cons r rs ih =>
    simp only [List.map_cons, eachFromValue, fromValue_toValue, Option.bind_eq_bind,
      Option.bind_eq_some_iff, List.forall_mem_cons, ih]
    constructor
    · rintro ⟨r', hr, rs', ⟨rfl, hrs⟩, h⟩
      split at hr
      · rename_i hf
        cases hr
        cases h
        exact ⟨rfl, by simpa using hf, hrs⟩
      · cases hr
    · rintro ⟨rfl, hf, hrs⟩
      exact ⟨r, by simp [hf], rs, ⟨rfl, hrs⟩, rfl⟩

theorem listFromValue_listToValue {records records' : List ResidualGateRecord} :
    listFromValue (listToValue records) = some records' ↔
      records' = records ∧ ∀ r ∈ records, r.gate.isFinite = true ∧ r.rli.isFinite = true :=
  eachFromValue_toValue

end ResidualGateRecord

-- ---------------------------------------------------------------------------
-- Export and import
-- ---------------------------------------------------------------------------

namespace RunContext

open ResidualGateRecord

def residualGateRecords (self : RunContext) : List ResidualGateRecord :=
  self.residualGates.toList.map fun e => ⟨e.1.variantId, e.1.foldId, e.2.gate, e.2.rli⟩

abbrev Gates := BTreeMap GateScope ResidualGateResult

/-- One turn of the import loop. -/
def importRecord (gates : Gates) (record : ResidualGateRecord) : Result Gates := do
  refuseIf (record.gate.isFinite = false ∨
      (Binary64.zero.le record.gate && record.gate.le (.ofNat 1)) = false ∨
      record.rli.isFinite = false)
    (.runtimeValidation "bundle has non-finite or out-of-range automatic residual gate")
  whenSome gates[record.scope]? fun existing =>
    refuseIf (existing.eq record.result = false)
      (.runtimeValidation "bundle contradicts an existing residual gate scope")
  pure (gates.insert record.scope record.result)

/-- `decodeError` is the text of the decoder's own error. -/
def importResidualGateRecords (decodeError : JsonValue → String) (value : JsonValue) :
    Method DagMlError RunContext Unit := fun self =>
  match listFromValue value with
  | none =>
    let detail := decodeError value
    (.error (.runtimeValidation s!"bundle has invalid residual gate records: {detail}"), self)
  | some records =>
    let imported := Method.eachInPlace importRecord records self.residualGates
    (imported.1, { self with residualGates := imported.2 })

-- ---------------------------------------------------------------------------
-- What an import does
-- ---------------------------------------------------------------------------

/-- The range a portable gate has to lie in. -/
structure Portable (result : ResidualGateResult) : Prop where
  gate_finite : result.gate.isFinite = true
  gate_range : (Binary64.zero.le result.gate && result.gate.le (.ofNat 1)) = true
  rli_finite : result.rli.isFinite = true

/-- A record the import loop inserts. -/
structure Accepts (gates : Gates) (record : ResidualGateRecord) : Prop where
  portable : Portable record.result
  consistent : ∀ existing, gates[record.scope]? = some existing → existing.eq record.result = true

theorem importRecord_ok :
    importRecord gates record = .ok gates' ↔
      Accepts gates record ∧ gates' = gates.insert record.scope record.result := by
  simp only [importRecord, bind_ok, refuseIf_ok, whenSome_ok, pure_ok, not_or, Bool.not_eq_false]
  constructor
  · rintro ⟨_, ⟨hg, hr, hl⟩, _, hc, rfl⟩
    exact ⟨⟨⟨hg, hr, hl⟩, hc⟩, rfl⟩
  · rintro ⟨⟨⟨hg, hr, hl⟩, hc⟩, rfl⟩
    exact ⟨(), ⟨hg, hr, hl⟩, (), hc, rfl⟩

/-- The gates with every record inserted, in order. -/
def extend (gates : Gates) (records : List ResidualGateRecord) : Gates :=
  records.foldl (fun gates r => gates.insert r.scope r.result) gates

/-- Every record is accepted after the ones before it. -/
def AcceptsAll (gates : Gates) : List ResidualGateRecord → Prop
  | [] => True
  | r :: rs => Accepts gates r ∧ AcceptsAll (gates.insert r.scope r.result) rs

theorem loop_importRecord_ok {records : List ResidualGateRecord} :
    loop importRecord gates records = .ok gates' ↔
      AcceptsAll gates records ∧ gates' = extend gates records := by
  induction records generalizing gates with
  | nil => simp [AcceptsAll, extend, eq_comm]
  | cons r rs ih =>
    rw [loop_cons]
    constructor
    · rintro ⟨t, hr, hrs⟩
      obtain ⟨ha, rfl⟩ := importRecord_ok.mp hr
      obtain ⟨has, rfl⟩ := ih.mp hrs
      exact ⟨⟨ha, has⟩, rfl⟩
    · rintro ⟨⟨ha, has⟩, rfl⟩
      exact ⟨_, importRecord_ok.mpr ⟨ha, rfl⟩, ih.mpr ⟨has, rfl⟩⟩

theorem importRecord_fails :
    (∃ e, importRecord gates record = .error e) ↔ ¬Accepts gates record := by
  constructor
  · rintro ⟨e, he⟩ h
    rw [importRecord_ok.mpr ⟨h, rfl⟩] at he
    cases he
  · intro h
    cases hr : importRecord gates record with
    | ok gates' => exact (h (importRecord_ok.mp hr).1).elim
    | error e => exact ⟨e, rfl⟩

theorem AcceptsAll.portable {records : List ResidualGateRecord} (h : AcceptsAll gates records) :
    ∀ r ∈ records, Portable r.result := by
  induction records generalizing gates with
  | nil => simp
  | cons r rs ih =>
    rw [List.forall_mem_cons]
    exact ⟨h.1.portable, ih h.2⟩

/-- Records of distinct scopes that are not there yet only have to be portable. -/
theorem acceptsAll_of_fresh {records : List ResidualGateRecord}
    (hp : ∀ r ∈ records, Portable r.result) (hn : (records.map scope).Nodup)
    (hg : ∀ r ∈ records, gates[r.scope]? = none) : AcceptsAll gates records := by
  induction records generalizing gates with
  | nil => trivial
  | cons r rs ih =>
    rw [List.forall_mem_cons] at hp hg
    rw [List.map_cons, List.nodup_cons] at hn
    refine ⟨⟨hp.1, by simp [hg.1]⟩, ih hp.2 hn.2 ?_⟩
    intro r' hr'
    have hne : r.scope ≠ r'.scope := fun h => hn.1 (h ▸ List.mem_map_of_mem hr')
    rw [BTreeMap.getElem?_insert, if_neg hne]
    exact hg.2 r' hr'

-- ---------------------------------------------------------------------------
-- Failed imports and round trips
-- ---------------------------------------------------------------------------

theorem importResidualGateRecords_ok (decodeError : JsonValue → String) {ctx : RunContext} :
    importResidualGateRecords decodeError value ctx = (.ok (), ctx') ↔
      ∃ records, listFromValue value = some records ∧ AcceptsAll ctx.residualGates records ∧
        ctx' = { ctx with residualGates := extend ctx.residualGates records } := by
  unfold importResidualGateRecords
  cases listFromValue value with
  | none => simp
  | some records =>
    simp only [Prod.mk.injEq, Option.some.injEq, exists_eq_left']
    constructor
    · rintro ⟨hok, rfl⟩
      obtain ⟨ha, ht⟩ :=
        loop_importRecord_ok.mp (Method.eachInPlace_ok.mp (Prod.ext hok rfl))
      exact ⟨ha, congrArg (fun gates => { ctx with residualGates := gates }) ht⟩
    · rintro ⟨ha, rfl⟩
      rw [Method.eachInPlace_ok.mpr (loop_importRecord_ok.mpr ⟨ha, rfl⟩)]
      exact ⟨rfl, rfl⟩

theorem importResidualGateRecords_undecoded (decodeError : JsonValue → String) (ctx : RunContext)
    (hv : listFromValue value = none) :
    ∃ e, importResidualGateRecords decodeError value ctx = (.error e, ctx) := by
  unfold importResidualGateRecords
  rw [hv]
  exact ⟨_, rfl⟩

/-- A failed import leaves what the records before the refused one made. -/
theorem importResidualGateRecords_error (decodeError : JsonValue → String) {ctx : RunContext}
    {records : List ResidualGateRecord} (hv : listFromValue value = some records) :
    (∃ e, importResidualGateRecords decodeError value ctx = (.error e, ctx')) ↔
      ∃ before r rest, records = before ++ r :: rest ∧ AcceptsAll ctx.residualGates before ∧
        ¬Accepts (extend ctx.residualGates before) r ∧
        ctx' = { ctx with residualGates := extend ctx.residualGates before } := by
  unfold importResidualGateRecords
  simp only [hv, Prod.mk.injEq]
  constructor
  · rintro ⟨e, he, rfl⟩
    obtain ⟨before, r, rest, hl, hb, hr⟩ := Method.eachInPlace_error.mp (Prod.ext he rfl)
    obtain ⟨ha, ht⟩ := loop_importRecord_ok.mp hb
    rw [ht] at hr
    exact ⟨before, r, rest, hl, ha, importRecord_fails.mp ⟨e, hr⟩,
      congrArg (fun gates => { ctx with residualGates := gates }) ht⟩
  · rintro ⟨before, r, rest, hl, ha, hr, rfl⟩
    obtain ⟨e, he⟩ := importRecord_fails.mpr hr
    have h := Method.eachInPlace_error.mpr
      ⟨before, r, rest, hl, loop_importRecord_ok.mpr ⟨ha, rfl⟩, he⟩
    rw [h]
    exact ⟨e, rfl, rfl⟩

theorem extend_residualGateRecords (ctx : RunContext) :
    extend ∅ ctx.residualGateRecords = ctx.residualGates := by
  have h : extend ∅ ctx.residualGateRecords = BTreeMap.collect ctx.residualGates.toList := by
    rw [extend, residualGateRecords, List.foldl_map]
    rfl
  rw [h]
  refine BTreeMap.eq_iff.mpr fun k v => ?_
  rw [BTreeMap.getElem?_collect (BTreeMap.functional_of_nodup (BTreeMap.nodup_keys_toList _)),
    BTreeMap.mem_toList]

theorem forall_residualGateRecords (ctx : RunContext) (P : ResidualGateResult → Prop) :
    (∀ r ∈ ctx.residualGateRecords, P r.result) ↔
      ∀ (scope : GateScope) result, ctx.residualGates[scope]? = some result → P result := by
  simp only [residualGateRecords, List.forall_mem_map]
  constructor
  · intro h scope result hr
    exact h (scope, result) (BTreeMap.mem_toList.mpr hr)
  · intro h e he
    exact h e.1 e.2 (BTreeMap.mem_toList.mp he)

/-- An export is read back into an empty context exactly when every gate of
the context lies in the portable range. -/
theorem import_export_iff (decodeError : JsonValue → String) (ctx : RunContext) (runId : RunId)
    (seed : Option UInt64) :
    (∃ ctx', importResidualGateRecords decodeError (listToValue ctx.residualGateRecords)
        (new runId seed) = (.ok (), ctx') ∧ ctx'.residualGates = ctx.residualGates) ↔
      ∀ (scope : GateScope) result, ctx.residualGates[scope]? = some result → Portable result := by
  rw [← forall_residualGateRecords]
  constructor
  · rintro ⟨ctx', h, -⟩
    obtain ⟨records, hd, ha, -⟩ := (importResidualGateRecords_ok decodeError).mp h
    obtain ⟨rfl, -⟩ := listFromValue_listToValue.mp hd
    exact ha.portable
  · intro h
    have hscopes : (ctx.residualGateRecords.map scope).Nodup := by
      rw [residualGateRecords, List.map_map]
      exact BTreeMap.nodup_keys_toList _
    refine ⟨_, (importResidualGateRecords_ok decodeError).mpr
      ⟨_, listFromValue_listToValue.mpr ⟨rfl, fun r hr => ⟨(h r hr).gate_finite,
        (h r hr).rli_finite⟩⟩, acceptsAll_of_fresh h hscopes (fun r _ => ?_), rfl⟩, ?_⟩
    · simp [new]
    · exact extend_residualGateRecords ctx

/-- When an import is all or nothing, and when it undoes an export. The loop
writes as it goes, so a refused record is harmless only if the records before
it changed nothing. -/
theorem import_transactional_iff (decodeError : JsonValue → String) (ctx : RunContext) :
    (∀ value,
      ((∃ ctx' records, importResidualGateRecords decodeError value ctx = (.ok (), ctx') ∧
          listFromValue value = some records ∧
          ctx'.residualGates = extend ctx.residualGates records) ∨
        ∃ e ctx', importResidualGateRecords decodeError value ctx = (.error e, ctx') ∧
          ctx'.residualGates = ctx.residualGates) ↔
      ∀ records before r rest, listFromValue value = some records →
        records = before ++ r :: rest → AcceptsAll ctx.residualGates before →
        ¬Accepts (extend ctx.residualGates before) r →
        extend ctx.residualGates before = ctx.residualGates) ∧
    ∀ runId seed,
      (∃ ctx', importResidualGateRecords decodeError (listToValue ctx.residualGateRecords)
          (new runId seed) = (.ok (), ctx') ∧ ctx'.residualGates = ctx.residualGates) ↔
        ∀ (scope : GateScope) result, ctx.residualGates[scope]? = some result → Portable result := by
  refine ⟨fun value => ⟨?_, ?_⟩, fun runId seed => import_export_iff decodeError ctx runId seed⟩
  · intro h records before r rest hv hl ha hr
    obtain ⟨e, he⟩ := (importResidualGateRecords_error decodeError hv).mpr
      ⟨before, r, rest, hl, ha, hr, rfl⟩
    rcases h with ⟨ctx', records', hok, -, -⟩ | ⟨e', ctx', herr, hkeep⟩
    · rw [he] at hok
      cases hok
    · rw [he] at herr
      cases herr
      exact hkeep
  · intro h
    cases hv : listFromValue value with
    | none =>
      obtain ⟨e, he⟩ := importResidualGateRecords_undecoded decodeError ctx hv
      exact .inr ⟨e, ctx, he, rfl⟩
    | some records =>
      cases hi : importResidualGateRecords decodeError value ctx with
      | mk result ctx' =>
        cases result with
        | ok u =>
          obtain ⟨records', hv', -, rfl⟩ := (importResidualGateRecords_ok decodeError).mp hi
          exact .inl ⟨_, records', rfl, hv.symm.trans hv', rfl⟩
        | error e =>
          obtain ⟨before, r, rest, hl, ha, hr, rfl⟩ :=
            (importResidualGateRecords_error decodeError hv).mp ⟨e, hi⟩
          exact .inr ⟨e, _, rfl, h records before r rest hv hl ha hr⟩

/-- The second record is refused, and the first one stays. -/
theorem refused_import_stays :
    let first : ResidualGateRecord :=
      ⟨some ⟨"variant:base", by decide⟩, none, ⟨0x3fe0000000000000⟩, .zero⟩
    let second : ResidualGateRecord := ⟨none, none, .ofNat 2, .zero⟩
    let ctx := new ⟨"run:gates", by decide⟩ none
    let imported := importResidualGateRecords (fun _ => "") (listToValue [first, second]) ctx
    (∃ e, imported.1 = .error e) ∧ ctx.residualGates[first.scope]? = none ∧
      imported.2.residualGates[first.scope]? = some first.result := by
  refine ⟨⟨.runtimeValidation "bundle has non-finite or out-of-range automatic residual gate", ?_⟩,
    ?_, ?_⟩ <;> decide +kernel

end RunContext

end DagMl
