import DagMl.Lib.Binary64

/-!
# JSON values

The untyped JSON values carried in metadata and parameters.
-/

namespace DagMl

/-- A number keeps the representation it was read with. -/
inductive JsonNumber
  | posInt (n : UInt64)
  | negInt (n : Int64)
  | float (x : Binary64)
  deriving DecidableEq

/-- `serde_json::Value`. An object is its list of entries, with distinct keys. -/
inductive JsonValue
  | null
  | bool (b : Bool)
  | number (n : JsonNumber)
  | string (s : String)
  | array (items : List JsonValue)
  | object (entries : List (String × JsonValue))

namespace JsonValue

def isNull : JsonValue → Bool
  | .null => true
  | _ => false

def asBool : JsonValue → Option Bool
  | .bool b => some b
  | _ => none

def asStr : JsonValue → Option String
  | .string s => some s
  | _ => none

/-- Every value is reached from its children. -/
@[elab_as_elim]
theorem childInduction {P : JsonValue → Prop} (null : P .null) (bool : ∀ b, P (.bool b))
    (number : ∀ n, P (.number n)) (string : ∀ s, P (.string s))
    (array : ∀ items, (∀ v ∈ items, P v) → P (.array items))
    (object : ∀ entries, (∀ e ∈ entries, P e.2) → P (.object entries)) (v : JsonValue) : P v :=
  @JsonValue.rec P (fun items => ∀ v ∈ items, P v) (fun entries => ∀ e ∈ entries, P e.2)
    (fun e => P e.2) null bool number string array object
    (by simp) (fun _ _ hv hvs => List.forall_mem_cons.mpr ⟨hv, hvs⟩)
    (by simp) (fun _ _ he hes => List.forall_mem_cons.mpr ⟨he, hes⟩) (fun _ _ hv => hv) v

-- ---------------------------------------------------------------------------
-- What a value can hold
-- ---------------------------------------------------------------------------

/-- The integer forms are told apart by sign, and a float is finite. -/
def numberValid : JsonNumber → Prop
  | .posInt _ => True
  | .negInt n => n.toInt < 0
  | .float x => x.isFinite = true

mutual
/-- The invariants of `serde_json::Value`, at every depth. -/
def Valid : JsonValue → Prop
  | .null => True
  | .bool _ => True
  | .number n => numberValid n
  | .string _ => True
  | .array items => ValidItems items
  | .object entries => (entries.map Prod.fst).Nodup ∧ ValidEntries entries

def ValidItems : List JsonValue → Prop
  | [] => True
  | v :: vs => Valid v ∧ ValidItems vs

def ValidEntries : List (String × JsonValue) → Prop
  | [] => True
  | (_, v) :: es => Valid v ∧ ValidEntries es
end

theorem validItems_iff {items : List JsonValue} : ValidItems items ↔ ∀ v ∈ items, Valid v := by
  induction items with
  | nil => simp [ValidItems]
  | cons v vs ih => rw [ValidItems, ih, List.forall_mem_cons]

theorem validEntries_iff {entries : List (String × JsonValue)} :
    ValidEntries entries ↔ ∀ e ∈ entries, Valid e.2 := by
  induction entries with
  | nil => simp [ValidEntries]
  | cons e es ih => rw [ValidEntries, ih, List.forall_mem_cons]

end JsonValue

/-- A value as the JSON library can build it. -/
structure JsonDocument where
  value : JsonValue
  valid : value.Valid

/-- `Value::Null`. -/
def nullDocument : JsonDocument := ⟨.null, trivial⟩

end DagMl
