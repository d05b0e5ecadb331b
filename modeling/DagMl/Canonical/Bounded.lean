import DagMl.Canonical.Parser

/-!
# The budget and the encoding

What is parsed on a budget is what is parsed without one, if it has no more
nodes than the budget; and all of it can be encoded. Every loop of the parser
reads on in each turn, so none runs out of turns.
-/

namespace DagMl

open Scanner

-- ---------------------------------------------------------------------------
-- Reading on
-- ---------------------------------------------------------------------------

namespace Reader

theorem shrinks_peek : Shrinks Cursor.size peek := by
  intro s a s' h
  cases h
  exact le_rfl

theorem shrinks_position : Shrinks Cursor.size position := by
  intro s a s' h
  cases h
  exact le_rfl

theorem shrinks_skip : Shrinks Cursor.size skip := by
  intro s a s' h
  cases h
  simp [Cursor.size, Cursor.moveTo]

/-- Skipping what was peeked reads on. -/
theorem size_lt_of_skip {cur cur' cur'' : Cursor} (hpeek : peek cur = .ok (some c, cur'))
    (hskip : skip cur' = .ok ((), cur'')) : cur''.size < cur.size := by
  cases hskip
  simp only [peek, Except.ok.injEq, Prod.mk.injEq] at hpeek
  obtain ⟨hhead, rfl⟩ := hpeek
  obtain ⟨rest, hrest⟩ := List.head?_eq_some_iff.mp hhead
  simp [Cursor.size, Cursor.moveTo, hrest]

theorem shrinks_skipWhile (p : Char → Bool) : Shrinks Cursor.size (skipWhile p) := by
  intro s a s' h
  cases h
  exact (List.dropWhile_suffix p).length_le

theorem shrinks_invalid {α : Type} (message : String) :
    Shrinks Cursor.size (invalid message : Reader α) := Shrinks.fail _

theorem shrinks_attempt {α : Type} (result : Tcv1Result α) :
    Shrinks Cursor.size (attempt result) := by
  intro s a s' h
  cases result with
  | ok a =>
    cases h
    exact le_rfl
  | error e => cases h

theorem shrinks_skipWhitespace : Shrinks Cursor.size skipWhitespace :=
  (shrinks_skipWhile _).bind fun _ => .pure _

theorem shrinks_consumeIf (expected : Char) : Shrinks Cursor.size (consumeIf expected) := by
  refine shrinks_peek.bind fun next => ?_
  split
  · exact shrinks_skip.bind fun _ => .pure _
  · exact .pure _

theorem shrinks_expect (expected : Char) (message : String) :
    Shrinks Cursor.size (expect expected message) := by
  refine (shrinks_consumeIf expected).bind fun found => ?_
  split
  · exact .pure _
  · exact shrinks_invalid _

theorem shrinks_startsWith (text : String) : Shrinks Cursor.size (startsWith text) := by
  intro s a s' h
  cases h
  exact le_rfl

theorem shrinks_consumeLiteral (literal : String) :
    Shrinks Cursor.size (consumeLiteral literal) := by
  refine (shrinks_startsWith literal).bind fun found => ?_
  split
  · intro s a s' h
    cases h
    simp [Cursor.size, Cursor.moveTo]
  · exact shrinks_invalid _

theorem shrinks_peekDigit : Shrinks Cursor.size peekDigit :=
  shrinks_peek.bind fun _ => .pure _

theorem shrinks_digits (message : String) : Shrinks Cursor.size (digits message) := by
  refine shrinks_peekDigit.bind fun found => ?_
  split
  · exact shrinks_skipWhile _
  · exact shrinks_invalid _

theorem shrinks_integerDigits : Shrinks Cursor.size integerDigits := by
  refine (shrinks_consumeIf _).bind fun found => ?_
  split
  · refine shrinks_peekDigit.bind fun found => ?_
    split
    · exact shrinks_invalid _
    · exact .pure _
  · exact shrinks_digits _

theorem shrinks_fractionDigits : Shrinks Cursor.size fractionDigits := by
  refine (shrinks_consumeIf _).bind fun found => ?_
  split
  · exact (shrinks_digits _).bind fun _ => .pure _
  · exact .pure _

theorem shrinks_exponentPart : Shrinks Cursor.size exponentPart := by
  have hskip (b : Bool) : Shrinks Cursor.size (skip >>= fun _ => pure b) :=
    shrinks_skip.bind fun _ => .pure _
  have hmark : Shrinks Cursor.size exponentMark := by
    refine shrinks_peek.bind fun next => ?_
    split
    · exact hskip true
    · exact hskip true
    · exact .pure _
  have hsign : Shrinks Cursor.size consumeSign := by
    refine shrinks_peek.bind fun next => ?_
    split
    · exact hskip false
    · exact hskip true
    · exact .pure _
  refine hmark.bind fun found => ?_
  split
  · exact hsign.bind fun _ => (shrinks_digits _).bind fun _ => .pure _
  · exact .pure _

theorem shrinks_parseNumber : Shrinks Cursor.size parseNumber :=
  shrinks_position.bind fun _ => (shrinks_consumeIf _).bind fun _ =>
    shrinks_integerDigits.bind fun _ => shrinks_fractionDigits.bind fun _ =>
      shrinks_exponentPart.bind fun _ => shrinks_attempt _

theorem shrinks_parseHexQuad : Shrinks Cursor.size parseHexQuad := by
  have hbytes : Shrinks Cursor.size bytesLeft := by
    intro s a s' h
    cases h
    exact le_rfl
  have hdigits (count value : Nat) : Shrinks Cursor.size (hexDigits count value) := by
    induction count generalizing value with
    | zero => exact .pure _
    | succ count ih =>
      refine shrinks_peek.bind fun next => ?_
      split
      · exact shrinks_skip.bind fun _ => ih _
      · exact shrinks_invalid _
  refine hbytes.bind fun left => ?_
  split
  · exact shrinks_invalid _
  · exact hdigits 4 0

theorem shrinks_parseUnicodeEscape : Shrinks Cursor.size parseUnicodeEscape := by
  have hlow (first : Nat) : Shrinks Cursor.size (parseLowSurrogate first) := by
    refine shrinks_position.bind fun _ => shrinks_parseHexQuad.bind fun low => ?_
    split
    · exact .pure _
    · exact Shrinks.fail _
  refine shrinks_position.bind fun _ => shrinks_parseHexQuad.bind fun first => ?_
  split
  · refine (shrinks_startsWith _).bind fun found => ?_
    split
    · exact shrinks_skip.bind fun _ => shrinks_skip.bind fun _ => hlow first
    · exact Shrinks.fail _
  · split
    · exact Shrinks.fail _
    · exact .pure _

theorem shrinks_parseEscape : Shrinks Cursor.size parseEscape := by
  refine shrinks_peek.bind fun next => ?_
  split
  · exact shrinks_invalid _
  · exact shrinks_skip.bind fun _ => shrinks_parseUnicodeEscape
  · split
    · exact shrinks_skip.bind fun _ => .pure _
    · exact shrinks_invalid _

/-- A turn that goes on has read on. -/
theorem stringTurn_decreases (output : List Char) (s : Cursor) (output' : List Char) (s' : Cursor)
    (h : stringTurn output s = .ok (.inl output', s')) : s'.size < s.size := by
  obtain ⟨next, s₁, hpeek, h⟩ := bind_ok.mp h
  split at h
  · exact absurd h (by simp [invalid])
  · obtain ⟨_, s₂, -, h⟩ := bind_ok.mp h
    obtain ⟨hinr, -⟩ := pure_ok.mp h
    cases hinr
  · obtain ⟨_, s₂, hskip, h⟩ := bind_ok.mp h
    obtain ⟨c, s₃, hescape, h⟩ := bind_ok.mp h
    obtain ⟨-, rfl⟩ := pure_ok.mp h
    exact lt_of_le_of_lt (shrinks_parseEscape _ _ _ hescape) (size_lt_of_skip hpeek hskip)
  · split at h
    · exact absurd h (by simp [invalid])
    · obtain ⟨_, s₂, hskip, h⟩ := bind_ok.mp h
      obtain ⟨-, rfl⟩ := pure_ok.mp h
      exact size_lt_of_skip hpeek hskip

theorem shrinks_parseString : Shrinks Cursor.size parseString := by
  have hturn (output : List Char) : Shrinks Cursor.size (stringTurn output) := by
    refine shrinks_peek.bind fun next => ?_
    split
    · exact shrinks_invalid _
    · exact shrinks_skip.bind fun _ => .pure _
    · exact shrinks_skip.bind fun _ => shrinks_parseEscape.bind fun _ => .pure _
    · split
      · exact shrinks_invalid _
      · exact shrinks_skip.bind fun _ => .pure _
  exact shrinks_skip.bind fun _ => (Shrinks.repeatUntil hturn []).bind fun _ => .pure _

end Reader

namespace Parser

open Reader TypedCanonicalValue

/-- What is left to read. -/
abbrev left (s : Cursor × Nat) : Nat := s.1.size

theorem left_lt_of_skip {s s' s'' : Cursor × Nat} (hpeek : free peek s = .ok (some c, s'))
    (hskip : free skip s' = .ok ((), s'')) : left s'' < left s :=
  size_lt_of_skip (free_ok.mp hpeek).1 (free_ok.mp hskip).1

theorem arrayTurn_decreases {parseItem : Parser TypedCanonicalValue}
    (hitem : Shrinks left parseItem) (values : Values) (s : Cursor × Nat) (values' : Values)
    (s' : Cursor × Nat) (h : arrayTurn parseItem values s = .ok (.inl values', s')) :
    left s' < left s := by
  obtain ⟨value, s₁, hvalue, h⟩ := bind_ok.mp h
  obtain ⟨_, s₂, hspace, h⟩ := bind_ok.mp h
  obtain ⟨next, s₃, hpeek, h⟩ := bind_ok.mp h
  have hle := (shrinks_skipWhitespace.free _ _ _ hspace).trans (hitem _ _ _ hvalue)
  split at h
  · obtain ⟨_, s₄, hskip, h⟩ := bind_ok.mp h
    obtain ⟨-, rfl⟩ := pure_ok.mp h
    exact lt_of_lt_of_le (left_lt_of_skip hpeek hskip) hle
  · obtain ⟨_, s₄, -, h⟩ := bind_ok.mp h
    obtain ⟨hinr, -⟩ := pure_ok.mp h
    cases hinr
  · exact absurd (free_ok.mp h).1 (by simp [invalid])
  · exact absurd (free_ok.mp h).1 (by simp [invalid])

theorem shrinks_arrayTurn {parseItem : Parser TypedCanonicalValue}
    (hitem : Shrinks left parseItem) (values : Values) :
    Shrinks left (arrayTurn parseItem values) := by
  refine hitem.bind fun value => shrinks_skipWhitespace.free.bind fun _ =>
    shrinks_peek.free.bind fun next => ?_
  split
  · exact shrinks_skip.free.bind fun _ => .pure _
  · exact shrinks_skip.free.bind fun _ => .pure _
  · exact (shrinks_invalid _).free
  · exact (shrinks_invalid _).free

theorem shrinks_parseArray {parseItem : Parser TypedCanonicalValue}
    (hitem : Shrinks left parseItem) : Shrinks left (parseArray parseItem) := by
  refine shrinks_skip.free.bind fun _ => shrinks_skipWhitespace.free.bind fun _ =>
    (shrinks_consumeIf _).free.bind fun closed => ?_
  split
  · exact .pure _
  · exact (Shrinks.repeatUntil (shrinks_arrayTurn hitem) []).bind fun _ => .pure _

variable {nfc : String → String}

theorem shrinks_parseKey (normalizedKeys : BTreeMap String String) :
    Shrinks Cursor.size (parseKey nfc normalizedKeys) := by
  refine shrinks_skipWhitespace.bind fun _ => shrinks_peek.bind fun next => ?_
  split
  · exact shrinks_position.bind fun _ => shrinks_parseString.bind fun _ =>
      (shrinks_attempt _).bind fun _ => shrinks_skipWhitespace.bind fun _ =>
        (shrinks_expect _ _).bind fun _ => .pure _
  · exact shrinks_invalid _

theorem objectTurn_decreases {parseItem : Parser TypedCanonicalValue}
    (hitem : Shrinks left parseItem) (members : Members) (s : Cursor × Nat) (members' : Members)
    (s' : Cursor × Nat) (h : objectTurn nfc parseItem members s = .ok (.inl members', s')) :
    left s' < left s := by
  obtain ⟨⟨key, normalizedKeys⟩, s₀, hkey, h⟩ := bind_ok.mp h
  obtain ⟨value, s₁, hvalue, h⟩ := bind_ok.mp h
  obtain ⟨_, s₂, hspace, h⟩ := bind_ok.mp h
  obtain ⟨next, s₃, hpeek, h⟩ := bind_ok.mp h
  have hle := (shrinks_skipWhitespace.free _ _ _ hspace).trans
    ((hitem _ _ _ hvalue).trans ((shrinks_parseKey _).free _ _ _ hkey))
  split at h
  · obtain ⟨_, s₄, hskip, h⟩ := bind_ok.mp h
    obtain ⟨-, rfl⟩ := pure_ok.mp h
    exact lt_of_lt_of_le (left_lt_of_skip hpeek hskip) hle
  · obtain ⟨_, s₄, -, h⟩ := bind_ok.mp h
    obtain ⟨hinr, -⟩ := pure_ok.mp h
    cases hinr
  · exact absurd (free_ok.mp h).1 (by simp [invalid])
  · exact absurd (free_ok.mp h).1 (by simp [invalid])

theorem shrinks_objectTurn {parseItem : Parser TypedCanonicalValue}
    (hitem : Shrinks left parseItem) (members : Members) :
    Shrinks left (objectTurn nfc parseItem members) := by
  refine (shrinks_parseKey _).free.bind fun _ => hitem.bind fun value =>
    shrinks_skipWhitespace.free.bind fun _ => shrinks_peek.free.bind fun next => ?_
  split
  · exact shrinks_skip.free.bind fun _ => .pure _
  · exact shrinks_skip.free.bind fun _ => .pure _
  · exact (shrinks_invalid _).free
  · exact (shrinks_invalid _).free

theorem shrinks_parseObject {parseItem : Parser TypedCanonicalValue}
    (hitem : Shrinks left parseItem) : Shrinks left (parseObject nfc parseItem) := by
  refine shrinks_skip.free.bind fun _ => shrinks_skipWhitespace.free.bind fun _ =>
    (shrinks_consumeIf _).free.bind fun closed => ?_
  split
  · exact .pure _
  · exact (Shrinks.repeatUntil (shrinks_objectTurn hitem) ([], ∅)).bind fun _ => .pure _

theorem shrinks_parseValue (levels : Nat) : Shrinks left (parseValue nfc levels) := by
  induction levels with
  | zero => exact Shrinks.charge.bind fun _ => (Shrinks.fail _).free
  | succ levels ih =>
    refine Shrinks.charge.bind fun _ => shrinks_skipWhitespace.free.bind fun _ =>
      shrinks_peek.free.bind fun next => ?_
    have hliteral (literal : String) (value : TypedCanonicalValue) :
        Shrinks left (free (consumeLiteral literal) >>= fun _ => pure value) :=
      (shrinks_consumeLiteral literal).free.bind fun _ => .pure _
    split
    · exact hliteral _ _
    · exact hliteral _ _
    · exact hliteral _ _
    · exact shrinks_parseString.free.bind fun _ => .pure _
    · exact shrinks_parseArray ih
    · exact shrinks_parseObject ih
    · refine Shrinks.free ?_
      split
      · exact shrinks_parseNumber
      · exact shrinks_invalid _
    · exact (shrinks_invalid _).free

/-- No loop of the parser ends for want of turns. -/
theorem loops_unbounded (nfc : String → String) (levels : Nat) :
    (∀ output, repeatUntil exhausted stringTurn Cursor.size output =
      stringTurn output >>= Sum.elim (repeatUntil exhausted stringTurn Cursor.size) pure) ∧
    (∀ values, repeatUntil exhausted (arrayTurn (parseValue nfc levels)) left values =
      arrayTurn (parseValue nfc levels) values >>=
        Sum.elim (repeatUntil exhausted (arrayTurn (parseValue nfc levels)) left) pure) ∧
    (∀ members, repeatUntil exhausted (objectTurn nfc (parseValue nfc levels)) left members =
      objectTurn nfc (parseValue nfc levels) members >>=
        Sum.elim (repeatUntil exhausted (objectTurn nfc (parseValue nfc levels)) left) pure) := by
  refine ⟨fun output => repeatUntil_eq ?_, fun values => repeatUntil_eq ?_,
    fun members => repeatUntil_eq ?_⟩
  · exact stringTurn_decreases
  · exact arrayTurn_decreases (shrinks_parseValue levels)
  · exact objectTurn_decreases (shrinks_parseValue levels)

-- ---------------------------------------------------------------------------
-- The budget
-- ---------------------------------------------------------------------------

/-- A reader draws on no budget. -/
theorem charged_read {α : Type} (m : Reader α) : Charged (free m) fun _ c => c = 0 :=
  charged_free fun _ _ _ _ => rfl

/-- One more item, its cost on top. -/
theorem charged_arrayTurn {parseItem : Parser TypedCanonicalValue}
    (hitem : Charged parseItem fun v c => c = v.nodes) (values : Values) :
    Charged (arrayTurn parseItem values) fun x c =>
      Sum.elim nodesOfValues nodesOfValues x = nodesOfValues values + c := by
  refine charged_bind hitem fun value c hc => charged_bind (charged_read _) fun _ d hd =>
    charged_bind (charged_read _) fun next e he => ?_
  have hsum : nodesOfValues (values ++ [value]) = nodesOfValues values + c := by
    rw [nodesOfValues_append, hc]
    rfl
  subst hd he
  split
  · refine charged_bind (charged_read _) fun _ f hf => charged_pure ?_
    simpa [hf] using hsum
  · refine charged_bind (charged_read _) fun _ f hf => charged_pure ?_
    simpa [hf] using hsum
  · exact charged_free fun s a s' h => absurd h (by simp [invalid])
  · exact charged_free fun s a s' h => absurd h (by simp [invalid])

theorem charged_parseArray {parseItem : Parser TypedCanonicalValue}
    (hitem : Charged parseItem fun v c => c = v.nodes) :
    Charged (parseArray parseItem) fun v c => v.nodes = 1 + c := by
  refine charged_bind (charged_read _) fun _ c hc => charged_bind (charged_read _) fun _ d hd =>
    charged_bind (charged_read _) fun closed e he => ?_
  subst hc hd he
  split
  · exact charged_pure (by simp [nodes, nodesOfValues])
  · refine charged_bind (charged_repeatUntil (charged_arrayTurn hitem) []) fun values c hc =>
      charged_pure ?_
    simp [nodes, nodesOfValues, hc]

variable (nfc) in
theorem charged_objectTurn {parseItem : Parser TypedCanonicalValue}
    (hitem : Charged parseItem fun v c => c = v.nodes) (members : Members) :
    Charged (objectTurn nfc parseItem members) fun x c =>
      Sum.elim (fun m => nodesOfEntries m.1) (fun m => nodesOfEntries m.1) x =
        nodesOfEntries members.1 + c := by
  refine charged_bind (charged_read _) fun (key, normalizedKeys) b hb =>
    charged_bind hitem fun value c hc => charged_bind (charged_read _) fun _ d hd =>
      charged_bind (charged_read _) fun next e he => ?_
  have hsum : nodesOfEntries (members.1 ++ [(key, value)]) = nodesOfEntries members.1 + c := by
    rw [nodesOfEntries_append, hc]
    rfl
  subst hb hd he
  split
  · refine charged_bind (charged_read _) fun _ f hf => charged_pure ?_
    simpa [hf] using hsum
  · refine charged_bind (charged_read _) fun _ f hf => charged_pure ?_
    simpa [hf] using hsum
  · exact charged_free fun s a s' h => absurd h (by simp [invalid])
  · exact charged_free fun s a s' h => absurd h (by simp [invalid])

theorem charged_parseObject {parseItem : Parser TypedCanonicalValue}
    (hitem : Charged parseItem fun v c => c = v.nodes) :
    Charged (parseObject nfc parseItem) fun v c => v.nodes = 1 + c := by
  refine charged_bind (charged_read _) fun _ c hc => charged_bind (charged_read _) fun _ d hd =>
    charged_bind (charged_read _) fun closed e he => ?_
  subst hc hd he
  split
  · exact charged_pure (by simp [nodes, nodesOfEntries])
  · refine charged_bind (charged_repeatUntil (charged_objectTurn nfc hitem) ([], ∅))
      fun members c hc => charged_pure ?_
    simp [nodes, nodesOfEntries, hc]

/-- A token is an integer or a finite float. -/
theorem numberValue_cases {start : Nat} {negative : Bool} {integer : List Char}
    {fraction : Option (List Char)} {exponent : Option (Bool × List Char)}
    (h : numberValue start negative integer fraction exponent = .ok value) :
    (∃ n, value = .integer n) ∨ ∃ x, value = .binary64 x ∧ x.isFinite = true := by
  unfold numberValue at h
  split at h
  · dsimp only at h
    split at h
    · split at h
      · cases h
        exact .inl ⟨_, rfl⟩
      · cases h
    · split at h
      · cases h
        exact .inl ⟨_, rfl⟩
      · cases h
  · dsimp only [finiteNumber] at h
    split at h
    · next hfinite =>
      cases h
      exact .inr ⟨_, rfl, hfinite⟩
    · cases h

theorem parseNumber_cases (h : parseNumber s = .ok (value, s')) :
    (∃ n, value = .integer n) ∨ ∃ x, value = .binary64 x ∧ x.isFinite = true := by
  obtain ⟨start, _, -, h⟩ := bind_ok.mp h
  obtain ⟨negative, _, -, h⟩ := bind_ok.mp h
  obtain ⟨integer, _, -, h⟩ := bind_ok.mp h
  obtain ⟨fraction, _, -, h⟩ := bind_ok.mp h
  obtain ⟨exponent, s₁, -, h⟩ := bind_ok.mp h
  unfold attempt at h
  split at h
  · next heq =>
    cases h
    exact numberValue_cases heq
  · cases h

/-- Nothing with parts comes out of the last branch of a value. -/
theorem charged_number (c : Char) :
    Charged (free (if c = '-' ∨ c.isDigit then parseNumber else invalid "expected a JSON value"))
      fun v d => 1 + (0 + (0 + d)) = v.nodes := by
  refine charged_free fun s v s' h => ?_
  split at h
  · obtain ⟨n, rfl⟩ | ⟨x, rfl, -⟩ := parseNumber_cases h
    · rfl
    · rfl
  · exact absurd h (by simp [invalid])

/-- A value costs its nodes. -/
theorem charged_parseValue (nfc : String → String) (levels : Nat) :
    Charged (parseValue nfc levels) fun v c => c = v.nodes := by
  induction levels with
  | zero =>
    refine charged_bind charged_charge fun _ c hc => charged_free fun s a s' h => ?_
    exact absurd h (by simp)
  | succ levels ih =>
    refine charged_bind charged_charge fun _ c hc => charged_bind (charged_read _) fun _ d hd =>
      charged_bind (charged_read _) fun next e he => ?_
    subst hc hd he
    have hliteral (literal : String) (value : TypedCanonicalValue) (hone : value.nodes = 1) :
        Charged (free (consumeLiteral literal) >>= fun _ => pure value) fun v c =>
          1 + (0 + (0 + c)) = v.nodes := by
      refine charged_bind (charged_read _) fun _ c hc => charged_pure ?_
      rw [hc, hone]
    split
    · exact hliteral _ _ rfl
    · exact hliteral _ _ rfl
    · exact hliteral _ _ rfl
    · refine charged_bind (charged_read _) fun _ c hc => charged_pure ?_
      rw [hc]
      rfl
    · simpa [eq_comm] using charged_parseArray ih
    · simpa [eq_comm] using charged_parseObject ih
    · exact charged_number _
    · exact charged_free fun s a s' h => absurd h (by simp [invalid])

-- ---------------------------------------------------------------------------
-- The encoding
-- ---------------------------------------------------------------------------

theorem attempt_ok {α : Type} {result : Tcv1Result α} {a : α} :
    attempt result s = .ok (a, s') ↔ result = .ok a ∧ s = s' := by
  cases result with
  | error e => simp [attempt]
  | ok b => simp [attempt]

theorem checkKey_ok {normalizedKeys normalizedKeys' : BTreeMap String String} :
    checkKey nfc offset normalizedKeys key = .ok normalizedKeys' ↔
      normalizedKeys[normalizeText nfc key]? = none ∧
        normalizedKeys.insert (normalizeText nfc key) key = normalizedKeys' := by
  unfold checkKey
  cases normalizedKeys[normalizeText nfc key]? with
  | some first => simp
  | none => simp

theorem parseKey_ok {normalizedKeys normalizedKeys' : BTreeMap String String}
    (h : parseKey nfc normalizedKeys s = .ok ((key, normalizedKeys'), s')) :
    normalizedKeys[normalizeText nfc key]? = none ∧
      normalizedKeys.insert (normalizeText nfc key) key = normalizedKeys' := by
  obtain ⟨_, s₁, -, h⟩ := bind_ok.mp h
  obtain ⟨next, s₂, -, h⟩ := bind_ok.mp h
  split at h
  · obtain ⟨offset, s₃, -, h⟩ := bind_ok.mp h
    obtain ⟨text, s₄, -, h⟩ := bind_ok.mp h
    obtain ⟨seen, s₅, hcheck, h⟩ := bind_ok.mp h
    obtain ⟨_, s₆, -, h⟩ := bind_ok.mp h
    obtain ⟨_, s₇, -, h⟩ := bind_ok.mp h
    obtain ⟨hpair, -⟩ := pure_ok.mp h
    cases hpair
    exact checkKey_ok.mp (attempt_ok.mp hcheck).1
  · exact absurd h (by simp [invalid])

/-- A turn adds the item it read. -/
theorem arrayTurn_ok {parseItem : Parser TypedCanonicalValue} {values : Values}
    (h : arrayTurn parseItem values s = .ok (x, s')) :
    ∃ value s₁, parseItem s = .ok (value, s₁) ∧ Sum.elim id id x = values ++ [value] := by
  obtain ⟨value, s₁, hvalue, h⟩ := bind_ok.mp h
  obtain ⟨_, s₂, -, h⟩ := bind_ok.mp h
  obtain ⟨next, s₃, -, h⟩ := bind_ok.mp h
  refine ⟨value, s₁, hvalue, ?_⟩
  split at h
  · obtain ⟨_, s₄, -, h⟩ := bind_ok.mp h
    obtain ⟨rfl, -⟩ := pure_ok.mp h
    rfl
  · obtain ⟨_, s₄, -, h⟩ := bind_ok.mp h
    obtain ⟨rfl, -⟩ := pure_ok.mp h
    rfl
  · exact absurd (free_ok.mp h).1 (by simp [invalid])
  · exact absurd (free_ok.mp h).1 (by simp [invalid])

/-- A turn adds an entry whose key was not seen yet. -/
theorem objectTurn_ok {parseItem : Parser TypedCanonicalValue} {members : Members}
    (h : objectTurn nfc parseItem members s = .ok (x, s')) :
    ∃ key value s₁ s₂, parseItem s₁ = .ok (value, s₂) ∧
      members.2[normalizeText nfc key]? = none ∧
      Sum.elim id id x =
        (members.1 ++ [(key, value)], members.2.insert (normalizeText nfc key) key) := by
  obtain ⟨⟨key, seen⟩, s₀, hkey, h⟩ := bind_ok.mp h
  obtain ⟨value, s₁, hvalue, h⟩ := bind_ok.mp h
  obtain ⟨_, s₂, -, h⟩ := bind_ok.mp h
  obtain ⟨next, s₃, -, h⟩ := bind_ok.mp h
  obtain ⟨hnew, rfl⟩ := parseKey_ok (free_ok.mp hkey).1
  refine ⟨key, value, s₀, s₁, hvalue, hnew, ?_⟩
  split at h
  · obtain ⟨_, s₄, -, h⟩ := bind_ok.mp h
    obtain ⟨rfl, -⟩ := pure_ok.mp h
    rfl
  · obtain ⟨_, s₄, -, h⟩ := bind_ok.mp h
    obtain ⟨rfl, -⟩ := pure_ok.mp h
    rfl
  · exact absurd (free_ok.mp h).1 (by simp [invalid])
  · exact absurd (free_ok.mp h).1 (by simp [invalid])

theorem parseArray_ok {parseItem : Parser TypedCanonicalValue} {P : TypedCanonicalValue → Prop}
    (hitem : ∀ s v s', parseItem s = .ok (v, s') → P v)
    (h : parseArray parseItem s = .ok (value, s')) :
    ∃ values, value = .array values ∧ ∀ v ∈ values, P v := by
  obtain ⟨_, s₁, -, h⟩ := bind_ok.mp h
  obtain ⟨_, s₂, -, h⟩ := bind_ok.mp h
  obtain ⟨closed, s₃, -, h⟩ := bind_ok.mp h
  split at h
  · obtain ⟨rfl, -⟩ := pure_ok.mp h
    exact ⟨[], rfl, by simp⟩
  · obtain ⟨values, s₄, hloop, h⟩ := bind_ok.mp h
    obtain ⟨rfl, -⟩ := pure_ok.mp h
    refine ⟨values, rfl, ?_⟩
    -- every turn hands on values of which all are items
    have hstep : ∀ (values : Values) s x s', arrayTurn parseItem values s = .ok (x, s') →
        (∀ v ∈ values, P v) → ∀ v ∈ Sum.elim id id x, P v := by
      intro values s x s' hturn hall
      obtain ⟨v, s₁, hv, hx⟩ := arrayTurn_ok hturn
      rw [hx]
      simpa [or_imp, forall_and, hall] using ⟨hall, hitem s v s₁ hv⟩
    have hall : (∀ v ∈ ([] : Values), P v) → ∀ v ∈ values, P v :=
      repeatUntil_induct (P := fun values _ values' _ => (∀ v ∈ values, P v) → ∀ v ∈ values', P v)
        (fun values s values' s' hturn => hstep values s _ s' hturn)
        (fun values s next s' values' t hturn hrest hall =>
          hrest (hstep values s _ s' hturn hall)) hloop
    exact hall (by simp)

/-- No two keys have one normal form, and all normal forms are on record. -/
structure Distinct (nfc : String → String) (members : Members) : Prop where
  nodup : (members.1.map fun e => normalizeText nfc e.1).Nodup
  seen : ∀ e ∈ members.1, members.2[normalizeText nfc e.1]? ≠ none

theorem Distinct.nil : Distinct nfc ([], ∅) := ⟨by simp, by simp⟩

theorem Distinct.push {entries : List (String × TypedCanonicalValue)}
    {seen : BTreeMap String String} (h : Distinct nfc (entries, seen))
    (hnew : seen[normalizeText nfc key]? = none) (value : TypedCanonicalValue) :
    Distinct nfc (entries ++ [(key, value)], seen.insert (normalizeText nfc key) key) := by
  constructor
  · simp only [List.map_append, List.map_cons, List.map_nil]
    refine h.nodup.append (List.nodup_singleton _) ?_
    simp only [List.disjoint_singleton, List.mem_map, not_exists, not_and]
    intro e he heq
    exact h.seen e he (heq ▸ hnew)
  · intro e he
    rw [BTreeMap.getElem?_insert]
    split
    · simp
    · next hne =>
      obtain he | he := List.mem_append.mp he
      · exact h.seen e he
      · rw [List.mem_singleton.mp he] at hne
        exact absurd rfl hne

theorem parseObject_ok {parseItem : Parser TypedCanonicalValue} {P : TypedCanonicalValue → Prop}
    (hitem : ∀ s v s', parseItem s = .ok (v, s') → P v)
    (h : parseObject nfc parseItem s = .ok (value, s')) :
    ∃ members, value = .object members.1 ∧ Distinct nfc members ∧ ∀ e ∈ members.1, P e.2 := by
  obtain ⟨_, s₁, -, h⟩ := bind_ok.mp h
  obtain ⟨_, s₂, -, h⟩ := bind_ok.mp h
  obtain ⟨closed, s₃, -, h⟩ := bind_ok.mp h
  split at h
  · obtain ⟨rfl, -⟩ := pure_ok.mp h
    exact ⟨([], ∅), rfl, .nil, by simp⟩
  · obtain ⟨members, s₄, hloop, h⟩ := bind_ok.mp h
    obtain ⟨rfl, -⟩ := pure_ok.mp h
    refine ⟨members, rfl, ?_⟩
    have hstep : ∀ (members : Members) s x s', objectTurn nfc parseItem members s = .ok (x, s') →
        (Distinct nfc members ∧ ∀ e ∈ members.1, P e.2) →
          Distinct nfc (Sum.elim id id x) ∧ ∀ e ∈ (Sum.elim id id x).1, P e.2 := by
      rintro ⟨entries, seen⟩ s x s' hturn ⟨hdistinct, hall⟩
      obtain ⟨key, v, s₁, s₂, hv, hnew, hx⟩ := objectTurn_ok hturn
      rw [hx]
      refine ⟨hdistinct.push hnew v, ?_⟩
      intro e he
      obtain he | he := List.mem_append.mp he
      · exact hall e he
      · rw [List.mem_singleton.mp he]
        exact hitem s₁ v s₂ hv
    have hall : (Distinct nfc ([], ∅) ∧ ∀ e ∈ ([] : List (String × TypedCanonicalValue)), P e.2) →
        Distinct nfc members ∧ ∀ e ∈ members.1, P e.2 :=
      repeatUntil_induct (P := fun members _ members' _ =>
          (Distinct nfc members ∧ ∀ e ∈ members.1, P e.2) →
            Distinct nfc members' ∧ ∀ e ∈ members'.1, P e.2)
        (fun members s members' s' hturn => hstep members s _ s' hturn)
        (fun members s next s' members' t hturn hrest hall =>
          hrest (hstep members s _ s' hturn hall)) hloop
    exact hall ⟨.nil, by simp⟩

/-- What is parsed with some levels left encodes at any depth that leaves as many. -/
theorem parseValue_encodes {levels depth : Nat} (hdepth : depth + levels ≤ maxNestingDepth + 1)
    (h : parseValue nfc levels s = .ok (value, s')) : Encodes nfc value depth := by
  induction levels generalizing depth s value s' with
  | zero =>
    obtain ⟨_, s₁, -, h⟩ := bind_ok.mp h
    exact absurd (free_ok.mp h).1 (by simp)
  | succ levels ih =>
    have hle : depth ≤ maxNestingDepth := by omega
    have hitem : ∀ s v s', parseValue nfc levels s = .ok (v, s') → Encodes nfc v (depth + 1) :=
      fun s v s' hv => ih (by omega) hv
    obtain ⟨_, s₁, -, h⟩ := bind_ok.mp h
    obtain ⟨_, s₂, -, h⟩ := bind_ok.mp h
    obtain ⟨next, s₃, -, h⟩ := bind_ok.mp h
    split at h
    · obtain ⟨_, s₄, -, h⟩ := bind_ok.mp h
      obtain ⟨rfl, -⟩ := pure_ok.mp h
      exact encodes_null hle
    · obtain ⟨_, s₄, -, h⟩ := bind_ok.mp h
      obtain ⟨rfl, -⟩ := pure_ok.mp h
      exact encodes_bool hle false
    · obtain ⟨_, s₄, -, h⟩ := bind_ok.mp h
      obtain ⟨rfl, -⟩ := pure_ok.mp h
      exact encodes_bool hle true
    · obtain ⟨text, s₄, -, h⟩ := bind_ok.mp h
      obtain ⟨rfl, -⟩ := pure_ok.mp h
      exact encodes_string hle text
    · obtain ⟨values, rfl, hvalues⟩ := parseArray_ok hitem h
      exact encodes_array hle hvalues
    · obtain ⟨members, rfl, hdistinct, hvalues⟩ := parseObject_ok hitem h
      exact encodes_object hle hdistinct.nodup hvalues
    · have hnumber := (free_ok.mp h).1
      split at hnumber
      · obtain ⟨n, rfl⟩ | ⟨x, rfl, hx⟩ := parseNumber_cases hnumber
        · exact encodes_integer hle n
        · exact encodes_binary64 hle hx
      · exact absurd hnumber (by simp [invalid])
    · exact absurd (free_ok.mp h).1 (by simp [invalid])

theorem parseDocument_ok {input : String} {remainingNodes : Nat} :
    parseDocument nfc input remainingNodes = .ok value ↔
      ∃ cur n cur', parseValue nfc (maxNestingDepth + 1) (⟨input.toList, 0⟩, remainingNodes) =
        .ok (value, cur, n) ∧ skipWhitespace cur = .ok ((), cur') ∧ cur'.rest = [] := by
  simp only [parseDocument, Checked.bind_ok, Checked.refuseIf_ok, Checked.pure_ok]
  constructor
  · rintro ⟨⟨v, cur, n⟩, hv, ⟨_, cur'⟩, hskip, u, hrest, rfl⟩
    exact ⟨cur, n, cur', hv, hskip, not_not.mp hrest⟩
  · rintro ⟨cur, n, cur', hv, hskip, hrest⟩
    exact ⟨(value, cur, n), hv, ((), cur'), hskip, (), not_not.mpr hrest, rfl⟩

/-- A smaller budget accepts the documents that are within it. -/
theorem parseDocument_iff {nfc : String → String} {input : String} {n N : Nat} (hle : n ≤ N) :
    parseDocument nfc input n = .ok value ↔
      parseDocument nfc input N = .ok value ∧ value.nodes ≤ n := by
  have hiff (cur : Cursor) :
      (∃ k, parseValue nfc (maxNestingDepth + 1) (⟨input.toList, 0⟩, n) = .ok (value, cur, k)) ↔
        (∃ k, parseValue nfc (maxNestingDepth + 1) (⟨input.toList, 0⟩, N) = .ok (value, cur, k)) ∧
          value.nodes ≤ n := (charged_parseValue nfc _).iff hle
  simp only [parseDocument_ok]
  constructor
  · rintro ⟨cur, k, cur', hv, hskip, hrest⟩
    obtain ⟨⟨k', hv'⟩, hnodes⟩ := (hiff cur).mp ⟨k, hv⟩
    exact ⟨⟨cur, k', cur', hv', hskip, hrest⟩, hnodes⟩
  · rintro ⟨⟨cur, k, cur', hv, hskip, hrest⟩, hnodes⟩
    obtain ⟨k', hv'⟩ := (hiff cur).mpr ⟨⟨k, hv⟩, hnodes⟩
    exact ⟨cur, k', cur', hv', hskip, hrest⟩

theorem parseDocument_encodes {nfc : String → String} {input : String} {n : Nat}
    (h : parseDocument nfc input n = .ok value) : Encodes nfc value 0 := by
  obtain ⟨cur, k, cur', hv, -⟩ := parseDocument_ok.mp h
  exact parseValue_encodes (by omega) hv

end Parser

/-- The bounded parser is the parser cut off at its node limit, and the
encoder refuses nothing that either gives. -/
theorem parseBoundedTypedJson_iff (nfc : String → String) (sha256 : Digest) (input : String)
    (maxNodes : Fin (2 ^ 64)) (value : TypedCanonicalValue) :
    (parseBoundedTypedJson nfc input maxNodes = .ok value ↔
      parseTypedJson nfc input = .ok value ∧ value.nodes ≤ maxNodes) ∧
    (parseTypedJson nfc input = .ok value ∨ parseBoundedTypedJson nfc input maxNodes = .ok value →
      (∃ bytes, tcv1Encode nfc value = .ok bytes) ∧
        ∃ fingerprint, tcv1Sha256 nfc sha256 value = .ok fingerprint) := by
  have hle : maxNodes.val ≤ usizeMax := Nat.le_pred_of_lt maxNodes.isLt
  refine ⟨Parser.parseDocument_iff hle, ?_⟩
  intro h
  have hencodes : Encodes nfc value 0 := by
    obtain h | h := h
    · exact Parser.parseDocument_encodes h
    · exact Parser.parseDocument_encodes h
  exact ⟨hencodes, tcv1Sha256_ok hencodes⟩

end DagMl
