import DagMl.Canonical.Value
import DagMl.Lib.Scanner

/-!
# The strict parser

Recursive descent over the text. Nesting is counted down from the levels that
are left, and every value draws on the budget of nodes once.
-/

namespace DagMl

open Checked Scanner

/-- The input left to read, and the byte it starts at. -/
structure Cursor where
  rest : List Char
  offset : Nat

namespace Cursor

def size (self : Cursor) : Nat := self.rest.length

/-- Past the characters that `kept` is left of. -/
def moveTo (self : Cursor) (taken kept : List Char) : Cursor :=
  ⟨kept, self.offset + (taken.map Char.utf8Size).sum⟩

end Cursor

abbrev Reader (α : Type) := Scanner Tcv1Error Cursor α

namespace Reader

def peek : Reader (Option Char) := fun cur => .ok (cur.rest.head?, cur)

def position : Reader Nat := fun cur => .ok (cur.offset, cur)

/-- `self.offset += 1` on a character that was peeked. -/
def skip : Reader Unit := fun cur => .ok ((), cur.moveTo (cur.rest.take 1) (cur.rest.drop 1))

def skipWhile (p : Char → Bool) : Reader (List Char) := fun cur =>
  .ok (cur.rest.takeWhile p, cur.moveTo (cur.rest.takeWhile p) (cur.rest.dropWhile p))

def invalid {α : Type} (message : String) : Reader α :=
  fail fun cur => .invalidJson cur.offset message

def attempt {α : Type} (result : Tcv1Result α) : Reader α := fun cur =>
  match result with
  | .ok a => .ok (a, cur)
  | .error e => .error e

def skipWhitespace : Reader Unit := do
  let _ ← skipWhile fun c => c = ' ' || c = '\n' || c = '\r' || c = '\t'
  pure ()

def consumeIf (expected : Char) : Reader Bool := do
  if (← peek) = some expected then do
    skip
    pure true
  else pure false

def expect (expected : Char) (message : String) : Reader Unit := do
  if ← consumeIf expected then pure () else invalid message

def startsWith (text : String) : Reader Bool := fun cur =>
  .ok (text.toList.isPrefixOf cur.rest, cur)

def skipText (text : String) : Reader Unit := fun cur =>
  .ok ((), cur.moveTo text.toList (cur.rest.drop text.toList.length))

def consumeLiteral (literal : String) : Reader Unit := do
  if ← startsWith literal then skipText literal else invalid "invalid JSON literal"

-- ---------------------------------------------------------------------------
-- Numbers
-- ---------------------------------------------------------------------------

def peekDigit : Reader Bool := do
  let next ← peek
  pure (next.any Char.isDigit)

/-- A run of digits, of which there is one at least. -/
def digits (message : String) : Reader (List Char) := do
  if ← peekDigit then skipWhile Char.isDigit else invalid message

def integerDigits : Reader (List Char) := do
  if ← consumeIf '0' then do
    if ← peekDigit then invalid "leading zero in JSON number" else pure ['0']
  else digits "expected integer digits"

def fractionDigits : Reader (Option (List Char)) := do
  if ← consumeIf '.' then do
    let run ← digits "expected digit after decimal point"
    pure (some run)
  else pure none

def consumeSign : Reader Bool := do
  match ← peek with
  | some '+' => do
    skip
    pure false
  | some '-' => do
    skip
    pure true
  | _ => pure false

def exponentMark : Reader Bool := do
  match ← peek with
  | some 'e' | some 'E' => do
    skip
    pure true
  | _ => pure false

/-- The sign and the digits of an exponent. -/
def exponentPart : Reader (Option (Bool × List Char)) := do
  if ← exponentMark then do
    let negative ← consumeSign
    let run ← digits "expected exponent digits"
    pure (some (negative, run))
  else pure none

def digitsToNat (run : List Char) : Nat := run.foldl (fun n c => 10 * n + (c.toNat - '0'.toNat)) 0

def exponentValue : Option (Bool × List Char) → Int
  | none => 0
  | some (true, run) => -digitsToNat run
  | some (false, run) => digitsToNat run

def finiteNumber (start : Nat) (value : Binary64) : Tcv1Result TypedCanonicalValue :=
  if value.isFinite then .ok (.binary64 value) else .error (.binary64OutOfRange start)

/-- `token.parse()`: a token with a fraction or an exponent is a float. -/
def numberValue (start : Nat) (negative : Bool) (integer : List Char) (fraction : Option (List Char))
    (exponent : Option (Bool × List Char)) : Tcv1Result TypedCanonicalValue :=
  if fraction.isNone ∧ exponent.isNone then
    let n := digitsToNat integer
    if negative then
      if n ≤ 2 ^ 63 then .ok (.integer (.signed (Int64.ofInt (-n))))
      else .error (.integerOutOfRange start "i64")
    else if n < 2 ^ 64 then .ok (.integer (.unsigned (UInt64.ofNat n)))
    else .error (.integerOutOfRange start "u64")
  else
    let fraction := fraction.getD []
    finiteNumber start (Binary64.ofDecimal negative (digitsToNat (integer ++ fraction))
      (exponentValue exponent - fraction.length))

def parseNumber : Reader TypedCanonicalValue := do
  let start ← position
  let negative ← consumeIf '-'
  let integer ← integerDigits
  let fraction ← fractionDigits
  let exponent ← exponentPart
  attempt (numberValue start negative integer fraction exponent)

-- ---------------------------------------------------------------------------
-- Strings
-- ---------------------------------------------------------------------------

def hexDigit (c : Char) : Option Nat :=
  if c.isDigit then some (c.toNat - '0'.toNat)
  else if 'a' ≤ c ∧ c ≤ 'f' then some (c.toNat - 'a'.toNat + 10)
  else if 'A' ≤ c ∧ c ≤ 'F' then some (c.toNat - 'A'.toNat + 10)
  else none

def hexDigits : Nat → Nat → Reader Nat
  | 0, value => pure value
  | count + 1, value => do
    let next ← peek
    match next.bind hexDigit with
    | some digit => do
      skip
      hexDigits count (16 * value + digit)
    | none => invalid "invalid hexadecimal digit in Unicode escape"

def bytesLeft : Reader Nat := fun cur => .ok ((cur.rest.map Char.utf8Size).sum, cur)

def parseHexQuad : Reader Nat := do
  if (← bytesLeft) < 4 then invalid "incomplete Unicode escape" else hexDigits 4 0

def invalidAt {α : Type} (offset : Nat) (message : String) : Reader α :=
  fail fun _ => .invalidJson offset message

/-- The second half of a surrogate pair. -/
def parseLowSurrogate (first : Nat) : Reader Char := do
  let lowOffset ← position
  let low ← parseHexQuad
  if 0xdc00 ≤ low ∧ low ≤ 0xdfff then
    pure (Char.ofNat (0x10000 + (first - 0xd800) * 2 ^ 10 + (low - 0xdc00)))
  else invalidAt lowOffset "high surrogate is not followed by a low surrogate"

def parseUnicodeEscape : Reader Char := do
  let firstOffset ← position
  let first ← parseHexQuad
  if 0xd800 ≤ first ∧ first ≤ 0xdbff then do
    if ← startsWith "\\u" then do
      skip
      skip
      parseLowSurrogate first
    else invalidAt firstOffset "high surrogate is not followed by a low surrogate"
  else if 0xdc00 ≤ first ∧ first ≤ 0xdfff then
    invalidAt firstOffset "isolated low surrogate in JSON string"
  else pure (Char.ofNat first)

/-- What a backslash and a letter stand for. -/
def shortEscapes : List (Char × Char) :=
  [('"', '"'), ('\\', '\\'), ('/', '/'), ('b', '\x08'), ('f', '\x0c'), ('n', '\n'), ('r', '\r'),
    ('t', '\t')]

def parseEscape : Reader Char := do
  match ← peek with
  | none => invalid "unterminated JSON string escape"
  | some 'u' => do
    skip
    parseUnicodeEscape
  | some c =>
    match shortEscapes.lookup c with
    | some meant => do
      skip
      pure meant
    | none => invalid "invalid JSON string escape"

/-- No loop gets here. -/
def exhausted : Tcv1Error := .invalidJson 0 "no turn is left"

def stringTurn (output : List Char) : Reader (List Char ⊕ List Char) := do
  match ← peek with
  | none => invalid "unterminated JSON string"
  | some '"' => do
    skip
    pure (.inr output)
  | some '\\' => do
    skip
    let c ← parseEscape
    pure (.inl (output ++ [c]))
  | some c =>
    if c.toNat < 0x20 then invalid "unescaped control character in JSON string"
    else do
      skip
      pure (.inl (output ++ [c]))

def parseString : Reader String := do
  skip
  let output ← repeatUntil exhausted stringTurn Cursor.size []
  pure (String.ofList output)

end Reader

-- ---------------------------------------------------------------------------
-- Values
-- ---------------------------------------------------------------------------

abbrev Parser (α : Type) := Metered Tcv1Error Cursor α

namespace Parser

open Reader

abbrev Values := List TypedCanonicalValue

/-- The entries read, and the normal forms of their keys. -/
abbrev Members := List (String × TypedCanonicalValue) × BTreeMap String String

def arrayTurn (parseItem : Parser TypedCanonicalValue) (values : Values) :
    Parser (Values ⊕ Values) := do
  let value ← parseItem
  free skipWhitespace
  match ← free peek with
  | some ',' => do
    free skip
    pure (.inl (values ++ [value]))
  | some ']' => do
    free skip
    pure (.inr (values ++ [value]))
  | some _ => free (invalid "expected `,` or `]` in array")
  | none => free (invalid "unterminated array")

def parseArray (parseItem : Parser TypedCanonicalValue) : Parser TypedCanonicalValue := do
  free skip
  free skipWhitespace
  if ← free (consumeIf ']') then pure (.array [])
  else do
    let values ← repeatUntil exhausted (arrayTurn parseItem) (fun s => s.1.size) []
    pure (.array values)

section Objects

variable (nfc : String → String)

/-- A key up to its colon. -/
def parseKey (normalizedKeys : BTreeMap String String) :
    Reader (String × BTreeMap String String) := do
  skipWhitespace
  if (← peek) = some '"' then do
    let keyOffset ← position
    let key ← parseString
    let normalizedKeys ← attempt (checkKey nfc keyOffset normalizedKeys key)
    skipWhitespace
    expect ':' "expected `:` after object key"
    pure (key, normalizedKeys)
  else invalid "expected a string object key"

def objectTurn (parseItem : Parser TypedCanonicalValue) (members : Members) :
    Parser (Members ⊕ Members) := do
  let (key, normalizedKeys) ← free (parseKey nfc members.2)
  let value ← parseItem
  free skipWhitespace
  match ← free peek with
  | some ',' => do
    free skip
    pure (.inl (members.1 ++ [(key, value)], normalizedKeys))
  | some '}' => do
    free skip
    pure (.inr (members.1 ++ [(key, value)], normalizedKeys))
  | some _ => free (invalid "expected `,` or `\x7d` in object")
  | none => free (invalid "unterminated object")

def parseObject (parseItem : Parser TypedCanonicalValue) : Parser TypedCanonicalValue := do
  free skip
  free skipWhitespace
  if ← free (consumeIf '}') then pure (.object [])
  else do
    let members ← repeatUntil exhausted (objectTurn nfc parseItem) (fun s => s.1.size) ([], ∅)
    pure (.object members.1)

def chargeNode : Parser Unit := charge fun cur =>
  .invalidJson cur.offset "JSON value exceeds its structural element budget"

/-- A value, with `levels` of nesting left. -/
def parseValue : Nat → Parser TypedCanonicalValue
  | 0 => do
    chargeNode
    free (fail fun _ => .nestingTooDeep)
  | levels + 1 => do
    chargeNode
    free skipWhitespace
    match ← free peek with
    | some 'n' => do
      free (consumeLiteral "null")
      pure .null
    | some 'f' => do
      free (consumeLiteral "false")
      pure (.bool false)
    | some 't' => do
      free (consumeLiteral "true")
      pure (.bool true)
    | some '"' => do
      let text ← free parseString
      pure (.string text)
    | some '[' => parseArray (parseValue levels)
    | some '{' => parseObject nfc (parseValue levels)
    | some c => free (if c = '-' ∨ c.isDigit then parseNumber else invalid "expected a JSON value")
    | none => free (invalid "unexpected end of input")

/-- One document on a budget of nodes. -/
def parseDocument (input : String) (remainingNodes : Nat) : Tcv1Result TypedCanonicalValue := do
  let (value, cursor, _) ← parseValue nfc (maxNestingDepth + 1) (⟨input.toList, 0⟩, remainingNodes)
  let (_, cursor) ← skipWhitespace cursor
  refuseIf (cursor.rest ≠ []) (.invalidJson cursor.offset "trailing data after the JSON value")
  pure value

end Objects

end Parser

section

variable (nfc : String → String)

/-- `usize::MAX`. -/
def usizeMax : Nat := 2 ^ 64 - 1

def parseTypedJson (input : String) : Tcv1Result TypedCanonicalValue :=
  Parser.parseDocument nfc input usizeMax

def parseBoundedTypedJson (input : String) (maxNodes : Fin (2 ^ 64)) :
    Tcv1Result TypedCanonicalValue :=
  Parser.parseDocument nfc input maxNodes

end

end DagMl
