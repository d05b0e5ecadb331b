import Mathlib
import DagMl.Json.Sorted
import DagMl.Lib.Framing

/-!
# The text of JSON values

What the compact serializer writes, and what can be read off it: before a
character that continues no number, a valid value's text is no other's. The
stable serializer writes the sorted value, so its bytes are those of every value
that is the same.
-/

namespace DagMl

open Framing

/-- The characters of a number's text. -/
def isNumberChar (c : Char) : Bool :=
  c.isDigit || c = '-' || c = '+' || c = '.' || c = 'e' || c = 'E'

/-- The float formatter of the JSON library: its text reads back to the float,
and is marked off from an integer's by a point or an exponent. -/
structure FloatWriter where
  write : Binary64 → List Char
  injective : ∀ x y, x.isFinite = true → y.isFinite = true → write x = write y → x = y
  numeric : ∀ x, x.isFinite = true → ∀ c ∈ write x, isNumberChar c = true
  marked : ∀ x, x.isFinite = true → '.' ∈ write x ∨ 'e' ∈ write x

-- ---------------------------------------------------------------------------
-- Numbers
-- ---------------------------------------------------------------------------

def decimal : Int → List Char
  | .ofNat n => Nat.toDigits 10 n
  | .negSucc n => '-' :: Nat.toDigits 10 (n + 1)

theorem toDigits_injective {m n : Nat} (h : Nat.toDigits 10 m = Nat.toDigits 10 n) : m = n := by
  rw [← Nat.ofDigitChars_ten_toDigits (n := m), h, Nat.ofDigitChars_ten_toDigits]

theorem isDigit_of_mem {n : Nat} {c : Char} (h : c ∈ Nat.toDigits 10 n) : c.isDigit = true :=
  Nat.isDigit_of_mem_toDigits (by decide) (by decide) h

theorem decimal_injective : Function.Injective decimal := by
  intro m n h
  cases m with
  | ofNat m =>
    cases n with
    | ofNat n => exact congrArg Int.ofNat (toDigits_injective h)
    | negSucc n =>
      have hmem : '-' ∈ Nat.toDigits 10 m := by
        rw [decimal, decimal] at h
        simp [h]
      exact absurd (isDigit_of_mem hmem) (by decide)
  | negSucc m =>
    cases n with
    | ofNat n =>
      have hmem : '-' ∈ Nat.toDigits 10 n := by
        rw [decimal, decimal] at h
        simp [← h]
      exact absurd (isDigit_of_mem hmem) (by decide)
    | negSucc n =>
      have := toDigits_injective (List.cons.inj h).2
      rw [Nat.succ.inj this]

theorem decimal_ne_nil (n : Int) : decimal n ≠ [] := by
  cases n with
  | ofNat n => exact List.ne_nil_of_length_pos Nat.length_toDigits_pos
  | negSucc n => simp [decimal]

theorem mem_decimal {n : Int} {c : Char} (h : c ∈ decimal n) : c.isDigit = true ∨ c = '-' := by
  cases n with
  | ofNat n => exact .inl (isDigit_of_mem h)
  | negSucc n =>
    rcases List.mem_cons.mp h with rfl | h
    · exact .inr rfl
    · exact .inl (isDigit_of_mem h)

/-- The laws can be met: the bits as a number, marked with a point. -/
def FloatWriter.ofBits : FloatWriter where
  write x := Nat.toDigits 10 x.bits.toNat ++ ['.', '0']
  injective x y _ _ h :=
    Binary64.ext (UInt64.toNat_inj.mp (toDigits_injective (List.append_cancel_right h)))
  numeric x _ c hc := by
    rcases List.mem_append.mp hc with h | h
    · simp [isNumberChar, isDigit_of_mem h]
    · rcases List.mem_pair.mp h with rfl | rfl <;> rfl
  marked x _ := .inl (by simp)

def renderNumber (floats : FloatWriter) : JsonNumber → List Char
  | .posInt n => decimal n.toNat
  | .negInt n => decimal n.toInt
  | .float x => floats.write x

section Numbers

variable {floats : FloatWriter} {m n : JsonNumber}

theorem renderNumber_numeric (h : JsonValue.numberValid n) :
    ∀ c ∈ renderNumber floats n, isNumberChar c = true := by
  have integer (k : Int) : ∀ c ∈ decimal k, isNumberChar c = true := by
    intro c hc
    rcases mem_decimal hc with hd | rfl
    · simp [isNumberChar, hd]
    · rfl
  cases n with
  | posInt n => exact integer n.toNat
  | negInt n => exact integer n.toInt
  | float x => exact floats.numeric x h

theorem renderNumber_ne_nil (floats : FloatWriter) (h : JsonValue.numberValid n) : renderNumber floats n ≠ [] := by
  cases n with
  | posInt n => exact decimal_ne_nil n.toNat
  | negInt n => exact decimal_ne_nil n.toInt
  | float x =>
    rcases floats.marked x h with hm | hm
    · exact List.ne_nil_of_mem hm
    · exact List.ne_nil_of_mem hm

/-- A float's mark is in no integer's text. -/
theorem write_ne_decimal {x : Binary64} (h : x.isFinite = true) (k : Int) :
    floats.write x ≠ decimal k := by
  intro heq
  rcases floats.marked x h with hm | hm
  · exact (mem_decimal (heq ▸ hm)).elim (by decide) (by decide)
  · exact (mem_decimal (heq ▸ hm)).elim (by decide) (by decide)

theorem renderNumber_injective (hm : JsonValue.numberValid m) (hn : JsonValue.numberValid n)
    (h : renderNumber floats m = renderNumber floats n) : m = n := by
  cases m with
  | posInt m =>
    cases n with
    | posInt n =>
      have hvalue : (m.toNat : Int) = n.toNat := decimal_injective h
      rw [UInt64.toNat_inj.mp (Int.ofNat.inj hvalue)]
    | negInt n =>
      have hvalue : (m.toNat : Int) = n.toInt := decimal_injective h
      have hneg : n.toInt < 0 := hn
      omega
    | float y => exact (write_ne_decimal hn m.toNat h.symm).elim
  | negInt m =>
    cases n with
    | posInt n =>
      have hvalue : m.toInt = (n.toNat : Int) := decimal_injective h
      have hneg : m.toInt < 0 := hm
      omega
    | negInt n => rw [Int64.toInt_inj.mp (decimal_injective h)]
    | float y => exact (write_ne_decimal hn m.toInt h.symm).elim
  | float x =>
    cases n with
    | posInt n => exact (write_ne_decimal hm n.toNat h).elim
    | negInt n => exact (write_ne_decimal hm n.toInt h).elim
    | float y => rw [floats.injective x y hm hn h]

end Numbers

-- ---------------------------------------------------------------------------
-- Strings
-- ---------------------------------------------------------------------------

/-- The two-character escapes: what is escaped, and the letter it is written with. -/
def shortEscapes : List (Char × Char) :=
  [('"', '"'), ('\\', '\\'), ('\x08', 'b'), ('\x0c', 'f'), ('\n', 'n'), ('\r', 'r'), ('\t', 't')]

def escape (c : Char) : List Char :=
  match shortEscapes.lookup c with
  | some letter => ['\\', letter]
  | none =>
    if c.toNat < 0x20 then
      ['\\', 'u', '0', '0', Nat.digitChar (c.toNat / 16), Nat.digitChar (c.toNat % 16)]
    else [c]

/-- Reads one escaped character back. -/
def unescape : List Char → Option (Char × List Char)
  | '\\' :: 'u' :: _ :: _ :: high :: low :: rest =>
    ((List.range 0x20).map Char.ofNat).find? (fun c => Nat.digitChar (c.toNat / 16) = high ∧
      Nat.digitChar (c.toNat % 16) = low) |>.map (·, rest)
  | '\\' :: letter :: rest => (shortEscapes.find? (·.2 = letter)).map (·.1, rest)
  | c :: rest => some (c, rest)
  | [] => none

theorem unescape_escape (c : Char) (rest : List Char) :
    unescape (escape c ++ rest) = some (c, rest) := by
  by_cases hc : c.toNat < 0x5d
  · -- the characters up to the last one with an escape
    have hof : c = Char.ofNat c.toNat := (Char.ofNat_toNat c).symm
    rw [hof]
    generalize c.toNat = n at hc
    interval_cases n <;> rfl
  · have hne (d : Char) (hd : d.toNat < 0x5d) : c ≠ d := fun h => hc (h ▸ hd)
    have hplain : escape c = [c] := by
      have h20 : ¬c.toNat < 0x20 := by omega
      simp [escape, shortEscapes, List.lookup_cons, beq_eq_false_iff_ne.mpr, hne, h20]
    rw [hplain, List.singleton_append, unescape.eq_def]
    split
    all_goals simp_all

theorem escape_cancels (c : Char) : Cancels (fun _ => True) (fun _ => True) escape c := by
  intro c' r r' _ _ _ h
  have hread := congrArg unescape h
  simpa [unescape_escape] using hread

/-- No character is written starting with a quote. -/
theorem escape_start (c : Char) : ∃ x xs, escape c = x :: xs ∧ x ≠ '"' := by
  unfold escape
  split
  · exact ⟨_, _, rfl, by decide⟩
  · rename_i hnone
    split
    · exact ⟨_, _, rfl, by decide⟩
    · refine ⟨_, _, rfl, ?_⟩
      rintro rfl
      cases hnone

def quoted (s : String) : List Char := '"' :: (s.toList.flatMap escape ++ ['"'])

theorem quoted_cancels (s : String) : Cancels (fun _ => True) (fun _ => True) quoted s := by
  intro s' r r' _ _ _ h
  simp only [quoted, List.cons_append, List.append_assoc, List.nil_append,
    List.cons.injEq, true_and] at h
  obtain ⟨hchars, rfl⟩ := flatMap_cancels (P := fun _ => True) (fun _ => trivial)
    (fun _ _ _ => trivial) (fun c _ => escape_start c)
    (fun c _ => ⟨trivial, escape_cancels c⟩) (fun _ _ => trivial) h
  exact ⟨String.toList_inj.mp hchars, rfl⟩

-- ---------------------------------------------------------------------------
-- Values
-- ---------------------------------------------------------------------------

namespace JsonValue

variable (floats : FloatWriter)

mutual
/-- The compact text of a value, objects in the order they are held. -/
def render : JsonValue → List Char
  | .null => "null".toList
  | .bool true => "true".toList
  | .bool false => "false".toList
  | .number n => renderNumber floats n
  | .string s => quoted s
  | .array items => '[' :: (separated ',' (renderItems items) ++ [']'])
  | .object entries => '{' :: (separated ',' (renderEntries entries) ++ ['}'])

def renderItems : List JsonValue → List (List Char)
  | [] => []
  | v :: vs => render v :: renderItems vs

def renderEntries : List (String × JsonValue) → List (List Char)
  | [] => []
  | (k, v) :: es => (quoted k ++ ':' :: render v) :: renderEntries es
end

def renderEntry (e : String × JsonValue) : List Char := quoted e.1 ++ ':' :: render floats e.2

theorem renderItems_eq (items : List JsonValue) :
    renderItems floats items = items.map (render floats) := by
  induction items with
  | nil => rfl
  | cons v vs ih => rw [renderItems, ih, List.map_cons]

theorem renderEntries_eq (entries : List (String × JsonValue)) :
    renderEntries floats entries = entries.map (renderEntry floats) := by
  induction entries with
  | nil => rfl
  | cons e es ih => rw [renderEntries, ih, List.map_cons, renderEntry]

/-- `stable_json::to_vec` on a value. -/
def toVec (v : JsonValue) : List UInt8 := (String.ofList (render floats v.sortAllObjects)).toUTF8.toList

/-- What can follow a value: no character that would continue a number. -/
def Follows (r : List Char) : Prop := ∀ c ∈ r.head?, ¬isNumberChar c = true

/-- What a value's text starts with, one character for each kind. -/
def shape : JsonValue → Char
  | .null => 'n'
  | .bool _ => 't'
  | .number _ => '0'
  | .string _ => '"'
  | .array _ => '['
  | .object _ => '{'

def startShape (c : Char) : Char :=
  if isNumberChar c then '0' else if c = 'f' then 't' else c

variable {floats} {v w : JsonValue}

theorem render_start (floats : FloatWriter) (h : v.Valid) :
    ∃ c cs, render floats v = c :: cs ∧ startShape c = v.shape := by
  cases v with
  | null => exact ⟨_, _, rfl, rfl⟩
  | bool b => cases b <;> exact ⟨_, _, rfl, rfl⟩
  | number n =>
    obtain ⟨c, cs, hc⟩ := List.exists_cons_of_ne_nil (renderNumber_ne_nil floats h)
    have hnum := renderNumber_numeric h c (hc ▸ List.mem_cons_self)
    exact ⟨c, cs, hc, if_pos hnum⟩
  | string s => exact ⟨_, _, rfl, rfl⟩
  | array items => exact ⟨_, _, rfl, rfl⟩
  | object entries => exact ⟨_, _, rfl, rfl⟩

/-- No value's text starts by closing an array. -/
theorem render_start_ne (h : v.Valid) : ∃ x xs, render floats v = x :: xs ∧ x ≠ ']' := by
  obtain ⟨c, cs, hc, hs⟩ := render_start floats h
  refine ⟨c, cs, hc, ?_⟩
  rintro rfl
  cases v <;> simp [startShape, isNumberChar, shape] at hs

theorem shape_eq_of_render (hv : v.Valid) (hw : w.Valid)
    (h : render floats v ++ r = render floats w ++ r') : v.shape = w.shape := by
  obtain ⟨c, cs, hc, hs⟩ := render_start floats hv
  obtain ⟨d, ds, hd, ht⟩ := render_start floats hw
  rw [hc, hd] at h
  rw [← hs, ← ht, (List.cons.inj h).1]

theorem follows_of_not {c : Char} (h : isNumberChar c = false) (r : List Char) : Follows (c :: r) := by
  intro x hx
  simp only [List.head?_cons, Option.mem_some_iff] at hx
  simp [← hx, h]

theorem array_cancels {items : List JsonValue} (hv : ∀ v ∈ items, v.Valid)
    (ih : ∀ v ∈ items, v.Valid → Cancels Valid Follows (render floats) v) {items' : List JsonValue}
    (hw : ∀ v ∈ items', v.Valid)
    (h : render floats (.array items) ++ r = render floats (.array items') ++ r') :
    items = items' ∧ r = r' := by
  simp only [render, renderItems_eq, List.cons_append, List.append_assoc, List.nil_append,
    List.cons.injEq, true_and] at h
  exact separated_cancels (by decide) (follows_of_not rfl) (follows_of_not rfl)
    (fun v hv => render_start_ne hv) (fun v hm => ⟨hv v hm, ih v hm (hv v hm)⟩) hw h

theorem renderEntry_cancels {e : String × JsonValue}
    (ih : Cancels Valid Follows (render floats) e.2) :
    Cancels (fun e => Valid e.2) Follows (renderEntry floats) e := by
  intro e' r r' hv hr hr' h
  simp only [renderEntry, List.append_assoc, List.cons_append] at h
  obtain ⟨hkey, hrest⟩ := quoted_cancels e.1 e'.1 _ _ trivial trivial trivial h
  obtain ⟨hvalue, rfl⟩ := ih e'.2 r r' hv hr hr' (List.cons.inj hrest).2
  exact ⟨Prod.ext hkey hvalue, rfl⟩

theorem object_cancels {entries : List (String × JsonValue)} (hv : ∀ e ∈ entries, e.2.Valid)
    (ih : ∀ e ∈ entries, e.2.Valid → Cancels Valid Follows (render floats) e.2)
    {entries' : List (String × JsonValue)} (hw : ∀ e ∈ entries', e.2.Valid)
    (h : render floats (.object entries) ++ r = render floats (.object entries') ++ r') :
    entries = entries' ∧ r = r' := by
  simp only [render, renderEntries_eq, List.cons_append, List.append_assoc, List.nil_append,
    List.cons.injEq, true_and] at h
  exact separated_cancels (P := fun e => Valid e.2) (by decide) (follows_of_not rfl)
    (follows_of_not rfl) (fun e _ => ⟨'"', _, rfl, by decide⟩)
    (fun e hm => ⟨hv e hm, renderEntry_cancels (ih e hm (hv e hm))⟩) hw h

/-- The text of a valid value is told from every other's. -/
theorem render_cancels (h : v.Valid) : Cancels Valid Follows (render floats) v := by
  induction v using childInduction with
  | null =>
    intro w r r' hw hr hr' heq
    have hshape := shape_eq_of_render h hw heq
    cases w with
    | null => simpa [render] using heq
    | _ => simp [shape] at hshape
  | bool b =>
    intro w r r' hw hr hr' heq
    have hshape := shape_eq_of_render h hw heq
    cases w with
    | bool b' =>
      cases b <;> cases b'
      · simpa [render] using heq
      · simp [render] at heq
      · simp [render] at heq
      · simpa [render] using heq
    | _ => simp [shape] at hshape
  | number n =>
    intro w r r' hw hr hr' heq
    have hshape := shape_eq_of_render h hw heq
    cases w with
    | number n' =>
      obtain ⟨hn, rfl⟩ := run_cancels (isNumberChar · = true) (renderNumber_numeric h)
        (renderNumber_numeric hw) hr hr' heq
      exact ⟨congrArg number (renderNumber_injective h hw hn), rfl⟩
    | _ => simp [shape] at hshape
  | string s =>
    intro w r r' hw hr hr' heq
    have hshape := shape_eq_of_render h hw heq
    cases w with
    | string s' =>
      obtain ⟨rfl, rfl⟩ := quoted_cancels s s' r r' trivial trivial trivial heq
      exact ⟨rfl, rfl⟩
    | _ => simp [shape] at hshape
  | array items ih =>
    intro w r r' hw hr hr' heq
    have hshape := shape_eq_of_render h hw heq
    cases w with
    | array items' =>
      obtain ⟨rfl, rfl⟩ := array_cancels (validItems_iff.mp h) ih (validItems_iff.mp hw) heq
      exact ⟨rfl, rfl⟩
    | _ => simp [shape] at hshape
  | object entries ih =>
    intro w r r' hw hr hr' heq
    have hshape := shape_eq_of_render h hw heq
    cases w with
    | object entries' =>
      obtain ⟨rfl, rfl⟩ := object_cancels (validEntries_iff.mp h.2) ih (validEntries_iff.mp hw.2) heq
      exact ⟨rfl, rfl⟩
    | _ => simp [shape] at hshape

/-- The text of a value, its objects in the order they are held, gives the value back. -/
theorem render_injective (hv : v.Valid) (hw : w.Valid) (h : render floats v = render floats w) :
    v = w := by
  have hend : Follows [] := by simp [Follows]
  exact (render_cancels hv w [] [] hw hend hend (by simpa using h)).1

theorem toVec_sortAllObjects (v : JsonValue) : toVec floats v.sortAllObjects = toVec floats v := by
  rw [toVec, toVec, sortAllObjects_sortAllObjects]

/-- The stable bytes of two values are equal when the values are the same. -/
theorem toVec_eq_iff (hv : v.Valid) (hw : w.Valid) : toVec floats v = toVec floats w ↔ Same v w := by
  rw [← sortAllObjects_eq_iff hv hw]
  constructor
  · intro h
    have htext := String.ofList_inj.mp (toUTF8_toList_injective h)
    exact render_injective (sortAllObjects_valid hv) (sortAllObjects_valid hw) htext
  · intro h
    rw [toVec, toVec, h]

end JsonValue

end DagMl
