import Mathlib

/-!
# Encodings that can be read back

Parts of a byte string set off by delimiters, without lengths or escapes,
texts told apart by what may follow them, and the UTF-8 bytes of strings. A
delimited encoding is read back as long as no delimiter occurs inside a part.
-/

namespace Framing

variable {α : Type}

-- ---------------------------------------------------------------------------
-- Delimiters
-- ---------------------------------------------------------------------------

/-- The first delimiter of a string is where the string can be cut. -/
theorem cut_inj (delimiter : α → Prop) {p p' r r' : List α} {a a' : α}
    (hp : ∀ x ∈ p, ¬delimiter x) (hp' : ∀ x ∈ p', ¬delimiter x) (ha : delimiter a)
    (ha' : delimiter a') : p ++ a :: r = p' ++ a' :: r' ↔ p = p' ∧ a = a' ∧ r = r' := by
  induction p generalizing p' with
  | nil =>
    cases p' with
    | nil => simp
    | cons y ys =>
      have hy : a ≠ y := fun h => hp' y (by simp) (h ▸ ha)
      simp [hy]
  | cons x xs ih =>
    cases p' with
    | nil =>
      have hx : x ≠ a' := fun h => hp x (by simp) (h ▸ ha')
      simp [hx]
    | cons y ys =>
      have h := @ih ys (fun z hz => hp z (by simp [hz])) fun z hz => hp' z (by simp [hz])
      simp only [List.cons_append, List.cons.injEq, h]
      tauto

/-- So is the last one. -/
theorem cut_inj_last (delimiter : α → Prop) {p p' r r' : List α} {a a' : α}
    (hr : ∀ x ∈ r, ¬delimiter x) (hr' : ∀ x ∈ r', ¬delimiter x) (ha : delimiter a)
    (ha' : delimiter a') : p ++ a :: r = p' ++ a' :: r' ↔ p = p' ∧ a = a' ∧ r = r' := by
  rw [← List.reverse_inj]
  simp only [List.reverse_append, List.reverse_cons, List.append_assoc, List.singleton_append]
  rw [cut_inj delimiter (by simpa using hr) (by simpa using hr') ha ha', List.reverse_inj,
    List.reverse_inj]
  tauto

/-- Every part is led by `sep`, and the tail by `stop`. -/
def delimited (sep stop : α) (parts : List (List α)) (tail : List α) : List α :=
  parts.flatMap (sep :: ·) ++ stop :: tail

/-- No delimiter occurs in a part. -/
def Clean (sep stop : α) (parts : List (List α)) : Prop :=
  ∀ p ∈ parts, ∀ x ∈ p, ¬(x = sep ∨ x = stop)

theorem delimited_cons {sep stop : α} {p : List α} {parts : List (List α)} {tail : List α} :
    delimited sep stop (p :: parts) tail = sep :: (p ++ delimited sep stop parts tail) := by
  simp [delimited]

/-- What follows a part starts with a delimiter. -/
theorem delimited_head (sep stop : α) (parts : List (List α)) (tail : List α) :
    ∃ a r, delimited sep stop parts tail = a :: r ∧ (a = sep ∨ a = stop) := by
  cases parts with
  | nil => exact ⟨stop, tail, rfl, .inr rfl⟩
  | cons p parts => exact ⟨sep, _, delimited_cons, .inl rfl⟩

theorem delimited_inj {sep stop : α} {parts parts' : List (List α)} {tail tail' : List α}
    (hne : sep ≠ stop) (h : Clean sep stop parts) (h' : Clean sep stop parts')
    (heq : delimited sep stop parts tail = delimited sep stop parts' tail') :
    parts = parts' ∧ tail = tail' := by
  induction parts generalizing parts' with
  | nil =>
    cases parts' with
    | nil => simpa [delimited] using heq
    | cons p' parts' =>
      rw [delimited_cons] at heq
      exact (hne (List.head_eq_of_cons_eq heq).symm).elim
  | cons p parts ih =>
    cases parts' with
    | nil =>
      rw [delimited_cons] at heq
      exact (hne (List.head_eq_of_cons_eq heq)).elim
    | cons p' parts' =>
      rw [delimited_cons, delimited_cons, List.cons.injEq] at heq
      obtain ⟨a, r, har, ha⟩ := delimited_head sep stop parts tail
      obtain ⟨a', r', har', ha'⟩ := delimited_head sep stop parts' tail'
      have hcut := heq.2
      rw [har, har', cut_inj (fun x => x = sep ∨ x = stop) (h p (by simp)) (h' p' (by simp)) ha ha']
        at hcut
      obtain ⟨rfl, rfl, rfl⟩ := hcut
      obtain ⟨rfl, rfl⟩ := ih (fun q hq => h q (by simp [hq])) (fun q hq => h' q (by simp [hq]))
        (har.trans har'.symm)
      exact ⟨rfl, rfl⟩

-- ---------------------------------------------------------------------------
-- Texts told apart by what follows
-- ---------------------------------------------------------------------------

section Cancels

variable {β : Type} {P : α → Prop} {follow : List β → Prop} {write : α → List β}

/-- Before what `follow` allows, the text of `a` is no other element's. -/
def Cancels (P : α → Prop) (follow : List β → Prop) (write : α → List β) (a : α) : Prop :=
  ∀ a' r r', P a' → follow r → follow r' → write a ++ r = write a' ++ r' → a = a' ∧ r = r'

/-- Texts written one after the other up to `stop`, which none of them starts with. -/
theorem flatMap_cancels {stop : β} (hstop : ∀ r, follow (stop :: r))
    (hwrite : ∀ a, P a → ∀ r, follow (write a ++ r))
    (hstart : ∀ a, P a → ∃ x xs, write a = x :: xs ∧ x ≠ stop) {as as' : List α}
    (h : ∀ a ∈ as, P a ∧ Cancels P follow write a) (h' : ∀ a ∈ as', P a)
    (heq : as.flatMap write ++ stop :: r = as'.flatMap write ++ stop :: r') :
    as = as' ∧ r = r' := by
  have hfollow (l : List α) (hl : ∀ a ∈ l, P a) (r : List β) :
      follow (l.flatMap write ++ stop :: r) := by
    cases l with
    | nil => exact hstop r
    | cons a l =>
      rw [List.flatMap_cons, List.append_assoc]
      exact hwrite a (hl a (by simp)) _
  induction as generalizing as' with
  | nil =>
    cases as' with
    | nil => simpa using heq
    | cons a' as' =>
      obtain ⟨x, xs, hx, hne⟩ := hstart a' (h' a' (by simp))
      simp [hx, hne.symm] at heq
  | cons a as ih =>
    rw [List.forall_mem_cons] at h
    cases as' with
    | nil =>
      obtain ⟨x, xs, hx, hne⟩ := hstart a h.1.1
      simp [hx, hne] at heq
    | cons a' as' =>
      rw [List.forall_mem_cons] at h'
      simp only [List.flatMap_cons, List.append_assoc] at heq
      obtain ⟨rfl, hrest⟩ := h.1.2 a' _ _ h'.1 (hfollow as (fun b hb => (h.2 b hb).1) _)
        (hfollow as' h'.2 _) heq
      obtain ⟨rfl, rfl⟩ := ih h.2 h'.2 hrest
      exact ⟨rfl, rfl⟩

/-- The elements' texts with `sep` between them. -/
def separated (sep : β) (parts : List (List β)) : List β := List.intercalate [sep] parts

theorem separated_cons (sep : β) (p : List β) (parts : List (List β)) :
    separated sep (p :: parts) = p ++ parts.flatMap (sep :: ·) := by
  induction parts generalizing p with
  | nil => simp [separated]
  | cons q parts ih =>
    have h := ih q
    simp only [separated] at h ⊢
    rw [List.intercalate_cons_cons, h, List.flatMap_cons]
    simp

theorem separated_cancels {sep stop : β} (hne : sep ≠ stop) (hsep : ∀ r, follow (sep :: r))
    (hstop : ∀ r, follow (stop :: r))
    (hstart : ∀ a, P a → ∃ x xs, write a = x :: xs ∧ x ≠ stop) {as as' : List α}
    (h : ∀ a ∈ as, P a ∧ Cancels P follow write a) (h' : ∀ a ∈ as', P a)
    (heq : separated sep (as.map write) ++ stop :: r =
      separated sep (as'.map write) ++ stop :: r') : as = as' ∧ r = r' := by
  have tails {as as' : List α} {r r' : List β} (h : ∀ a ∈ as, P a ∧ Cancels P follow write a)
      (h' : ∀ a ∈ as', P a) (heq : as.flatMap (fun a => sep :: write a) ++ stop :: r =
        as'.flatMap (fun a => sep :: write a) ++ stop :: r') : as = as' ∧ r = r' := by
    refine flatMap_cancels hstop (fun a _ r => hsep _) (fun a _ => ⟨sep, write a, rfl, hne⟩)
      (fun a ha => ⟨(h a ha).1, ?_⟩) h' heq
    intro a' r r' ha' hr hr' heq
    exact (h a ha).2 a' r r' ha' hr hr' (List.cons.inj heq).2
  cases as with
  | nil =>
    cases as' with
    | nil => simpa using heq
    | cons a' as' =>
      obtain ⟨x, xs, hx, hxs⟩ := hstart a' (h' a' (by simp))
      rw [List.map_cons, separated_cons, hx] at heq
      simp [separated, hxs.symm] at heq
  | cons a as =>
    rw [List.forall_mem_cons] at h
    cases as' with
    | nil =>
      obtain ⟨x, xs, hx, hxs⟩ := hstart a h.1.1
      rw [List.map_cons, separated_cons, hx] at heq
      simp [separated, hxs] at heq
    | cons a' as' =>
      rw [List.forall_mem_cons] at h'
      have hfollow (l : List α) (r : List β) :
          follow (l.flatMap (fun a => sep :: write a) ++ stop :: r) := by
        cases l with
        | nil => exact hstop r
        | cons b l => exact hsep _
      simp only [List.map_cons, separated_cons, List.append_assoc, List.flatMap_map] at heq
      obtain ⟨rfl, hrest⟩ := h.1.2 a' _ _ h'.1 (hfollow as _) (hfollow as' _) heq
      obtain ⟨rfl, rfl⟩ := tails h.2 h'.2 hrest
      exact ⟨rfl, rfl⟩

/-- A run of one class ends where the class does. -/
theorem run_cancels (C : β → Prop) {p p' r r' : List β} (hp : ∀ x ∈ p, C x)
    (hp' : ∀ x ∈ p', C x) (hr : ∀ x ∈ r.head?, ¬C x) (hr' : ∀ x ∈ r'.head?, ¬C x)
    (heq : p ++ r = p' ++ r') : p = p' ∧ r = r' := by
  induction p generalizing p' with
  | nil =>
    cases p' with
    | nil => exact ⟨rfl, heq⟩
    | cons y ys => exact absurd (hp' y (by simp)) (hr y (by rw [List.nil_append] at heq; simp [heq]))
  | cons x xs ih =>
    rw [List.forall_mem_cons] at hp
    cases p' with
    | nil => exact absurd hp.1 (hr' x (by rw [List.nil_append] at heq; simp [← heq]))
    | cons y ys =>
      rw [List.forall_mem_cons] at hp'
      obtain ⟨rfl, hrest⟩ := List.cons.inj heq
      obtain ⟨rfl, rfl⟩ := ih hp.2 hp'.2 hrest
      exact ⟨rfl, rfl⟩

end Cancels

-- ---------------------------------------------------------------------------
-- Lengths up front
-- ---------------------------------------------------------------------------

section Prefixed

variable {β : Type} {header : Nat → List β} {width bound : Nat}

/-- Headers of one width that tell the lengths below `bound` apart. -/
structure Header (header : Nat → List β) (width bound : Nat) : Prop where
  length_eq : ∀ n, (header n).length = width
  inj : ∀ m n, m < bound → n < bound → header m = header n → m = n

/-- A length is read back before whatever it is the length of. -/
theorem Header.cancel (h : Header header width bound) {m n : Nat} {r r' : List β} (hm : m < bound)
    (hn : n < bound) (heq : header m ++ r = header n ++ r') : m = n ∧ r = r' := by
  obtain ⟨hhead, hrest⟩ := List.append_inj heq (by rw [h.length_eq, h.length_eq])
  exact ⟨h.inj m n hm hn hhead, hrest⟩

/-- A part led by its length. -/
theorem Header.cancel_part (h : Header header width bound) {p p' r r' : List β}
    (hp : p.length < bound) (hp' : p'.length < bound)
    (heq : header p.length ++ p ++ r = header p'.length ++ p' ++ r') : p = p' ∧ r = r' := by
  rw [List.append_assoc, List.append_assoc] at heq
  obtain ⟨hlength, hrest⟩ := h.cancel hp hp' heq
  exact List.append_inj hrest hlength

/-- As many texts on both sides, each told apart whatever follows it. -/
theorem flatMap_cancels_of_length {P : α → Prop} {write : α → List β} {as as' : List α}
    {r r' : List β} (hlength : as.length = as'.length)
    (h : ∀ a ∈ as, Cancels P (fun _ => True) write a) (h' : ∀ a ∈ as', P a)
    (heq : as.flatMap write ++ r = as'.flatMap write ++ r') : as = as' ∧ r = r' := by
  induction as generalizing as' with
  | nil =>
    rw [List.length_nil] at hlength
    rw [List.eq_nil_of_length_eq_zero hlength.symm] at heq ⊢
    exact ⟨rfl, heq⟩
  | cons a as ih =>
    cases as' with
    | nil => exact absurd hlength (Nat.succ_ne_zero _)
    | cons a' as' =>
      rw [List.forall_mem_cons] at h h'
      rw [List.flatMap_cons, List.flatMap_cons, List.append_assoc, List.append_assoc] at heq
      obtain ⟨rfl, hrest⟩ := h.1 a' _ _ h'.1 trivial trivial heq
      obtain ⟨rfl, rfl⟩ := ih (Nat.succ.inj hlength) h.2 h'.2 hrest
      exact ⟨rfl, rfl⟩

/-- Texts led by their number. -/
theorem Header.cancel_parts (h : Header header width bound) {P : α → Prop} {write : α → List β}
    {as as' : List α} {r r' : List β} (hlength : as.length < bound) (hlength' : as'.length < bound)
    (has : ∀ a ∈ as, Cancels P (fun _ => True) write a) (has' : ∀ a ∈ as', P a)
    (heq : header as.length ++ as.flatMap write ++ r = header as'.length ++ as'.flatMap write ++ r') :
    as = as' ∧ r = r' := by
  rw [List.append_assoc, List.append_assoc] at heq
  obtain ⟨hsame, hrest⟩ := h.cancel hlength hlength' heq
  exact flatMap_cancels_of_length hsame has has' hrest

end Prefixed

-- ---------------------------------------------------------------------------
-- UTF-8
-- ---------------------------------------------------------------------------

theorem toList_byteArray (bs : ByteArray) : bs.toList = bs.data.toList := by
  have general (i : Nat) (acc : List UInt8) :
      ByteArray.toList.loop bs i acc = acc.reverse ++ bs.data.toList.drop i := by
    induction i, acc using ByteArray.toList.loop.induct bs with
    | case1 i acc hi ih =>
      have hi' : i < bs.data.toList.length := hi
      have hget : bs.get! i = bs.data.toList.get ⟨i, hi'⟩ := getElem!_pos bs.data i hi
      rw [ByteArray.toList.loop.eq_def, if_pos hi, ih, List.drop_eq_getElem_cons hi', hget]
      simp
    | case2 i acc hi =>
      have hi' : bs.data.toList.length ≤ i := Nat.le_of_not_lt hi
      rw [ByteArray.toList.loop.eq_def, if_neg hi, List.drop_eq_nil_of_le hi', List.append_nil]
  exact general 0 []

theorem toUTF8_toList (s : String) :
    s.toUTF8.toList = s.toList.flatMap String.utf8EncodeChar := by
  rw [toList_byteArray, String.toUTF8, ← String.utf8Encode_toList, List.utf8Encode,
    List.toList_data_toByteArray]

theorem toUTF8_toList_injective {s t : String} (h : s.toUTF8.toList = t.toUTF8.toList) : s = t := by
  rw [toList_byteArray, toList_byteArray, Array.toList_inj] at h
  exact String.toByteArray_inj.mp (ByteArray.ext h)

/-- `0xff` is no byte of an encoding, and `0x00` only that of the null character. -/
theorem utf8EncodeChar_ne {c : Char} {b : UInt8} (h : b ∈ String.utf8EncodeChar c)
    (hc : c.toNat ≠ 0) : b ≠ 0 ∧ b ≠ 0xff := by
  have hv : c.val.toNat ≠ 0 := hc
  have bound (n : Nat) (h0 : 0 < n) (h1 : n < 255) : UInt8.ofNat n ≠ 0 ∧ UInt8.ofNat n ≠ 0xff := by
    constructor <;> intro he <;> have he := congrArg UInt8.toNat he <;>
      simp [UInt8.toNat_ofNat'] at he <;> omega
  unfold String.utf8EncodeChar at h
  dsimp only at h
  split at h
  · rw [List.mem_singleton.mp h]
    exact bound _ (by omega) (by omega)
  · split at h
    · simp only [List.mem_cons, List.not_mem_nil, or_false] at h
      rcases h with rfl | rfl <;> exact bound _ (by omega) (by omega)
    · split at h <;> simp only [List.mem_cons, List.not_mem_nil, or_false] at h
      · rcases h with rfl | rfl | rfl <;> exact bound _ (by omega) (by omega)
      · rcases h with rfl | rfl | rfl | rfl <;> exact bound _ (by omega) (by omega)

theorem toUTF8_clean {s : String} (h : ∀ c ∈ s.toList, c.toNat ≠ 0) :
    ∀ b ∈ s.toUTF8.toList, ¬(b = 0 ∨ b = 0xff) := by
  intro b hb
  rw [toUTF8_toList, List.mem_flatMap] at hb
  obtain ⟨c, hc, hb⟩ := hb
  exact not_or.mpr (utf8EncodeChar_ne hb (h c hc))

theorem utf8ByteSize_ofList (cs : List Char) :
    (String.ofList cs).utf8ByteSize = (cs.map Char.utf8Size).sum := by
  induction cs with
  | nil => simp
  | cons c cs ih =>
    rw [← List.singleton_append, String.ofList_append, String.utf8ByteSize_append, ih]
    simp

end Framing
