import Mathlib
import DagMl.Lib.Checked

/-!
# Methods that change a state

A method returns a result and the state it leaves, whether it succeeded or
not. A failed call that leaves the state it found is the good case; the rules
here say which ways of writing a method give it, and carry it over whole runs.
-/

/-- A method on `&mut self`. -/
abbrev Method (ε σ α : Type) := σ → Except ε α × σ

namespace Method

variable {ε σ α ι : Type}

/-- Called in `s`, the method either succeeds or leaves `s`. -/
def AtomicAt (m : Method ε σ α) (s : σ) : Prop := ∀ e s', m s = (.error e, s') → s' = s

/-- The state is replaced at the end, and only by a success. -/
def staged (m : σ → Except ε (α × σ)) : Method ε σ α := fun s =>
  match m s with
  | .ok (a, s') => (.ok a, s')
  | .error e => (.error e, s)

theorem staged_atomicAt (m : σ → Except ε (α × σ)) (s : σ) : (staged m).AtomicAt s := by
  intro e s' h
  unfold staged at h
  cases hm : m s with
  | ok p => simp [hm] at h
  | error e' => simp_all

theorem staged_keeps {m : σ → Except ε (α × σ)} {I : σ → Prop} (h : I s)
    (keep : ∀ a s', m s = .ok (a, s') → I s') : I (staged m s).2 := by
  unfold staged
  cases hm : m s with
  | ok p => exact keep p.1 p.2 hm
  | error e => exact h

/-- A method that only reads. -/
def reading (m : σ → Except ε α) : Method ε σ α := fun s => (m s, s)

theorem reading_atomicAt (m : σ → Except ε α) (s : σ) : (reading m).AtomicAt s := by
  intro e s' h
  exact (congrArg Prod.snd h).symm

-- ---------------------------------------------------------------------------
-- Methods in sequence
-- ---------------------------------------------------------------------------

variable {β : Type}

/-- A computation that does not touch the state. -/
def lift (r : Except ε α) : Method ε σ α := fun s => (r, s)

theorem lift_ok {r : Except ε α} {s : σ} : lift r s = (.ok a, t) ↔ r = .ok a ∧ t = s := by
  rw [lift, Prod.mk.injEq, eq_comm (a := s)]

theorem lift_error {r : Except ε α} {s : σ} : lift r s = (.error e, t) ↔ r = .error e ∧ t = s := by
  rw [lift, Prod.mk.injEq, eq_comm (a := s)]

/-- `let a = self.m()?; self.f(a)`: what `m` wrote before it failed stays. -/
def bind (m : Method ε σ α) (f : α → Method ε σ β) : Method ε σ β := fun s =>
  match m s with
  | (.ok a, s') => f a s'
  | (.error e, s') => (.error e, s')

theorem bind_ok {m : Method ε σ α} {f : α → Method ε σ β} :
    m.bind f s = (.ok b, t) ↔ ∃ a s', m s = (.ok a, s') ∧ f a s' = (.ok b, t) := by
  unfold bind
  rcases m s with ⟨_ | _, s'⟩ <;> simp

theorem bind_error {m : Method ε σ α} {f : α → Method ε σ β} :
    m.bind f s = (.error e, t) ↔
      m s = (.error e, t) ∨ ∃ a s', m s = (.ok a, s') ∧ f a s' = (.error e, t) := by
  unfold bind
  rcases m s with ⟨_ | _, s'⟩ <;> simp

/-- `for x in xs { self.turn(x)?; }`. -/
def each (turn : ι → Method ε σ Unit) : List ι → Method ε σ Unit
  | [] => lift (.ok ())
  | x :: xs => (turn x).bind fun _ => each turn xs

theorem each_cons_ok {turn : ι → Method ε σ Unit} :
    each turn (x :: xs) s = (.ok (), t) ↔
      ∃ s', turn x s = (.ok (), s') ∧ each turn xs s' = (.ok (), t) := by
  rw [each, bind_ok]
  exact ⟨fun ⟨_, h⟩ => h, fun h => ⟨(), h⟩⟩

/-- A loop fails in one of its turns, and leaves what that turn leaves. -/
theorem each_error {turn : ι → Method ε σ Unit} {l : List ι} :
    each turn l s = (.error e, t) ↔ ∃ before x after s', l = before ++ x :: after ∧
      each turn before s = (.ok (), s') ∧ turn x s' = (.error e, t) := by
  induction l generalizing s with
  | nil => simp [each, lift]
  | cons y ys ih =>
    simp only [each, bind_error, ih]
    constructor
    · rintro (hy | ⟨_, s', hy, before, x, after, s'', rfl, hbefore, hx⟩)
      · exact ⟨[], y, ys, s, rfl, rfl, hy⟩
      · exact ⟨y :: before, x, after, s'', rfl, each_cons_ok.mpr ⟨s', hy, hbefore⟩, hx⟩
    · rintro ⟨before, x, after, s'', hl, hbefore, hx⟩
      cases before with
      | nil =>
        cases hl
        cases hbefore
        exact .inl hx
      | cons z before =>
        cases hl
        obtain ⟨s', hz, hbefore⟩ := each_cons_ok.mp hbefore
        exact .inr ⟨(), s', hz, before, x, after, s'', rfl, hbefore, hx⟩

-- ---------------------------------------------------------------------------
-- Loops that write as they go
-- ---------------------------------------------------------------------------

/-- `for x in xs { turn(self, x)?; }` where each turn writes to `self` last:
an error returns at once and keeps what the turns before it wrote. -/
def eachInPlace (turn : σ → ι → Except ε σ) : List ι → Method ε σ Unit
  | [], s => (.ok (), s)
  | x :: xs, s =>
    match turn s x with
    | .ok s' => eachInPlace turn xs s'
    | .error e => (.error e, s)

theorem eachInPlace_ok {turn : σ → ι → Except ε σ} {l : List ι} :
    eachInPlace turn l s = (.ok (), t) ↔ Checked.loop turn s l = .ok t := by
  induction l generalizing s with
  | nil => simp [eachInPlace]
  | cons x xs ih =>
    rw [Checked.loop_cons]
    unfold eachInPlace
    cases turn s x with
    | ok s' => simpa using ih
    | error e => simp

/-- What a failed loop leaves: the state its successful turns made. -/
theorem eachInPlace_error {turn : σ → ι → Except ε σ} {l : List ι} :
    eachInPlace turn l s = (.error e, t) ↔
      ∃ before x after, l = before ++ x :: after ∧ Checked.loop turn s before = .ok t ∧
        turn t x = .error e := by
  induction l generalizing s with
  | nil => simp [eachInPlace]
  | cons x xs ih =>
    unfold eachInPlace
    cases hx : turn s x with
    | ok s' =>
      simp only [ih]
      constructor
      · rintro ⟨before, y, after, rfl, hb, hy⟩
        exact ⟨x :: before, y, after, rfl, Checked.loop_cons.mpr ⟨s', hx, hb⟩, hy⟩
      · rintro ⟨before, y, after, hl, hb, hy⟩
        cases before with
        | nil =>
          cases hl
          cases hb
          rw [hx] at hy
          cases hy
        | cons z before =>
          cases hl
          obtain ⟨s'', hz, hb⟩ := Checked.loop_cons.mp hb
          rw [hx] at hz
          cases hz
          exact ⟨before, y, after, rfl, hb, hy⟩
    | error e' =>
      simp only [Prod.mk.injEq, Except.error.injEq]
      constructor
      · rintro ⟨rfl, rfl⟩
        exact ⟨[], x, xs, rfl, rfl, hx⟩
      · rintro ⟨before, y, after, hl, hb, hy⟩
        cases before with
        | nil =>
          cases hl
          cases hb
          rw [hx] at hy
          cases hy
          exact ⟨rfl, rfl⟩
        | cons z before =>
          cases hl
          obtain ⟨s'', hz, hb⟩ := Checked.loop_cons.mp hb
          rw [hx] at hz
          cases hz

-- ---------------------------------------------------------------------------
-- Runs
-- ---------------------------------------------------------------------------

/-- The state after a list of calls, whatever each of them returned. -/
def after (step : ι → Method ε σ α) (s : σ) (calls : List ι) : σ :=
  calls.foldl (fun s i => (step i s).2) s

@[simp] theorem after_nil {step : ι → Method ε σ α} : after step s [] = s := rfl

@[simp] theorem after_cons {step : ι → Method ε σ α} :
    after step s (i :: calls) = after step (step i s).2 calls := rfl

theorem after_append {step : ι → Method ε σ α} {l₁ l₂ : List ι} :
    after step s (l₁ ++ l₂) = after step (after step s l₁) l₂ := List.foldl_append

/-- What every call keeps, successful or not, every run keeps. -/
theorem after_invariant {step : ι → Method ε σ α} (I : σ → Prop) (start : I s)
    (keep : ∀ s i, I s → I (step i s).2) (calls : List ι) : I (after step s calls) := by
  induction calls generalizing s with
  | nil => exact start
  | cons i calls ih => exact ih (keep s i start)

end Method
