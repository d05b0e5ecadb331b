import Mathlib
import DagMl.Lib.Checked

/-!
# Scanners

A scanner reads on in a state and may fail. A metered scanner also draws on a
budget: `Charged` says what a success costs, and that it depends on the budget
in no other way.
-/

/-- A method that moves `σ` on or fails. -/
abbrev Scanner (ε σ α : Type) := StateT σ (Except ε) α

namespace Scanner

variable {ε σ α β γ : Type}

theorem bind_ok {m : Scanner ε σ α} {f : α → Scanner ε σ β} :
    (m >>= f) s = .ok (b, t) ↔ ∃ a s', m s = .ok (a, s') ∧ f a s' = .ok (b, t) := by
  show (m s >>= fun p => f p.1 p.2) = .ok (b, t) ↔ _
  rw [Checked.bind_ok]
  exact ⟨fun ⟨p, h, h'⟩ => ⟨p.1, p.2, h, h'⟩, fun ⟨a, s', h, h'⟩ => ⟨(a, s'), h, h'⟩⟩

theorem pure_ok {a b : α} : (pure a : Scanner ε σ α) s = .ok (b, t) ↔ a = b ∧ s = t := by
  show (Except.ok (a, s) : Except ε (α × σ)) = .ok (b, t) ↔ _
  rw [Except.ok.injEq, Prod.mk.injEq]

/-- A failure that names where it happened. -/
def fail (e : σ → ε) : Scanner ε σ α := fun s => .error (e s)

@[simp] theorem fail_ok {e : σ → ε} : (fail e : Scanner ε σ α) s = .ok (a, t) ↔ False := by
  simp [fail]

-- ---------------------------------------------------------------------------
-- Loops
-- ---------------------------------------------------------------------------

section Loops

variable (exhausted : ε) (step : α → Scanner ε σ (α ⊕ β))

/-- At most `fuel` turns of a loop that a turn leaves with `inr`. -/
def turns : Nat → α → Scanner ε σ β
  | 0, _ => fail fun _ => exhausted
  | fuel + 1, a => do
    match ← step a with
    | .inl a => turns fuel a
    | .inr b => pure b

/-- `loop { .. }`, with a turn for all that is left to read. -/
def repeatUntil (size : σ → Nat) (a : α) : Scanner ε σ β :=
  fun s => turns exhausted step (size s + 1) a s

variable {exhausted step} {size : σ → Nat} {a : α}

/-- More turns than there is left to read change nothing. -/
theorem turns_stable (decreases : ∀ a s a' s', step a s = .ok (.inl a', s') → size s' < size s)
    {fuel fuel' : Nat} (h : size s < fuel) (h' : size s < fuel') :
    turns exhausted step fuel a s = turns exhausted step fuel' a s := by
  induction fuel generalizing fuel' a s with
  | zero => omega
  | succ fuel ih =>
    match fuel' with
    | fuel' + 1 =>
      show (step a s >>= _) = (step a s >>= _)
      cases hstep : step a s with
      | error e => rfl
      | ok p =>
        obtain ⟨next, s'⟩ := p
        cases next with
        | inl a' =>
          have hlt := decreases a s a' s' hstep
          exact ih (by omega) (by omega)
        | inr b => rfl

/-- A loop whose turns read on runs until a turn leaves it. -/
theorem repeatUntil_eq (decreases : ∀ a s a' s', step a s = .ok (.inl a', s') → size s' < size s) :
    repeatUntil exhausted step size a =
      step a >>= Sum.elim (repeatUntil exhausted step size) pure := by
  funext s
  show (step a s >>= _) = (step a s >>= _)
  cases hstep : step a s with
  | error e => rfl
  | ok p =>
    obtain ⟨next, s'⟩ := p
    cases next with
    | inl a' =>
      have hlt := decreases a s a' s' hstep
      exact turns_stable decreases hlt (Nat.lt_succ_self _)
    | inr b => rfl

/-- What the last turn gives and every turn hands back holds of the loop. -/
theorem repeatUntil_induct {P : α → σ → β → σ → Prop}
    (done : ∀ a s b t, step a s = .ok (.inr b, t) → P a s b t)
    (next : ∀ a s a' s' b t, step a s = .ok (.inl a', s') → P a' s' b t → P a s b t)
    (h : repeatUntil exhausted step size a s = .ok (b, t)) : P a s b t := by
  have general (fuel : Nat) (a : α) (s : σ) (h : turns exhausted step fuel a s = .ok (b, t)) :
      P a s b t := by
    induction fuel generalizing a s with
    | zero => cases h
    | succ fuel ih =>
      obtain ⟨x, s', hstep, hrest⟩ := bind_ok.mp h
      cases x with
      | inl a' => exact next a s a' s' b t hstep (ih a' s' hrest)
      | inr b' =>
        obtain ⟨rfl, rfl⟩ := pure_ok.mp hrest
        exact done a s b' s' hstep
  exact general _ a s h

end Loops

-- ---------------------------------------------------------------------------
-- Never going back
-- ---------------------------------------------------------------------------

/-- A success leaves no more to read than there was. -/
def Shrinks (size : σ → Nat) (m : Scanner ε σ α) : Prop :=
  ∀ s a s', m s = .ok (a, s') → size s' ≤ size s

section Shrinks

variable {size : σ → Nat}

theorem Shrinks.bind {m : Scanner ε σ α} {f : α → Scanner ε σ β} (hm : Shrinks size m)
    (hf : ∀ a, Shrinks size (f a)) : Shrinks size (m >>= f) := by
  intro s b t h
  obtain ⟨a, s', hs, ht⟩ := bind_ok.mp h
  exact (hf a s' b t ht).trans (hm s a s' hs)

theorem Shrinks.pure (a : α) : Shrinks size (pure a : Scanner ε σ α) := by
  intro s b t h
  rw [(pure_ok.mp h).2]

theorem Shrinks.fail (e : σ → ε) : Shrinks size (fail e : Scanner ε σ α) := by
  intro s b t h
  exact absurd h (by simp)

theorem Shrinks.repeatUntil {exhausted : ε} {step : α → Scanner ε σ (α ⊕ β)} {size' : σ → Nat}
    (h : ∀ a, Shrinks size (step a)) (a : α) :
    Shrinks size (repeatUntil exhausted step size' a) := by
  intro s b t hrun
  refine repeatUntil_induct (P := fun _ s _ t => size t ≤ size s)
    (fun a s b t hstep => h a s _ t hstep) (fun a s a' s' b t hstep hle => ?_) hrun
  exact hle.trans (h a s _ s' hstep)

end Shrinks

-- ---------------------------------------------------------------------------
-- Budgets
-- ---------------------------------------------------------------------------

/-- A scanner that draws on a budget. -/
abbrev Metered (ε σ α : Type) := Scanner ε (σ × Nat) α

/-- Reads on without drawing. -/
def free (m : Scanner ε σ α) : Metered ε σ α := fun s =>
  match m s.1 with
  | .ok (a, t) => .ok (a, t, s.2)
  | .error e => .error e

theorem free_ok {m : Scanner ε σ α} : free m s = .ok (a, t) ↔ m s.1 = .ok (a, t.1) ∧ t.2 = s.2 := by
  unfold free
  obtain ⟨t, n⟩ := t
  cases m s.1 with
  | error e => simp
  | ok p => simp [Prod.ext_iff, and_assoc, eq_comm]

/-- Draws one, where there is one. -/
def charge (e : σ → ε) : Metered ε σ Unit := fun s =>
  match s.2 with
  | 0 => .error (e s.1)
  | n + 1 => .ok ((), s.1, n)

theorem Shrinks.free {size : σ → Nat} {m : Scanner ε σ α} (h : Shrinks size m) :
    Shrinks (fun s => size s.1) (free m) := by
  intro s a s' hrun
  exact h s.1 a s'.1 (free_ok.mp hrun).1

theorem Shrinks.charge {size : σ → Nat} {e : σ → ε} :
    Shrinks (fun s => size s.1) (charge e) := by
  rintro ⟨s, n⟩ a s' hrun
  match n with
  | 0 => cases hrun
  | n + 1 =>
    cases hrun
    exact le_rfl

/-- Every success costs some `c` with `Q a c`, and succeeds alike on every budget of `c` and more. -/
def Charged (m : Metered ε σ α) (Q : α → Nat → Prop) : Prop :=
  ∀ s n a s' n', m (s, n) = .ok (a, s', n') →
    ∃ c, n = n' + c ∧ Q a c ∧ ∀ j, m (s, j + c) = .ok (a, s', j)

theorem charged_free {m : Scanner ε σ α} {Q : α → Nat → Prop}
    (h : ∀ s a s', m s = .ok (a, s') → Q a 0) : Charged (free m) Q := by
  intro s n a s' n' hrun
  obtain ⟨hm, hn⟩ := free_ok.mp hrun
  exact ⟨0, hn.symm, h s a s' hm, fun j => free_ok.mpr ⟨hm, rfl⟩⟩

theorem charged_pure {Q : α → Nat → Prop} {a : α} (h : Q a 0) :
    Charged (pure a : Metered ε σ α) Q := by
  intro s n b s' n' hrun
  obtain ⟨rfl, hs⟩ := pure_ok.mp hrun
  cases hs
  exact ⟨0, rfl, h, fun j => rfl⟩

theorem charged_charge {e : σ → ε} : Charged (charge e) fun _ c => c = 1 := by
  intro s n a s' n' hrun
  match n with
  | 0 => cases hrun
  | n + 1 =>
    cases hrun
    exact ⟨1, rfl, rfl, fun j => rfl⟩

theorem charged_fail {e : σ × Nat → ε} {Q : α → Nat → Prop} :
    Charged (fail e : Metered ε σ α) Q := by
  intro s n a s' n' hrun
  exact absurd hrun (by simp)

/-- Costs add up. -/
theorem charged_bind {m : Metered ε σ α} {f : α → Metered ε σ β} {P : α → Nat → Prop}
    {Q : β → Nat → Prop} (hm : Charged m P)
    (hf : ∀ a c, P a c → Charged (f a) fun b d => Q b (c + d)) : Charged (m >>= f) Q := by
  intro s n b t k hrun
  obtain ⟨a, ⟨s', n'⟩, hs, ht⟩ := bind_ok.mp hrun
  obtain ⟨c, hn, hP, hc⟩ := hm s n a s' n' hs
  obtain ⟨d, hn', hQ, hd⟩ := hf a c hP s' n' b t k ht
  refine ⟨c + d, by omega, hQ, fun j => bind_ok.mpr ⟨a, (s', j + d), ?_, hd j⟩⟩
  rw [show j + (c + d) = j + d + c by omega]
  exact hc (j + d)

/-- A loop costs what its turns cost: each adds its cost to the weight it hands on. -/
theorem charged_repeatUntil {exhausted : ε} {step : α → Metered ε σ (α ⊕ β)} {size : σ → Nat}
    {weight : α → Nat} {total : β → Nat}
    (h : ∀ a, Charged (step a) fun x c => Sum.elim weight total x = weight a + c) (a : α) :
    Charged (repeatUntil exhausted step (fun s => size s.1) a) fun b c =>
      total b = weight a + c := by
  have general (fuel : Nat) (a : α) :
      Charged (turns exhausted step fuel a) fun b c => total b = weight a + c := by
    induction fuel generalizing a with
    | zero => exact charged_fail
    | succ fuel ih =>
      refine charged_bind (h a) fun x c hx => ?_
      cases x with
      | inl a' =>
        intro s n b s' n' hrun
        obtain ⟨d, hn, htotal, hd⟩ := ih a' s n b s' n' hrun
        rw [Sum.elim_inl] at hx
        exact ⟨d, hn, by omega, hd⟩
      | inr b => exact charged_pure hx
  intro s n b s' n' hrun
  exact general (size s + 1) a s n b s' n' hrun

/-- A charged scanner on a budget is the scanner on a larger one, if it can pay. -/
theorem Charged.iff {m : Metered ε σ α} {cost : α → Nat} (h : Charged m fun a c => c = cost a)
    {n N : Nat} (hle : n ≤ N) : (∃ n', m (s, n) = .ok (a, s', n')) ↔
      (∃ n', m (s, N) = .ok (a, s', n')) ∧ cost a ≤ n := by
  constructor
  · rintro ⟨n', hrun⟩
    obtain ⟨c, hn, rfl, hc⟩ := h s n a s' n' hrun
    refine ⟨⟨N - cost a, ?_⟩, by omega⟩
    rw [← hc (N - cost a), Nat.sub_add_cancel (by omega)]
  · rintro ⟨⟨n', hrun⟩, hcost⟩
    obtain ⟨c, -, rfl, hc⟩ := h s N a s' n' hrun
    refine ⟨n - cost a, ?_⟩
    rw [← hc (n - cost a), Nat.sub_add_cancel hcost]

end Scanner
