import DagMl.Lib.Checked

/-!
# Kinds of failure

When a checked computation fails with an error of one kind, and which step of a
loop it is. A step that fails in this kind whatever the state decides a loop in
which no earlier step fails in another.
-/

namespace Checked

variable {ε α β σ : Type} {bad : ε → Prop}

/-- The computation fails with an error of this kind. -/
def FailsAs (bad : ε → Prop) (x : Except ε α) : Prop := ∃ e, x = .error e ∧ bad e

/-- If the computation fails, the error is of this kind. -/
def FailsOnlyAs (bad : ε → Prop) (x : Except ε α) : Prop := ∀ e, x = .error e → bad e

@[simp] theorem failsAs_ok {a : α} : FailsAs bad (.ok a : Except ε α) ↔ False := by
  simp [FailsAs]

@[simp] theorem failsAs_pure {a : α} : FailsAs bad (pure a : Except ε α) ↔ False := failsAs_ok

@[simp] theorem failsAs_error {e : ε} : FailsAs bad (.error e : Except ε α) ↔ bad e := by
  simp [FailsAs]

theorem failsAs_bind {x : Except ε α} {f : α → Except ε β} :
    FailsAs bad (x >>= f) ↔ FailsAs bad x ∨ ∃ a, x = .ok a ∧ FailsAs bad (f a) := by
  cases x with
  | ok a => simp [FailsAs, bind, Except.bind]
  | error e => simp [FailsAs, bind, Except.bind]

theorem failsAs_refuseIf {cond : Prop} [Decidable cond] {e : ε} :
    FailsAs bad (refuseIf cond e) ↔ cond ∧ bad e := by
  unfold refuseIf
  split
  · simp_all
  · simp_all

theorem failsAs_need {o : Option α} {e : ε} : FailsAs bad (need o e) ↔ o = none ∧ bad e := by
  cases o with
  | some a => simp [need]
  | none => simp [need]

theorem failsOnlyAs_ok {a : α} : FailsOnlyAs bad (.ok a : Except ε α) := by
  rintro e h
  cases h

theorem failsOnlyAs_refuseIf {cond : Prop} [Decidable cond] {e : ε} (h : ¬cond) :
    FailsOnlyAs bad (refuseIf cond e) := by
  rintro e' he
  exact absurd (refuseIf_error.mp he).1 h

theorem failsOnlyAs_need {o : Option α} {e : ε} (h : o = none → bad e) :
    FailsOnlyAs bad (need o e) := by
  cases o with
  | some a => exact failsOnlyAs_ok
  | none =>
    rintro e' he
    cases he
    exact h rfl

theorem FailsOnlyAs.bind {x : Except ε α} {f : α → Except ε β} (hx : FailsOnlyAs bad x)
    (hf : ∀ a, x = .ok a → FailsOnlyAs bad (f a)) : FailsOnlyAs bad (x >>= f) := by
  rintro e he
  rcases bind_error.mp he with he | ⟨a, ha, he⟩
  · exact hx e he
  · exact hf a ha e he

/-- What neither succeeds nor fails otherwise fails in this kind. -/
theorem FailsOnlyAs.failsAs {x : Except ε α} (h : FailsOnlyAs bad x) (hnot : ∀ a, x ≠ .ok a) :
    FailsAs bad x := by
  cases x with
  | ok a => exact absurd rfl (hnot a)
  | error e => exact ⟨e, rfl, h e rfl⟩

-- ---------------------------------------------------------------------------
-- Loops
-- ---------------------------------------------------------------------------

theorem FailsOnlyAs.loop {f : σ → α → Except ε σ} {l : List α}
    (h : ∀ s, ∀ x ∈ l, FailsOnlyAs bad (f s x)) : FailsOnlyAs bad (Checked.loop f s l) := by
  induction l generalizing s with
  | nil => exact failsOnlyAs_ok
  | cons x xs ih =>
    refine (h s x List.mem_cons_self).bind fun s' _ => ih fun s y hy => ?_
    exact h s y (List.mem_cons_of_mem _ hy)

/-- A loop fails at the first step that does. -/
theorem failsAs_loop {f : σ → α → Except ε σ} {l : List α} (h : FailsAs bad (loop f s l)) :
    ∃ before x after s', l = before ++ x :: after ∧ loop f s before = .ok s' ∧
      FailsAs bad (f s' x) := by
  induction l generalizing s with
  | nil => simp at h
  | cons x xs ih =>
    rcases failsAs_bind.mp h with hx | ⟨s₁, hx, hrest⟩
    · exact ⟨[], x, xs, s, rfl, rfl, hx⟩
    · obtain ⟨before, y, after, s', rfl, hbefore, hy⟩ := ih hrest
      exact ⟨x :: before, y, after, s', rfl, loop_cons.mpr ⟨s₁, hx, hbefore⟩, hy⟩

theorem failsAs_collect {f : α → Except ε β} {l : List α} (h : FailsAs bad (collect l f)) :
    ∃ before x after ys, l = before ++ x :: after ∧ collect before f = .ok ys ∧
      FailsAs bad (f x) := by
  induction l with
  | nil => simp [collect] at h
  | cons x xs ih =>
    rcases failsAs_bind.mp h with hx | ⟨y, hx, hrest⟩
    · exact ⟨[], x, xs, [], rfl, rfl, hx⟩
    · have hrest : FailsAs bad (collect xs f) := by
        rcases failsAs_bind.mp hrest with hrest | ⟨ys, -, hnone⟩
        · exact hrest
        · simp at hnone
      obtain ⟨before, z, after, ys, rfl, hbefore, hz⟩ := ih hrest
      refine ⟨x :: before, z, after, y :: ys, rfl, ?_, hz⟩
      exact collect_ok.mpr (.cons hx (collect_ok.mp hbefore))

/-- A step that fails in this kind in every state, behind steps that fail in no other. -/
theorem failsAs_loop_append {f : σ → α → Except ε σ} {before after : List α} {x : α}
    (hbefore : ∀ s, ∀ y ∈ before, FailsOnlyAs bad (f s y)) (hx : ∀ s, FailsAs bad (f s x)) :
    FailsAs bad (loop f s (before ++ x :: after)) := by
  induction before generalizing s with
  | nil => exact failsAs_bind.mpr (.inl (hx s))
  | cons y ys ih =>
    have hy := hbefore s y List.mem_cons_self
    have hrest := fun s' => ih (s := s') fun s z hz => hbefore s z (List.mem_cons_of_mem _ hz)
    cases hstep : f s y with
    | ok s' => exact failsAs_bind.mpr (.inr ⟨s', hstep, hrest s'⟩)
    | error e => exact failsAs_bind.mpr (.inl ⟨e, hstep, hy e hstep⟩)

theorem failsAs_collect_append {f : α → Except ε β} {before after : List α} {x : α}
    (hbefore : ∀ y ∈ before, FailsOnlyAs bad (f y)) (hx : FailsAs bad (f x)) :
    FailsAs bad (collect (before ++ x :: after) f) := by
  induction before with
  | nil => exact failsAs_bind.mpr (.inl hx)
  | cons y ys ih =>
    rw [List.forall_mem_cons] at hbefore
    cases hstep : f y with
    | ok z => exact failsAs_bind.mpr (.inr ⟨z, hstep, failsAs_bind.mpr (.inl (ih hbefore.2))⟩)
    | error e => exact failsAs_bind.mpr (.inl ⟨e, hstep, hbefore.1 e hstep⟩)

end Checked
