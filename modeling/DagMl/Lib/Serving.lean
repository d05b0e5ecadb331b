import DagMl.Lib.Stateful

/-!
# Servers behind an interface

A server answers calls out of a state of its own. A specification says what is
answered from the part of the state that callers can tell apart; two servers
that implement one specification cannot be told apart by any run of calls.
-/

namespace Serving

variable {ε ε' κ ρ σ σ' τ : Type}

/-- The answer to a call and the state it leaves, or a refusal, which leaves the state. -/
abbrev Spec (κ τ ρ : Type) := κ → τ → Option (ρ × τ)

theorem toOption_eq_some {x : Except ε α} : x.toOption = some a ↔ x = .ok a := by
  cases x <;> simp [Except.toOption]

/-- The answers of a run. -/
def replies (serve : κ → Method ε σ ρ) : σ → List κ → List (Except ε ρ)
  | _, [] => []
  | s, call :: calls => (serve call s).1 :: replies serve (serve call s).2 calls

/-- One call answers as specified. -/
structure AnswersAt (m : Method ε σ ρ) (spec : τ → Option (ρ × τ)) (view : σ → τ) (s : σ) :
    Prop where
  reply : (m s).1.toOption = (spec (view s)).map Prod.fst
  state : view (m s).2 = ((spec (view s)).map Prod.snd).getD (view s)

/-- Every permitted call answers as specified from every state of the invariant. -/
structure Implements (serve : κ → Method ε σ ρ) (spec : Spec κ τ ρ) (view : σ → τ)
    (Inv : σ → Prop) (Permitted : κ → Prop) : Prop where
  keeps : ∀ call s, Inv s → Inv (serve call s).2
  answers : ∀ call s, Inv s → Permitted call → AnswersAt (serve call) (spec call) view s

-- ---------------------------------------------------------------------------
-- One call
-- ---------------------------------------------------------------------------

variable {spec : τ → Option (ρ × τ)} {view : σ → τ} {s : σ}

theorem answersAt_reading {m : σ → Except ε ρ}
    (h : ∀ reply t, spec (view s) = some (reply, t) ↔ m s = .ok reply ∧ t = view s) :
    AnswersAt (Method.reading m) spec view s := by
  cases hm : m s with
  | ok reply =>
    have hspec := (h reply (view s)).mpr ⟨hm, rfl⟩
    constructor <;> simp [Method.reading, hm, hspec, Except.toOption]
  | error e =>
    have hspec : spec (view s) = none := by
      rw [Option.eq_none_iff_forall_ne_some]
      rintro ⟨reply, t⟩ hsome
      simp [hm] at h
      exact h reply t hsome
    constructor <;> simp [Method.reading, hm, hspec, Except.toOption]

theorem answersAt_staged {m : σ → Except ε (ρ × σ)}
    (h : ∀ reply t, spec (view s) = some (reply, t) ↔ ∃ s', m s = .ok (reply, s') ∧ view s' = t) :
    AnswersAt (Method.staged m) spec view s := by
  cases hm : m s with
  | ok answer =>
    have hspec := (h answer.1 (view answer.2)).mpr ⟨answer.2, hm, rfl⟩
    constructor <;> simp [Method.staged, hm, hspec, Except.toOption]
  | error e =>
    have hspec : spec (view s) = none := by
      rw [Option.eq_none_iff_forall_ne_some]
      rintro ⟨reply, t⟩ hsome
      simp [hm] at h
      exact h reply t hsome
    constructor <;> simp [Method.staged, hm, hspec, Except.toOption]

-- ---------------------------------------------------------------------------
-- Runs
-- ---------------------------------------------------------------------------

variable {serve : κ → Method ε σ ρ} {serve' : κ → Method ε' σ' ρ} {spec : Spec κ τ ρ}
  {view' : σ' → τ} {Inv : σ → Prop} {Inv' : σ' → Prop} {Permitted : κ → Prop} {calls : List κ}
  {s' : σ'}

theorem Implements.restrict {Permitted' : κ → Prop}
    (h : Implements serve spec view Inv Permitted) (hle : ∀ call, Permitted' call → Permitted call) :
    Implements serve spec view Inv Permitted' :=
  ⟨h.keeps, fun call s hs hcall => h.answers call s hs (hle call hcall)⟩

/-- A run answers the same and leaves the same, whichever server it goes to. -/
theorem Implements.interchangeable (h : Implements serve spec view Inv Permitted)
    (h' : Implements serve' spec view' Inv' Permitted) (hs : Inv s) (hs' : Inv' s')
    (hview : view s = view' s') (hcalls : ∀ call ∈ calls, Permitted call) :
    (replies serve s calls).map Except.toOption = (replies serve' s' calls).map Except.toOption ∧
      view (Method.after serve s calls) = view' (Method.after serve' s' calls) := by
  induction calls generalizing s s' with
  | nil => exact ⟨rfl, hview⟩
  | cons call calls ih =>
    rw [List.forall_mem_cons] at hcalls
    have hcall := h.answers call s hs hcalls.1
    have hcall' := h'.answers call s' hs' hcalls.1
    have hreply := hcall.reply.trans ((congrArg (fun t => (spec call t).map Prod.fst) hview).trans
      hcall'.reply.symm)
    have hstate : view (serve call s).2 = view' (serve' call s').2 := by
      rw [hcall.state, hcall'.state, hview]
    obtain ⟨hreplies, hafter⟩ :=
      ih (h.keeps call s hs) (h'.keeps call s' hs') hstate hcalls.2
    refine ⟨?_, hafter⟩
    simp only [replies, List.map_cons, hreply, hreplies]

end Serving
