import DagMl.Results.Commit

/-!
# A race of writers for an empty directory
-/

namespace DagMl

variable {W R : Type}

open ResultFile (publishOrder)

namespace WriterStage

/-- A bound on the calls that are left. -/
def remaining : WriterStage → Nat
  | .start => 26
  | .noting => 25
  | .probing todo => 21 + todo.length
  | .preparing todo => 17 + todo.length
  | .publishing todo published => 7 + 3 * todo.length + published.length
  | .copying _ todo published => 9 + 3 * todo.length + published.length
  | .undoing todo => 6 + todo.length
  | .sweeping _ todo => 2 + todo.length
  | .releasing _ => 1
  | .finished _ => 0

variable [DecidableEq W] {w : W} {dir dir' : RunDir W} {stage : WriterStage} {answer : CallAnswer}

theorem remaining_step : (stage.step w answer dir).1.remaining ≤ stage.remaining - 1 := by
  cases stage with
  | start => simp only [step]; split_ifs <;> simp [remaining]
  | noting => simp only [step]; split_ifs <;> simp [remaining, ResultFile.all]
  | probing todo =>
    cases todo with
    | nil => simp [step, remaining, ResultFile.all]
    | cons file todo =>
      simp only [step]
      split_ifs <;> simp only [remaining, List.length_cons] <;> omega
  | preparing todo =>
    cases todo with
    | nil => simp [step, remaining, publishOrder]
    | cons file todo =>
      simp only [step]; split_ifs <;> simp [remaining, ResultFile.all] <;> omega
  | publishing todo published =>
    cases todo with
    | nil => simp [step, remaining, ResultFile.all]; omega
    | cons file todo => simp only [step]; split_ifs <;> simp [remaining] <;> omega
  | copying file todo published => simp only [step]; split_ifs <;> simp [remaining] <;> omega
  | undoing todo =>
    cases todo with
    | nil => simp [step, remaining, ResultFile.all]
    | cons file todo => simp [step, remaining]
  | sweeping ok todo =>
    cases todo with
    | nil => simp [step, remaining]
    | cons file todo => simp [step, remaining]
  | releasing ok => simp [step, remaining]
  | finished ok => simp [step, remaining]

theorem finished_of_remaining (h : stage.remaining = 0) : ∃ ok, stage = .finished ok := by
  cases stage with
  | finished ok => exact ⟨ok, rfl⟩
  | _ => simp [remaining] at h

/-- The temporary files that are there have still to be removed. -/
def Tidy (w : W) (dir : RunDir W) : WriterStage → Prop
  | .preparing todo => todo.Nodup ∧ ∀ file ∈ todo, dir.temporary w file = false
  | .publishing _ _ => True
  | .copying _ _ _ => True
  | .undoing _ => True
  | .sweeping _ todo => ∀ file, file ∈ todo ∨ dir.temporary w file = false
  | _ => ∀ file, dir.temporary w file = false

omit [DecidableEq W] in
theorem Tidy.congr (h : stage.Tidy w dir) (hsame : dir'.temporary w = dir.temporary w) :
    stage.Tidy w dir' := by
  cases stage <;> simp_all [Tidy]

theorem temporary_other {w' : W} (hne : w' ≠ w) :
    (stage.step w answer dir).2.temporary w' = dir.temporary w' := by
  cases stage with
  | probing todo =>
    cases todo with
    | nil => rfl
    | cons file todo => simp only [step]; split_ifs <;> rfl
  | preparing todo =>
    cases todo with
    | nil => rfl
    | cons file todo => simp only [step]; split_ifs <;> simp [RunDir.setTemporary, hne]
  | publishing todo published =>
    cases todo with
    | nil => rfl
    | cons file todo => simp only [step]; split_ifs <;> rfl
  | copying file todo published => simp only [step]; split_ifs <;> rfl
  | undoing todo =>
    cases todo with
    | nil => rfl
    | cons file todo => simp only [step]; split_ifs <;> rfl
  | sweeping ok todo =>
    cases todo with
    | nil => rfl
    | cons file todo => simp only [step]; split_ifs <;> simp [RunDir.setTemporary, hne]
  | start => simp only [step]; split_ifs <;> rfl
  | noting => simp only [step]; split_ifs <;> rfl
  | releasing ok => simp only [step]; split_ifs <;> rfl
  | finished ok => rfl

theorem Tidy.step (h : stage.Tidy w dir) (hserved : answer.Served) :
    (stage.step w answer dir).1.Tidy w (stage.step w answer dir).2 := by
  have hall : ∀ file, file ∈ ResultFile.all := by
    intro file
    cases file <;> simp [ResultFile.all]
  cases stage with
  | start => simp only [WriterStage.step]; split_ifs <;> exact h
  | noting => simp only [WriterStage.step]; split_ifs <;> exact h
  | probing todo =>
    cases todo with
    | nil => exact ⟨by decide, fun file _ => h file⟩
    | cons file todo => simp only [WriterStage.step]; split_ifs <;> exact h
  | preparing todo =>
    cases todo with
    | nil => exact trivial
    | cons file todo =>
      obtain ⟨hnodup, hfree⟩ := h
      simp only [WriterStage.step]
      split_ifs
      · exact fun other => .inl (hall other)
      · exact fun other => .inl (hall other)
      · refine ⟨(List.nodup_cons.mp hnodup).2, fun other hother => ?_⟩
        have hne : other ≠ file := fun heq => (List.nodup_cons.mp hnodup).1 (heq ▸ hother)
        simpa [RunDir.setTemporary, hne] using hfree other (List.mem_cons_of_mem _ hother)
  | publishing todo published =>
    cases todo with
    | nil => exact fun other => .inl (hall other)
    | cons file todo => simp only [WriterStage.step]; split_ifs <;> exact trivial
  | copying file todo published => simp only [WriterStage.step]; split_ifs <;> exact trivial
  | undoing todo =>
    cases todo with
    | nil => exact fun other => .inl (hall other)
    | cons file todo => exact trivial
  | sweeping ok todo =>
    cases todo with
    | nil => exact fun other => (h other).resolve_left (List.not_mem_nil)
    | cons file todo =>
      simp only [WriterStage.step, if_neg hserved.ne_failed]
      intro other
      by_cases hsame : other = file
      · exact .inr (by simp [RunDir.setTemporary, hsame])
      · refine (h other).imp (fun hmem => ?_) fun hfree => ?_
        · simpa [hsame] using hmem
        · simpa [RunDir.setTemporary, hsame] using hfree
  | releasing ok => simp only [WriterStage.step]; split_ifs <;> exact h
  | finished ok => exact h

/-- A served writer gives the reservation back with its last call. -/
theorem released (hserved : answer.Served) (h : stage.holds = true)
    (hnext : (stage.step w answer dir).1.holds = false) :
    (stage.step w answer dir).2.reservation = none := by
  cases stage with
  | releasing ok => simp [step, hserved.ne_failed]
  | probing todo =>
    cases todo with
    | nil => cases hnext
    | cons file todo => simp only [step] at hnext; split_ifs at hnext <;> cases hnext
  | preparing todo =>
    cases todo with
    | nil => cases hnext
    | cons file todo => simp only [step] at hnext; split_ifs at hnext <;> cases hnext
  | publishing todo published =>
    cases todo with
    | nil => cases hnext
    | cons file todo => simp only [step] at hnext; split_ifs at hnext <;> cases hnext
  | copying file todo published => simp only [step] at hnext; split_ifs at hnext <;> cases hnext
  | undoing todo => cases todo <;> cases hnext
  | sweeping ok todo => cases todo <;> cases hnext
  | noting => simp only [step] at hnext; split_ifs at hnext <;> cases hnext
  | start => cases h
  | finished ok => cases h

/-- On the way to success. -/
def Winning (dir : RunDir W) : WriterStage → Prop
  | .noting => dir.Empty
  | .probing _ => dir.Empty
  | .preparing _ => True
  | .publishing _ _ => True
  | .copying _ _ _ => True
  | .sweeping ok _ => ok = true
  | .releasing ok => ok = true
  | .finished ok => ok = true
  | _ => False

omit [DecidableEq W] in
theorem Winning.congr (h : stage.Winning dir) (hsame : dir'.destination = dir.destination) :
    stage.Winning dir' := by
  cases dir
  cases dir'
  cases hsame
  cases stage <;> exact h

theorem Winning.step (h : stage.Winning dir) (hknows : stage.Knows w dir) (htidy : stage.Tidy w dir)
    (hserved : answer.Served) :
    (stage.step w answer dir).1.Winning (stage.step w answer dir).2 := by
  have hfailed := hserved.ne_failed
  have hunsynced := hserved.plain.2
  cases stage with
  | start => cases h
  | noting =>
    simp only [WriterStage.step, hfailed, hunsynced, or_self, if_false]
    exact h
  | probing todo =>
    cases todo with
    | nil => trivial
    | cons file todo =>
      simp only [WriterStage.step, h file, Option.isSome_none, Bool.false_eq_true, and_false,
        if_false]
      exact h
  | preparing todo =>
    cases todo with
    | nil => trivial
    | cons file todo =>
      have hfree := htidy.2 file List.mem_cons_self
      simp [WriterStage.step, hfailed, hunsynced, hfree, Winning]
  | publishing todo published =>
    cases todo with
    | nil => rfl
    | cons file todo =>
      have hfree : dir.destination file = none :=
        (hknows.2 file).trans (if_neg (ResultFile.fresh hknows.1))
      simp only [WriterStage.step, hfailed, hfree, Option.isSome_none, Bool.false_eq_true, or_self,
        if_false]
      split_ifs <;> exact trivial
  | copying file todo published => simp [WriterStage.step, hfailed, hunsynced, Winning]
  | undoing todo => cases h
  | sweeping ok todo =>
    cases todo with
    | nil => exact h
    | cons file todo => exact h
  | releasing ok => exact h
  | finished ok => exact h

end WriterStage

namespace ResultsSystem

variable {sys : ResultsSystem W R}

/-- Nothing is lost of a directory that all calls have served. -/
structure Serviced (sys : ResultsSystem W R) : Prop extends sys.Orderly where
  tidy : ∀ w, (sys.stage w).Tidy w sys.dir
  reserved : sys.dir.reservation = none ∨ ∃ w, (sys.stage w).holds = true
  /-- Either nobody has come yet, or somebody is on the way to success. -/
  winner : ((∀ w, sys.stage w = .start) ∧ sys.dir.reservation = none ∧ sys.dir.Empty) ∨
    ∃ w, (sys.stage w).Winning sys.dir

theorem Serviced.initial {dir : RunDir W} (hempty : dir.Empty) (hfree : dir.reservation = none)
    (hclean : ∀ w file, dir.temporary w file = false) :
    (initial dir : ResultsSystem W R).Serviced where
  toOrderly := .initial fun file stored hstored => by cases (hempty file).symm.trans hstored
  tidy := hclean
  reserved := .inl hfree
  winner := .inl ⟨fun _ => rfl, hfree, hempty⟩

variable [DecidableEq W] [DecidableEq R]

/-- The reservation outlives no holder. -/
theorem Serviced.reserved_step (h : sys.Serviced) {w : W} {answer : CallAnswer}
    (hserved : answer.Served) :
    (sys.step (.write w answer)).dir.reservation = none ∨
      ∃ w', ((sys.step (.write w answer)).stage w').holds = true := by
  cases hholds : (sys.stage w).holds with
  | true =>
    cases hnext : ((sys.stage w).step w answer sys.dir).1.holds with
    | true => exact .inr ⟨w, by simpa [ResultsSystem.step] using hnext⟩
    | false => exact .inl (WriterStage.released hserved hholds hnext)
  | false =>
    rcases h.reserved with hnone | ⟨w', hw'⟩
    · cases hstage : sys.stage w with
      | start =>
        refine .inr ⟨w, ?_⟩
        simp [ResultsSystem.step, hstage, WriterStage.step, hserved.ne_failed, hnone,
          WriterStage.holds]
      | finished ok => exact .inl (by simpa [ResultsSystem.step, hstage, WriterStage.step] using hnone)
      | _ => simp [hstage, WriterStage.holds] at hholds
    · have hne : w' ≠ w := by
        rintro rfl
        cases hw'.symm.trans hholds
      exact .inr ⟨w', by simpa [ResultsSystem.step, hne] using hw'⟩

theorem Serviced.winner_step (h : sys.Serviced) {w : W} {answer : CallAnswer}
    (hserved : answer.Served) :
    ∃ w', ((sys.step (.write w answer)).stage w').Winning (sys.step (.write w answer)).dir := by
  rcases h.winner with ⟨hstart, hnone, hempty⟩ | ⟨w', hw'⟩
  · refine ⟨w, ?_⟩
    simp only [ResultsSystem.step, Function.update_self, hstart w, WriterStage.step,
      hserved.ne_failed, hnone, Option.isSome_none, Bool.false_eq_true, or_self, if_false]
    exact hempty
  · refine ⟨w', ?_⟩
    by_cases hsame : w' = w
    · subst hsame
      simpa only [ResultsSystem.step, Function.update_self] using
        hw'.step (h.knows w') (h.tidy w') hserved
    · simp only [ResultsSystem.step, Function.update_of_ne hsame]
      cases hholds : (sys.stage w).holds with
      | false => exact hw'.congr (WriterStage.destination_of_not_holds hholds)
      | true =>
        have hfree : (sys.stage w').holds ≠ true := fun hown => hsame (h.unique hown hholds)
        cases hstage : sys.stage w' with
        | start =>
          rw [hstage] at hw'
          cases hw'
        | finished ok =>
          rw [hstage] at hw'
          exact hw'
        | _ => exact absurd (by rw [hstage]; rfl) hfree

theorem Serviced.step (h : sys.Serviced) {action : ResultsAction W R}
    (hserved : ∀ w answer, action = .write w answer → answer.Served) :
    (sys.step action).Serviced := by
  have horderly := h.toOrderly.step fun w answer heq => (hserved w answer heq).plain
  cases action with
  | read r answer => exact ⟨horderly, h.tidy, h.reserved, h.winner⟩
  | write w answer =>
    have hanswer := hserved w answer rfl
    refine ⟨horderly, fun w' => ?_, h.reserved_step hanswer, .inr (h.winner_step hanswer)⟩
    by_cases hsame : w' = w
    · subst hsame
      simpa only [ResultsSystem.step, Function.update_self] using (h.tidy w').step hanswer
    · simpa only [ResultsSystem.step, Function.update_of_ne hsame] using
        (h.tidy w').congr (WriterStage.temporary_other hsame)

theorem Serviced.run (h : sys.Serviced) {actions : List (ResultsAction W R)}
    (hserved : ∀ w answer, .write w answer ∈ actions → answer.Served) :
    (sys.run actions).Serviced := by
  induction actions generalizing sys with
  | nil => exact h
  | cons action actions ih =>
    refine ih (h.step ?_) fun w answer hmem => hserved w answer (List.mem_cons_of_mem _ hmem)
    rintro w answer rfl
    exact hserved w answer List.mem_cons_self

/-- Every call of a writer brings it nearer to its end. -/
theorem remaining_run (sys : ResultsSystem W R) (w : W) (actions : List (ResultsAction W R)) :
    ((sys.run actions).stage w).remaining ≤ (sys.stage w).remaining - calls w actions := by
  induction actions generalizing sys with
  | nil => simp [run, calls]
  | cons action actions ih =>
    have hrest := ih (sys.step action)
    cases action with
    | read r answer => simpa [run, calls, step] using hrest
    | write w' answer =>
      by_cases hsame : w' = w
      · subst hsame
        have hstep : (((sys.step (.write w' answer) : ResultsSystem W R)).stage w').remaining ≤
            (sys.stage w').remaining - 1 := by
          simpa [ResultsSystem.step] using WriterStage.remaining_step
        have hcalls : calls w' (.write w' answer :: actions) = calls w' actions + 1 := by
          simp [calls]
        rw [hcalls]
        exact hrest.trans (by omega)
      · have hcalls : calls w (.write w' answer :: actions) = calls w actions := by
          simp [calls, hsame]
        have hstep : (sys.step (.write w' answer)).stage w = sys.stage w := by
          simp [ResultsSystem.step, Ne.symm hsame]
        rw [hcalls, ← hstep]
        exact hrest

theorem stage_run (sys : ResultsSystem W R) {w : W} {actions : List (ResultsAction W R)}
    (h : calls w actions = 0) : (sys.run actions).stage w = sys.stage w := by
  induction actions generalizing sys with
  | nil => rfl
  | cons action actions ih =>
    cases action with
    | read r answer => exact ih _ (by simpa [calls] using h)
    | write w' answer =>
      by_cases hsame : w' = w
      · simp [calls, hsame] at h
      · refine (ih _ (by simpa [calls, hsame] using h)).trans ?_
        simp [ResultsSystem.step, Ne.symm hsame]

end ResultsSystem

open ResultsSystem (calls)

/-- Of the writers that race for an empty directory one wins, whatever the
order of their calls and whoever reads meanwhile: its files are in place, the
others report a failure, and nothing else is left behind. -/
theorem resultsWriters_one_wins [DecidableEq W] [DecidableEq R] (dir : RunDir W)
    (hempty : dir.Empty) (hfree : dir.reservation = none)
    (hclean : ∀ w file, dir.temporary w file = false) (actions : List (ResultsAction W R))
    (hserved : ∀ w answer, .write w answer ∈ actions → answer.Served)
    (hturns : ∀ w, calls w actions = 0 ∨ 26 ≤ calls w actions)
    (hsome : ∃ w, calls w actions ≠ 0) :
    let sys := (ResultsSystem.initial dir).run actions
    ∃ w, sys.stage w = .finished true ∧ sys.dir.Complete w ∧
      (∀ w', w' ≠ w → calls w' actions ≠ 0 → sys.stage w' = .finished false) ∧
      sys.dir.reservation = none ∧ ∀ w' file, sys.dir.temporary w' file = false := by
  intro sys
  have hserviced : sys.Serviced := (ResultsSystem.Serviced.initial hempty hfree hclean).run hserved
  have hstage : ∀ w, (calls w actions = 0 ∧ sys.stage w = .start) ∨
      (calls w actions ≠ 0 ∧ ∃ ok, sys.stage w = .finished ok) := by
    intro w
    rcases hturns w with hzero | hmany
    · exact .inl ⟨hzero, ResultsSystem.stage_run _ hzero⟩
    · refine .inr ⟨by omega, WriterStage.finished_of_remaining ?_⟩
      have hbound : (sys.stage w).remaining ≤ 26 - calls w actions :=
        ResultsSystem.remaining_run (ResultsSystem.initial dir) w actions
      omega
  obtain ⟨w, hw⟩ : ∃ w, (sys.stage w).Winning sys.dir := by
    rcases hserviced.winner with ⟨hstart, -, -⟩ | hwinner
    · obtain ⟨w, hw⟩ := hsome
      rcases hstage w with ⟨hzero, -⟩ | ⟨-, ok, hfinished⟩
      · exact absurd hzero hw
      · cases (hstart w).symm.trans hfinished
    · exact hwinner
  have hfinished : sys.stage w = .finished true := by
    rcases hstage w with ⟨-, hstart⟩ | ⟨-, ok, hok⟩
    · rw [hstart] at hw
      cases hw
    · rw [hok] at hw ⊢
      exact congrArg _ hw
  have hcomplete : ∀ w', sys.stage w' = .finished true → sys.dir.Complete w' := by
    intro w' hw'
    have hknows := hserviced.knows w'
    rw [hw'] at hknows
    exact hknows rfl
  refine ⟨w, hfinished, hcomplete w hfinished, fun w' hne hcalls => ?_, ?_, fun w' => ?_⟩
  · rcases hstage w' with ⟨hzero, -⟩ | ⟨-, ok, hok⟩
    · exact absurd hzero hcalls
    · cases ok with
      | false => exact hok
      | true =>
        have hboth := (hcomplete w' hok .manifest).symm.trans (hcomplete w hfinished .manifest)
        cases hboth
        exact absurd rfl hne
  · rcases hserviced.reserved with hnone | ⟨w', hw'⟩
    · exact hnone
    · rcases hstage w' with ⟨-, hstart⟩ | ⟨-, ok, hok⟩
      · simp [hstart, WriterStage.holds] at hw'
      · simp [hok, WriterStage.holds] at hw'
  · have htidy := hserviced.tidy w'
    rcases hstage w' with ⟨-, hstart⟩ | ⟨-, ok, hok⟩
    · rwa [hstart] at htidy
    · rwa [hok] at htidy

theorem resultsWriters_one_wins_race :
    let sys := (ResultsSystem.initial emptyDir).run raceActions
    ∃ w, sys.stage w = .finished true ∧ sys.dir.Complete w ∧
      (∀ w', w' ≠ w → calls w' raceActions ≠ 0 → sys.stage w' = .finished false) ∧
      sys.dir.reservation = none ∧ ∀ w' file, sys.dir.temporary w' file = false :=
  resultsWriters_one_wins emptyDir (fun _ => rfl) rfl (fun _ _ => rfl) raceActions
    served_raceActions (by decide) ⟨true, by decide⟩

end DagMl
