import Mathlib
import DagMl.Lib.Topological

/-!
# Ancestors in a finite graph

`Ancestor arcs u v` is a path of arcs from `u` to `v`. A worklist that takes a
node and adds the sources of the arcs into it collects the ancestors of its
seeds; a node is pushed when it joins the set, which bounds the run.
-/

namespace Worklist

open Topological

variable {α : Type} {arcs : List (α × α)} {seeds closed : Finset α} {waiting : List α} {u v w : α}

-- ---------------------------------------------------------------------------
-- Ancestors
-- ---------------------------------------------------------------------------

def Ancestor (arcs : List (α × α)) (u v : α) : Prop :=
  Relation.ReflTransGen (fun a b => (a, b) ∈ arcs) u v

theorem Ancestor.refl (v : α) : Ancestor arcs v v := Relation.ReflTransGen.refl

theorem Ancestor.trans (h : Ancestor arcs u v) (h' : Ancestor arcs v w) : Ancestor arcs u w :=
  Relation.ReflTransGen.trans h h'

theorem Ancestor.of_arc (h : (u, v) ∈ arcs) : Ancestor arcs u v := Relation.ReflTransGen.single h

/-- Two nodes above each other are one, or lie on a cycle. -/
theorem Ancestor.antisymm (hacyclic : ¬HasCycle arcs) (h : Ancestor arcs u v)
    (h' : Ancestor arcs v u) : u = v := by
  rcases Relation.reflTransGen_iff_eq_or_transGen.mp h with heq | hpath
  · exact heq.symm
  · exact absurd ⟨u, hpath.trans_left h'⟩ hacyclic

/-- A set closed under predecessors that has a node has its ancestors. -/
theorem Ancestor.mem_of_closed (h : Ancestor arcs u v) (hc : Closed arcs closed)
    (hv : v ∈ closed) : u ∈ closed := by
  induction h using Relation.ReflTransGen.head_induction_on with
  | refl => exact hv
  | head ha _ ih => exact hc _ _ ha ih

-- ---------------------------------------------------------------------------
-- The worklist
-- ---------------------------------------------------------------------------

/-- Where a run from `seeds` may stand: the predecessors of what is not waiting
are in, and nothing is in that is not an ancestor. -/
structure Running (arcs : List (α × α)) (seeds closed : Finset α) (waiting : List α) : Prop where
  start : seeds ⊆ closed
  found : ∀ w ∈ waiting, w ∈ closed
  done : ∀ u v, (u, v) ∈ arcs → v ∈ closed → v ∈ waiting ∨ u ∈ closed
  sound : ∀ u ∈ closed, ∃ s ∈ seeds, Ancestor arcs u s

theorem Running.init (seeds : Finset α) (hw : ∀ w, w ∈ waiting ↔ w ∈ seeds) :
    Running arcs seeds seeds waiting where
  start := subset_rfl
  found w := (hw w).mp
  done _ v _ hv := .inl ((hw v).mpr hv)
  sound u hu := ⟨u, hu, .refl u⟩

variable [DecidableEq α]

/-- Adds a node, and pushes it when it is new. -/
def visit (state : Finset α × List α) (u : α) : Finset α × List α :=
  if u ∈ state.1 then state else (insert u state.1, u :: state.2)

/-- The sources of the arcs into a node. -/
def sources (arcs : List (α × α)) (v : α) : List α := (arcs.filter (·.2 = v)).map (·.1)

def run (arcs : List (α × α)) : Nat → Finset α → List α → Finset α
  | fuel + 1, closed, v :: waiting =>
    let (closed, waiting) := (sources arcs v).foldl visit (closed, waiting)
    run arcs fuel closed waiting
  | _, closed, _ => closed

theorem mem_sources : u ∈ sources arcs v ↔ (u, v) ∈ arcs := by
  simp only [sources, List.mem_map, List.mem_filter, decide_eq_true_eq]
  constructor
  · rintro ⟨⟨a, b⟩, ⟨hm, rfl⟩, rfl⟩
    exact hm
  · intro h
    exact ⟨(u, v), ⟨h, rfl⟩, rfl⟩

/-- What visiting a list of nodes does. -/
structure Visited (us : List α) (s s' : Finset α × List α) : Prop where
  closed : s'.1 = s.1 ∪ us.toFinset
  waiting : ∀ w, w ∈ s'.2 ↔ w ∈ s.2 ∨ (w ∈ us ∧ w ∉ s.1)
  pushed : s'.2.length + s.1.card = s.2.length + s'.1.card

theorem visited_foldl (us : List α) (s : Finset α × List α) : Visited us s (us.foldl visit s) := by
  induction us generalizing s with
  | nil => exact ⟨by simp, by simp, by simp [Nat.add_comm]⟩
  | cons u us ih =>
    obtain ⟨hclosed, hwaiting, hpushed⟩ := ih (visit s u)
    rw [List.foldl_cons]
    by_cases hu : u ∈ s.1
    · have hvisit : visit s u = s := if_pos hu
      rw [hvisit] at hclosed hwaiting hpushed ⊢
      refine ⟨?_, fun w => ?_, hpushed⟩
      · rw [hclosed, List.toFinset_cons, Finset.union_insert, Finset.insert_eq_of_mem]
        exact Finset.mem_union_left _ hu
      · rw [hwaiting, List.mem_cons]
        constructor
        · rintro (hw | ⟨hw, hn⟩)
          · exact .inl hw
          · exact .inr ⟨.inr hw, hn⟩
        · rintro (hw | ⟨rfl | hw, hn⟩)
          · exact .inl hw
          · exact absurd hu hn
          · exact .inr ⟨hw, hn⟩
    · have hvisit : visit s u = (insert u s.1, u :: s.2) := if_neg hu
      rw [hvisit] at hclosed hwaiting hpushed ⊢
      refine ⟨?_, fun w => ?_, ?_⟩
      · rw [hclosed, List.toFinset_cons, Finset.union_insert, Finset.insert_union]
      · simp only [hwaiting, List.mem_cons, Finset.mem_insert, not_or]
        constructor
        · rintro ((rfl | hw) | ⟨hw, -, hn⟩)
          · exact .inr ⟨.inl rfl, hu⟩
          · exact .inl hw
          · exact .inr ⟨.inr hw, hn⟩
        · rintro (hw | ⟨rfl | hw, hn⟩)
          · exact .inl (.inr hw)
          · exact .inl (.inl rfl)
          · by_cases hwu : w = u
            · exact .inl (.inl hwu)
            · exact .inr ⟨hw, hwu, hn⟩
      · simp only [List.length_cons, Finset.card_insert_of_notMem hu] at hpushed
        omega

theorem Running.step {s : Finset α × List α} (h : Running arcs seeds closed (v :: waiting))
    (hs : Visited (sources arcs v) (closed, waiting) s) : Running arcs seeds s.1 s.2 where
  start := h.start.trans (hs.closed ▸ Finset.subset_union_left)
  found w hw := by
    rw [hs.closed, Finset.mem_union, List.mem_toFinset]
    rcases (hs.waiting w).mp hw with hw | ⟨hw, -⟩
    · exact .inl (h.found w (List.mem_cons_of_mem v hw))
    · exact .inr hw
  done a b hab hb := by
    rw [hs.closed, Finset.mem_union, List.mem_toFinset] at hb ⊢
    by_cases hin : b ∈ closed
    · rcases h.done a b hab hin with hwait | ha
      · rcases List.mem_cons.mp hwait with rfl | hwait
        · exact .inr (.inr (mem_sources.mpr hab))
        · exact .inl ((hs.waiting b).mpr (.inl hwait))
      · exact .inr (.inl ha)
    · exact .inl ((hs.waiting b).mpr (.inr ⟨hb.resolve_left hin, hin⟩))
  sound a ha := by
    rw [hs.closed, Finset.mem_union, List.mem_toFinset, mem_sources] at ha
    rcases ha with ha | ha
    · exact h.sound a ha
    · obtain ⟨seed, hseed, hpath⟩ := h.sound v (h.found v List.mem_cons_self)
      exact ⟨seed, hseed, (Ancestor.of_arc ha).trans hpath⟩

/-- What can ever join the set. -/
def within (arcs : List (α × α)) (seeds : Finset α) : Finset α :=
  seeds ∪ (arcs.map Prod.fst).toFinset

theorem card_within : (within arcs seeds).card ≤ arcs.length + seeds.card := by
  have hsources := List.toFinset_card_le (arcs.map Prod.fst)
  rw [List.length_map] at hsources
  have hunion := Finset.card_union_le seeds (arcs.map Prod.fst).toFinset
  unfold within
  omega

theorem Running.subset_within (h : Running arcs seeds closed waiting) :
    closed ⊆ within arcs seeds := by
  intro u hu
  obtain ⟨seed, hseed, hpath⟩ := h.sound u hu
  rw [within, Finset.mem_union, List.mem_toFinset, List.mem_map]
  rcases Relation.ReflTransGen.cases_head hpath with rfl | ⟨v, ha, -⟩
  · exact .inl hseed
  · exact .inr ⟨(u, v), ha, rfl⟩

/-- With fuel for what is waiting and what may still join, a run ends with
nothing waiting. -/
theorem Running.run (h : Running arcs seeds closed waiting) (fuel : Nat)
    (hfuel : waiting.length + (within arcs seeds).card ≤ fuel + closed.card) :
    Running arcs seeds (run arcs fuel closed waiting) [] := by
  induction fuel generalizing closed waiting with
  | zero =>
    have hcard := Finset.card_le_card h.subset_within
    obtain rfl : waiting = [] := List.length_eq_zero_iff.mp (by omega)
    exact h
  | succ fuel ih =>
    cases waiting with
    | nil => exact h
    | cons v waiting =>
      have hs := visited_foldl (sources arcs v) (closed, waiting)
      have hpushed := hs.pushed
      dsimp only at hpushed
      rw [List.length_cons] at hfuel
      exact ih (h.step hs) (by omega)

theorem mem_run (fuel : Nat) (hw : ∀ w, w ∈ waiting ↔ w ∈ seeds)
    (hfuel : waiting.length + arcs.length ≤ fuel) :
    u ∈ run arcs fuel seeds waiting ↔ ∃ s ∈ seeds, Ancestor arcs u s := by
  have hrun := (Running.init seeds hw : Running arcs seeds seeds waiting).run fuel (by
    have hcard : (within arcs seeds).card ≤ arcs.length + seeds.card := card_within
    omega)
  constructor
  · exact hrun.sound u
  · rintro ⟨seed, hseed, hpath⟩
    refine hpath.mem_of_closed (fun a b hab hb => ?_) (hrun.start hseed)
    exact (hrun.done a b hab hb).resolve_left List.not_mem_nil

-- ---------------------------------------------------------------------------
-- Strict ancestors
-- ---------------------------------------------------------------------------

/-- Collects what lies above the seeds; a seed joins only when it is above another. -/
def above (next : α → List α) : Nat → Finset α → List α → Finset α
  | fuel + 1, found, v :: waiting =>
    let state := (next v).foldl visit (found, waiting)
    above next fuel state.1 state.2
  | _, found, _ => found

omit [DecidableEq α] in
def StrictAncestor (arcs : List (α × α)) (u v : α) : Prop :=
  Relation.TransGen (fun a b => (a, b) ∈ arcs) u v

omit [DecidableEq α] in
theorem StrictAncestor.ancestor (h : StrictAncestor arcs u v) : Ancestor arcs u v := h.to_reflTransGen

/-- Where a run of `above` may stand. -/
structure Climbing (arcs : List (α × α)) (seeds found : Finset α) (waiting : List α) : Prop where
  known : ∀ w ∈ waiting, w ∈ seeds ∨ w ∈ found
  done : ∀ u v, (u, v) ∈ arcs → v ∈ seeds ∨ v ∈ found → v ∈ waiting ∨ u ∈ found
  sound : ∀ u ∈ found, ∃ s ∈ seeds, StrictAncestor arcs u s

variable {next : α → List α} {found : Finset α}

theorem Climbing.step {s : Finset α × List α} (h : Climbing arcs seeds found (v :: waiting))
    (hnext : ∀ u, u ∈ next v ↔ (u, v) ∈ arcs) (hs : Visited (next v) (found, waiting) s) :
    Climbing arcs seeds s.1 s.2 where
  known w hw := by
    rw [hs.closed, Finset.mem_union, List.mem_toFinset]
    rcases (hs.waiting w).mp hw with hw | ⟨hw, -⟩
    · exact (h.known w (List.mem_cons_of_mem v hw)).imp_right .inl
    · exact .inr (.inr hw)
  done a b hab hb := by
    rw [hs.closed, Finset.mem_union, List.mem_toFinset] at hb ⊢
    by_cases hin : b ∈ seeds ∨ b ∈ found
    · rcases h.done a b hab hin with hwait | ha
      · rcases List.mem_cons.mp hwait with rfl | hwait
        · exact .inr (.inr ((hnext a).mpr hab))
        · exact .inl ((hs.waiting b).mpr (.inl hwait))
      · exact .inr (.inl ha)
    · obtain ⟨hseed, hfound⟩ := not_or.mp hin
      have hnew : b ∈ next v := (hb.resolve_left hseed).resolve_left hfound
      exact .inl ((hs.waiting b).mpr (.inr ⟨hnew, hfound⟩))
  sound a ha := by
    rw [hs.closed, Finset.mem_union, List.mem_toFinset, hnext] at ha
    rcases ha with ha | ha
    · exact h.sound a ha
    · rcases h.known v List.mem_cons_self with hv | hv
      · exact ⟨v, hv, .single ha⟩
      · obtain ⟨seed, hseed, hpath⟩ := h.sound v hv
        exact ⟨seed, hseed, .head ha hpath⟩

theorem Climbing.subset (h : Climbing arcs seeds found waiting) :
    found ⊆ (arcs.map Prod.fst).toFinset := by
  intro u hu
  obtain ⟨seed, -, hpath⟩ := h.sound u hu
  rw [List.mem_toFinset, List.mem_map]
  obtain ⟨v, ha, -⟩ := Relation.TransGen.head'_iff.mp hpath
  exact ⟨(u, v), ha, rfl⟩

/-- With fuel for what is waiting and what may still join, a climb ends. -/
theorem Climbing.above (h : Climbing arcs seeds found waiting)
    (hnext : ∀ u v, u ∈ next v ↔ (u, v) ∈ arcs) (fuel : Nat)
    (hfuel : waiting.length + (arcs.map Prod.fst).toFinset.card ≤ fuel + found.card) :
    Climbing arcs seeds (above next fuel found waiting) [] := by
  induction fuel generalizing found waiting with
  | zero =>
    have hcard := Finset.card_le_card h.subset
    obtain rfl : waiting = [] := List.length_eq_zero_iff.mp (by omega)
    exact h
  | succ fuel ih =>
    cases waiting with
    | nil => exact h
    | cons v waiting =>
      have hs := visited_foldl (next v) (found, waiting)
      have hpushed := hs.pushed
      dsimp only at hpushed
      rw [List.length_cons] at hfuel
      exact ih (h.step (hnext · v) hs) (by omega)

theorem mem_above (fuel : Nat) (hnext : ∀ u v, u ∈ next v ↔ (u, v) ∈ arcs)
    (hw : ∀ w, w ∈ waiting ↔ w ∈ seeds) (hfuel : waiting.length + arcs.length ≤ fuel) :
    u ∈ above next fuel ∅ waiting ↔ ∃ s ∈ seeds, StrictAncestor arcs u s := by
  have hinit : Climbing arcs seeds ∅ waiting := by
    refine ⟨fun w hmem => .inl ((hw w).mp hmem), fun a b _ hb => .inl ?_, by simp⟩
    exact (hw b).mpr (hb.resolve_right (Finset.notMem_empty b))
  have hsources := List.toFinset_card_le (arcs.map Prod.fst)
  rw [List.length_map] at hsources
  have hrun := hinit.above hnext fuel (by omega)
  constructor
  · exact hrun.sound u
  · rintro ⟨seed, hseed, hpath⟩
    induction hpath using Relation.TransGen.head_induction_on with
    | single ha => exact (hrun.done _ _ ha (.inl hseed)).resolve_left List.not_mem_nil
    | head ha _ ih => exact (hrun.done _ _ ha (.inr ih)).resolve_left List.not_mem_nil

end Worklist
