import DagMl.Ids
import DagMl.Lib.Collections
import DagMl.Lib.Stateful

/-!
# The runtime controller registry

`register` inserts before it looks: `BTreeMap::insert` returns the controller
it displaced, and the duplicate error is raised when the new one is already in
its place. A run of registrations is therefore described by the last
controller registered under each id.
-/

namespace DagMl

/-- `dyn RuntimeController`, as far as the registry looks at it. -/
class RuntimeController (C : Type) where
  controllerId : C → ControllerId

structure RuntimeControllerRegistry (C : Type) where
  controllers : BTreeMap ControllerId C

namespace RuntimeControllerRegistry

open RuntimeController

variable {C : Type} [RuntimeController C]

omit [RuntimeController C] in
theorem ext_controllers {r r' : RuntimeControllerRegistry C} (h : r.controllers = r'.controllers) :
    r = r' := by
  cases r
  cases h
  rfl

def new : RuntimeControllerRegistry C := ⟨∅⟩

def get (registry : RuntimeControllerRegistry C) (controllerId : ControllerId) : Option C :=
  registry.controllers[controllerId]?

def register (controller : C) : Method DagMlError (RuntimeControllerRegistry C) Unit :=
  fun registry =>
    let id := controllerId controller
    -- `insert` hands back the entry it replaced
    let previous := registry.controllers[id]?
    let registry := ⟨registry.controllers.insert id controller⟩
    if previous.isSome then
      (.error (.runtimeValidation s!"duplicate runtime controller `{id}`"), registry)
    else (.ok (), registry)

@[simp] theorem register_state (registry : RuntimeControllerRegistry C) (controller : C) :
    (register controller registry).2 =
      ⟨registry.controllers.insert (controllerId controller) controller⟩ := by
  unfold register
  dsimp only
  split <;> rfl

theorem register_fails {registry : RuntimeControllerRegistry C} {controller : C} :
    (∃ e, (register controller registry).1 = .error e) ↔
      ∃ previous, registry.get (controllerId controller) = some previous := by
  unfold register get
  dsimp only
  split
  · rename_i h
    exact ⟨fun _ => Option.isSome_iff_exists.mp h, fun _ => ⟨_, rfl⟩⟩
  · rename_i h
    simp only [reduceCtorEq, exists_false, false_iff, not_exists]
    intro previous hp
    exact h (by simp [hp])

theorem get_register {registry : RuntimeControllerRegistry C} {controller : C}
    {id : ControllerId} :
    (register controller registry).2.get id =
      if controllerId controller = id then some controller else registry.get id := by
  rw [register_state, get, BTreeMap.getElem?_insert]
  rfl

/-- One call: a failure leaves the registry alone exactly when the id was free
or already served by the very controller that is refused. -/
theorem register_atomicAt_iff {registry : RuntimeControllerRegistry C} {controller : C} :
    (register controller).AtomicAt registry ↔
      ∀ previous, registry.get (controllerId controller) = some previous →
        previous = controller := by
  constructor
  · intro h previous hp
    obtain ⟨e, he⟩ := register_fails.mpr ⟨previous, hp⟩
    have hs : (register controller registry).2 = registry := h e _ (Prod.ext he rfl)
    have hg : (register controller registry).2.get (controllerId controller) = some controller :=
      get_register.trans (if_pos rfl)
    rw [hs, hp] at hg
    exact Option.some.inj hg
  · intro h e s' hs
    obtain ⟨previous, hp⟩ := register_fails.mp ⟨e, congrArg Prod.fst hs⟩
    cases h previous hp
    have hs : (register controller registry).2 = s' := congrArg Prod.snd hs
    subst hs
    apply ext_controllers
    apply BTreeMap.ext
    intro id
    by_cases hid : controllerId controller = id
    · subst hid
      exact (get_register.trans (if_pos rfl)).trans hp.symm
    · exact get_register.trans (if_neg hid)

-- ---------------------------------------------------------------------------
-- Runs of registrations
-- ---------------------------------------------------------------------------

/-- The registry after a history of `register` calls, failed ones included. -/
def history (calls : List C) : RuntimeControllerRegistry C :=
  Method.after register new calls

theorem history_append_singleton (calls : List C) (c : C) :
    history (calls ++ [c]) = (register c (history calls)).2 := by
  rw [history, Method.after_append]
  rfl

/-- A lookup answers with the last controller that was offered under the id. -/
theorem get_history (calls : List C) (id : ControllerId) :
    (history calls).get id = (calls.filter (controllerId · = id)).getLast? := by
  induction calls using List.reverseRecOn with
  | nil => rfl
  | append_singleton calls c ih =>
    rw [history_append_singleton, get_register]
    by_cases hc : controllerId c = id
    · simp [hc]
    · simpa [hc] using ih

theorem get_history_mem {calls : List C} {id : ControllerId}
    (h : (history calls).get id = some c) : c ∈ calls ∧ controllerId c = id := by
  rw [get_history] at h
  simpa using List.mem_of_getLast? h

theorem get_history_isSome {calls : List C} {c : C} (h : c ∈ calls) :
    ∃ d, (history calls).get (controllerId c) = some d := by
  rw [get_history, ← Option.isSome_iff_exists, List.getLast?_isSome]
  exact List.ne_nil_of_mem (List.mem_filter.mpr ⟨h, by simp⟩)

/-- What a duplicate registration does to the registry. The source displaces
the registered controller before it reports the duplicate, so the histories
whose failures change nothing are those that offer one implementation an id. -/
theorem register_failure_keeps_iff (calls : List C) :
    (∀ before c rest e, calls = before ++ c :: rest →
        (register c (history before)).1 = .error e →
        (register c (history before)).2 = history before ∧
          ∀ id, (register c (history before)).2.get id = (history before).get id) ↔
      calls.Pairwise (fun c d => controllerId c = controllerId d → c = d) := by
  have atomic (before : List C) (c : C) :
      (∀ e, (register c (history before)).1 = .error e →
        (register c (history before)).2 = history before) ↔
      ∀ previous, (history before).get (controllerId c) = some previous → previous = c := by
    rw [← register_atomicAt_iff]
    constructor
    · intro h e s' hs
      exact (congrArg Prod.snd hs).symm.trans (h e (congrArg Prod.fst hs))
    · intro h e he
      exact h e _ (Prod.ext he rfl)
  constructor
  · intro h
    induction calls using List.reverseRecOn with
    | nil => exact List.Pairwise.nil
    | append_singleton calls c ih =>
      have hcalls := ih fun before d rest e hl =>
        h before d (rest ++ [c]) e (by simp [hl])
      have hlast := (atomic calls c).mp fun e he => (h calls c [] e rfl he).1
      rw [List.pairwise_append]
      refine ⟨hcalls, List.pairwise_singleton _ _, ?_⟩
      intro d hd c' hc' hid
      rw [List.mem_singleton.mp hc'] at hid ⊢
      -- the lookup before the call answers with `c`, and the earlier calls agree on one
      obtain ⟨d', hd'⟩ := get_history_isSome hd
      obtain ⟨hmem, hid'⟩ := get_history_mem hd'
      rw [hid] at hd'
      cases hlast d' hd'
      by_contra hne
      have hsym : Std.Symm (fun c d : C => controllerId c = controllerId d → c = d) :=
        ⟨fun a b hab hba => (hab hba.symm).symm⟩
      exact hne (hcalls.forall hd hmem hne hid)
  · intro h before c rest e hl he
    have hkeep := (atomic before c).mpr (fun previous hp => by
      obtain ⟨hmem, hid⟩ := get_history_mem hp
      rw [hl, List.pairwise_append] at h
      exact h.2.2 previous hmem c (by simp) hid) e he
    exact ⟨hkeep, fun id => by rw [hkeep]⟩

/-- The controller of the source's tests: an id, and the handle it answers with. -/
structure MockController where
  id : ControllerId
  handle : UInt64
  deriving DecidableEq

instance mockController : RuntimeController MockController := ⟨MockController.id⟩

/-- After a refused second registration the lookup runs the refused one. -/
theorem refused_controller_serves :
    let first : MockController := ⟨⟨"controller:mock", by decide⟩, 1⟩
    let second : MockController := ⟨first.id, 2⟩
    (∃ e, (register second (history [first])).1 = .error e) ∧
      (history [first]).get first.id = some first ∧
      (register second (history [first])).2.get first.id = some second := by
  refine ⟨⟨_, rfl⟩, ?_, ?_⟩ <;> decide

end RuntimeControllerRegistry

end DagMl
