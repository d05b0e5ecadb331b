import DagMl.Fold.Splitters
import DagMl.Lib.Framing
import DagMl.Plan

/-!
# Task seeds

A task's random stream is named by root seed, variant, fold, node and phase.
The encoding has neither lengths nor escapes: it can be read back because no
identifier contains a delimiter byte, and each optional part announces itself
by its prefix.
-/

namespace DagMl

open Framing

namespace SeedContext

/-- The bytes `derive_u64` feeds to the hash. -/
def hashInput (self : SeedContext) (label : String) : List UInt8 :=
  toLeBytes self.rootSeed ++ self.path.flatMap (fun part => 0 :: utf8Bytes part) ++ [0xff] ++
    utf8Bytes label

theorem hashInput_eq (self : SeedContext) (label : String) :
    self.hashInput label =
      toLeBytes self.rootSeed ++ delimited 0 0xff (self.path.map utf8Bytes) (utf8Bytes label) := by
  simp [hashInput, delimited, List.flatMap_map]

end SeedContext

theorem utf8Bytes_injective : Function.Injective utf8Bytes := fun _ _ => toUTF8_toList_injective

theorem length_toLeBytes (n : UInt64) : (toLeBytes n).length = 8 := by simp [toLeBytes]

theorem toLeBytes_injective : Function.Injective toLeBytes := by
  intro m n h
  have digit (i : Nat) (hi : i < 8) : m.toNat / 2 ^ (8 * i) % 256 = n.toNat / 2 ^ (8 * i) % 256 := by
    have h := congrArg (fun l => l[i]?) h
    simpa [toLeBytes, hi, ← UInt8.toNat_inj] using h
  have hm := m.toNat_lt
  have hn := n.toNat_lt
  apply UInt64.toNat_inj.mp
  have h0 := digit 0 (by decide)
  have h1 := digit 1 (by decide)
  have h2 := digit 2 (by decide)
  have h3 := digit 3 (by decide)
  have h4 := digit 4 (by decide)
  have h5 := digit 5 (by decide)
  have h6 := digit 6 (by decide)
  have h7 := digit 7 (by decide)
  norm_num at h0 h1 h2 h3 h4 h5 h6 h7
  omega

/-- No label of a path contains the null character. -/
def SeedContext.Printable (self : SeedContext) : Prop :=
  ∀ part ∈ self.path, ∀ c ∈ part.toList, c.toNat ≠ 0

/-- The hash input of a printable path determines seed, path and label. -/
theorem SeedContext.hashInput_inj {a b : SeedContext} {l l' : String} (ha : a.Printable)
    (hb : b.Printable) (h : a.hashInput l = b.hashInput l') : a = b ∧ l = l' := by
  rw [hashInput_eq, hashInput_eq] at h
  obtain ⟨hroot, hrest⟩ := List.append_inj h (by rw [length_toLeBytes, length_toLeBytes])
  have clean {s : SeedContext} (hs : s.Printable) : Clean 0 0xff (s.path.map utf8Bytes) := by
    intro p hp
    obtain ⟨part, hpart, rfl⟩ := List.mem_map.mp hp
    exact toUTF8_clean (hs part hpart)
  obtain ⟨hpath, hlabel⟩ := delimited_inj (by decide) (clean ha) (clean hb) hrest
  have hpath := (List.map_injective_iff.mpr utf8Bytes_injective) hpath
  have hroot := toLeBytes_injective hroot
  refine ⟨?_, utf8Bytes_injective hlabel⟩
  cases a
  cases b
  cases hpath
  cases hroot
  rfl

-- ---------------------------------------------------------------------------
-- Task seeds
-- ---------------------------------------------------------------------------

/-- `if let Some(id) = id { context = context.child(label(id)) }`. -/
def SeedContext.childIf (self : SeedContext) (id : Option α) (label : α → String) : SeedContext :=
  match id with
  | some id => self.child (label id)
  | none => self

def taskSeedContext (root : UInt64) (variantId : Option VariantId) (foldId : Option FoldId)
    (nodePlan : NodePlan) (phase : Phase) : SeedContext :=
  ((((SeedContext.root root).childIf variantId fun v => s!"variant:{v}").childIf foldId
    fun f => s!"fold:{f}").child s!"node:{nodePlan.nodeId}").child s!"phase:{phase.debug}"

def deriveTaskSeed (sha256 : Digest) (rootSeed : Option UInt64) (variantId : Option VariantId)
    (foldId : Option FoldId) (nodePlan : NodePlan) (phase : Phase) : Option UInt64 :=
  rootSeed.map fun root =>
    (taskSeedContext root variantId foldId nodePlan phase).deriveU64 sha256 "task"

/-- What a call of `derive_task_seed` feeds to the hash, if it reaches it. -/
def taskSeedInput (rootSeed : Option UInt64) (variantId : Option VariantId)
    (foldId : Option FoldId) (nodePlan : NodePlan) (phase : Phase) : Option (List UInt8) :=
  rootSeed.map fun root => (taskSeedContext root variantId foldId nodePlan phase).hashInput "task"

theorem deriveTaskSeed_eq (sha256 : Digest) :
    deriveTaskSeed sha256 r v f n p =
      (taskSeedInput r v f n p).map fun bytes => ofLeBytes ((sha256 bytes).toList.take 8) := by
  cases r <;> rfl

/-- The labels a scope hangs under its root, in order. -/
def taskSeedPath (v : Option VariantId) (f : Option FoldId) (n : NodeId) (p : Phase) :
    List String :=
  v.toList.map (fun v => "variant:" ++ v.value) ++ f.toList.map (fun f => "fold:" ++ f.value) ++
    ["node:" ++ n.value, "phase:" ++ p.debug]

theorem path_taskSeedContext :
    (taskSeedContext root v f n p).path = taskSeedPath v f n.nodeId p := by
  cases v <;> cases f <;> rfl

theorem isIdentifierChar_ne_zero {c : Char} (h : isIdentifierChar c = true) : c.toNat ≠ 0 := by
  intro h0
  have hc : c = Char.ofNat 0 := by rw [← h0, Char.ofNat_toNat]
  subst hc
  exact absurd h (by decide)

theorem Id.ne_zero {kind : IdKind} (id : Id kind) : ∀ c ∈ id.value.toList, c.toNat ≠ 0 := by
  have h := id.valid
  unfold validateIdentifier at h
  split at h
  · cases h
  · split at h
    · cases h
    · split at h
      · cases h
      · rename_i hall
        simp only [Bool.not_eq_true, Bool.not_eq_false', List.all_eq_true] at hall
        exact fun c hc => isIdentifierChar_ne_zero (hall c hc)

theorem Phase.debug_ne_zero (p : Phase) : ∀ c ∈ p.debug.toList, c.toNat ≠ 0 := by
  cases p <;> simp [Phase.debug]

theorem printable_taskSeedContext : (taskSeedContext root v f n p).Printable := by
  intro part hpart c hc
  rw [path_taskSeedContext] at hpart
  simp only [taskSeedPath, List.mem_append, List.mem_map, Option.mem_toList, List.mem_cons,
    List.not_mem_nil, or_false] at hpart
  have label {l s : String} (hl : ∀ c ∈ l.toList, c.toNat ≠ 0) (hs : ∀ c ∈ s.toList, c.toNat ≠ 0)
      (hc : c ∈ (l ++ s).toList) : c.toNat ≠ 0 := by
    rw [String.toList_append, List.mem_append] at hc
    exact hc.elim (hl c) (hs c)
  rcases hpart with (⟨v, -, rfl⟩ | ⟨f, -, rfl⟩) | rfl | rfl
  · exact label (by simp) v.ne_zero hc
  · exact label (by simp) f.ne_zero hc
  · exact label (by simp) n.nodeId.ne_zero hc
  · exact label (by simp) p.debug_ne_zero hc

theorem label_inj {l s t : String} : l ++ s = l ++ t ↔ s = t := by
  rw [← String.toList_inj, String.toList_append, String.toList_append, List.append_cancel_left_eq,
    String.toList_inj]

/-- The variant and fold labels cannot be taken for each other. -/
theorem variant_label_ne_fold {s t : String} : "variant:" ++ s ≠ "fold:" ++ t := by
  intro h
  have h := congrArg String.toList h
  simp at h

theorem taskSeedPath_inj :
    taskSeedPath v f n p = taskSeedPath v' f' n' p' ↔ v = v' ∧ f = f' ∧ n = n' ∧ p = p' := by
  constructor
  · intro h
    obtain ⟨hscope, hlast⟩ := List.append_inj' h rfl
    simp only [List.cons.injEq, label_inj, Id.value_inj, Phase.debug_injective.eq_iff, and_true]
      at hlast
    obtain ⟨rfl, rfl⟩ := hlast
    -- with node and phase gone, each optional label is recognised by its prefix
    cases v <;> cases v' <;> cases f <;> cases f' <;>
      simp_all [Id.value_inj, variant_label_ne_fold, variant_label_ne_fold.symm]
  · rintro ⟨rfl, rfl, rfl, rfl⟩
    rfl

/-- A seed is cut from the digest of the scope's bytes, and two calls of
`derive_task_seed` hash the same bytes exactly when both have a root seed and
agree on root seed, variant, fold, node and phase. -/
theorem taskSeedInput_shared_iff (r r' : Option UInt64) (v v' : Option VariantId)
    (f f' : Option FoldId) (n n' : NodePlan) (p p' : Phase) :
    (∀ sha256, deriveTaskSeed sha256 r v f n p =
        (taskSeedInput r v f n p).map fun bytes => ofLeBytes ((sha256 bytes).toList.take 8)) ∧
      ((∃ bytes, taskSeedInput r v f n p = some bytes ∧
          taskSeedInput r' v' f' n' p' = some bytes) ↔
        r.isSome ∧ r = r' ∧ v = v' ∧ f = f' ∧ n.nodeId = n'.nodeId ∧ p = p') := by
  refine ⟨fun sha256 => deriveTaskSeed_eq sha256, ?_⟩
  constructor
  · rintro ⟨bytes, h, h'⟩
    obtain ⟨root, rfl, hb⟩ := Option.map_eq_some_iff.mp h
    obtain ⟨root', rfl, hb'⟩ := Option.map_eq_some_iff.mp h'
    obtain ⟨hcontext, -⟩ := SeedContext.hashInput_inj printable_taskSeedContext
      printable_taskSeedContext (hb.trans hb'.symm)
    have hpath := congrArg SeedContext.path hcontext
    rw [path_taskSeedContext, path_taskSeedContext, taskSeedPath_inj] at hpath
    have hroot : root = root' := by
      have hroot := congrArg SeedContext.rootSeed hcontext
      cases v <;> cases v' <;> cases f <;> cases f' <;> exact hroot
    exact ⟨rfl, congrArg some hroot, hpath⟩
  · rintro ⟨hr, rfl, rfl, rfl, hn, rfl⟩
    obtain ⟨root, rfl⟩ := Option.isSome_iff_exists.mp hr
    refine ⟨_, rfl, ?_⟩
    simp [taskSeedInput, taskSeedContext, hn]

end DagMl
