import Mathlib
import DagMl.Generation.Enumerate
import DagMl.Lib.Keyed

/-!
# Sampling variants

A random subset of the enumeration: the variants are ranked by a hash of their
ids and the first few are taken. What is drawn depends on the assignments a
specification has, not on the order it lists them in.
-/

namespace DagMl

open Checked JsonValue

namespace GenerationSpec

section Sampling

variable (floats : FloatWriter) (sha256 : Digest)

/-- What the enumerated variants are ranked by. -/
def samplingKey (rootSeed : UInt64) (variant : VariantPlan) : Nat ×ₗ VariantId :=
  let seeds := (SeedContext.root rootSeed).child "generation:random-subset"
  toLex ((seeds.deriveU64 sha256 variant.variantId.value).toNat, variant.variantId)

def sampleGenerationVariants (spec : GenerationSpec) (rootSeed : UInt64) (count : Nat) :
    Result (List VariantPlan) := do
  let variants ← enumerateVariants floats sha256 spec (some rootSeed)
  refuseIf (count = 0 ∨ variants.length < count) (.campaignValidation
    "random generation count must be between one and the native survivor count")
  pure ((Keyed.sortBy (samplingKey sha256 rootSeed) variants).take count)

variable {floats sha256} {spec : GenerationSpec} {rootSeed : UInt64}

theorem sampleGenerationVariants_ok :
    sampleGenerationVariants floats sha256 spec rootSeed count = .ok drawn ↔
      ∃ variants, enumerateVariants floats sha256 spec (some rootSeed) = .ok variants ∧
        0 < count ∧ count ≤ variants.length ∧
        drawn = (Keyed.sortBy (samplingKey sha256 rootSeed) variants).take count := by
  simp only [sampleGenerationVariants, bind_ok, refuseIf_ok, pure_ok, not_or, not_lt]
  constructor
  · rintro ⟨variants, hvariants, _, ⟨hpos, hle⟩, rfl⟩
    exact ⟨variants, hvariants, Nat.pos_of_ne_zero hpos, hle, rfl⟩
  · rintro ⟨variants, hvariants, hpos, hle, rfl⟩
    exact ⟨variants, hvariants, (), ⟨hpos.ne', hle⟩, rfl⟩

theorem enumerateVariants_enumerates
    (h : enumerateVariants floats sha256 spec rootSeed' = .ok variants) :
    spec.validate = .ok () ∧
      spec.Enumerates spec.constraints.Allows (variants.map (·.choices)) := by
  have hvalid : spec.validate = .ok () := by
    simp only [enumerateVariants, bind_ok] at h
    exact h.choose_spec.1
  exact ⟨hvalid, (enumerateVariants_exact floats sha256 spec rootSeed' hvalid).1 variants h⟩

end Sampling

-- ---------------------------------------------------------------------------
-- Assignments without positions
-- ---------------------------------------------------------------------------

/-- A choice of every dimension that meets `P`, and nothing else. -/
structure TakesEach (dimensions : List GenerationDimension)
    (P : GenerationDimension → GenerationChoice → Prop) (choices : Choices) : Prop where
  taken : ∀ d ∈ dimensions, ∃ c, P d c ∧ choices[d.name]? = some c
  only : ∀ name : String, name ∈ choices → name ∈ dimensions.map (·.name)

theorem assignment_iff_of_ne_zip {spec : GenerationSpec} {m : Choices} (h : spec.strategy ≠ .zip) :
    spec.Assignment m ↔ TakesEach spec.dimensions (fun d c => c ∈ d.choices) m := by
  constructor
  · rintro ⟨p, -, htakes⟩
    refine ⟨fun d hd => ?_, htakes.only⟩
    obtain ⟨i, -, c, hc, hm⟩ := exists_right_of_mem htakes.taken hd
    exact ⟨c, List.mem_of_getElem? hc, hm⟩
  · intro htakes
    have hposition (d : GenerationDimension) : ∃ i, d ∈ spec.dimensions → i < d.choices.length ∧
        ∃ c, d.choices[i]? = some c ∧ m[d.name]? = some c := by
      by_cases hd : d ∈ spec.dimensions
      · obtain ⟨c, hc, hm⟩ := htakes.taken d hd
        obtain ⟨i, hi, hget⟩ := List.getElem_of_mem hc
        exact ⟨i, fun _ => ⟨hi, c, by rw [List.getElem?_eq_getElem hi, hget], hm⟩⟩
      · exact ⟨0, fun hd' => absurd hd' hd⟩
    choose position hposition using hposition
    refine ⟨spec.dimensions.map position, ⟨?_, fun hzip => absurd hzip h⟩, ?_, htakes.only⟩
    · rw [List.forall₂_map_left_iff, List.forall₂_same]
      exact fun d hd => (hposition d hd).1
    · rw [List.forall₂_map_right_iff, List.forall₂_same]
      exact fun d hd => (hposition d hd).2

theorem assignment_iff_of_zip {spec : GenerationSpec} {m : Choices} (h : spec.strategy = .zip)
    (hne : spec.dimensions ≠ []) :
    spec.Assignment m ↔ ∃ i : Nat, TakesEach spec.dimensions (fun d c => d.choices[i]? = some c) m := by
  constructor
  · rintro ⟨p, ⟨hwidths, hsame⟩, htakes⟩
    obtain ⟨d, ds, hd⟩ := List.exists_cons_of_ne_nil hne
    have hp := htakes.taken
    rw [hd] at hp
    obtain ⟨i, p', -, -, rfl⟩ := List.forall₂_cons_left_iff.mp hp
    refine ⟨i, fun e he => ?_, htakes.only⟩
    obtain ⟨j, hj, hc⟩ := exists_right_of_mem htakes.taken he
    rwa [hsame h j hj i List.mem_cons_self] at hc
  · rintro ⟨i, htakes⟩
    have hlt (d : GenerationDimension) (hd : d ∈ spec.dimensions) : i < d.choices.length := by
      obtain ⟨c, hc, -⟩ := htakes.taken d hd
      exact (List.getElem?_eq_some_iff.mp hc).1
    refine ⟨spec.dimensions.map fun _ => i, ⟨?_, fun _ j hj k hk => ?_⟩, ?_, htakes.only⟩
    · rw [List.forall₂_map_left_iff, List.forall₂_same]
      exact hlt
    · obtain ⟨-, -, rfl⟩ := List.mem_map.mp hj
      obtain ⟨-, -, rfl⟩ := List.mem_map.mp hk
      rfl
    · rw [List.forall₂_map_right_iff, List.forall₂_same]
      exact htakes.taken

/-- One assignment takes every choice by its label. -/
theorem assignment_eq_of_labels {spec : GenerationSpec} (hv : spec.Valid) {m m' : Choices}
    (h : spec.Assignment m) (h' : spec.Assignment m')
    (hlabels : ∀ (name : String) c c', m[name]? = some c → m'[name]? = some c' →
      c.label = c'.label) : m = m' := by
  obtain ⟨p, -, htakes⟩ := h
  obtain ⟨q, -, htakes'⟩ := h'
  have hpq : p = q := by
    obtain ⟨hp, hget⟩ := List.forall₂_iff_get.mp htakes.taken
    obtain ⟨hq, hget'⟩ := List.forall₂_iff_get.mp htakes'.taken
    refine List.ext_get (hp.symm.trans hq) fun k hk hk' => ?_
    obtain ⟨c, hc, hm⟩ := hget k (hp ▸ hk) hk
    obtain ⟨c', hc', hm'⟩ := hget' k (hp ▸ hk) hk'
    have hnodup := hv.labels _ (List.get_mem spec.dimensions ⟨k, hp ▸ hk⟩)
    have hsame : c = c' := List.inj_on_of_nodup_map hnodup (List.mem_of_getElem? hc)
      (List.mem_of_getElem? hc') (hlabels _ c c' hm hm')
    subst hsame
    exact index_unique hnodup hc hc'
  subst hpq
  exact htakes.unique htakes'

-- ---------------------------------------------------------------------------
-- What is hashed
-- ---------------------------------------------------------------------------

theorem choiceValue_valid (choice : GenerationChoice) : choice.toValue.Valid := by
  have hmap (params : BTreeMap String JsonDocument) : (stableMap params).Valid := by
    refine ⟨?_, validEntries_iff.mpr (List.forall_mem_map.mpr fun param _ =>
      sortAllObjects_valid param.2.valid)⟩
    rw [List.map_map]
    exact BTreeMap.nodup_keys_toList params
  refine record_valid (by simp) fun field hfield value hvalue => ?_
  simp only [List.mem_cons, List.not_mem_nil, or_false] at hfield
  rcases hfield with rfl | rfl | rfl | rfl
  · cases hvalue
    trivial
  · cases hvalue
    exact sortAllObjects_valid choice.value.valid
  · refine valid_of_skip ?_ value hvalue
    refine validItems_iff.mpr (List.forall_mem_map.mpr fun override _ => ?_)
    refine record_valid (by simp) fun field hfield value hvalue => ?_
    simp only [List.mem_cons, List.not_mem_nil, or_false] at hfield
    rcases hfield with rfl | rfl
    · cases hvalue
      trivial
    · cases hvalue
      exact hmap _
  · obtain ⟨s, -, rfl⟩ := Option.map_eq_some_iff.mp hvalue
    trivial

theorem choicesValue_valid (choices : Choices) : (choicesValue choices).Valid := by
  refine ⟨?_, validEntries_iff.mpr (List.forall_mem_map.mpr fun entry _ =>
    choiceValue_valid entry.2)⟩
  rw [List.map_map]
  exact BTreeMap.nodup_keys_toList choices

theorem label_eq_of_toValue {c c' : GenerationChoice} (h : c.toValue = c'.toValue) :
    c.label = c'.label := by
  simp only [GenerationChoice.toValue, record, List.filterMap_cons, Option.map_some, object.injEq,
    List.cons.injEq, Prod.mk.injEq, string.injEq, true_and] at h
  exact h.1

/-- The text that is hashed tells two assignments of one specification apart. -/
theorem render_assignment_injective {floats : FloatWriter} {spec : GenerationSpec}
    (hv : spec.Valid) {m m' : Choices} (h : spec.Assignment m) (h' : spec.Assignment m')
    (htext : render floats (choicesValue m) = render floats (choicesValue m')) : m = m' := by
  have hvalue := render_injective (choicesValue_valid m) (choicesValue_valid m') htext
  refine assignment_eq_of_labels hv h h' fun name c c' hc hc' => ?_
  have hentries := object.inj hvalue
  have hmem : (name, c.toValue) ∈ m'.toList.map fun entry => (entry.1, entry.2.toValue) := by
    rw [← hentries]
    exact List.mem_map.mpr ⟨(name, c), BTreeMap.mem_toList.mpr hc, rfl⟩
  obtain ⟨⟨name', d⟩, hd, heq⟩ := List.mem_map.mp hmem
  obtain ⟨rfl, htoValue⟩ := Prod.mk.inj heq
  have hd : m'[name']? = some d := BTreeMap.mem_toList.mp hd
  rw [hc', Option.some.injEq] at hd
  subst hd
  exact (label_eq_of_toValue htoValue).symm

/-- An assignment that the constraints allow. -/
def Allowed (spec : GenerationSpec) (m : Choices) : Prop :=
  spec.Assignment m ∧ spec.constraints.Allows m

/-- The part of the hash an id keeps is injective on the encoded assignments. -/
def HashSeparates (floats : FloatWriter) (sha256 : Digest) (spec : GenerationSpec) : Prop :=
  ∀ m m' : Choices, spec.Allowed m → spec.Allowed m' →
    (choicesFingerprint floats sha256 m).toList.take 16 =
      (choicesFingerprint floats sha256 m').toList.take 16 →
    render floats (choicesValue m) = render floats (choicesValue m')

theorem id_new_value {kind : IdKind} {text : String} {id : Id kind} (h : Id.new text = .ok id) :
    id.value = text := by
  unfold Id.new at h
  split at h
  · cases h
    rfl
  · cases h

/-- Ids tell the variants of one specification apart. -/
theorem choices_eq_of_variantId {floats : FloatWriter} {sha256 : Digest} {spec : GenerationSpec}
    (hv : spec.Valid) (hhash : HashSeparates floats sha256 spec) {v v' : VariantPlan}
    {rootSeed : Option UInt64}
    (h : variantFromChoices floats sha256 rootSeed m = .ok v)
    (h' : variantFromChoices floats sha256 rootSeed m' = .ok v')
    (hm : spec.Allowed m) (hm' : spec.Allowed m') (hid : v.variantId = v'.variantId) :
    m = m' := by
  have hlength (m : Choices) : ((choicesFingerprint floats sha256 m).toList.take 16).length = 16 := by
    rw [choicesFingerprint, toHex, String.toList_ofList, List.length_take, List.length_flatMap]
    simp
  simp only [variantFromChoices, bind_ok, pure_ok] at h h'
  obtain ⟨id, hnew, _, -, rfl⟩ := h
  obtain ⟨id', hnew', _, -, rfl⟩ := h'
  have htext := (id_new_value hnew).symm.trans ((congrArg Id.value hid).trans (id_new_value hnew'))
  have hsuffix := congrArg String.toList htext
  simp only [toString, String.toList_append, List.append_cancel_left_eq] at hsuffix
  split at hsuffix <;> rename_i he <;> split at hsuffix <;> rename_i he'
  · exact (Std.ExtTreeMap.isEmpty_iff.mp he).trans (Std.ExtTreeMap.isEmpty_iff.mp he').symm
  · have hshort := congrArg List.length hsuffix
    simp only [String.toList_ofList, hlength] at hshort
    cases hshort
  · have hshort := congrArg List.length hsuffix
    simp only [String.toList_ofList, hlength] at hshort
    cases hshort
  · rw [String.toList_ofList, String.toList_ofList] at hsuffix
    exact render_assignment_injective hv hm.1 hm'.1 (hhash m m' hm hm' hsuffix)

-- ---------------------------------------------------------------------------
-- Another listing
-- ---------------------------------------------------------------------------

/-- The same dimensions and choices in another order. Zipped dimensions take
their choices row by row, so their choices are reordered alike. -/
structure Reordering (spec spec' : GenerationSpec) : Prop where
  strategy : spec'.strategy = spec.strategy
  maxVariants : spec'.maxVariants = spec.maxVariants
  constraints : spec'.constraints = spec.constraints
  dimensions : ∃ listed : List GenerationDimension, spec.dimensions.Perm listed ∧
    List.Forall₂ (fun d d' => d'.name = d.name ∧ d.choices.Perm d'.choices) listed spec'.dimensions
  rows : spec.strategy = .zip → ∃ σ : Equiv.Perm Nat, ∀ d ∈ spec.dimensions,
    ∀ d' ∈ spec'.dimensions, d'.name = d.name → ∀ i : Nat, d'.choices[σ i]? = d.choices[i]?

namespace Reordering

variable {spec spec' : GenerationSpec}

theorem exists_right (h : Reordering spec spec') {d : GenerationDimension}
    (hd : d ∈ spec.dimensions) :
    ∃ d' ∈ spec'.dimensions, d'.name = d.name ∧ d.choices.Perm d'.choices := by
  obtain ⟨listed, hperm, hrel⟩ := h.dimensions
  exact exists_right_of_mem hrel (hperm.mem_iff.mp hd)

theorem exists_left (h : Reordering spec spec') {d' : GenerationDimension}
    (hd' : d' ∈ spec'.dimensions) :
    ∃ d ∈ spec.dimensions, d'.name = d.name ∧ d.choices.Perm d'.choices := by
  obtain ⟨listed, hperm, hrel⟩ := h.dimensions
  obtain ⟨d, hd, hsame⟩ := exists_left_of_mem hrel hd'
  exact ⟨d, hperm.mem_iff.mpr hd, hsame⟩

theorem map_perm {β : Type} (h : Reordering spec spec') (f : GenerationDimension → β)
    (hf : ∀ d d', d'.name = d.name → d.choices.Perm d'.choices → f d' = f d) :
    (spec.dimensions.map f).Perm (spec'.dimensions.map f) := by
  obtain ⟨listed, hperm, hrel⟩ := h.dimensions
  have hsame : listed.map f = spec'.dimensions.map f := by
    generalize spec'.dimensions = dimensions at hrel
    clear hperm
    induction hrel with
    | nil => rfl
    | cons hd _ ih => rw [List.map_cons, List.map_cons, hf _ _ hd.1 hd.2, ih]
  exact hsame ▸ hperm.map f

theorem names_perm (h : Reordering spec spec') :
    (spec.dimensions.map (·.name)).Perm (spec'.dimensions.map (·.name)) :=
  h.map_perm _ fun _ _ hname _ => hname

theorem widths_perm (h : Reordering spec spec') :
    (spec.dimensions.map (·.choices.length)).Perm (spec'.dimensions.map (·.choices.length)) :=
  h.map_perm _ fun _ _ _ hperm => hperm.length_eq.symm

theorem dimensions_eq_nil (h : Reordering spec spec') :
    spec'.dimensions = [] ↔ spec.dimensions = [] := by
  rw [← List.length_eq_zero_iff, ← List.length_eq_zero_iff]
  have hlength := h.names_perm.length_eq
  rw [List.length_map, List.length_map] at hlength
  rw [hlength]

theorem takesEach_iff (h : Reordering spec spec')
    {P P' : GenerationDimension → GenerationChoice → Prop}
    (hP : ∀ d ∈ spec.dimensions, ∀ d' ∈ spec'.dimensions, d'.name = d.name →
      d.choices.Perm d'.choices → ∀ c, P d c ↔ P' d' c) {m : Choices} :
    TakesEach spec.dimensions P m ↔ TakesEach spec'.dimensions P' m := by
  constructor
  · intro ⟨htaken, honly⟩
    refine ⟨fun d' hd' => ?_, fun name hname => h.names_perm.mem_iff.mp (honly name hname)⟩
    obtain ⟨d, hd, hname, hperm⟩ := h.exists_left hd'
    obtain ⟨c, hc, hm⟩ := htaken d hd
    exact ⟨c, (hP d hd d' hd' hname hperm c).mp hc, by rw [hname, hm]⟩
  · intro ⟨htaken, honly⟩
    refine ⟨fun d hd => ?_, fun name hname => h.names_perm.mem_iff.mpr (honly name hname)⟩
    obtain ⟨d', hd', hname, hperm⟩ := h.exists_right hd
    obtain ⟨c, hc, hm⟩ := htaken d' hd'
    exact ⟨c, (hP d hd d' hd' hname hperm c).mpr hc, by rw [← hname, hm]⟩

/-- Both listings have the same assignments. -/
theorem assignment_iff (h : Reordering spec spec') (hv : spec.Valid) {m : Choices} :
    spec.Assignment m ↔ spec'.Assignment m := by
  by_cases hzip : spec.strategy = .zip
  · have hne := hv.nonempty (by simp [hzip])
    obtain ⟨σ, hσ⟩ := h.rows hzip
    rw [assignment_iff_of_zip hzip hne, assignment_iff_of_zip (h.strategy.trans hzip)
      fun hnil => hne (h.dimensions_eq_nil.mp hnil)]
    have hrow (i : Nat) : TakesEach spec.dimensions (fun d c => d.choices[i]? = some c) m ↔
        TakesEach spec'.dimensions (fun d c => d.choices[σ i]? = some c) m :=
      h.takesEach_iff fun d hd d' hd' hname _ c => by rw [hσ d hd d' hd' hname i]
    constructor
    · exact fun ⟨i, hi⟩ => ⟨σ i, (hrow i).mp hi⟩
    · intro ⟨i, hi⟩
      refine ⟨σ.symm i, (hrow (σ.symm i)).mpr ?_⟩
      rwa [Equiv.apply_symm_apply]
  · rw [assignment_iff_of_ne_zip hzip, assignment_iff_of_ne_zip fun hz => hzip (h.strategy ▸ hz)]
    exact h.takesEach_iff fun d _ d' _ _ hperm c =>
      (hperm.mem_iff : c ∈ d.choices ↔ c ∈ d'.choices)

-- ---------------------------------------------------------------------------
-- Both listings are accepted
-- ---------------------------------------------------------------------------

theorem validate_dimension (d : GenerationDimension) {d' : GenerationDimension}
    (hname : d'.name = d.name) (hperm : d.choices.Perm d'.choices) (h : d.validate = .ok u) :
    d'.validate = .ok u := by
  simp only [GenerationDimension.validate, bind_ok, refuseIf_ok, eachUnique_iff] at h ⊢
  obtain ⟨_, hblank, _, hne, hvalid, hlabels⟩ := h
  refine ⟨(), by rwa [hname], (), fun hnil => hne ?_, fun c hc => ?_, ?_⟩
  · rw [hnil] at hperm
    exact hperm.eq_nil
  · rw [hname]
    exact hvalid c (hperm.mem_iff.mpr hc)
  · exact (hperm.map _).nodup_iff.mp hlabels

theorem choiceRefs_iff (h : Reordering spec spec') {reference : ChoiceRef} :
    reference ∈ spec'.choiceRefs ↔ reference ∈ spec.choiceRefs := by
  simp only [choiceRefs, List.mem_flatMap, List.mem_map]
  constructor
  · rintro ⟨d', hd', c, hc, rfl⟩
    obtain ⟨d, hd, hname, hperm⟩ := h.exists_left hd'
    exact ⟨d, hd, c, hperm.mem_iff.mpr hc, by rw [hname]⟩
  · rintro ⟨d, hd, c, hc, rfl⟩
    obtain ⟨d', hd', hname, hperm⟩ := h.exists_right hd
    exact ⟨d', hd', c, hperm.mem_iff.mp hc, by rw [hname]⟩

theorem validateConstraints_eq (h : Reordering spec spec') :
    spec'.validateConstraints = spec.validateConstraints := by
  have hcheck : spec'.checkRef = spec.checkRef := by
    funext reference
    unfold checkRef refuseIf
    simp only [h.choiceRefs_iff]
  have hpair : spec'.checkPair = spec.checkPair := by
    funext groupLabel pair
    simp only [checkPair, hcheck]
  simp only [validateConstraints, h.constraints, hcheck, hpair]

theorem validateZip_of_widths (hne : spec.dimensions ≠ [])
    (hwidths : ∀ d ∈ spec.dimensions, ∀ e ∈ spec.dimensions, d.choices.length = e.choices.length) :
    spec.validateZip = .ok () := by
  obtain ⟨d, ds, hd⟩ := List.exists_cons_of_ne_nil hne
  have hfirst : spec.firstWidth = .ok d.choices.length := by
    rw [firstWidth, hd]
  simp only [validateZip, bind_ok, refuseIf_ok]
  refine ⟨_, hfirst, ?_⟩
  rintro ⟨e, he, hdiffers⟩
  exact hdiffers (hwidths e he d (by rw [hd]; exact List.mem_cons_self))

theorem widths_eq (h : Reordering spec spec')
    (hwidths : ∀ d ∈ spec.dimensions, ∀ e ∈ spec.dimensions, d.choices.length = e.choices.length) :
    ∀ d ∈ spec'.dimensions, ∀ e ∈ spec'.dimensions, d.choices.length = e.choices.length := by
  intro d' hd' e' he'
  obtain ⟨d, hd, -, hperm⟩ := h.exists_left hd'
  obtain ⟨e, he, -, hperm'⟩ := h.exists_left he'
  rw [← hperm.length_eq, ← hperm'.length_eq]
  exact hwidths d hd e he

theorem validate (h : Reordering spec spec') (hvalid : spec.validate = .ok ()) :
    spec'.validate = .ok () := by
  have hv := validate_ok hvalid
  have hlength := h.names_perm.length_eq
  rw [List.length_map, List.length_map] at hlength
  simp only [GenerationSpec.validate, bind_ok, refuseIf_ok] at hvalid ⊢
  rw [← hlength, h.maxVariants, h.strategy]
  obtain ⟨_, hsize, _, hmax, hvalid⟩ := hvalid
  refine ⟨(), hsize, (), hmax, ?_⟩
  split
  · rename_i hnone
    rw [if_pos hnone] at hvalid
    simp only [bind_ok, refuseIf_ok, not_not] at hvalid ⊢
    rw [h.dimensions_eq_nil, h.constraints]
    exact hvalid
  · rename_i hsome
    rw [if_neg hsome] at hvalid
    simp only [bind_ok, refuseIf_ok, checkIf_ok, eachUnique_iff] at hvalid ⊢
    obtain ⟨_, hne, _, ⟨hdims, hnames⟩, _, hzip, hconstraints⟩ := hvalid
    have hne' : spec'.dimensions ≠ [] := fun hnil => hne (h.dimensions_eq_nil.mp hnil)
    refine ⟨(), hne', (), ⟨fun d' hd' => ?_, h.names_perm.nodup_iff.mp hnames⟩, (), fun hz => ?_, ?_⟩
    · obtain ⟨d, hd, hname, hperm⟩ := h.exists_left hd'
      exact validate_dimension d hname hperm (hdims d hd)
    · exact validateZip_of_widths hne' (h.widths_eq (hv.widths hz))
    · rw [h.validateConstraints_eq]
      exact hconstraints

-- ---------------------------------------------------------------------------
-- Both enumerations
-- ---------------------------------------------------------------------------

theorem limit_eq (h : Reordering spec spec') : spec'.limit = spec.limit := by
  simp only [limit, h.constraints, h.maxVariants]

theorem checkedMul_fold_of_lt {widths : List Nat} (start : Nat) (hpos : ∀ w ∈ widths, 0 < w)
    (hlt : start * widths.prod < 2 ^ 64) :
    widths.foldl (fun n w => n.bind (checkedMul · w)) (some start) = some (start * widths.prod) := by
  induction widths generalizing start with
  | nil => simp
  | cons w ws ih =>
    rw [List.forall_mem_cons] at hpos
    rw [List.prod_cons, ← Nat.mul_assoc] at hlt ⊢
    have hstep : start * w < 2 ^ 64 :=
      lt_of_le_of_lt (Nat.le_mul_of_pos_right _ (List.prod_pos hpos.2)) hlt
    rw [List.foldl_cons, Option.bind_some, checkedMul, if_pos hstep]
    exact ih _ hpos.2 hlt

theorem cardinality_of_prod (hv : spec.Valid) (hs : spec.strategy = .cartesian)
    (hlt : (spec.dimensions.map (·.choices.length)).prod < 2 ^ 64) :
    spec.cardinality = .ok (some (spec.dimensions.map (·.choices.length)).prod) := by
  have hpos : ∀ w ∈ spec.dimensions.map (·.choices.length), 0 < w :=
    List.forall_mem_map.mpr fun d hd => List.length_pos_iff.mpr (hv.choices d hd)
  have hfold := checkedMul_fold_of_lt 1 hpos (by rwa [Nat.one_mul])
  rw [List.foldl_map, Nat.one_mul] at hfold
  simp only [cardinality, hs, hfold]

/-- The product is counted alike. -/
theorem cardinality (h : Reordering spec spec') (hv : spec.Valid) (hv' : spec'.Valid)
    (hc : spec.cardinality = .ok (some n)) (hn : n ≤ spec.limit) :
    spec'.cardinality = .ok (some n) := by
  unfold GenerationSpec.cardinality at hc
  split at hc
  · rename_i hs
    simp only [GenerationSpec.cardinality, h.strategy, hs]
    exact hc
  · rename_i hs
    simp only [bind_ok, pure_ok, Option.some.injEq] at hc
    obtain ⟨width, hwidth, rfl⟩ := hc
    have hne : spec.dimensions ≠ [] := hv.nonempty (by simp [hs])
    obtain ⟨d', ds', hd'⟩ := List.exists_cons_of_ne_nil fun hnil =>
      hne (h.dimensions_eq_nil.mp hnil)
    have hmem : d' ∈ spec'.dimensions := by
      rw [hd']
      exact List.mem_cons_self
    obtain ⟨d, hd, -, hperm⟩ := h.exists_left hmem
    have hwidth : width = d'.choices.length := by
      obtain ⟨e, es, he⟩ := List.exists_cons_of_ne_nil hne
      rw [firstWidth, he] at hwidth
      cases hwidth
      rw [← hperm.length_eq]
      exact hv.widths hs e (by rw [he]; exact List.mem_cons_self) d hd
    have hfirst : spec'.firstWidth = .ok width := by
      rw [firstWidth, hd', hwidth]
    simp only [GenerationSpec.cardinality, h.strategy, hs, hfirst]
    rfl
  · rename_i hs
    rw [Except.ok.injEq] at hc
    rw [← List.foldl_map (g := fun (n : Option Nat) w => n.bind (checkedMul · w))] at hc
    have hprod : n = (spec'.dimensions.map (·.choices.length)).prod := by
      rw [← h.widths_perm.prod_eq]
      simpa using checkedMul_fold hc
    rw [hprod]
    refine cardinality_of_prod hv' (h.strategy.trans hs) ?_
    have hlimit := limit_le spec
    omega

theorem candidates_ok (hv : spec.Valid) : ∃ candidates, spec.candidates = .ok candidates := by
  unfold candidates
  split
  · exact ⟨_, rfl⟩
  · exact ⟨_, rfl⟩
  · rename_i hs
    refine exists_collect fun idx hidx => ?_
    obtain ⟨first, rest, hd⟩ := List.exists_cons_of_ne_nil (hv.nonempty (by simp [hs]))
    have hidx : idx < first.choices.length := by simpa [hd] using List.mem_range.mp hidx
    obtain ⟨entries, hentries⟩ : ∃ entries, collect spec.dimensions (choiceAt idx) = .ok entries := by
      refine exists_collect fun d hmem => ?_
      have hwidth := hv.widths hs d hmem first (by rw [hd]; exact List.mem_cons_self)
      exact ⟨_, choiceAt_ok.mpr ⟨_, List.getElem?_eq_getElem (hwidth ▸ hidx), rfl⟩⟩
    exact ⟨_, bind_ok.mpr ⟨entries, hentries, rfl⟩⟩

/-- Both listings keep the same candidates. -/
theorem exists_kept {candidates kept : List Choices} (h : Reordering spec spec')
    (hv : spec.Valid) (hv' : spec'.Valid)
    (hcandidates : spec.candidates = .ok candidates) (hkept : spec.prune candidates = .ok kept) :
    ∃ candidates' kept', spec'.candidates = .ok candidates' ∧
      spec'.prune candidates' = .ok kept' ∧ kept.Perm kept' := by
  obtain ⟨candidates', hcandidates'⟩ := candidates_ok hv'
  obtain ⟨_, hlists⟩ := candidates_lists hv hcandidates
  obtain ⟨_, hlists'⟩ := candidates_lists hv' hcandidates'
  have henumerates := prune_enumerates (hlists.enumerates hv) hkept
  have hall := (hlists'.enumerates hv').mem_iff
  obtain ⟨kept', hkept'⟩ : ∃ kept', spec'.prune candidates' = .ok kept' := by
    unfold prune at hkept ⊢
    rw [h.constraints]
    split at hkept
    · rename_i hempty
      exact ⟨_, if_pos hempty⟩
    · rename_i hempty
      rw [if_neg hempty]
      simp only [bind_ok, refuseIf_ok, pure_ok] at hkept ⊢
      obtain ⟨_, hne, rfl⟩ := hkept
      refine ⟨_, (), fun hnil => hne ?_, rfl⟩
      rw [List.isEmpty_iff, List.filter_eq_nil_iff] at hnil ⊢
      intro m hm
      have hassignment := (((hlists.enumerates hv).mem_iff m).mp hm).1
      exact hnil m ((hall m).mpr ⟨(h.assignment_iff hv).mp hassignment, trivial⟩)
  have henumerates' := prune_enumerates (hlists'.enumerates hv') hkept'
  refine ⟨candidates', kept', hcandidates', hkept', ?_⟩
  rw [List.perm_ext_iff_of_nodup henumerates.nodup henumerates'.nodup]
  intro m
  rw [henumerates.mem_iff, henumerates'.mem_iff, h.assignment_iff hv, h.constraints]

/-- Both listings have the same variants. -/
theorem enumerateVariants {floats : FloatWriter} {sha256 : Digest} {rootSeed : Option UInt64}
    (h : Reordering spec spec')
    (hok : GenerationSpec.enumerateVariants floats sha256 spec rootSeed = .ok variants) :
    ∃ variants', GenerationSpec.enumerateVariants floats sha256 spec' rootSeed = .ok variants' ∧
      variants.Perm variants' := by
  simp only [GenerationSpec.enumerateVariants, bind_ok, refuseIf_ok, whenSome_ok] at hok ⊢
  obtain ⟨_, hvalid, cardinality, hc, _, hfits, candidates, hcandidates, kept, hkept, _, hmax,
    hcollect⟩ := hok
  have hv := validate_ok hvalid
  have hvalid' := h.validate hvalid
  have hv' := validate_ok hvalid'
  push Not at hfits
  obtain ⟨n, hn, hle⟩ := hfits
  rw [Option.mem_def] at hn
  subst hn
  obtain ⟨candidates', kept', hcandidates', hkept', hperm⟩ := h.exists_kept hv hv' hcandidates hkept
  obtain ⟨variants', hforall, hvariants⟩ :=
    List.perm_comp_forall₂ hperm.symm (collect_ok.mp hcollect)
  refine ⟨variants', ⟨(), hvalid', some n, h.cardinality hv hv' hc hle, (), ?_, candidates',
    hcandidates', kept', hkept', (), ?_, collect_ok.mpr hforall⟩, hvariants.symm⟩
  · intro hexceeds
    have hlt := hexceeds n rfl
    rw [h.limit_eq] at hlt
    omega
  · rw [h.maxVariants, ← hperm.length_eq]
    exact hmax

end Reordering

-- ---------------------------------------------------------------------------
-- A stable subset
-- ---------------------------------------------------------------------------

section Stable

variable {floats : FloatWriter} {sha256 : Digest} {spec spec' : GenerationSpec} {rootSeed : UInt64}

/-- No two variants have one key. -/
theorem nodup_samplingKey (hhash : HashSeparates floats sha256 spec)
    (h : enumerateVariants floats sha256 spec (some rootSeed) = .ok variants) :
    (variants.map (samplingKey sha256 rootSeed)).Nodup := by
  obtain ⟨hvalid, henumerates⟩ := enumerateVariants_enumerates h
  have hnodup := henumerates.nodup
  have hmade (v : VariantPlan) (hv : v ∈ variants) :
      variantFromChoices floats sha256 (some rootSeed) v.choices = .ok v := by
    simp only [enumerateVariants, bind_ok, collect_ok] at h
    obtain ⟨_, -, _, -, _, -, _, -, _, -, _, -, hforall⟩ := h
    obtain ⟨m, -, hm⟩ := exists_left_of_mem hforall hv
    rw [variantFromChoices_choices hm]
    exact hm
  have hassignment (v : VariantPlan) (hv : v ∈ variants) : spec.Allowed v.choices :=
    (henumerates.mem_iff _).mp (List.mem_map_of_mem hv)
  refine hnodup.of_map.map_on fun v hv v' hv' hkey => ?_
  have hid : v.variantId = v'.variantId := congrArg (fun k => (ofLex k).2) hkey
  have hchoices := choices_eq_of_variantId (validate_ok hvalid) hhash (hmade v hv) (hmade v' hv')
    (hassignment v hv) (hassignment v' hv') hid
  exact List.inj_on_of_nodup_map hnodup hv hv' hchoices

/-- Another listing draws the same variants. -/
theorem Reordering.sampleGenerationVariants (hspec : Reordering spec spec')
    (hhash : HashSeparates floats sha256 spec)
    (h : GenerationSpec.sampleGenerationVariants floats sha256 spec rootSeed count = .ok drawn) :
    GenerationSpec.sampleGenerationVariants floats sha256 spec' rootSeed count = .ok drawn := by
  obtain ⟨variants, hvariants, hpos, hle, rfl⟩ := sampleGenerationVariants_ok.mp h
  obtain ⟨variants', hvariants', hperm⟩ := hspec.enumerateVariants hvariants
  refine sampleGenerationVariants_ok.mpr ⟨variants', hvariants', hpos, hperm.length_eq ▸ hle, ?_⟩
  rw [Keyed.sortBy_eq_of_perm (nodup_samplingKey hhash hvariants) hperm]

end Stable

/-- A sample of any size up to the whole enumeration can be drawn; it is free of
repetition, part of the enumeration and the beginning of every larger one; and
another listing of the same specification draws the same. -/
theorem sample_stable (floats : FloatWriter) (sha256 : Digest) (spec : GenerationSpec)
    (rootSeed : UInt64) :
    (∀ variants, spec.enumerateVariants floats sha256 (some rootSeed) = .ok variants →
      (∀ k, 0 < k → k ≤ variants.length →
        ∃ drawn, spec.sampleGenerationVariants floats sha256 rootSeed k = .ok drawn) ∧
      (∀ k drawn, spec.sampleGenerationVariants floats sha256 rootSeed k = .ok drawn →
        drawn.length = k ∧ (drawn.map (·.choices)).Nodup ∧ ∀ v ∈ drawn, v ∈ variants)) ∧
    (∀ k k' drawn drawn', k ≤ k' →
      spec.sampleGenerationVariants floats sha256 rootSeed k = .ok drawn →
      spec.sampleGenerationVariants floats sha256 rootSeed k' = .ok drawn' →
      drawn = drawn'.take k) ∧
    (∀ spec' k drawn, Reordering spec spec' → HashSeparates floats sha256 spec →
      spec.sampleGenerationVariants floats sha256 rootSeed k = .ok drawn →
      spec'.sampleGenerationVariants floats sha256 rootSeed k = .ok drawn) := by
  refine ⟨fun variants hvariants => ⟨fun k hpos hle => ?_, fun k drawn h => ?_⟩,
    fun k k' drawn drawn' hle h h' => ?_, fun spec' k drawn hspec hhash h =>
      hspec.sampleGenerationVariants hhash h⟩
  · exact ⟨_, sampleGenerationVariants_ok.mpr ⟨variants, hvariants, hpos, hle, rfl⟩⟩
  · obtain ⟨_, hvariants', -, hle, rfl⟩ := sampleGenerationVariants_ok.mp h
    cases hvariants.symm.trans hvariants'
    have hperm := Keyed.perm_sortBy (samplingKey sha256 rootSeed) variants
    have hnodup := (enumerateVariants_enumerates hvariants).2.nodup
    refine ⟨?_, ?_, fun v hv => hperm.mem_iff.mp (List.mem_of_mem_take hv)⟩
    · rw [List.length_take, hperm.length_eq, Nat.min_eq_left hle]
    · rw [List.map_take]
      exact ((hperm.map _).nodup_iff.mpr hnodup).sublist (List.take_sublist _ _)
  · obtain ⟨variants, hvariants, -, -, rfl⟩ := sampleGenerationVariants_ok.mp h
    obtain ⟨_, hvariants', -, -, rfl⟩ := sampleGenerationVariants_ok.mp h'
    cases hvariants.symm.trans hvariants'
    rw [List.take_take, Nat.min_eq_left hle]

/-- Two zipped dimensions; the constraints leave the row of `p1`. -/
def zippedSpec (second : List GenerationChoice) : GenerationSpec where
  strategy := .zip
  dimensions := [
    { name := "p", choices := [⟨"p1", nullDocument, [], none⟩, ⟨"p2", nullDocument, [], none⟩] },
    { name := "q", choices := second }]
  maxVariants := some 4
  constraints := { exclude := [(⟨"p", "p2"⟩, ⟨"q", "q1"⟩), (⟨"p", "p2"⟩, ⟨"q", "q2"⟩)] }

def q1 : GenerationChoice := ⟨"q1", nullDocument, [], none⟩
def q2 : GenerationChoice := ⟨"q2", nullDocument, [], none⟩

def constantDigest : Digest := fun _ => .replicate 32 0

/-- The labels taken in one dimension. -/
def labelsOf (name : String) (drawn : List VariantPlan) : List (Option String) :=
  drawn.map fun v => v.choices[name]?.map (·.label)

/-- One assignment is told apart from itself by any hash. -/
theorem hashSeparates_of_length {spec : GenerationSpec}
    (h : (spec.enumerateVariants .ofBits constantDigest none).map List.length = .ok 1) :
    HashSeparates .ofBits constantDigest spec := by
  cases hvariants : spec.enumerateVariants .ofBits constantDigest none with
  | error e =>
    rw [hvariants] at h
    cases h
  | ok variants =>
    rw [hvariants] at h
    obtain ⟨v, rfl⟩ := List.length_eq_one_iff.mp (Except.ok.inj h)
    have hmem := (enumerateVariants_enumerates hvariants).2.mem_iff
    intro m m' hm hm' _
    have hm := List.mem_singleton.mp ((hmem m).mpr hm)
    have hm' := List.mem_singleton.mp ((hmem m').mpr hm')
    rw [hm, hm']

theorem sample_stable_rows :
    ∃ drawn, (zippedSpec [q1, q2]).sampleGenerationVariants .ofBits constantDigest 17 1 = .ok drawn ∧
      ({ zippedSpec [q1, q2] with dimensions := (zippedSpec [q1, q2]).dimensions.reverse } :
        GenerationSpec).sampleGenerationVariants .ofBits constantDigest 17 1 = .ok drawn := by
  obtain ⟨-, -, hstable⟩ := sample_stable .ofBits constantDigest (zippedSpec [q1, q2]) 17
  obtain ⟨drawn, h⟩ : ∃ drawn,
      (zippedSpec [q1, q2]).sampleGenerationVariants .ofBits constantDigest 17 1 = .ok drawn :=
    ⟨_, eq_ok_valueOf (by decide +kernel)⟩
  refine ⟨drawn, h, hstable _ 1 drawn ?_ (hashSeparates_of_length (by decide +kernel)) h⟩
  refine ⟨rfl, rfl, rfl, ⟨_, (List.reverse_perm _).symm, ?_⟩, fun _ => ⟨1, ?_⟩⟩
  · exact List.forall₂_same.mpr fun d _ => ⟨rfl, .refl _⟩
  · intro d hd d' hd' hname i
    have hd' := List.mem_reverse.mp hd'
    have hnames : ((zippedSpec [q1, q2]).dimensions.map (·.name)).Nodup := by decide
    rw [List.inj_on_of_nodup_map hnames hd' hd hname]
    rfl

/-- Zipped dimensions pair other choices when one of them is listed backwards. -/
theorem sample_depends_on_row_order :
    ¬∀ (spec spec' : GenerationSpec) drawn drawn', spec'.strategy = spec.strategy →
      spec'.maxVariants = spec.maxVariants → spec'.constraints = spec.constraints →
      List.Forall₂ (fun d d' => d'.name = d.name ∧ d.choices.Perm d'.choices) spec.dimensions
        spec'.dimensions →
      HashSeparates .ofBits constantDigest spec → HashSeparates .ofBits constantDigest spec' →
      spec.sampleGenerationVariants .ofBits constantDigest 17 1 = .ok drawn →
      spec'.sampleGenerationVariants .ofBits constantDigest 17 1 = .ok drawn' →
      ∀ m, m ∈ drawn.map (·.choices) ↔ m ∈ drawn'.map (·.choices) := by
  intro h
  have hlabels (spec : GenerationSpec) (label : String)
      (hdrawn : (spec.sampleGenerationVariants .ofBits constantDigest 17 1).map (labelsOf "q") =
        .ok [some label]) :
      ∃ v : VariantPlan, v.choices["q"]?.map (·.label) = some label ∧
        spec.sampleGenerationVariants .ofBits constantDigest 17 1 = .ok [v] := by
    cases hsample : spec.sampleGenerationVariants .ofBits constantDigest 17 1 with
    | error e =>
      rw [hsample] at hdrawn
      cases hdrawn
    | ok drawn =>
      rw [hsample] at hdrawn
      obtain ⟨v, hv, hlabel⟩ := List.map_eq_singleton_iff.mp (Except.ok.inj hdrawn)
      exact ⟨v, hlabel, by rw [hv]⟩
  obtain ⟨v, hv, hsample⟩ := hlabels (zippedSpec [q1, q2]) "q1" (by decide +kernel)
  obtain ⟨v', hv', hsample'⟩ :=
    hlabels (zippedSpec [q2, q1]) "q2" (by decide +kernel)
  have hmem := (h (zippedSpec [q1, q2]) (zippedSpec [q2, q1]) [v] [v'] rfl rfl rfl
    (.cons ⟨rfl, .refl _⟩ (.cons ⟨rfl, .swap _ _ []⟩ .nil))
    (hashSeparates_of_length (by decide +kernel)) (hashSeparates_of_length (by decide +kernel))
    hsample hsample' v.choices).mp (by simp)
  have hsame : v.choices = v'.choices := by simpa using hmem
  rw [hsame, hv'] at hv
  exact absurd hv (by decide)

end GenerationSpec

end DagMl
