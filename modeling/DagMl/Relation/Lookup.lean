import Mathlib
import DagMl.Relation.Basic

/-!
# Resolving a sample's target and group

Two families of lookups: the first record of the sample, and the map
collected from all records. `uniform_iff` says when they are the same
function, whatever the order of the records.
-/

namespace DagMl

namespace SampleRelationSet

variable {V : Type}

/-- `records.iter().find(|r| r.sample_id == s).and_then(field)`. -/
def firstNamed (self : SampleRelationSet) (field : SampleRelation → Option V) (s : SampleId) :
    Option V :=
  (self.records.find? (·.sampleId = s)).bind field

/-- Every value a record names, under its sample. -/
def collected (self : SampleRelationSet) (field : SampleRelation → Option V) :
    BTreeMap SampleId V :=
  BTreeMap.collect (self.records.filterMap fun r => (field r).map fun v => (r.sampleId, v))

def targetForSample (self : SampleRelationSet) (s : SampleId) : Option TargetId :=
  self.firstNamed (·.targetId) s

def groupForSample (self : SampleRelationSet) (s : SampleId) : Option GroupId :=
  self.firstNamed (·.groupId) s

def observationCountForSample (self : SampleRelationSet) (s : SampleId) : Nat :=
  (self.records.filter (·.sampleId = s)).length

def sampleTargets (self : SampleRelationSet) : BTreeMap SampleId TargetId :=
  self.collected (·.targetId)

def sampleGroups (self : SampleRelationSet) : BTreeMap SampleId GroupId :=
  self.collected (·.groupId)

-- ---------------------------------------------------------------------------
-- Consistent and uniform fields
-- ---------------------------------------------------------------------------

/-- The records of one sample do not contradict each other. -/
def Consistent (relations : SampleRelationSet) (field : SampleRelation → Option V) : Prop :=
  ∀ r ∈ relations.records, ∀ r' ∈ relations.records, r.sampleId = r'.sampleId →
    SameValue (field r) (field r')

/-- Either all records of a sample name a value or none does. -/
def UniformIn (relations : SampleRelationSet) (field : SampleRelation → Option V) : Prop :=
  ∀ r ∈ relations.records, ∀ r' ∈ relations.records, r.sampleId = r'.sampleId →
    (field r).isSome → (field r').isSome

variable {relations other : SampleRelationSet} {field : SampleRelation → Option V}

theorem SameValue.refl (a : Option V) : SameValue a a := by
  intro x hx y hy
  exact Option.some.inj (hx.symm.trans hy)

theorem Valid.consistent (h : relations.Valid) (hfield : ∀ a b, Compatible a b →
    a.sampleId = b.sampleId → SameValue (field a) (field b)) : relations.Consistent field := by
  intro r hr r' hr' he
  by_cases heq : r = r'
  · rw [heq]
    exact SameValue.refl _
  · exact hfield r r' (h.compatible.forall hr hr' heq) he

theorem Valid.consistent_target (h : relations.Valid) : relations.Consistent (·.targetId) :=
  h.consistent fun _ _ hc => hc.target

theorem Valid.consistent_group (h : relations.Valid) : relations.Consistent (·.groupId) :=
  h.consistent fun _ _ hc => hc.group

theorem getElem?_collected (h : relations.Consistent field) :
    (relations.collected field)[s]? = some v ↔
      ∃ r ∈ relations.records, r.sampleId = s ∧ field r = some v := by
  have mem_iff (s : SampleId) (v : V) : (s, v) ∈ relations.records.filterMap (fun r =>
      (field r).map fun v => (r.sampleId, v)) ↔
        ∃ r ∈ relations.records, r.sampleId = s ∧ field r = some v := by
    simp only [List.mem_filterMap, Option.map_eq_some_iff, Prod.mk.injEq]
    refine exists_congr fun r => and_congr_right fun _ => ?_
    constructor
    · rintro ⟨w, hw, hs, rfl⟩
      exact ⟨hs, hw⟩
    · rintro ⟨hs, hw⟩
      exact ⟨v, hw, hs, rfl⟩
  rw [collected, BTreeMap.getElem?_collect, mem_iff]
  intro s v w hv hw
  obtain ⟨r, hr, hs, hrv⟩ := (mem_iff s v).mp hv
  obtain ⟨r', hr', hs', hrw⟩ := (mem_iff s w).mp hw
  exact h r hr r' hr' (hs.trans hs'.symm) v hrv w hrw

/-- On a uniform field the first record already knows. -/
theorem firstNamed_eq_collected (hc : relations.Consistent field) (hu : relations.UniformIn field) :
    relations.firstNamed field s = (relations.collected field)[s]? := by
  refine Option.ext fun v => ?_
  rw [getElem?_collected hc, firstNamed]
  cases hf : relations.records.find? (·.sampleId = s) with
  | none =>
    rw [List.find?_eq_none] at hf
    simp only [Option.bind_none, reduceCtorEq, false_iff, not_exists, not_and]
    intro r hr hs
    exact absurd hs (by simpa using hf r hr)
  | some first =>
    have hm := List.mem_of_find?_eq_some hf
    have hs : first.sampleId = s := by simpa using List.find?_some hf
    rw [Option.bind_some]
    constructor
    · exact fun hv => ⟨first, hm, hs, hv⟩
    · rintro ⟨r, hr, hrs, hv⟩
      obtain ⟨w, hw⟩ := Option.isSome_iff_exists.mp
        (hu r hr first hm (hrs.trans hs.symm) (by simp [hv]))
      rw [hw, hc first hm r hr (hs.trans hrs.symm) w hw v hv]

theorem collected_perm (hc : relations.Consistent field)
    (hp : other.records.Perm relations.records) :
    other.collected field = relations.collected field := by
  have hc' : other.Consistent field := fun r hr r' hr' =>
    hc r (hp.mem_iff.mp hr) r' (hp.mem_iff.mp hr')
  refine BTreeMap.eq_iff.mpr fun s v => ?_
  rw [getElem?_collected hc, getElem?_collected hc']
  exact exists_congr fun r => and_congr_left fun _ => hp.mem_iff

theorem UniformIn.perm (h : relations.UniformIn field)
    (hp : other.records.Perm relations.records) : other.UniformIn field :=
  fun r hr r' hr' => h r (hp.mem_iff.mp hr) r' (hp.mem_iff.mp hr')

theorem observationCountForSample_perm (hp : other.records.Perm relations.records) :
    other.observationCountForSample s = relations.observationCountForSample s :=
  (hp.filter _).length_eq

/-- A first-record lookup that no reordering changes has a uniform field:
each record of a sample can be brought to the front. -/
theorem uniformIn_of_perm
    (h : ∀ other : SampleRelationSet, other.records.Perm relations.records →
      ∀ s, other.firstNamed field s = relations.firstNamed field s) :
    relations.UniformIn field := by
  have front (r : SampleRelation) (hr : r ∈ relations.records) :
      relations.firstNamed field r.sampleId = field r := by
    obtain ⟨before, after, hsplit⟩ := List.append_of_mem hr
    have hp : (r :: (before ++ after)).Perm relations.records :=
      hsplit ▸ List.perm_middle.symm
    rw [← h ⟨_⟩ hp]
    simp [firstNamed]
  intro r hr r' hr' he hsome
  rw [← front r' hr', ← he, front r hr]
  exact hsome

end SampleRelationSet

end DagMl
