import GpuNodeHealth.Guard.Policy
import Mathlib.Data.List.Induction

/-! What a node's condition list says, and what the policy reads from it. The
policy looks a condition up through a dict keyed by type; on a node whose types
are distinct the dict holds exactly the listed conditions. The trigger is the
first condition of the rules that is True, and only its age depends on the
clock. -/

namespace GpuNodeHealth.Guard

open Cluster

/-- The node lists a condition of the type with status True. -/
def HasTrue (node : Node) (ctype : String) : Prop :=
  ∃ c ∈ node.conditions, c.type = some ctype ∧ c.status = some "True"

instance (node : Node) (ctype : String) : Decidable (HasTrue node ctype) :=
  inferInstanceAs (Decidable (∃ c ∈ node.conditions, _))

/-- No two conditions of the node have the same type. -/
def DistinctTypes (node : Node) : Prop := (node.conditions.filterMap (·.type)).Nodup

instance (node : Node) : Decidable (DistinctTypes node) := inferInstanceAs (Decidable (List.Nodup _))

/-! ### The condition dict -/

theorem conditionIndex_append (node : Node) (conds : List NodeCondition) (c : NodeCondition)
    (ctype : String) :
    conditionIndex { node with conditions := conds ++ [c] } ctype =
      if c.type = some ctype ∧ ctype ≠ "" then some c
      else conditionIndex { node with conditions := conds } ctype := by
  simp only [conditionIndex, List.foldl_append, List.foldl_cons, List.foldl_nil]
  rcases ht : c.type with _ | t
  · simp
  · by_cases hempty : t = ""
    · subst hempty
      have hne : ¬(some "" = some ctype ∧ ctype ≠ "") := by
        rintro ⟨h, h'⟩
        exact h' (Option.some.inj h).symm
      simp only [if_true, if_neg hne]
    · by_cases h : t = ctype
      · subst h; simp [hempty]
      · simp [hempty, h, Function.update_of_ne (Ne.symm h)]

theorem conditionIndex_mem {node : Node} {ctype : String} {c : NodeCondition}
    (h : conditionIndex node ctype = some c) : c ∈ node.conditions ∧ c.type = some ctype := by
  obtain ⟨name, unschedulable, conditions⟩ := node
  induction conditions using List.reverseRecOn with
  | nil => simp [conditionIndex] at h
  | append_singleton conds d ih =>
    rw [conditionIndex_append ⟨name, unschedulable, conds⟩ conds d ctype] at h
    split_ifs at h with hd
    · obtain rfl := Option.some.inj h
      exact ⟨by simp, hd.1⟩
    · exact ⟨List.mem_append_left _ (ih h).1, (ih h).2⟩

theorem conditionIndex_of_mem {node : Node} {ctype : String} {c : NodeCondition}
    (hd : DistinctTypes node) (hne : ctype ≠ "") (hc : c ∈ node.conditions)
    (ht : c.type = some ctype) : conditionIndex node ctype = some c := by
  obtain ⟨name, unschedulable, conditions⟩ := node
  induction conditions using List.reverseRecOn with
  | nil => simp at hc
  | append_singleton conds d ih =>
    rw [conditionIndex_append ⟨name, unschedulable, conds⟩ conds d ctype]
    simp only [DistinctTypes, List.filterMap_append, List.nodup_append] at hd
    obtain ⟨hconds, -, hdisjoint⟩ := hd
    rcases List.mem_append.mp hc with hc | hc
    · have hdt : d.type ≠ some ctype := by
        intro he
        exact hdisjoint ctype (List.mem_filterMap.mpr ⟨c, hc, ht⟩) ctype (by simp [he]) rfl
      simp only [hdt, false_and, if_false]
      exact ih hconds hc
    · obtain rfl := List.mem_singleton.mp hc
      simp [ht, hne]

/-- The condition of a type is True in the dict. -/
def Active (node : Node) (ctype : String) : Prop := isTrue (conditionIndex node ctype) = true

instance (node : Node) (ctype : String) : Decidable (Active node ctype) :=
  inferInstanceAs (Decidable (_ = _))

theorem active_iff {node : Node} {ctype : String} :
    Active node ctype ↔ ∃ c, conditionIndex node ctype = some c ∧ c.status = some "True" := by
  unfold Active isTrue
  cases conditionIndex node ctype <;> simp

theorem Active.hasTrue {node : Node} {ctype : String} (h : Active node ctype) : HasTrue node ctype := by
  obtain ⟨c, hc, hs⟩ := active_iff.mp h
  exact ⟨c, (conditionIndex_mem hc).1, (conditionIndex_mem hc).2, hs⟩

theorem active_iff_hasTrue {node : Node} {ctype : String} (hd : DistinctTypes node)
    (hne : ctype ≠ "") : Active node ctype ↔ HasTrue node ctype := by
  refine ⟨Active.hasTrue, ?_⟩
  rintro ⟨c, hc, ht, hs⟩
  exact active_iff.mpr ⟨c, conditionIndex_of_mem hd hne hc ht, hs⟩

/-! ### The trigger -/

/-- The conditions that can cordon a node, in the order of the rules. -/
def cordonConditions : List String := [gpuUnrecoverable, gpuWorkqueueStalled, gpuEngineTimeout]

/-- A condition without a usable timestamp, or too recent. -/
def young (cond : NodeCondition) (now : ℚ) (minAgeSeconds : ℤ) (parseTime : TimeParser) : Bool :=
  match parseTime cond.lastTransitionTime with
  | none => true
  | some since => now - since < minAgeSeconds

/-- The node's condition of a type, if it is True. -/
def activeCondition (node : Node) (ctype : String) : Option NodeCondition :=
  (conditionIndex node ctype).filter fun c => isTrue (some c)

theorem activeCondition_eq_some {node : Node} {ctype : String} {c : NodeCondition} :
    activeCondition node ctype = some c ↔
      conditionIndex node ctype = some c ∧ c.status = some "True" := by
  simp [activeCondition, Option.filter_eq_some_iff, isTrue]

theorem activeCondition_eq_none {node : Node} {ctype : String} :
    activeCondition node ctype = none ↔ ¬Active node ctype := by
  rw [active_iff, Option.eq_none_iff_forall_ne_some]
  simp [activeCondition_eq_some]

/-- The first condition of the rules that is True, with its level. -/
def firstActive (node : Node) : Option (Level × NodeCondition) :=
  levelRules.findSome? fun (level, types) =>
    types.findSome? fun ctype => (activeCondition node ctype).map (level, ·)

/-- The clock decides the age of the trigger and nothing else. -/
theorem triggerLevel_eq (node : Node) (now : ℚ) (minAgeSeconds : ℤ) (parseTime : TimeParser) :
    triggerLevel node now minAgeSeconds parseTime =
      (firstActive node).map fun a => ⟨a.1, a.2, young a.2 now minAgeSeconds parseTime⟩ := by
  have hturn : ∀ level ctype, triggerOf node now minAgeSeconds parseTime level ctype =
      (activeCondition node ctype).map fun c => ⟨level, c, young c now minAgeSeconds parseTime⟩ := by
    intro level ctype
    unfold triggerOf activeCondition young
    cases conditionIndex node ctype with
    | none => rfl
    | some c =>
      cases hc : isTrue (some c) with
      | false => simp [hc]
      | true => cases hp : parseTime c.lastTransitionTime <;> simp [hc, hp]
  simp only [triggerLevel, firstActive, List.map_findSome?, funext (hturn _), Function.comp_def,
    Option.map_map]

/-- The rules one by one: which condition is the first that is True. -/
theorem firstActive_cases (node : Node) :
    (∃ c, activeCondition node gpuUnrecoverable = some c ∧ firstActive node = some (.l3, c)) ∨
    (∃ c, ¬Active node gpuUnrecoverable ∧ activeCondition node gpuWorkqueueStalled = some c ∧
      firstActive node = some (.l3, c)) ∨
    (∃ c, ¬Active node gpuUnrecoverable ∧ ¬Active node gpuWorkqueueStalled ∧
      activeCondition node gpuEngineTimeout = some c ∧ firstActive node = some (.l2, c)) ∨
    ((∀ t ∈ cordonConditions, ¬Active node t) ∧ ∀ a, firstActive node = some a → a.1 = .l1) := by
  simp only [← activeCondition_eq_none, cordonConditions, firstActive, levelRules,
    List.findSome?_cons, List.findSome?_nil, List.forall_mem_cons]
  cases activeCondition node gpuUnrecoverable with
  | some c => simp
  | none =>
    cases activeCondition node gpuWorkqueueStalled with
    | some c => simp
    | none =>
      cases activeCondition node gpuEngineTimeout with
      | some c => simp
      | none => cases activeCondition node gpuProbeFailed <;> simp

end GpuNodeHealth.Guard
