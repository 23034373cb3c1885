import GpuNodeHealth.Guard.Capacity

/-! The debounce of `trigger_level`. A condition counts once it has held for the
minimum age, but the rules stop at the first condition that is True, of whatever
age. So a young condition hides an aged one that comes after it in the rules,
and the node is refused as too young; it is not when the aged one comes first. -/

namespace GpuNodeHealth.Guard

open Cluster

variable {node : Node} {now : ℚ} {cfg : PolicyConfig} {parseTime : TimeParser}

/-- The condition of the type is True and not young. -/
def Aged (node : Node) (ctype : String) (now : ℚ) (minAgeSeconds : ℤ) (parseTime : TimeParser) : Prop :=
  ∃ c, activeCondition node ctype = some c ∧ young c now minAgeSeconds parseTime = false

instance (node : Node) (ctype : String) (now : ℚ) (minAgeSeconds : ℤ) (parseTime : TimeParser) :
    Decidable (Aged node ctype now minAgeSeconds parseTime) :=
  match h : activeCondition node ctype with
  | none => isFalse (by simp [Aged, h])
  | some c => decidable_of_iff (young c now minAgeSeconds parseTime = false) (by simp [Aged, h])

/-- The cordon-level conditions the rules look at before the given one. -/
def ruledBefore (ctype : String) : List String := cordonConditions.takeWhile (· ≠ ctype)

/-- No young cordon-level condition stands in the rules before every aged one. -/
def AgedComesFirst (node : Node) (now : ℚ) (minAgeSeconds : ℤ) (parseTime : TimeParser) : Prop :=
  ∀ t ∈ cordonConditions, Active node t → ¬Aged node t now minAgeSeconds parseTime →
    ∃ t' ∈ ruledBefore t, Aged node t' now minAgeSeconds parseTime

theorem Aged.active {ctype : String} {minAgeSeconds : ℤ}
    (h : Aged node ctype now minAgeSeconds parseTime) : Active node ctype := by
  obtain ⟨c, hc, -⟩ := h
  by_contra hn
  rw [activeCondition_eq_none.mpr hn] at hc
  cases hc

theorem ruledBefore_cases :
    ruledBefore gpuUnrecoverable = [] ∧ ruledBefore gpuWorkqueueStalled = [gpuUnrecoverable] ∧
      ruledBefore gpuEngineTimeout = [gpuUnrecoverable, gpuWorkqueueStalled] := by decide +kernel

/-- With an aged cordon-level condition on the node, the trigger is young exactly
when a young condition stands before every aged one. -/
theorem triggerLevel_young_iff {minAgeSeconds : ℤ}
    (haged : ∃ t ∈ cordonConditions, Aged node t now minAgeSeconds parseTime) :
    (∃ t, triggerLevel node now minAgeSeconds parseTime = some t ∧ t.tooYoung = true) ↔
      ¬AgedComesFirst node now minAgeSeconds parseTime := by
  obtain ⟨b1, b2, b3⟩ := ruledBefore_cases
  have hage : ∀ {ctype c}, activeCondition node ctype = some c →
      (Aged node ctype now minAgeSeconds parseTime ↔ young c now minAgeSeconds parseTime = false) := by
    intro ctype c hc
    simp [Aged, hc]
  have hact : ∀ {ctype c}, activeCondition node ctype = some c → Active node ctype := by
    intro ctype c hc
    by_contra hn
    rw [activeCondition_eq_none.mpr hn] at hc
    cases hc
  simp only [triggerLevel_eq, Option.map_eq_some_iff]
  rcases firstActive_cases node with ⟨c, hc, h⟩ | ⟨c, h1, hc, h⟩ | ⟨c, h1, h2, hc, h⟩ | ⟨hnone, -⟩
  · -- unrecoverable decides, and nothing stands before it
    simp only [h, Option.some.injEq, exists_eq_left', AgedComesFirst, cordonConditions,
      List.forall_mem_cons, b1, b2, b3, hact hc, hage hc]
    cases hy : young c now minAgeSeconds parseTime <;> simp [hage hc, hy]
  · have hn1 : ¬Aged node gpuUnrecoverable now minAgeSeconds parseTime := fun ha => h1 ha.active
    simp only [h, Option.some.injEq, exists_eq_left', AgedComesFirst, cordonConditions,
      List.forall_mem_cons, b1, b2, b3, h1, hact hc, hage hc]
    cases hy : young c now minAgeSeconds parseTime <;> simp [hn1, hage hc, hy]
  · have hn1 : ¬Aged node gpuUnrecoverable now minAgeSeconds parseTime := fun ha => h1 ha.active
    have hn2 : ¬Aged node gpuWorkqueueStalled now minAgeSeconds parseTime := fun ha => h2 ha.active
    simp only [h, Option.some.injEq, exists_eq_left', AgedComesFirst, cordonConditions,
      List.forall_mem_cons, b1, b2, b3, h1, h2, hact hc, hage hc]
    cases hy : young c now minAgeSeconds parseTime <;> simp [hn1, hn2]
  · obtain ⟨t, hmem, ha⟩ := haged
    exact absurd ha.active (hnone t hmem)

/-- The decision for a node with an aged cordon-level condition is other than
condition-too-young exactly when no young condition comes first in the rules. -/
theorem decide_not_masked_iff (before after : List Node) (node : Node) (now : ℚ) (cfg : PolicyConfig)
    (parseTime : TimeParser) (recentCordons : List ℚ) :
    ((∃ t ∈ cordonConditions, Aged node t now cfg.conditionMinAgeSeconds parseTime) →
        (decide (before ++ node :: after) now cfg parseTime recentCordons)[before.length]?.map
          (·.reason) ≠ some .tooYoung) ↔
      ((∃ t ∈ cordonConditions, Aged node t now cfg.conditionMinAgeSeconds parseTime) →
        AgedComesFirst node now cfg.conditionMinAgeSeconds parseTime) := by
  refine forall_congr' fun haged => ?_
  have hreason : ∀ budget, (decideLoop (before ++ node :: after) now cfg parseTime budget
      (before ++ node :: after))[before.length]?.map (·.reason) = some (outcome
        (before ++ node :: after) now cfg parseTime (budget - cordons (decideLoop
          (before ++ node :: after) now cfg parseTime budget before)) node) := by
    intro budget
    rw [decideLoop_append, List.getElem?_append_right (by simp)]
    simp [decideLoop, (decideNode_spec _ node).2.1]
  rw [decide, hreason, ne_eq, Option.some.injEq, outcome_tooYoung_iff, triggerLevel_young_iff haged,
    not_not]

/-- A node stalled for ten minutes that turned unrecoverable ten seconds ago. -/
def maskedNode : Node :=
  readyNode "gpu-0" [(gpuUnrecoverable, "1970-01-01T00:09:50Z"), (gpuWorkqueueStalled, "1970-01-01T00:00:00Z")]

/-- The stall alone is an aged condition, yet the node is refused as too young. -/
theorem decide_masked : ¬∀ (before after : List Node) (node : Node) (now : ℚ) (cfg : PolicyConfig)
    (recentCordons : List ℚ),
    (∃ t ∈ cordonConditions, Aged node t now cfg.conditionMinAgeSeconds Cluster.parseTime) →
      (decide (before ++ node :: after) now cfg Cluster.parseTime recentCordons)[before.length]?.map
        (·.reason) ≠ some .tooYoung := by
  intro h
  have hrefused : (decide [maskedNode, readyNode "gpu-1" []] 600 enforceOne Cluster.parseTime [])[0]?.map
      (·.reason) = some .tooYoung := by decide +kernel
  exact h [] [readyNode "gpu-1" []] maskedNode 600 enforceOne [] (by decide +kernel) hrefused

end GpuNodeHealth.Guard
