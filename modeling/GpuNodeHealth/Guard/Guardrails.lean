import GpuNodeHealth.Guard.Capacity

/-! The guardrails as the operator reads them, stated on the condition lists of
the snapshot and not on the lookups of the code. On a fleet with distinct names
and condition types every cordon of `decide` meets all of them at once. -/

namespace GpuNodeHealth.Guard

open Cluster

/-- Could take work now: Ready, schedulable, and no True cordon-level condition. -/
def Spare (node : Node) : Prop :=
  HasTrue node "Ready" ∧ node.unschedulable ≠ some true ∧ ∀ t ∈ cordonConditions, ¬HasTrue node t

instance (node : Node) : Decidable (Spare node) := inferInstanceAs (Decidable (_ ∧ _ ∧ _))

/-- The other nodes of the fleet that could take work. -/
def spareOthers (nodes : List Node) (node : Node) : ℕ :=
  nodes.countP fun other => nodeName other ≠ nodeName node ∧ Spare other

/-- The condition is True and has held for the minimum age. -/
def AgedTrue (node : Node) (ctype : String) (now : ℚ) (minAgeSeconds : ℤ) (parseTime : TimeParser) : Prop :=
  ∃ c ∈ node.conditions, c.type = some ctype ∧ c.status = some "True" ∧
    ∃ since, parseTime c.lastTransitionTime = some since ∧ (minAgeSeconds : ℚ) ≤ now - since

/-- All guardrails for cordoning `node`, when the record of cordons is
`recentCordons` and `taken` cordons were decided earlier in the pass. -/
structure Guardrails (nodes : List Node) (now : ℚ) (cfg : PolicyConfig) (parseTime : TimeParser)
    (recentCordons : List ℚ) (taken : ℕ) (node : Node) : Prop where
  mode : cfg.mode = "enforce"
  scope : cfg.enforceNodes = [] ∨ nodeName node ∈ cfg.enforceNodes
  schedulable : node.unschedulable ≠ some true
  condition : ∃ t ∈ cordonConditions, AgedTrue node t now cfg.conditionMinAgeSeconds parseTime
  fresh : ¬HasTrue node gpuHealthDataStale
  capacity : cfg.minHealthyNodes ≤ spareOthers nodes node
  budget : (inWindow recentCordons now cfg.rateLimitWindowSeconds : ℤ) + taken < cfg.maxCordonsPerWindow

variable {nodes : List Node} {now : ℚ} {cfg : PolicyConfig} {parseTime : TimeParser}

theorem schedulable_iff {node : Node} : schedulable node = true ↔ node.unschedulable ≠ some true := by
  unfold schedulable
  rcases node.unschedulable with _ | _ | _ <;> simp

theorem young_eq_false {c : NodeCondition} {minAgeSeconds : ℤ} :
    young c now minAgeSeconds parseTime = false ↔
      ∃ since, parseTime c.lastTransitionTime = some since ∧ (minAgeSeconds : ℚ) ≤ now - since := by
  unfold young
  cases parseTime c.lastTransitionTime <;> simp

theorem inCapacity_spare {node : Node} {minAgeSeconds : ℤ} (hd : DistinctTypes node) :
    inCapacity node now minAgeSeconds parseTime = true ↔ Spare node := by
  have hne : ∀ t ∈ cordonConditions, t ≠ "" := by decide
  rw [inCapacity_iff, Spare, schedulable_iff, active_iff_hasTrue hd (by decide)]
  refine and_congr_right fun _ => and_congr_right fun _ => forall₂_congr fun t ht => ?_
  rw [active_iff_hasTrue hd (hne t ht)]

/-- The condition behind a trigger that is not too young. -/
theorem trigger_agedTrue {node : Node} {minAgeSeconds : ℤ} {t : Trigger}
    (ht : triggerLevel node now minAgeSeconds parseTime = some t) (hy : t.tooYoung = false)
    (hl : t.level ∈ cordonLevels) :
    ∃ ctype ∈ cordonConditions, AgedTrue node ctype now minAgeSeconds parseTime := by
  rw [triggerLevel_eq, Option.map_eq_some_iff] at ht
  obtain ⟨⟨level, c⟩, ha, rfl⟩ := ht
  have haged : ∀ ctype ∈ cordonConditions, activeCondition node ctype = some c →
      ∃ ctype ∈ cordonConditions, AgedTrue node ctype now minAgeSeconds parseTime := by
    intro ctype hmem hc
    obtain ⟨hindex, htrue⟩ := activeCondition_eq_some.mp hc
    obtain ⟨hin, htype⟩ := conditionIndex_mem hindex
    exact ⟨ctype, hmem, c, hin, htype, htrue, young_eq_false.mp hy⟩
  rcases firstActive_cases node with ⟨d, hd, h⟩ | ⟨d, -, hd, h⟩ | ⟨d, -, -, hd, h⟩ | ⟨-, hlevel⟩
  · obtain ⟨-, rfl⟩ := Prod.mk.inj (Option.some.inj (ha.symm.trans h))
    exact haged _ (by simp [cordonConditions]) hd
  · obtain ⟨-, rfl⟩ := Prod.mk.inj (Option.some.inj (ha.symm.trans h))
    exact haged _ (by simp [cordonConditions]) hd
  · obtain ⟨-, rfl⟩ := Prod.mk.inj (Option.some.inj (ha.symm.trans h))
    exact haged _ (by simp [cordonConditions]) hd
  · have hl1 : level = .l1 := hlevel _ ha
    simp [hl1, cordonLevels] at hl

/-- What `healthy_capacity` counts without a sick node are spare other nodes. -/
theorem healthyCapacity_le_spareOthers (hd : DistinctNames nodes) (ht : ∀ node ∈ nodes, DistinctTypes node)
    {node : Node} (hn : node ∈ nodes) {minAgeSeconds : ℤ}
    (hc : inCapacity node now minAgeSeconds parseTime = false) :
    healthyCapacity nodes now minAgeSeconds parseTime [nodeName node] ≤ spareOthers nodes node := by
  refine List.countP_mono_left fun other ho h => ?_
  rw [Bool.and_eq_true] at h
  have hspare := (inCapacity_spare (ht other ho)).mp h.2
  have hne : nodeName other ≠ nodeName node := by
    intro he
    rw [hd.eq ho hn he, hc] at h
    cases h.2
  simpa using ⟨hne, hspare⟩

/-- Every CORDON of `decide` is about a node that meets all guardrails. -/
theorem decide_guardrails (hd : DistinctNames nodes) (ht : ∀ node ∈ nodes, DistinctTypes node)
    {recentCordons : List ℚ} {d : Decision}
    (h : d ∈ decide nodes now cfg parseTime recentCordons) (hc : d.action = .cordon) :
    ∃ before node after, nodes = before ++ node :: after ∧ nodeName node = d.node ∧
      Guardrails nodes now cfg parseTime recentCordons
        (cordons ((decide nodes now cfg parseTime recentCordons).take before.length)) node := by
  obtain ⟨before, node, after, hnodes, hname, helig, ⟨hmode, hscope⟩, hbudget⟩ := mem_decide_cordon h hc
  have hn : node ∈ nodes := by simp [hnodes]
  obtain ⟨t, htrig, hyoung, hlevel⟩ := helig.trigger
  refine ⟨before, node, after, hnodes, hname.symm, hmode, hscope, schedulable_iff.mp helig.schedulable,
    trigger_agedTrue htrig hyoung hlevel, ?_, ?_, hbudget⟩
  · rw [← active_iff_hasTrue (ht node hn) (by decide)]
    exact helig.fresh
  · have hle := healthyCapacity_le_spareOthers hd ht hn helig.not_inCapacity
    exact helig.capacity.trans (by exact_mod_cast hle)

end GpuNodeHealth.Guard
