import GpuNodeHealth.Cluster.Time
import GpuNodeHealth.Guard.Decisions
import Mathlib.Data.List.Nodup

/-! Capacity and cordons. Whether a node counts as capacity depends on Ready,
on being schedulable and on its cordon-level conditions, never on the clock. A
node `decide` cordons carries such a condition, so it was never counted: taking
it out of service leaves the count as it was. -/

namespace GpuNodeHealth.Guard

open Cluster

variable {nodes : List Node} {now : ℚ} {cfg : PolicyConfig} {parseTime : TimeParser}

/-- Every node of the fleet has its own name. -/
def DistinctNames (nodes : List Node) : Prop := (nodes.map nodeName).Nodup

instance (nodes : List Node) : Decidable (DistinctNames nodes) := inferInstanceAs (Decidable (List.Nodup _))

/-- A trigger at a cordon level is a True cordon-level condition, and the other
way round. -/
theorem cordonLevel_iff {node : Node} {minAgeSeconds : ℤ} :
    (∃ t, triggerLevel node now minAgeSeconds parseTime = some t ∧ t.level ∈ cordonLevels) ↔
      ∃ ctype ∈ cordonConditions, Active node ctype := by
  have hsome : ∀ {ctype c}, activeCondition node ctype = some c → Active node ctype := by
    intro ctype c h
    by_contra hn
    rw [activeCondition_eq_none.mpr hn] at h
    cases h
  simp only [triggerLevel_eq, Option.map_eq_some_iff]
  rcases firstActive_cases node with ⟨c, hc, h⟩ | ⟨c, -, hc, h⟩ | ⟨c, -, -, hc, h⟩ | ⟨hnone, hlevel⟩
  · exact ⟨fun _ => ⟨_, by simp [cordonConditions], hsome hc⟩,
      fun _ => ⟨_, ⟨_, h, rfl⟩, by simp [cordonLevels]⟩⟩
  · exact ⟨fun _ => ⟨_, by simp [cordonConditions], hsome hc⟩,
      fun _ => ⟨_, ⟨_, h, rfl⟩, by simp [cordonLevels]⟩⟩
  · exact ⟨fun _ => ⟨_, by simp [cordonConditions], hsome hc⟩,
      fun _ => ⟨_, ⟨_, h, rfl⟩, by simp [cordonLevels]⟩⟩
  · constructor
    · rintro ⟨t, ⟨a, ha, rfl⟩, hl⟩
      simp [hlevel a ha, cordonLevels] at hl
    · rintro ⟨ctype, hmem, hact⟩
      exact absurd hact (hnone ctype hmem)

theorem inCapacity_iff {node : Node} {minAgeSeconds : ℤ} :
    inCapacity node now minAgeSeconds parseTime = true ↔
      Active node "Ready" ∧ schedulable node = true ∧ ∀ t ∈ cordonConditions, ¬Active node t := by
  have hlevel := @cordonLevel_iff now parseTime node minAgeSeconds
  simp only [inCapacity, ready, Bool.and_eq_true, and_assoc, Active]
  refine and_congr_right fun _ => and_congr_right fun _ => ?_
  have hneg := hlevel.not
  simp only [not_exists, not_and, Active] at hneg
  rw [← hneg]
  cases triggerLevel node now minAgeSeconds parseTime with
  | none => simp
  | some t => simp

theorem Eligible.not_inCapacity {node : Node} (h : Eligible nodes now cfg parseTime node) :
    inCapacity node now cfg.conditionMinAgeSeconds parseTime = false := by
  obtain ⟨t, ht, -, hl⟩ := h.trigger
  obtain ⟨ctype, hmem, hact⟩ := cordonLevel_iff.mp ⟨t, ht, hl⟩
  exact Bool.eq_false_iff.mpr fun hc => (inCapacity_iff.mp hc).2.2 ctype hmem hact

theorem DistinctNames.eq (hd : DistinctNames nodes) {a b : Node} (ha : a ∈ nodes) (hb : b ∈ nodes)
    (h : nodeName a = nodeName b) : a = b :=
  List.inj_on_of_nodup_map hd ha hb h

/-- Excluding a node that does not count changes nothing. -/
theorem healthyCapacity_exclude (hd : DistinctNames nodes) {node : Node} (hn : node ∈ nodes)
    {minAgeSeconds : ℤ} (hc : inCapacity node now minAgeSeconds parseTime = false) :
    healthyCapacity nodes now minAgeSeconds parseTime [nodeName node] =
      healthyCapacity nodes now minAgeSeconds parseTime [] := by
  refine List.countP_congr fun other ho => ?_
  cases hname : other.name with
  | none => simp
  | some name =>
    by_cases heq : name = nodeName node
    · have hsame : other = node := hd.eq ho hn (by rw [← heq]; simp [nodeName, hname])
      simp [hsame, hc]
    · simp [heq]

/-- Every CORDON of `decide` is about a node of the fleet that passed the
guardrails with the budget it found. -/
theorem mem_decide_cordon {recentCordons : List ℚ} {d : Decision}
    (h : d ∈ decide nodes now cfg parseTime recentCordons) (hc : d.action = .cordon) :
    ∃ before node after, nodes = before ++ node :: after ∧ d.node = nodeName node ∧
      Eligible nodes now cfg parseTime node ∧ Enforced cfg node ∧
      (inWindow recentCordons now cfg.rateLimitWindowSeconds : ℤ) +
        cordons ((decide nodes now cfg parseTime recentCordons).take before.length) <
          cfg.maxCordonsPerWindow := by
  obtain ⟨before, node, after, hnodes, rfl⟩ := mem_decideLoop h
  obtain ⟨helig, hbudget, henf⟩ := decideNode_cordon_iff.mp hc
  refine ⟨before, node, after, hnodes, (decideNode_spec _ node).1, helig, henf, ?_⟩
  have hloop : decide nodes now cfg parseTime recentCordons =
      decideLoop nodes now cfg parseTime (cfg.maxCordonsPerWindow -
        inWindow recentCordons now cfg.rateLimitWindowSeconds) (before ++ node :: after) :=
    congrArg _ hnodes
  rw [hloop, decideLoop_append, List.take_append_of_le_length (by simp)]
  rw [List.take_of_length_le (by simp)]
  omega

/-- The nodes as they stand once the PATCHes on the named ones took effect. -/
def applyCordons (names : List String) (nodes : List Node) : List Node :=
  nodes.map fun node => if nodeName node ∈ names then { node with unschedulable := some true } else node

/-- Whichever of the cordons of one pass take effect, the capacity of the fleet
stays what it was, and it meets the floor as soon as there is one. -/
theorem healthyCapacity_applyCordons (hd : DistinctNames nodes) (recentCordons : List ℚ)
    (names : List String) (hnames : ∀ name ∈ names, ∃ d ∈ decide nodes now cfg parseTime recentCordons,
      d.action = .cordon ∧ d.node = name) :
    healthyCapacity (applyCordons names nodes) now cfg.conditionMinAgeSeconds parseTime [] =
        healthyCapacity nodes now cfg.conditionMinAgeSeconds parseTime [] ∧
      ((∃ d ∈ decide nodes now cfg parseTime recentCordons, d.action = .cordon) →
        cfg.minHealthyNodes ≤ healthyCapacity nodes now cfg.conditionMinAgeSeconds parseTime []) := by
  constructor
  · rw [applyCordons, healthyCapacity, List.countP_map]
    refine List.countP_congr fun node hnode => ?_
    simp only [Function.comp_apply]
    split_ifs with hmem
    · obtain ⟨d, hdec, hc, hname⟩ := hnames _ hmem
      obtain ⟨before, target, after, hnodes, htarget, helig, -⟩ := mem_decide_cordon hdec hc
      have hsame : node = target := hd.eq hnode (by simp [hnodes]) (hname.symm.trans htarget)
      have hout : inCapacity { node with unschedulable := some true } now
          cfg.conditionMinAgeSeconds parseTime = false :=
        Bool.eq_false_iff.mpr fun h => by
          have := (inCapacity_iff.mp h).2.1
          simp [schedulable] at this
      rw [hout, hsame, helig.not_inCapacity]
    · rfl
  · rintro ⟨d, hdec, hc⟩
    obtain ⟨before, node, after, hnodes, -, helig, -⟩ := mem_decide_cordon hdec hc
    rw [← healthyCapacity_exclude hd (by simp [hnodes]) helig.not_inCapacity]
    exact helig.capacity

/-! ### A fleet to evaluate on -/

/-- A Ready node with the given conditions True since the given times. -/
def readyNode (name : String) (active : List (String × String)) : Node where
  name := some name
  conditions := { type := some "Ready", status := some "True" } ::
    active.map fun (ctype, since) =>
      { type := some ctype, status := some "True", lastTransitionTime := some since }

/-- One node unrecoverable since the epoch, one healthy. -/
def twoNodes : List Node := [readyNode "gpu-0" [(gpuUnrecoverable, "1970-01-01T00:00:00Z")], readyNode "gpu-1" []]

/-- Enforce everywhere with a floor of one node and one cordon an hour. -/
def enforceOne : PolicyConfig := ⟨"enforce", [], 120, 1, 1, 3600⟩

theorem healthyCapacity_applyCordons_twoNodes :
    healthyCapacity (applyCordons ["gpu-0"] twoNodes) 600 120 Cluster.parseTime [] =
        healthyCapacity twoNodes 600 120 Cluster.parseTime [] ∧
      ((∃ d ∈ decide twoNodes 600 enforceOne Cluster.parseTime [], d.action = .cordon) →
        1 ≤ (healthyCapacity twoNodes 600 120 Cluster.parseTime [] : ℤ)) :=
  @healthyCapacity_applyCordons twoNodes 600 enforceOne Cluster.parseTime (by decide +kernel) [] ["gpu-0"]
    (by decide +kernel)

end GpuNodeHealth.Guard
