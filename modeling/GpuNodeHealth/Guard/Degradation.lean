import GpuNodeHealth.Guard.Budget
import Mathlib.Logic.Relation

/-! Sicker fleets. Taking a node away, cordoning it, or changing one of its
conditions for the worse never adds capacity, so a cordon the capacity floor
refused stays refused: the refusal needs a trigger on the node itself, which is
left alone, and a count that can only have dropped. -/

namespace GpuNodeHealth.Guard

open Cluster

/-- Setting a condition: it replaces the entry of its type, or is added. -/
def setCondition (conds : List NodeCondition) (c : NodeCondition) : List NodeCondition :=
  if conds.any (·.type = c.type) then conds.map fun d => if d.type = c.type then c else d
  else conds ++ [c]

/-- One change of a node for the worse. -/
inductive NodeWorse : Node → Node → Prop
  | unschedulable (node : Node) : NodeWorse node { node with unschedulable := some true }
  | notReady (node : Node) {c : NodeCondition} (ht : c.type = some "Ready") (hs : c.status ≠ some "True") :
      NodeWorse node { node with conditions := setCondition node.conditions c }
  | readyGone (node : Node) :
      NodeWorse node { node with conditions := node.conditions.filter (·.type ≠ some "Ready") }
  | sick (node : Node) {c : NodeCondition} {ctype : String} (ht : c.type = some ctype) (hne : ctype ≠ "Ready")
      (hs : c.status = some "True") : NodeWorse node { node with conditions := setCondition node.conditions c }

/-- One change of the fleet for the worse that leaves `n` alone. -/
inductive FleetWorse (n : Node) : List Node → List Node → Prop
  | removed (before after : List Node) {other : Node} (h : nodeName other ≠ nodeName n) :
      FleetWorse n (before ++ other :: after) (before ++ after)
  | degraded (before after : List Node) {other other' : Node} (h : nodeName other ≠ nodeName n)
      (hw : NodeWorse other other') : FleetWorse n (before ++ other :: after) (before ++ other' :: after)

/-- Any number of changes for the worse, on any nodes but `n`. -/
abbrev Degraded (n : Node) : List Node → List Node → Prop := Relation.ReflTransGen (FleetWorse n)

variable {nodes nodes' : List Node} {now : ℚ} {cfg : PolicyConfig} {parseTime : TimeParser}

/-! ### One node -/

theorem conditionIndex_map (node : Node) (c : NodeCondition) (t : String) :
    conditionIndex { node with conditions := node.conditions.map fun d => if d.type = c.type then c else d } t =
      if c.type = some t then (conditionIndex node t).map fun _ => c else conditionIndex node t := by
  obtain ⟨name, unschedulable, conditions⟩ := node
  induction conditions using List.reverseRecOn with
  | nil => simp [conditionIndex]
  | append_singleton conds d ih =>
    simp only [List.map_append, List.map_cons, List.map_nil] at ih ⊢
    rw [conditionIndex_append ⟨name, unschedulable, conds⟩ _ _ t, ih,
      conditionIndex_append ⟨name, unschedulable, conds⟩ conds d t]
    by_cases hd : d.type = c.type
    · by_cases hc : c.type = some t <;> by_cases he : t = "" <;> simp [hd, hc, he]
    · by_cases hc : c.type = some t
      · have hdt : d.type ≠ some t := fun h => hd (h.trans hc.symm)
        simp [hc, hdt]
      · simp [hd, hc]

theorem conditionIndex_isSome {node : Node} {t : String} (hne : t ≠ "") {c : NodeCondition}
    (hc : c ∈ node.conditions) (ht : c.type = some t) : (conditionIndex node t).isSome = true := by
  obtain ⟨name, unschedulable, conditions⟩ := node
  induction conditions using List.reverseRecOn with
  | nil => simp at hc
  | append_singleton conds d ih =>
    rw [conditionIndex_append ⟨name, unschedulable, conds⟩ conds d t]
    split_ifs with hd
    · rfl
    · rcases List.mem_append.mp hc with hc | hc
      · exact ih hc
      · obtain rfl := List.mem_singleton.mp hc
        exact absurd ⟨ht, hne⟩ hd

/-- Setting a condition changes the dict at its type and nowhere else. -/
theorem conditionIndex_setCondition (node : Node) {c : NodeCondition} {ctype : String}
    (hc : c.type = some ctype) (t : String) :
    conditionIndex { node with conditions := setCondition node.conditions c } t =
      if t = ctype ∧ t ≠ "" then some c else conditionIndex node t := by
  have hempty : conditionIndex node "" = none := by
    cases h : conditionIndex node "" with
    | none => rfl
    | some d =>
      have hstep : ∀ conds : List NodeCondition, conditionIndex { node with conditions := conds } "" = none := by
        intro conds
        induction conds using List.reverseRecOn with
        | nil => rfl
        | append_singleton conds d ih =>
          rw [conditionIndex_append node conds d, ih]
          simp
      exact h.symm.trans (hstep node.conditions)
  unfold setCondition
  split_ifs with hany hat hat
  · obtain ⟨d, hd, hdt⟩ := List.any_eq_true.mp hany
    have hsome := conditionIndex_isSome hat.2 hd
      ((decide_eq_true_eq.mp hdt).trans (hc.trans (congrArg some hat.1.symm)))
    obtain ⟨found, hfound⟩ := Option.isSome_iff_exists.mp hsome
    rw [conditionIndex_map, hc, hat.1, if_pos rfl, ← hat.1, hfound, Option.map_some]
  · rw [conditionIndex_map, hc]
    split_ifs with ht
    · have hteq : t = ctype := (Option.some.inj ht).symm
      have htempty : t = "" := by
        by_contra hne
        exact hat ⟨hteq, hne⟩
      rw [htempty, hempty, Option.map_none]
    · rfl
  · rw [conditionIndex_append node, if_pos ⟨hc.trans (congrArg some hat.1.symm), hat.2⟩]
  · have hnot : ¬(c.type = some t ∧ t ≠ "") := by
      rw [hc]
      exact fun h => hat ⟨(Option.some.inj h.1).symm, h.2⟩
    rw [conditionIndex_append node, if_neg hnot]

theorem conditionIndex_filter (node : Node) (ctype t : String) :
    conditionIndex { node with conditions := node.conditions.filter (·.type ≠ some ctype) } t =
      if t = ctype then none else conditionIndex node t := by
  obtain ⟨name, unschedulable, conditions⟩ := node
  induction conditions using List.reverseRecOn with
  | nil => simp [conditionIndex]
  | append_singleton conds d ih =>
    rw [List.filter_append, conditionIndex_append ⟨name, unschedulable, conds⟩ conds d t]
    by_cases hd : d.type = some ctype
    · rw [List.filter_cons_of_neg (by simp [hd]), List.filter_nil, List.append_nil, ih, hd]
      by_cases ht : t = ctype
      · simp [ht]
      · simp [ht, Ne.symm ht]
    · rw [List.filter_cons_of_pos (by simp [hd]), List.filter_nil,
        conditionIndex_append ⟨name, unschedulable, conds⟩ _ d t, ih]
      by_cases ht : t = ctype
      · simp [ht, hd]
      · simp [ht]

/-- The worse node has its name, and counts toward the capacity only if the
better one did. -/
theorem NodeWorse.spec {node node' : Node} (h : NodeWorse node node') :
    node'.name = node.name ∧ ∀ now now' minAge minAge' parse parse',
      inCapacity node' now' minAge' parse' = true → inCapacity node now minAge parse = true := by
  simp only [inCapacity_iff]
  have hready : ∀ t ∈ cordonConditions, t ≠ "Ready" := by decide
  cases h with
  | unschedulable => exact ⟨rfl, fun _ _ _ _ _ _ hin => absurd hin.2.1 (by simp [schedulable])⟩
  | notReady ht hs =>
    refine ⟨rfl, fun _ _ _ _ _ _ hin => absurd (active_iff.mp hin.1) ?_⟩
    rw [conditionIndex_setCondition node ht, if_pos (by decide)]
    rintro ⟨d, hd, hstatus⟩
    exact hs (Option.some.inj hd ▸ hstatus)
  | readyGone =>
    refine ⟨rfl, fun _ _ _ _ _ _ hin => absurd (active_iff.mp hin.1) ?_⟩
    rw [conditionIndex_filter, if_pos rfl]
    simp
  | @sick c ctype ht hne hs =>
    refine ⟨rfl, ?_⟩
    rintro _ _ _ _ _ _ ⟨hr, hsched, hnone⟩
    refine ⟨?_, hsched, ?_⟩
    · unfold Active at hr ⊢
      rwa [conditionIndex_setCondition node ht, if_neg (fun h => hne h.1.symm)] at hr
    · intro t hmem hact
      refine hnone t hmem ?_
      unfold Active at hact ⊢
      rw [conditionIndex_setCondition node ht]
      split_ifs
      · simp [isTrue, hs]
      · exact hact

/-! ### The fleet -/

/-- Neither the clock nor the minimum age enters the capacity. -/
theorem healthyCapacity_clock (nodes : List Node) (now now' : ℚ) (minAge minAge' : ℤ)
    (parse parse' : TimeParser) (exclude : List String) :
    healthyCapacity nodes now minAge parse exclude = healthyCapacity nodes now' minAge' parse' exclude := by
  refine List.countP_congr fun node _ => ?_
  simp only [Bool.and_eq_true, inCapacity_iff]

theorem FleetWorse.capacity_le {n : Node} (h : FleetWorse n nodes nodes') (minAge : ℤ) (exclude : List String) :
    healthyCapacity nodes' now minAge parseTime exclude ≤ healthyCapacity nodes now minAge parseTime exclude := by
  cases h with
  | removed before after =>
    simp only [healthyCapacity, List.countP_append, List.countP_cons]
    omega
  | degraded before after _ hw =>
    obtain ⟨hname, hin⟩ := hw.spec
    simp only [healthyCapacity, List.countP_append, List.countP_cons, hname]
    have hle : ∀ a b c : Bool, (c = true → b = true) →
        (if (a && c) = true then 1 else 0 : ℕ) ≤ if (a && b) = true then 1 else 0 := by decide
    refine Nat.add_le_add_left (Nat.add_le_add_left ?_ _) _
    exact hle _ _ _ (hin now now minAge minAge parseTime parseTime)

theorem FleetWorse.sublist_names {n : Node} (h : FleetWorse n nodes nodes') :
    (nodes'.map nodeName).Sublist (nodes.map nodeName) := by
  cases h with
  | removed before after => simp
  | degraded before after _ hw => simp [nodeName, hw.spec.1]

theorem FleetWorse.mem {n : Node} (h : FleetWorse n nodes nodes') (hn : n ∈ nodes) : n ∈ nodes' := by
  cases h with
  | removed before after hne =>
    rcases List.mem_append.mp hn with hn | hn
    · exact List.mem_append_left _ hn
    · rcases List.mem_cons.mp hn with rfl | hn
      · exact absurd rfl hne
      · exact List.mem_append_right _ hn
  | degraded before after hne =>
    rcases List.mem_append.mp hn with hn | hn
    · exact List.mem_append_left _ hn
    · rcases List.mem_cons.mp hn with rfl | hn
      · exact absurd rfl hne
      · exact List.mem_append_right _ (List.mem_cons_of_mem _ hn)

theorem Degraded.capacity_le {n : Node} (h : Degraded n nodes nodes') (minAge : ℤ) (exclude : List String) :
    healthyCapacity nodes' now minAge parseTime exclude ≤ healthyCapacity nodes now minAge parseTime exclude := by
  induction h with
  | refl => exact le_rfl
  | tail _ hstep ih => exact (hstep.capacity_le minAge exclude).trans ih

theorem Degraded.kept {n : Node} (h : Degraded n nodes nodes') (hd : DistinctNames nodes) (hn : n ∈ nodes) :
    DistinctNames nodes' ∧ n ∈ nodes' := by
  induction h with
  | refl => exact ⟨hd, hn⟩
  | tail _ hstep ih => exact ⟨ih.1.sublist hstep.sublist_names, hstep.mem ih.2⟩

/-! ### The refusal -/

/-- The capacity floor refuses a sick node of trusted data that is in service
and that the fleet cannot spare. -/
theorem outcome_capacityFloor_iff {budget : ℤ} {node : Node} :
    outcome nodes now cfg parseTime budget node = .capacityFloor ↔
      (∃ t, triggerLevel node now cfg.conditionMinAgeSeconds parseTime = some t ∧ t.tooYoung = false ∧
        t.level ∈ cordonLevels) ∧ ¬Active node gpuHealthDataStale ∧ schedulable node = true ∧
      healthyCapacity nodes now cfg.conditionMinAgeSeconds parseTime [nodeName node] < cfg.minHealthyNodes := by
  unfold outcome
  cases triggerLevel node now cfg.conditionMinAgeSeconds parseTime with
  | none => simp
  | some t =>
    simp only [Option.some.injEq, exists_eq_left', Active]
    split_ifs <;> simp_all

/-- Every decision about the node, made somewhere along a fleet of distinct
names, is a turn on it. -/
theorem decide_node {recentCordons : List ℚ} (hd : DistinctNames nodes) {node : Node} (hn : node ∈ nodes)
    {d : Decision} (h : d ∈ decide nodes now cfg parseTime recentCordons) (hname : d.node = nodeName node) :
    ∃ budget, d = (decideNode nodes now cfg parseTime budget node).1 := by
  obtain ⟨before, other, after, hnodes, rfl⟩ := mem_decideLoop h
  have hsame : other = node := hd.eq (by simp [hnodes]) hn ((decideNode_spec _ other).1.symm.trans hname)
  exact ⟨_, by rw [hsame]⟩

/-- Capacity does not come back by making other nodes worse, and neither does a
cordon that the floor refused; the clock has no part in the count. -/
theorem degraded_refusal (hd : DistinctNames nodes) {n : Node} (hn : n ∈ nodes) (h : Degraded n nodes nodes')
    (now : ℚ) (cfg : PolicyConfig) (parseTime : TimeParser) (recentCordons : List ℚ) :
    (∀ minAge exclude, healthyCapacity nodes' now minAge parseTime exclude ≤
      healthyCapacity nodes now minAge parseTime exclude) ∧
    (∀ d ∈ decide nodes now cfg parseTime recentCordons, d.node = nodeName n → d.reason = .capacityFloor →
      (∃ d' ∈ decide nodes' now cfg parseTime recentCordons, d'.node = nodeName n) ∧
      ∀ d' ∈ decide nodes' now cfg parseTime recentCordons, d'.node = nodeName n →
        d'.action = .noop ∧ d'.reason = .capacityFloor) ∧
    ∀ now' minAge minAge' exclude, healthyCapacity nodes now minAge parseTime exclude =
      healthyCapacity nodes now' minAge' parseTime exclude := by
  refine ⟨h.capacity_le, ?_, fun now' minAge minAge' exclude => healthyCapacity_clock nodes now now' minAge minAge'
    parseTime parseTime exclude⟩
  intro d hmem hname hreason
  obtain ⟨hd', hn'⟩ := h.kept hd hn
  obtain ⟨budget, rfl⟩ := decide_node hd hn hmem hname
  rw [(decideNode_spec budget n).2.1] at hreason
  obtain ⟨htrigger, hfresh, hsched, hfloor⟩ := outcome_capacityFloor_iff.mp hreason
  constructor
  · obtain ⟨before, after, hnodes⟩ := List.append_of_mem hn'
    have hat := @getElem?_decideLoop nodes' now cfg parseTime (cfg.maxCordonsPerWindow -
      inWindow recentCordons now cfg.rateLimitWindowSeconds) before after n
    rw [← hnodes] at hat
    exact ⟨_, List.mem_of_getElem? hat, (decideNode_spec _ n).1⟩
  · intro d' hmem' hname'
    obtain ⟨budget', rfl⟩ := decide_node hd' hn' hmem' hname'
    obtain ⟨-, hreason', haction, -⟩ := @decideNode_spec nodes' now cfg parseTime budget' n
    have hle := @Degraded.capacity_le nodes nodes' now parseTime n h cfg.conditionMinAgeSeconds [nodeName n]
    have hout : outcome nodes' now cfg parseTime budget' n = .capacityFloor :=
      outcome_capacityFloor_iff.mpr ⟨htrigger, hfresh, hsched, lt_of_le_of_lt (by exact_mod_cast hle) hfloor⟩
    rw [hout] at hreason' haction
    refine ⟨?_, hreason'⟩
    cases ha : (decideNode nodes' now cfg parseTime budget' n).1.action
    · exact absurd (haction.mp ha) (by decide)
    · rfl

/-- A floor that one node does not meet. -/
def floorTwo : PolicyConfig := { enforceOne with minHealthyNodes := 2 }

/-- The two nodes after somebody cordoned the healthy one. -/
def twoNodesCordoned : List Node := [twoNodes[0], { twoNodes[1] with unschedulable := some true }]

theorem degraded_refusal_twoNodes :
    healthyCapacity twoNodesCordoned 600 120 Cluster.parseTime [] ≤
        healthyCapacity twoNodes 600 120 Cluster.parseTime [] ∧
      (∃ d' ∈ decide twoNodesCordoned 600 floorTwo Cluster.parseTime [], d'.node = "gpu-0") ∧
      healthyCapacity twoNodes 600 120 Cluster.parseTime [] = healthyCapacity twoNodes 0 0 Cluster.parseTime [] :=
  have h := @degraded_refusal twoNodes twoNodesCordoned (by decide +kernel) twoNodes[0] (by decide)
    (.single (.degraded [twoNodes[0]] [] (by decide) (.unschedulable twoNodes[1]))) 600 floorTwo Cluster.parseTime []
  ⟨h.1 120 [], (h.2.1 (decide twoNodes 600 floorTwo Cluster.parseTime [])[0] (List.getElem_mem _)
    (by decide +kernel) (by decide +kernel)).1, h.2.2 0 120 0 []⟩

end GpuNodeHealth.Guard
