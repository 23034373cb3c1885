import GpuNodeHealth.Guard.Capacity

/-! What a pass does with its budget. Only eligible nodes reach the budget check,
and what happens to them there depends on the budget, the mode and the scope;
for every other node none of the three matters. The cordons of a loop are the
eligible nodes in scope, as far as the budget goes. -/

namespace GpuNodeHealth.Guard

open Cluster

variable {nodes : List Node} {now : ℚ} {cfg : PolicyConfig} {parseTime : TimeParser}

instance (node : Node) : Decidable (Eligible nodes now cfg parseTime node) :=
  decidable_of_iff
    ((∃ t ∈ triggerLevel node now cfg.conditionMinAgeSeconds parseTime,
        t.tooYoung = false ∧ t.level ∈ cordonLevels) ∧
      ¬Active node gpuHealthDataStale ∧ schedulable node = true ∧ cfg.minHealthyNodes ≤
        healthyCapacity nodes now cfg.conditionMinAgeSeconds parseTime [nodeName node])
    ⟨fun ⟨ht, hf, hs, hc⟩ => ⟨ht, hf, hs, hc⟩, fun h => ⟨h.trigger, h.fresh, h.schedulable, h.capacity⟩⟩

instance (node : Node) : Decidable (Enforced cfg node) := inferInstanceAs (Decidable (_ ∧ _))

theorem decideNode_reason (budget : ℤ) (node : Node) : (decideNode nodes now cfg parseTime budget node).1.reason =
    outcome nodes now cfg parseTime budget node := (decideNode_spec budget node).2.1

theorem decideNode_node (budget : ℤ) (node : Node) :
    (decideNode nodes now cfg parseTime budget node).1.node = nodeName node := (decideNode_spec budget node).1

/-- The part of the cascade that an eligible node reaches. -/
def settle (cfg : PolicyConfig) (budget : ℤ) (name : String) : Reason :=
  if budget ≤ 0 then .rateLimit
  else if cfg.mode ≠ "enforce" then .observeMode
  else if cfg.enforceNodes ≠ [] ∧ name ∉ cfg.enforceNodes then .outOfScope
  else .cordon

/-- The reasons of the checks that come before the budget. -/
def guardrailReasons : List Reason :=
  [.healthy, .tooYoung, .reportOnly, .staleData, .alreadyCordoned, .capacityFloor]

theorem outcome_eligible {budget : ℤ} {node : Node} (h : Eligible nodes now cfg parseTime node) :
    outcome nodes now cfg parseTime budget node = settle cfg budget (nodeName node) := by
  obtain ⟨t, ht, -⟩ := h.trigger
  obtain ⟨hy, hl, hf, hs, hc⟩ := (eligible_iff ht).mp h
  have hf' : isTrue (conditionIndex node gpuHealthDataStale) = false := Bool.eq_false_iff.mpr hf
  simp only [outcome, ht, hy, hl, hf', hs, not_lt.mpr hc, settle, not_true, if_false, Bool.false_eq_true,
    Bool.not_true]

/-- A check that refuses with a reason of the list leaves the rest to show. -/
theorem refuse_mem {c : Prop} [Decidable c] {refusal rest : Reason} {reasons : List Reason}
    (h : refusal ∈ reasons) (hrest : ¬c → rest ∈ reasons) : (if c then refusal else rest) ∈ reasons := by
  split_ifs with hc
  · exact h
  · exact hrest hc

theorem outcome_ineligible {budget : ℤ} {node : Node} (h : ¬Eligible nodes now cfg parseTime node) :
    outcome nodes now cfg parseTime budget node ∈ guardrailReasons := by
  unfold outcome
  cases ht : triggerLevel node now cfg.conditionMinAgeSeconds parseTime with
  | none => simp [guardrailReasons]
  | some t =>
    rw [eligible_iff ht] at h
    refine refuse_mem (by decide) fun hy => refuse_mem (by decide) fun hl => refuse_mem (by decide) fun hf =>
      refuse_mem (by decide) fun hs => refuse_mem (by decide) fun hc => absurd ?_ h
    exact ⟨by simpa using hy, not_not.mp hl, hf, by simpa using hs, not_lt.mp hc⟩

/-! ### Which of the reasons after the guardrails -/

theorem outcome_settle_iff {budget : ℤ} {node : Node} {reason : Reason} (hr : reason ∉ guardrailReasons) :
    outcome nodes now cfg parseTime budget node = reason ↔
      Eligible nodes now cfg parseTime node ∧ settle cfg budget (nodeName node) = reason := by
  by_cases h : Eligible nodes now cfg parseTime node
  · simp [outcome_eligible h, h]
  · have hout := @outcome_ineligible nodes now cfg parseTime budget node h
    simp only [h, false_and, iff_false]
    rintro rfl
    exact hr hout

theorem settle_rateLimit_iff {budget : ℤ} {name : String} :
    settle cfg budget name = .rateLimit ↔ budget ≤ 0 := by
  unfold settle
  split_ifs <;> simp_all

theorem settle_outOfScope_iff {budget : ℤ} {name : String} : settle cfg budget name = .outOfScope ↔
    0 < budget ∧ cfg.mode = "enforce" ∧ cfg.enforceNodes ≠ [] ∧ name ∉ cfg.enforceNodes := by
  unfold settle
  split_ifs <;> simp_all

/-! ### What does not depend on budget, mode and scope -/

/-- The configuration in another mode and with another scope. -/
def PolicyConfig.rescoped (cfg : PolicyConfig) (mode : String) (scope : List String) : PolicyConfig :=
  { cfg with mode := mode, enforceNodes := scope }

theorem eligible_rescoped {mode : String} {scope : List String} {node : Node} :
    Eligible nodes now (cfg.rescoped mode scope) parseTime node ↔ Eligible nodes now cfg parseTime node :=
  ⟨fun h => ⟨h.trigger, h.fresh, h.schedulable, h.capacity⟩,
    fun h => ⟨h.trigger, h.fresh, h.schedulable, h.capacity⟩⟩

/-- What a decision says about the node, whatever was done about it. -/
def Decision.finding (d : Decision) : String × Option Level × String := (d.node, d.level, d.condition)

theorem finding_decideNode (budget : ℤ) (node : Node) :
    (decideNode nodes now cfg parseTime budget node).1.finding =
      (nodeName node, (triggerLevel node now cfg.conditionMinAgeSeconds parseTime).map (·.level),
        (triggerLevel node now cfg.conditionMinAgeSeconds parseTime).elim "" fun t => t.cond.type.getD "") := by
  unfold decideNode
  cases triggerLevel node now cfg.conditionMinAgeSeconds parseTime with
  | none => rfl
  | some t =>
    simp only
    split_ifs <;> rfl

/-- An ineligible node gets the same decision under every budget, mode and scope. -/
theorem decideNode_ineligible {node : Node} (h : ¬Eligible nodes now cfg parseTime node) (mode : String)
    (scope : List String) (budget budget' : ℤ) :
    (decideNode nodes now (cfg.rescoped mode scope) parseTime budget node).1 =
      (decideNode nodes now cfg parseTime budget' node).1 := by
  unfold decideNode PolicyConfig.rescoped
  cases ht : triggerLevel node now cfg.conditionMinAgeSeconds parseTime with
  | none => rfl
  | some t =>
    rw [eligible_iff ht] at h
    simp only
    by_cases hy : t.tooYoung = true
    · simp only [hy, if_true]
    by_cases hl : t.level ∈ cordonLevels
    swap
    · simp only [hy, hl, if_true, if_false, not_false_eq_true, Bool.false_eq_true]
    by_cases hf : isTrue (conditionIndex node gpuHealthDataStale) = true
    · simp only [hy, hl, hf, if_true, if_false, not_true, Bool.false_eq_true]
    by_cases hs : schedulable node = true
    swap
    · simp only [hy, hl, hf, hs, if_true, if_false, not_true, Bool.false_eq_true, Bool.not_false]
    by_cases hc : cfg.minHealthyNodes ≤
        healthyCapacity nodes now cfg.conditionMinAgeSeconds parseTime [nodeName node]
    · exact absurd ⟨Bool.eq_false_iff.mpr hy, hl, hf, hs, hc⟩ h
    · simp only [hy, hl, hf, hs, not_le.mp hc, if_true, if_false, not_true, Bool.false_eq_true, Bool.not_true]

/-- Without budget every node gets the same decision in every mode and scope. -/
theorem decideNode_spent {node : Node} (mode : String) (scope : List String) {budget budget' : ℤ}
    (hb : budget ≤ 0) (hb' : budget' ≤ 0) :
    (decideNode nodes now (cfg.rescoped mode scope) parseTime budget node).1 =
      (decideNode nodes now cfg parseTime budget' node).1 := by
  unfold decideNode PolicyConfig.rescoped
  cases triggerLevel node now cfg.conditionMinAgeSeconds parseTime with
  | none => rfl
  | some t =>
    simp only [hb, hb', if_true, apply_ite Prod.fst]

/-! ### Along the list -/

/-- The budget a pass starts with. -/
def openingBudget (now : ℚ) (cfg : PolicyConfig) (recentCordons : List ℚ) : ℤ :=
  cfg.maxCordonsPerWindow - inWindow recentCordons now cfg.rateLimitWindowSeconds

/-- The nodes of a list that can be cordoned: eligible, and in scope. -/
def candidates (nodes : List Node) (now : ℚ) (cfg : PolicyConfig) (parseTime : TimeParser)
    (rest : List Node) : ℕ :=
  rest.countP fun node => Eligible nodes now cfg parseTime node ∧ Enforced cfg node

/-- The loop cordons candidates until they or the budget run out. -/
theorem cordons_decideLoop (budget : ℤ) (rest : List Node) :
    (cordons (decideLoop nodes now cfg parseTime budget rest) : ℤ) =
      min (max 0 budget) (candidates nodes now cfg parseTime rest) := by
  induction rest generalizing budget with
  | nil => simp [decideLoop, cordons, candidates]
  | cons node rest ih =>
    have hrest := ih (decideNode nodes now cfg parseTime budget node).2
    have hnode := @decideNode_cordon_iff nodes now cfg parseTime budget node
    simp only [decideNode_budget, cordons, candidates] at hrest
    simp only [decideLoop, cordons, candidates, List.countP_cons, decideNode_budget]
    by_cases hb : 0 < budget
    · have hiff : (decideNode nodes now cfg parseTime budget node).1.action = .cordon ↔
          Eligible nodes now cfg parseTime node ∧ Enforced cfg node := by
        rw [hnode]
        tauto
      by_cases hc : Eligible nodes now cfg parseTime node ∧ Enforced cfg node
      · simp only [hiff.mpr hc, hc, if_true, decide_true, and_self] at hrest ⊢
        push_cast
        omega
      · have hn := mt hiff.mp hc
        simp only [hn, hc, if_false, decide_false, Bool.false_eq_true, sub_zero, add_zero] at hrest ⊢
        exact hrest
    · have hn : (decideNode nodes now cfg parseTime budget node).1.action ≠ .cordon :=
        fun h => hb (hnode.mp h).2.1
      simp only [hn, if_false, decide_false, Bool.false_eq_true, sub_zero, add_zero] at hrest ⊢
      rw [hrest]
      omega

theorem map_node_decideLoop (budget : ℤ) (rest : List Node) :
    (decideLoop nodes now cfg parseTime budget rest).map (·.node) = rest.map nodeName := by
  induction rest generalizing budget with
  | nil => rfl
  | cons node rest ih => simp only [decideLoop, List.map_cons, decideNode_node, ih]

/-- The decision at a position, with the budget the nodes before it left. -/
theorem getElem?_decideLoop (budget : ℤ) (before after : List Node) (node : Node) :
    (decideLoop nodes now cfg parseTime budget (before ++ node :: after))[before.length]? =
      some (decideNode nodes now cfg parseTime
        (budget - cordons (decideLoop nodes now cfg parseTime budget before)) node).1 := by
  rw [decideLoop_append, List.getElem?_append_right (by simp)]
  simp [decideLoop]

/-- Two nodes unrecoverable since the epoch, and a healthy one. -/
def sickPair : List Node :=
  [readyNode "gpu-0" [(gpuUnrecoverable, "1970-01-01T00:00:00Z")],
    readyNode "gpu-1" [(gpuUnrecoverable, "1970-01-01T00:00:00Z")], readyNode "gpu-2" []]

example : (decide sickPair 600 enforceOne Cluster.parseTime []).map (·.reason) = [.cordon, .rateLimit, .healthy] := by
  decide +kernel

end GpuNodeHealth.Guard
