import GpuNodeHealth.Guard.Conditions

/-! What `decide` returns. One turn of the loop cordons exactly when the node
passes every guardrail, budget is left, and mode and scope allow it; the budget
drops by one for each cordon and for nothing else. The turns are then laid out
along the node list: one decision per node, in order, each made with the budget
the earlier ones left. -/

namespace GpuNodeHealth.Guard

open Cluster

variable (nodes : List Node) (now : ℚ) (cfg : PolicyConfig) (parseTime : TimeParser)

/-- The node passes every guardrail that looks at the fleet: an aged trigger at
a cordon level, trusted data, schedulable, and enough capacity without it. -/
structure Eligible (node : Node) : Prop where
  trigger : ∃ t, triggerLevel node now cfg.conditionMinAgeSeconds parseTime = some t ∧
    t.tooYoung = false ∧ t.level ∈ cordonLevels
  fresh : ¬Active node gpuHealthDataStale
  schedulable : schedulable node = true
  capacity : cfg.minHealthyNodes ≤
    healthyCapacity nodes now cfg.conditionMinAgeSeconds parseTime [nodeName node]

/-- Mode and scope let the guard act on the node. -/
def Enforced (node : Node) : Prop :=
  cfg.mode = "enforce" ∧ (cfg.enforceNodes = [] ∨ nodeName node ∈ cfg.enforceNodes)

variable {nodes now cfg parseTime}

/-- The reason a node gets, the checks in the order `decide` makes them. -/
def outcome (nodes : List Node) (now : ℚ) (cfg : PolicyConfig) (parseTime : TimeParser)
    (budget : ℤ) (node : Node) : Reason :=
  match triggerLevel node now cfg.conditionMinAgeSeconds parseTime with
  | none => .healthy
  | some trigger =>
    if trigger.tooYoung then .tooYoung
    else if trigger.level ∉ cordonLevels then .reportOnly
    else if isTrue (conditionIndex node gpuHealthDataStale) then .staleData
    else if !GpuNodeHealth.Guard.schedulable node then .alreadyCordoned
    else if healthyCapacity nodes now cfg.conditionMinAgeSeconds parseTime [nodeName node] <
      cfg.minHealthyNodes then .capacityFloor
    else if budget ≤ 0 then .rateLimit
    else if cfg.mode ≠ "enforce" then .observeMode
    else if cfg.enforceNodes ≠ [] ∧ nodeName node ∉ cfg.enforceNodes then .outOfScope
    else .cordon

/-- Action, budget and node name of a turn follow from its reason. -/
def TurnOf (name : String) (budget : ℤ) (turn : Decision × ℤ) (reason : Reason) : Prop :=
  turn.1.node = name ∧ turn.1.reason = reason ∧ (turn.1.action = .cordon ↔ reason = .cordon) ∧
    turn.2 = if reason = .cordon then budget - 1 else budget

theorem TurnOf.noop {name ctype message : String} {budget : ℤ} {reason : Reason} {level : Option Level}
    (h : reason ≠ .cordon) : TurnOf name budget (⟨name, .noop, reason, level, ctype, message⟩, budget) reason :=
  ⟨rfl, rfl, by simp [h], by simp [h]⟩

theorem TurnOf.ite {name : String} {budget : ℤ} {c : Prop} [Decidable c] {x y : Decision × ℤ} {r s : Reason}
    (hx : TurnOf name budget x r) (hy : TurnOf name budget y s) :
    TurnOf name budget (if c then x else y) (if c then r else s) := by
  split_ifs
  · exact hx
  · exact hy

theorem decideNode_spec (budget : ℤ) (node : Node) :
    TurnOf (nodeName node) budget (decideNode nodes now cfg parseTime budget node)
      (outcome nodes now cfg parseTime budget node) := by
  unfold decideNode outcome
  cases triggerLevel node now cfg.conditionMinAgeSeconds parseTime with
  | none => exact .noop (by decide)
  | some t =>
    -- one check of the cascade after the other
    refine .ite (.noop (by decide)) <| .ite (.noop (by decide)) <| .ite (.noop (by decide)) <|
      .ite (.noop (by decide)) <| .ite (.noop (by decide)) <| .ite (.noop (by decide)) <|
      .ite (.noop (by decide)) <| .ite (.noop (by decide)) ?_
    exact ⟨rfl, rfl, by simp, by simp⟩

/-- A check that refuses has to be passed. -/
theorem refuse_eq_cordon_iff {c : Prop} [Decidable c] {refusal rest : Reason} (h : refusal ≠ .cordon) :
    (if c then refusal else rest) = .cordon ↔ ¬c ∧ rest = .cordon := by
  split_ifs with hc
  · simp [h, hc]
  · simp [hc]

/-- The checks of `decide` that come before the budget. -/
theorem eligible_iff {node : Node} {t : Trigger}
    (ht : triggerLevel node now cfg.conditionMinAgeSeconds parseTime = some t) :
    Eligible nodes now cfg parseTime node ↔ t.tooYoung = false ∧ t.level ∈ cordonLevels ∧
      ¬Active node gpuHealthDataStale ∧ schedulable node = true ∧ cfg.minHealthyNodes ≤
        healthyCapacity nodes now cfg.conditionMinAgeSeconds parseTime [nodeName node] := by
  constructor
  · rintro ⟨⟨t', h, hy, hl⟩, hf, hs, hc⟩
    obtain rfl := Option.some.inj (ht.symm.trans h)
    exact ⟨hy, hl, hf, hs, hc⟩
  · rintro ⟨hy, hl, hf, hs, hc⟩
    exact ⟨⟨t, ht, hy, hl⟩, hf, hs, hc⟩

theorem outcome_cordon_iff {budget : ℤ} {node : Node} :
    outcome nodes now cfg parseTime budget node = .cordon ↔
      Eligible nodes now cfg parseTime node ∧ 0 < budget ∧ Enforced cfg node := by
  unfold outcome
  cases ht : triggerLevel node now cfg.conditionMinAgeSeconds parseTime with
  | none =>
    simp only [reduceCtorEq, false_iff]
    rintro ⟨⟨⟨t, h, -⟩, -⟩, -⟩
    rw [ht] at h
    cases h
  | some t =>
    have hscope : ¬(cfg.enforceNodes ≠ [] ∧ nodeName node ∉ cfg.enforceNodes) ↔
        cfg.enforceNodes = [] ∨ nodeName node ∈ cfg.enforceNodes := by
      rw [not_and_or, not_not, not_not]
    simp (disch := decide) only [eligible_iff ht, Enforced, Active, refuse_eq_cordon_iff, hscope, and_true, and_assoc,
      not_not, not_lt, not_le, Bool.not_eq_true, Bool.not_eq_true', Bool.not_eq_false, ne_eq]

/-- A node is refused as too young exactly when its trigger is marked so. -/
theorem outcome_tooYoung_iff {budget : ℤ} {node : Node} :
    outcome nodes now cfg parseTime budget node = .tooYoung ↔
      ∃ t, triggerLevel node now cfg.conditionMinAgeSeconds parseTime = some t ∧ t.tooYoung = true := by
  unfold outcome
  cases triggerLevel node now cfg.conditionMinAgeSeconds parseTime with
  | none => simp
  | some t =>
    simp only [Option.some.injEq, exists_eq_left']
    split_ifs <;> simp_all

theorem decideNode_cordon_iff {budget : ℤ} {node : Node} :
    (decideNode nodes now cfg parseTime budget node).1.action = .cordon ↔
      Eligible nodes now cfg parseTime node ∧ 0 < budget ∧ Enforced cfg node :=
  (decideNode_spec budget node).2.2.1.trans outcome_cordon_iff

theorem decideNode_budget (budget : ℤ) (node : Node) :
    (decideNode nodes now cfg parseTime budget node).2 =
      budget - if (decideNode nodes now cfg parseTime budget node).1.action = .cordon then 1 else 0 := by
  obtain ⟨-, -, ha, hb⟩ := @decideNode_spec nodes now cfg parseTime budget node
  rw [hb, if_congr ha rfl rfl]
  split_ifs <;> simp

/-! ### Along the node list -/

/-- The cordons among a list of decisions. -/
def cordons (decisions : List Decision) : ℕ := decisions.countP (·.action = .cordon)

theorem decideLoop_append (budget : ℤ) (before rest : List Node) :
    decideLoop nodes now cfg parseTime budget (before ++ rest) =
      decideLoop nodes now cfg parseTime budget before ++
        decideLoop nodes now cfg parseTime
          (budget - cordons (decideLoop nodes now cfg parseTime budget before)) rest := by
  induction before generalizing budget with
  | nil => simp [decideLoop, cordons]
  | cons node before ih =>
    simp only [List.cons_append, decideLoop, ih, decideNode_budget, cordons, List.countP_cons]
    congr 3
    split_ifs <;> simp_all
    omega

@[simp] theorem length_decideLoop (budget : ℤ) (rest : List Node) :
    (decideLoop nodes now cfg parseTime budget rest).length = rest.length := by
  induction rest generalizing budget with
  | nil => rfl
  | cons node rest ih => simp [decideLoop, ih]

/-- Every decision of the loop is a turn on some node, made with the budget that
the cordons before it left. -/
theorem mem_decideLoop {budget : ℤ} {rest : List Node} {d : Decision}
    (h : d ∈ decideLoop nodes now cfg parseTime budget rest) :
    ∃ before node after, rest = before ++ node :: after ∧
      d = (decideNode nodes now cfg parseTime
        (budget - cordons (decideLoop nodes now cfg parseTime budget before)) node).1 := by
  obtain ⟨i, hi, rfl⟩ := List.getElem_of_mem h
  rw [length_decideLoop] at hi
  refine ⟨rest.take i, rest[i], rest.drop (i + 1), by simp, ?_⟩
  have hsplit : rest = rest.take i ++ rest[i] :: rest.drop (i + 1) := by simp
  have hloop := @decideLoop_append nodes now cfg parseTime budget (rest.take i) (rest[i] :: rest.drop (i + 1))
  rw [← hsplit] at hloop
  rw [List.getElem_of_eq hloop, List.getElem_append_right (by simp)]
  simp [decideLoop, Nat.min_eq_left hi.le]

/-- The loop never spends more than the budget it starts with. -/
theorem cordons_decideLoop_le (budget : ℤ) (rest : List Node) :
    (cordons (decideLoop nodes now cfg parseTime budget rest) : ℤ) ≤ max 0 budget := by
  induction rest generalizing budget with
  | nil => simp [decideLoop, cordons]
  | cons node rest ih =>
    have hrest := ih (decideNode nodes now cfg parseTime budget node).2
    simp only [decideNode_budget] at hrest
    simp only [decideLoop, cordons, List.countP_cons, decideNode_budget] at hrest ⊢
    by_cases hc : (decideNode nodes now cfg parseTime budget node).1.action = .cordon
    · have hb := (decideNode_cordon_iff.mp hc).2.1
      simp only [hc, if_true, decide_true] at hrest ⊢
      push_cast
      omega
    · simp only [hc, if_false, decide_false, Bool.false_eq_true, sub_zero, add_zero] at hrest ⊢
      exact hrest

end GpuNodeHealth.Guard
