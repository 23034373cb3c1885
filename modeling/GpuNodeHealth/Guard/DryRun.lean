import GpuNodeHealth.Guard.Budget

/-! What a dry run predicts. Observe mode never spends its budget, so every
would-have-cordoned is judged against the same history; enforce mode replays the
same list with a budget that each cordon lowers. The two runs agree on all
decisions that observe mode did not withhold. -/

namespace GpuNodeHealth.Guard

open Cluster

/-- The pass in observe mode. -/
def dryRun (nodes : List Node) (now : ℚ) (cfg : PolicyConfig) (parseTime : TimeParser)
    (recentCordons : List ℚ) : List Decision :=
  decide nodes now (cfg.rescoped "observe" cfg.enforceNodes) parseTime recentCordons

/-- The pass in enforce mode with the given scope. -/
def liveRun (nodes : List Node) (now : ℚ) (cfg : PolicyConfig) (scope : List String) (parseTime : TimeParser)
    (recentCordons : List ℚ) : List Decision :=
  decide nodes now (cfg.rescoped "enforce" scope) parseTime recentCordons

/-- What enforcing makes of a withheld cordon when `b` cordons are left. -/
def verdict (scope : List String) (b : ℤ) (name : String) : Action × Reason :=
  if b ≤ 0 then (.noop, .rateLimit)
  else if scope = [] ∨ name ∈ scope then (.cordon, .cordon)
  else (.noop, .outOfScope)

/-- The live decisions are the dry-run ones, except that each withheld cordon is
settled with the budget the ones before it left. -/
def Replays (scope : List String) : ℤ → List Decision → List Decision → Prop
  | _, [], [] => True
  | b, o :: os, e :: es =>
    if o.reason = .observeMode then
      (e.action, e.reason) = verdict scope b o.node ∧ e.finding = o.finding ∧
        Replays scope (if e.action = .cordon then b - 1 else b) os es
    else e = o ∧ Replays scope b os es
  | _, _, _ => False

variable {nodes : List Node} {now : ℚ} {cfg : PolicyConfig} {parseTime : TimeParser} {scope : List String}

/-! ### One node -/

theorem settle_observe {budget : ℤ} {name : String} :
    settle (cfg.rescoped "observe" scope) budget name = if budget ≤ 0 then .rateLimit else .observeMode := rfl

theorem settle_enforce {budget : ℤ} {name : String} :
    settle (cfg.rescoped "enforce" scope) budget name = (verdict scope budget name).2 := by
  have hscope : (scope ≠ [] ∧ name ∉ scope) ↔ ¬(scope = [] ∨ name ∈ scope) := not_or.symm
  simp only [settle, verdict, PolicyConfig.rescoped, ne_eq, not_true, if_false, apply_ite Prod.snd]
  simp only [← ne_eq, hscope, ite_not]

theorem verdict_cordon_iff {budget : ℤ} {name : String} :
    (verdict scope budget name).1 = .cordon ↔ (verdict scope budget name).2 = .cordon := by
  unfold verdict
  split_ifs <;> simp

/-- Observe mode withholds the cordon of a node exactly when it is eligible and
there is budget. -/
theorem outcome_observe_iff {budget : ℤ} {node : Node} :
    outcome nodes now (cfg.rescoped "observe" scope) parseTime budget node = .observeMode ↔
      Eligible nodes now cfg parseTime node ∧ 0 < budget := by
  rw [outcome_settle_iff (by decide), eligible_rescoped, settle_observe]
  refine and_congr_right fun _ => ?_
  split_ifs with hb
  · simp [hb]
  · simpa using hb

/-- A turn of the live run beside the turn of the dry run on the same node. -/
theorem decideNode_replay {budget b : ℤ} (hle : b ≤ budget) (node : Node) :
    let o := (decideNode nodes now (cfg.rescoped "observe" cfg.enforceNodes) parseTime budget node).1
    let e := (decideNode nodes now (cfg.rescoped "enforce" scope) parseTime b node).1
    if o.reason = .observeMode then (e.action, e.reason) = verdict scope b o.node ∧ e.finding = o.finding
    else e = o := by
  intro o e
  have hreason : o.reason = .observeMode ↔ Eligible nodes now cfg parseTime node ∧ 0 < budget := by
    rw [← @outcome_observe_iff nodes now cfg parseTime cfg.enforceNodes]
    exact (decideNode_reason _ _).symm ▸ Iff.rfl
  by_cases helig : Eligible nodes now cfg parseTime node
  · by_cases hb : 0 < budget
    · rw [if_pos (hreason.mpr ⟨helig, hb⟩)]
      obtain ⟨-, hr, ha, -⟩ := @decideNode_spec nodes now (cfg.rescoped "enforce" scope) parseTime b node
      rw [outcome_eligible (eligible_rescoped.mpr helig), settle_enforce] at hr ha
      refine ⟨Prod.ext ?_ ?_, ?_⟩
      · show e.action = _
        have hname : o.node = nodeName node := decideNode_node _ _
        rw [hname]
        have hiff : e.action = .cordon ↔ (verdict scope b (nodeName node)).1 = .cordon :=
          ha.trans verdict_cordon_iff.symm
        cases hea : e.action <;> cases hv : (verdict scope b (nodeName node)).1 <;> simp_all
      · have hname : o.node = nodeName node := decideNode_node _ _
        rw [hname]
        exact hr
      · show Decision.finding _ = Decision.finding _
        rw [finding_decideNode, finding_decideNode]
        rfl
    · rw [if_neg (by simp [hreason, hb])]
      exact (decideNode_spent "enforce" scope (by omega) (not_lt.mp hb)).trans
        (decideNode_spent "observe" cfg.enforceNodes (not_lt.mp hb) (not_lt.mp hb)).symm
  · rw [if_neg (by simp [hreason, helig])]
    exact (decideNode_ineligible helig "enforce" scope b budget).trans
      (decideNode_ineligible helig "observe" cfg.enforceNodes budget budget).symm

/-! ### Along the list -/

theorem observe_not_cordon (budget : ℤ) (node : Node) :
    (decideNode nodes now (cfg.rescoped "observe" scope) parseTime budget node).1.action ≠ .cordon := by
  intro h
  have hmode := (decideNode_cordon_iff.mp h).2.2.1
  simp [PolicyConfig.rescoped] at hmode

/-- Observe mode judges every node with the budget the pass started with. -/
theorem decideLoop_observe (budget : ℤ) (rest : List Node) :
    decideLoop nodes now (cfg.rescoped "observe" scope) parseTime budget rest =
      rest.map fun node => (decideNode nodes now (cfg.rescoped "observe" scope) parseTime budget node).1 := by
  induction rest with
  | nil => rfl
  | cons node rest ih =>
    simp only [decideLoop, List.map_cons, decideNode_budget, observe_not_cordon, if_false, sub_zero, ih]

/-- The live loop, with no more budget than the dry run had, replays it. -/
theorem replays_decideLoop {budget b : ℤ} (hle : b ≤ budget) (rest : List Node) :
    Replays scope b (decideLoop nodes now (cfg.rescoped "observe" cfg.enforceNodes) parseTime budget rest)
      (decideLoop nodes now (cfg.rescoped "enforce" scope) parseTime b rest) := by
  induction rest generalizing b with
  | nil => trivial
  | cons node rest ih =>
    have hturn := @decideNode_replay nodes now cfg parseTime scope budget b hle node
    simp only at hturn
    simp only [decideLoop, Replays, decideNode_budget, observe_not_cordon, if_false, sub_zero]
    by_cases ho : (decideNode nodes now (cfg.rescoped "observe" cfg.enforceNodes) parseTime budget
        node).1.reason = .observeMode
    · rw [if_pos ho] at hturn ⊢
      refine ⟨hturn.1, hturn.2, ?_⟩
      split_ifs
      · exact ih (by omega)
      · rw [sub_zero]
        exact ih hle
    · rw [if_neg ho] at hturn ⊢
      rw [hturn, if_neg (observe_not_cordon budget node), sub_zero]
      exact ⟨rfl, ih hle⟩

/-- The order of the fleet does not enter the decision for a node. -/
theorem decideNode_perm {nodes' : List Node} (hp : nodes'.Perm nodes) :
    decideNode nodes' now cfg parseTime = decideNode nodes now cfg parseTime := by
  have hcap : ∀ exclude, healthyCapacity nodes' now cfg.conditionMinAgeSeconds parseTime exclude =
      healthyCapacity nodes now cfg.conditionMinAgeSeconds parseTime exclude := fun _ => hp.countP_eq _
  funext budget node
  unfold decideNode
  simp only [hcap]

theorem decideLoop_perm {nodes' : List Node} (hp : nodes'.Perm nodes) (budget : ℤ) (rest : List Node) :
    decideLoop nodes' now cfg parseTime budget rest = decideLoop nodes now cfg parseTime budget rest := by
  induction rest generalizing budget with
  | nil => rfl
  | cons node rest ih => simp only [decideLoop, decideNode_perm hp, ih]

/-- The withheld cordons of a dry run that are in scope. -/
def withheldInScope (scope : List String) (decisions : List Decision) : ℕ :=
  decisions.countP fun o => o.reason = .observeMode ∧ (scope = [] ∨ o.node ∈ scope)

/-- The live candidates are the withheld cordons in scope, when there is budget
to withhold anything. -/
theorem withheldInScope_dryRun {budget : ℤ} (hb : 0 < budget) (rest : List Node) :
    withheldInScope scope
        (decideLoop nodes now (cfg.rescoped "observe" cfg.enforceNodes) parseTime budget rest) =
      candidates nodes now (cfg.rescoped "enforce" scope) parseTime rest := by
  rw [decideLoop_observe, withheldInScope, List.countP_map]
  refine List.countP_congr fun node _ => ?_
  simp only [Function.comp_apply, decideNode_reason, decideNode_node, outcome_observe_iff, eligible_rescoped,
    decide_eq_true_eq, Enforced, hb, and_true]
  simp [PolicyConfig.rescoped]

theorem cordons_liveRun {recentCordons : List ℚ} {nodes' : List Node} (hp : nodes'.Perm nodes) :
    (cordons (liveRun nodes' now cfg scope parseTime recentCordons) : ℤ) =
      min (max 0 (openingBudget now cfg recentCordons))
        (withheldInScope scope (dryRun nodes now cfg parseTime recentCordons)) := by
  have hloop : liveRun nodes' now cfg scope parseTime recentCordons =
      decideLoop nodes now (cfg.rescoped "enforce" scope) parseTime (openingBudget now cfg recentCordons) nodes' :=
    decideLoop_perm hp _ _
  have hcand : candidates nodes now (cfg.rescoped "enforce" scope) parseTime nodes' =
      candidates nodes now (cfg.rescoped "enforce" scope) parseTime nodes := hp.countP_eq _
  rw [hloop, cordons_decideLoop, hcand]
  by_cases hb : 0 < openingBudget now cfg recentCordons
  · have hcount := @withheldInScope_dryRun nodes now cfg parseTime scope _ hb nodes
    rw [← hcount]
    rfl
  · omega

theorem mem_dryRun {recentCordons : List ℚ} {o : Decision} :
    o ∈ dryRun nodes now cfg parseTime recentCordons ↔ ∃ node ∈ nodes,
      (decideNode nodes now (cfg.rescoped "observe" cfg.enforceNodes) parseTime
        (openingBudget now cfg recentCordons) node).1 = o := by
  have hmap : dryRun nodes now cfg parseTime recentCordons = nodes.map fun node =>
      (decideNode nodes now (cfg.rescoped "observe" cfg.enforceNodes) parseTime
        (openingBudget now cfg recentCordons) node).1 := decideLoop_observe _ _
  rw [hmap, List.mem_map]

/-- Each live decision that observe mode did not withhold is the dry-run one,
wherever the node stands in the list. -/
theorem liveRun_same {recentCordons : List ℚ} {nodes' : List Node} (hp : nodes'.Perm nodes)
    {e : Decision} (he : e ∈ liveRun nodes' now cfg scope parseTime recentCordons) :
    ∃ node ∈ nodes, e.node = nodeName node ∧ ∀ o,
      (decideNode nodes now (cfg.rescoped "observe" cfg.enforceNodes) parseTime
        (openingBudget now cfg recentCordons) node).1 = o → o.reason ≠ .observeMode → e = o := by
  have hloop : liveRun nodes' now cfg scope parseTime recentCordons =
      decideLoop nodes now (cfg.rescoped "enforce" scope) parseTime (openingBudget now cfg recentCordons) nodes' :=
    decideLoop_perm hp _ _
  rw [hloop] at he
  obtain ⟨before, node, after, hnodes, rfl⟩ := mem_decideLoop he
  refine ⟨node, hp.subset (by simp [hnodes]), decideNode_node _ _, ?_⟩
  rintro o rfl ho
  have hturn := @decideNode_replay nodes now cfg parseTime scope (openingBudget now cfg recentCordons)
    (openingBudget now cfg recentCordons - cordons (decideLoop nodes now (cfg.rescoped "enforce" scope) parseTime
      (openingBudget now cfg recentCordons) before)) (by omega) node
  simp only [if_neg ho] at hturn
  exact hturn

/-- Enforce mode replays the dry run decision by decision; over every order of
the fleet it makes the same number of cordons, and leaves the decisions alone
that observe mode did not withhold. -/
theorem liveRun_replays (hd : DistinctNames nodes) (now : ℚ) (cfg : PolicyConfig) (scope : List String)
    (parseTime : TimeParser) (recentCordons : List ℚ) :
    (dryRun nodes now cfg parseTime recentCordons).map (·.node) = nodes.map nodeName ∧
    (liveRun nodes now cfg scope parseTime recentCordons).map (·.node) = nodes.map nodeName ∧
    Replays scope (openingBudget now cfg recentCordons) (dryRun nodes now cfg parseTime recentCordons)
      (liveRun nodes now cfg scope parseTime recentCordons) ∧
    ∀ nodes', nodes'.Perm nodes →
      (cordons (liveRun nodes' now cfg scope parseTime recentCordons) : ℤ) =
        min (max 0 (openingBudget now cfg recentCordons))
          (withheldInScope scope (dryRun nodes now cfg parseTime recentCordons)) ∧
      ∀ o ∈ dryRun nodes now cfg parseTime recentCordons, o.reason ≠ .observeMode →
        o ∈ liveRun nodes' now cfg scope parseTime recentCordons ∧
          ∀ e ∈ liveRun nodes' now cfg scope parseTime recentCordons, e.node = o.node → e = o := by
  refine ⟨map_node_decideLoop _ _, map_node_decideLoop _ _, replays_decideLoop le_rfl nodes, ?_⟩
  intro nodes' hp
  refine ⟨cordons_liveRun hp, fun o hmem ho => ?_⟩
  obtain ⟨node, hnode, rfl⟩ := mem_dryRun.mp hmem
  have hunique : ∀ e ∈ liveRun nodes' now cfg scope parseTime recentCordons, e.node = nodeName node →
      e = (decideNode nodes now (cfg.rescoped "observe" cfg.enforceNodes) parseTime
        (openingBudget now cfg recentCordons) node).1 := by
    intro e he hname
    obtain ⟨other, hother, hothername, hsame⟩ := liveRun_same hp he
    obtain rfl : other = node := hd.eq hother hnode (hothername.symm.trans hname)
    exact hsame _ rfl ho
  have hnames : (liveRun nodes' now cfg scope parseTime recentCordons).map (·.node) = nodes'.map nodeName :=
    map_node_decideLoop _ _
  have hlisted : nodeName node ∈ (liveRun nodes' now cfg scope parseTime recentCordons).map (·.node) := by
    rw [hnames]
    exact List.mem_map_of_mem (hp.symm.subset hnode)
  obtain ⟨e, he, hname⟩ := List.mem_map.mp hlisted
  exact ⟨hunique e he hname ▸ he, fun e' he' hname' => hunique e' he' (hname'.trans (decideNode_node _ _))⟩

theorem liveRun_replays_sickPair :
    Replays ["gpu-0"] 1 (dryRun sickPair 600 enforceOne Cluster.parseTime [])
        (liveRun sickPair 600 enforceOne ["gpu-0"] Cluster.parseTime []) ∧
      (cordons (liveRun sickPair.reverse 600 enforceOne ["gpu-0"] Cluster.parseTime []) : ℤ) =
        min (max 0 (openingBudget 600 enforceOne []))
          (withheldInScope ["gpu-0"] (dryRun sickPair 600 enforceOne Cluster.parseTime [])) :=
  have h := liveRun_replays (by decide +kernel : DistinctNames sickPair) 600 enforceOne ["gpu-0"]
    Cluster.parseTime []
  ⟨h.2.2.1, (h.2.2.2 _ (List.reverse_perm _)).1⟩

/-! ### Out of scope -/

/-- The dry-run record of a node, under the reason of a node out of scope. -/
def Rescoped (o e : Decision) : Prop :=
  if o.reason = .observeMode then e.reason = .outOfScope ∧ e.action = o.action ∧ e.finding = o.finding
  else e = o

instance (o e : Decision) : Decidable (Rescoped o e) := by unfold Rescoped; infer_instance

theorem verdict_out {b : ℤ} {name : String} (hscope : scope ≠ []) (hout : name ∉ scope) :
    verdict scope b name = (.noop, if b ≤ 0 then .rateLimit else .outOfScope) := by
  simp only [verdict, hscope, hout, or_self, if_false]
  split_ifs <;> rfl

/-- One turn on a node out of scope, when the dry run had `budget` and the live
run has `b` left. -/
theorem rescoped_decideNode_iff (hscope : scope ≠ []) {node : Node} (hout : nodeName node ∉ scope)
    {budget b : ℤ} (hle : b ≤ budget) :
    Rescoped (decideNode nodes now (cfg.rescoped "observe" cfg.enforceNodes) parseTime budget node).1
        (decideNode nodes now (cfg.rescoped "enforce" scope) parseTime b node).1 ↔
      budget ≤ 0 ∨ ¬Eligible nodes now cfg parseTime node ∨ 0 < b := by
  have hturn := @decideNode_replay nodes now cfg parseTime scope budget b hle node
  simp only at hturn
  have hreason : (decideNode nodes now (cfg.rescoped "observe" cfg.enforceNodes) parseTime budget node).1.reason =
      .observeMode ↔ Eligible nodes now cfg parseTime node ∧ 0 < budget := by
    rw [decideNode_reason, outcome_observe_iff]
  unfold Rescoped
  by_cases hwithheld : Eligible nodes now cfg parseTime node ∧ 0 < budget
  · rw [if_pos (hreason.mpr hwithheld)] at hturn ⊢
    obtain ⟨hverdict, hfinding⟩ := hturn
    have hnoop : (decideNode nodes now (cfg.rescoped "observe" cfg.enforceNodes) parseTime budget node).1.action =
        .noop := by
      cases h : (decideNode nodes now (cfg.rescoped "observe" cfg.enforceNodes) parseTime budget node).1.action
      · exact absurd h (observe_not_cordon budget node)
      · rfl
    rw [decideNode_node, verdict_out hscope hout, Prod.mk.injEq] at hverdict
    rw [hverdict.1, hverdict.2, hnoop, hfinding]
    simp only [and_self, and_true, hwithheld.1, not_true, false_or, not_le.mpr hwithheld.2]
    split_ifs with hb
    · simpa using hb
    · simpa using hb
  · rw [if_neg (mt hreason.mp hwithheld)] at hturn ⊢
    simp only [hturn, true_iff]
    rcases not_and_or.mp hwithheld with h | h
    · exact .inr (.inl h)
    · exact .inl (not_lt.mp h)

/-- A node out of scope is reported as observe mode would report it, unless
eligible nodes in scope before it have used up a budget that it was there for. -/
theorem rescoped_iff (hscope : scope ≠ []) {node : Node} (hout : nodeName node ∉ scope)
    (before after : List Node) (recentCordons : List ℚ) :
    ∃ o e, (dryRun (before ++ node :: after) now cfg parseTime recentCordons)[before.length]? = some o ∧
      (liveRun (before ++ node :: after) now cfg scope parseTime recentCordons)[before.length]? = some e ∧
      (Rescoped o e ↔ (openingBudget now cfg recentCordons ≤ 0 ∨
        ¬Eligible (before ++ node :: after) now cfg parseTime node ∨
        (before.countP fun other =>
          Eligible (before ++ node :: after) now cfg parseTime other ∧ nodeName other ∈ scope) <
          openingBudget now cfg recentCordons)) := by
  set nodes := before ++ node :: after with hnodes
  set budget := openingBudget now cfg recentCordons
  have hdry : (dryRun nodes now cfg parseTime recentCordons)[before.length]? = some
      (decideNode nodes now (cfg.rescoped "observe" cfg.enforceNodes) parseTime budget node).1 := by
    have hmap : dryRun nodes now cfg parseTime recentCordons = nodes.map fun node =>
        (decideNode nodes now (cfg.rescoped "observe" cfg.enforceNodes) parseTime budget node).1 :=
      decideLoop_observe _ _
    rw [hmap, hnodes]
    simp
  have hlive := @getElem?_decideLoop nodes now (cfg.rescoped "enforce" scope) parseTime budget before after node
  rw [← hnodes] at hlive
  -- what the nodes before it have spent
  have hspent := @cordons_decideLoop nodes now (cfg.rescoped "enforce" scope) parseTime budget before
  have hcand : candidates nodes now (cfg.rescoped "enforce" scope) parseTime before =
      before.countP fun other => Eligible nodes now cfg parseTime other ∧ nodeName other ∈ scope := by
    refine List.countP_congr fun other _ => ?_
    rw [decide_eq_true_eq, decide_eq_true_eq, eligible_rescoped]
    simp [Enforced, PolicyConfig.rescoped, hscope]
  rw [hcand] at hspent
  refine ⟨_, _, hdry, hlive, ?_⟩
  rw [rescoped_decideNode_iff hscope hout (by omega)]
  refine or_congr_right' fun hbudget => or_congr_right ?_
  omega

theorem rescoped_iff_sickPair :
    ∃ o e, (dryRun sickPair 600 enforceOne Cluster.parseTime [])[1]? = some o ∧
      (liveRun sickPair 600 enforceOne ["gpu-0"] Cluster.parseTime [])[1]? = some e ∧
      (Rescoped o e ↔ (openingBudget 600 enforceOne [] ≤ 0 ∨
        ¬Eligible sickPair 600 enforceOne Cluster.parseTime sickPair[1] ∨
        ([sickPair[0]].countP fun other =>
          Eligible sickPair 600 enforceOne Cluster.parseTime other ∧ nodeName other ∈ ["gpu-0"]) <
          openingBudget 600 enforceOne [])) :=
  rescoped_iff (by decide) (by decide) [sickPair[0]] [sickPair[2]] []

/-- The one cordon of the hour goes to gpu-0, and gpu-1 is reported rate limited
where observe mode reports that it would have been cordoned. -/
theorem sickPair_not_rescoped :
    ∃ o e, (dryRun sickPair 600 enforceOne Cluster.parseTime [])[1]? = some o ∧
      (liveRun sickPair 600 enforceOne ["gpu-0"] Cluster.parseTime [])[1]? = some e ∧
      nodeName sickPair[1] ∉ ["gpu-0"] ∧ o.reason = .observeMode ∧ e.reason = .rateLimit ∧ ¬Rescoped o e := by
  have hdry : ((dryRun sickPair 600 enforceOne Cluster.parseTime [])[1]?.map (·.reason)) =
      some .observeMode := by decide +kernel
  have hlive : ((liveRun sickPair 600 enforceOne ["gpu-0"] Cluster.parseTime [])[1]?.map (·.reason)) =
      some .rateLimit := by decide +kernel
  obtain ⟨o, ho, hor⟩ := Option.map_eq_some_iff.mp hdry
  obtain ⟨e, he, her⟩ := Option.map_eq_some_iff.mp hlive
  exact ⟨o, e, ho, he, by decide +kernel, hor, her, by simp [Rescoped, hor, her]⟩

end GpuNodeHealth.Guard
