import GpuNodeHealth.Alerts.GuardPages
import GpuNodeHealth.Guard.Budget

/-! What the rules find of the decisions on a page of the guard. A node whose highest
active condition has called for a cordon for long enough and that could take work is
decided to be cordoned, or one of the rules about refusals names it; what the server made
of the cordon no rule says. A node out of service is named by the rule about what lasts,
whatever was decided. -/

namespace GpuNodeHealth.Alerts

open Agent (Double)
open Cluster (Node)
open Guard (Active Decision DistinctNames PolicyConfig Reason State TimeParser conditionIndex cordonLevels decideNode
  decisionMetric exporterNames fullName metrics nodeName nodeStateMetrics nodeStateNames outcome readyNode schedulable
  sickPair stateNames triggerLevel)
open Metrics (Label Metric Number Sample)

/-- Some rule finds an element of the node. -/
def Names (rules : List (AlertRule Double)) (now : ℚ) (store : List (Sample Double)) (name : String) : Prop :=
  ∃ r ∈ rules, ∃ g ∈ (r.expr now).found store, valueOf g "node".toList = name.toList

/-- The rules about what the guard would do and does not. -/
def refusals : List (AlertRule Double) := [refusedCapacityFloor, refusedRateLimit, refusedStaleData, wouldHaveCordoned]

/-- The reasons they look for. -/
def refusedReasons : List Reason := [.capacityFloor, .rateLimit, .staleData, .observeMode, .outOfScope]

variable {guards : List GuardTarget} {others : List (Sample Double)} {t : GuardTarget} {m : Metric} {state : State}
  {name : String} {rules : List (AlertRule Double)} {now : ℚ}

theorem names_nil {store : List (Sample Double)} : Names [] now store name ↔ False := by simp [Names]

theorem names_cons {r : AlertRule Double} {store : List (Sample Double)} : Names (r :: rules) now store name ↔
    (∃ g ∈ (r.expr now).found store, valueOf g "node".toList = name.toList) ∨ Names rules now store name := by
  simp only [Names, List.exists_mem_cons_iff]

/-! ### The calls of a family -/

theorem mem_decision : m ∈ metrics state ∧ m.name = "decision" ↔ ∃ dec ∈ state.decisions, m = decisionMetric dec := by
  constructor
  · rintro ⟨hm, hname⟩
    simp only [metrics, List.mem_append, List.mem_flatMap, List.mem_map] at hm
    rcases hm with ((hm | ⟨st, -, hm⟩) | ⟨dec, hdec, rfl⟩) | ⟨dec, -, hm⟩
    · have hmem : m.name ∈ stateNames := List.mem_map_of_mem hm
      rw [hname] at hmem
      exact absurd hmem (by decide)
    · have hmem := Guard.nodeStateMetrics_name hm
      rw [hname] at hmem
      exact absurd hmem (by decide)
    · exact ⟨dec, hdec, rfl⟩
    · have hmem := Guard.exporterMetrics_name hm
      rw [hname] at hmem
      exact absurd hmem (by decide)
  · rintro ⟨dec, hdec, rfl⟩
    refine ⟨?_, rfl⟩
    rw [metrics, List.mem_append, List.mem_append]
    exact .inl (.inr (List.mem_map_of_mem hdec))

theorem mem_nodeState (hname : m.name ∈ nodeStateNames) :
    m ∈ metrics state ↔ ∃ st ∈ state.nodeStates, m ∈ nodeStateMetrics st := by
  have hstate : ∀ n ∈ stateNames, n ∉ nodeStateNames := by decide
  have hexporter : ∀ n ∈ exporterNames, n ∉ nodeStateNames := by decide
  simp only [metrics, List.mem_append, List.mem_flatMap, List.mem_map]
  constructor
  · rintro (((hm | hm) | ⟨dec, -, rfl⟩) | ⟨dec, -, hm⟩)
    · exact absurd hname (hstate m.name (List.mem_map_of_mem hm))
    · exact hm
    · exact absurd (show "decision" ∈ nodeStateNames from hname) (by decide)
    · exact absurd hname (hexporter m.name (Guard.exporterMetrics_name hm))
  · exact fun hm => .inl (.inl (.inr hm))

/-! ### Decisions -/

theorem valueOf_decision (dec : Decision) :
    valueOf (t.stored (decisionMetric dec).labelSet) "node".toList = dec.node.toList ∧
      valueOf (t.stored (decisionMetric dec).labelSet) "reason".toList = dec.reason.label.toList := by
  rw [valueOf_stored (by decide), valueOf_stored (by decide)]
  exact ⟨rfl, rfl⟩

theorem names_decision (hothers : Foreign others) {keys : List String} {matcher : Matcher} (hkeys : "node" ∈ keys) :
    (∃ g ∈ (someOf keys (series "gpuguard_decision" [matcher])).found (guardStore guards others),
      valueOf g "node".toList = name.toList) ↔
    ∃ t ∈ guards, ∃ dec ∈ t.state.decisions, dec.node = name ∧
      matcher.accepts (t.stored (decisionMetric dec).labelSet) = true := by
  have hseries : series "gpuguard_decision" [matcher] = .select (fullName "decision") [matcher] := rfl
  have hkey : "node".toList ∈ keys.map String.toList := List.mem_map_of_mem hkeys
  simp only [someOf, found_above (rising_above 0), hseries, mem_series hothers]
  constructor
  · rintro ⟨g, ⟨e, ⟨t, ht, m, hm, hname, haccepts, rfl⟩, rfl, -⟩, hvalue⟩
    obtain ⟨dec, hdec, rfl⟩ := mem_decision.mp ⟨hm, hname⟩
    rw [valueOf_group hkey, (valueOf_decision dec).1] at hvalue
    exact ⟨t, ht, dec, hdec, String.toList_inj.mp hvalue, haccepts matcher (List.mem_singleton_self _)⟩
  · rintro ⟨t, ht, dec, hdec, rfl, haccepts⟩
    obtain ⟨hm, hname⟩ := mem_decision.mpr ⟨dec, hdec, rfl⟩
    refine ⟨_, ⟨_, ⟨t, ht, _, hm, hname, ?_, rfl⟩, rfl, ?_⟩, ?_⟩
    · intro matcher' hmatcher
      rwa [List.mem_singleton.mp hmatcher]
    · have hone := above_count 1
      rwa [Nat.cast_one] at hone
    · rw [valueOf_group hkey, (valueOf_decision dec).1]

theorem label_inj {r r' : Reason} (h : r.label = r'.label) : r = r' := by
  cases r <;> cases r' <;> first | rfl | exact absurd h (by decide)

theorem accepts_reason (dec : Decision) (r : Reason) :
    (is "reason" r.label).accepts (t.stored (decisionMetric dec).labelSet) = true ↔ dec.reason = r := by
  rw [is, Matcher.accepts, (valueOf_decision dec).2, decide_eq_true_eq, String.toList_inj]
  exact ⟨label_inj, congrArg Reason.label⟩

theorem accepts_reasons (dec : Decision) (rs : List Reason) :
    (oneOf "reason" (rs.map Reason.label)).accepts (t.stored (decisionMetric dec).labelSet) = true ↔
      dec.reason ∈ rs := by
  rw [oneOf, Matcher.accepts, (valueOf_decision dec).2, decide_eq_true_eq, List.map_map]
  refine List.mem_map_of_injective fun r r' h => ?_
  exact label_inj (String.toList_inj.mp h)

/-- The rules find the decisions that have one of the reasons. -/
theorem refusals_name (hothers : Foreign others) : Names refusals now (guardStore guards others) name ↔
    ∃ t ∈ guards, ∃ dec ∈ t.state.decisions, dec.node = name ∧ dec.reason ∈ refusedReasons := by
  have hfloor := @names_decision guards _ name hothers ["node", "condition"]
    (is "reason" Reason.capacityFloor.label) (by decide)
  have hlimit := @names_decision guards _ name hothers ["node"]
    (is "reason" Reason.rateLimit.label) (by decide)
  have hstale := @names_decision guards _ name hothers ["node"]
    (is "reason" Reason.staleData.label) (by decide)
  have hwould := @names_decision guards _ name hothers ["node", "condition"]
    (oneOf "reason" (([.observeMode, .outOfScope] : List Reason).map Reason.label)) (by decide)
  simp only [accepts_reason, accepts_reasons] at hfloor hlimit hstale hwould
  rw [refusals, names_cons, names_cons, names_cons, names_cons, names_nil, or_false]
  refine (or_congr hfloor (or_congr hlimit (or_congr hstale hwould))).trans ?_
  simp only [← exists_or, ← and_or_left]
  refine exists_congr fun t => and_congr_right fun _ => exists_congr fun dec => and_congr_right fun _ => ?_
  refine and_congr_right fun _ => ?_
  simp [refusedReasons]

/-! ### What lasts -/

/-- The node is out of service on some page. -/
def OutOfService (guards : List GuardTarget) (name : String) : Prop :=
  ∃ t ∈ guards, ∃ st ∈ t.state.nodeStates, st.node = name ∧ 0 < st.unschedulable

theorem exists_unschedulable {p : List Label → Number → Prop} :
    (∃ m ∈ metrics state, m.name = "node_unschedulable" ∧ p m.labelSet m.value) ↔
      ∃ st ∈ state.nodeStates, p [("node".toList, st.node.toList)] (.int st.unschedulable) := by
  constructor
  · rintro ⟨m, hm, hname, hp⟩
    obtain ⟨st, hst, hm⟩ := (mem_nodeState (by rw [hname]; decide)).mp hm
    simp only [nodeStateMetrics, List.mem_cons, List.not_mem_nil, or_false] at hm
    rcases hm with rfl | rfl
    · exact ⟨st, hst, hp⟩
    · exact absurd (show "node_ready" = "node_unschedulable" from hname) (by decide)
  · rintro ⟨st, hst, hp⟩
    have hname : "node_unschedulable" ∈ nodeStateNames := by decide
    exact ⟨_, (mem_nodeState hname).mpr ⟨st, hst, List.mem_cons_self⟩, rfl, hp⟩

/-- Of the nodes out of service the rule about what lasts finds the names, and nothing else. -/
theorem stillCordoned_found (hothers : Foreign others) {g : List Label} :
    g ∈ (nodeStillCordoned.expr now).found (guardStore guards others) ↔
      ∃ name, OutOfService guards name ∧ g = group ["node".toList] [("node".toList, name.toList)] := by
  have hseries : series "gpuguard_node_unschedulable" [] = .select (fullName "node_unschedulable") [] := rfl
  have hnode : "node".toList ∉ "cluster".toList :: targetKeys := by decide
  have hgroup : ∀ (t : GuardTarget) (labels : List Label), group ["node".toList] (t.stored labels) =
      group ["node".toList] labels := fun t labels => by
    simp only [group, List.map_cons, List.map_nil, valueOf_stored hnode]
  simp only [nodeStillCordoned, someOf, found_above (rising_above 0), hseries, mem_series hothers, List.map_cons,
    List.map_nil]
  constructor
  · rintro ⟨e, ⟨t, ht, m, hm, hname, -, rfl⟩, rfl, habove⟩
    obtain ⟨st, hst, hgrouped, habove⟩ := exists_unschedulable (p := fun labels value =>
      group ["node".toList] labels = group ["node".toList] m.labelSet ∧ above 0 value.toDouble = true).mp
        ⟨m, hm, hname, rfl, habove⟩
    have hpos := (above_count st.unschedulable).symm.trans habove
    exact ⟨st.node, ⟨t, ht, st, hst, rfl, of_decide_eq_true hpos⟩, (hgroup t _).trans hgrouped.symm⟩
  · rintro ⟨_, ⟨t, ht, st, hst, rfl, hpos⟩, rfl⟩
    have hvalue : above 0 (Number.int st.unschedulable).toDouble = true :=
      (above_count st.unschedulable).trans (decide_eq_true hpos)
    obtain ⟨m, hm, hname, hlabels, habove⟩ := exists_unschedulable (p := fun labels value =>
      labels = [("node".toList, st.node.toList)] ∧ above 0 value.toDouble = true).mpr ⟨st, hst, rfl, hvalue⟩
    exact ⟨_, ⟨t, ht, m, hm, hname, List.forall_mem_nil _, rfl⟩, (hgroup t _).trans (by rw [hlabels]), habove⟩

/-- What is known when the rules are evaluated. -/
structure View where
  clock : ℚ
  guards : List GuardTarget
  others : List (Sample Double)

def View.evaluation (v : View) : Evaluation Double := (v.clock, guardStore v.guards v.others)

theorem group_node (hname : name ≠ "") :
    group ["node".toList] [("node".toList, name.toList)] = [("node".toList, name.toList)] := by
  have hvalue : name.toList ≠ [] := fun h => hname (String.toList_eq_nil_iff.mp h)
  simp [group, valueOf, hvalue]

theorem stillCordoned_names (hothers : Foreign others) (hname : name ≠ "") :
    [("node".toList, name.toList)] ∈ (nodeStillCordoned.expr now).found (guardStore guards others) ↔
      OutOfService guards name := by
  rw [stillCordoned_found hothers]
  constructor
  · rintro ⟨other, hout, hgroup⟩
    have hother : other ≠ "" := by
      rintro rfl
      exact absurd hgroup (by simp [group, valueOf])
    rw [group_node hother] at hgroup
    obtain rfl : name = other := by simpa [String.toList_inj] using hgroup
    exact hout
  · exact fun hout => ⟨name, hout, (group_node hname).symm⟩

/-- The alert about a node fires exactly while it has been out of service for half an hour of evaluations, whatever the
guard decided about it. -/
theorem stillCordoned_fires_iff {views : List View} (hclock : views.Pairwise fun v v' => v.clock ≤ v'.clock)
    (hothers : ∀ v ∈ views, Foreign v.others) (hname : name ≠ "") :
    nodeStillCordoned.Fires (views.map View.evaluation) [("node".toList, name.toList)] ↔
      ∃ before first rest last, views = before ++ first :: rest ∧ (first :: rest).getLast? = some last ∧
        (∀ v ∈ first :: rest, OutOfService v.guards name) ∧ 1800 ≤ last.clock - first.clock := by
  have hhold : nodeStillCordoned.hold = 1800 := rfl
  rw [← hhold]
  exact AlertRule.fires_map hclock fun v hv => stillCordoned_names (hothers v hv) hname

/-- A page of a guard that decides nothing about a cordoned node. -/
def outTarget : GuardTarget where
  host := "10.244.1.7:9403"
  pod := "gpu-node-guard-0"
  state := { Guard.enforcing.start.state with nodeStates := [⟨"gpu-0", 1, 1⟩] }

theorem stillCordoned_fires_outTarget :
    nodeStillCordoned.Fires ([⟨0, [outTarget], []⟩, ⟨1800, [outTarget], []⟩].map View.evaluation)
      [("node".toList, "gpu-0".toList)] := by
  have hforeign : ∀ v ∈ [(⟨0, [outTarget], []⟩ : View), ⟨1800, [outTarget], []⟩], Foreign v.others := by simp [Foreign]
  have hout : OutOfService [outTarget] "gpu-0" :=
    ⟨outTarget, List.mem_singleton_self _, ⟨"gpu-0", 1, 1⟩, List.mem_singleton_self _, rfl, Nat.one_pos⟩
  refine (stillCordoned_fires_iff (by simp) hforeign (by decide)).mpr ⟨[], _, _, _, rfl, rfl, ?_, by norm_num⟩
  simp [hout]

/-! ### The rules and the policy -/

section Policy

variable {nodes : List Node} {node : Node} {clock : ℚ} {cfg : PolicyConfig} {parseTime : TimeParser} {recent : List ℚ}
  {budget : ℤ}

/-- The highest active condition of the node calls for a cordon, and has for long enough. While it is too young, a
lower one that has held for long enough counts for nothing. -/
def Sick (now : ℚ) (cfg : PolicyConfig) (parseTime : TimeParser) (node : Node) : Prop :=
  ∃ trigger, triggerLevel node now cfg.conditionMinAgeSeconds parseTime = some trigger ∧
    trigger.tooYoung = false ∧ trigger.level ∈ cordonLevels

/-- A page has it that its pass decided to cordon the node, whatever came of that. -/
def CordonDecided (state : State) (node : Node) : Prop :=
  ∃ dec ∈ state.decisions, dec.node = nodeName node ∧ dec.action = .cordon

/-- A sick node that could take work, or whose data is stale, is decided to be cordoned or refused. -/
theorem outcome_refused_iff : outcome nodes now cfg parseTime budget node ∈ refusedReasons ↔
    Sick now cfg parseTime node ∧ (schedulable node = true ∨ Active node Guard.gpuHealthDataStale) ∧
      outcome nodes now cfg parseTime budget node ≠ .cordon := by
  unfold Sick outcome Active
  cases triggerLevel node now cfg.conditionMinAgeSeconds parseTime with
  | none => simp [refusedReasons]
  | some trigger =>
    simp only [Option.some.injEq, exists_eq_left']
    by_cases hyoung : trigger.tooYoung = true
    · simp [hyoung, refusedReasons]
    by_cases hlevel : trigger.level ∈ cordonLevels
    swap
    · simp [hyoung, hlevel, refusedReasons]
    by_cases hstale : Guard.isTrue (conditionIndex node Guard.gpuHealthDataStale) = true
    · simp [hyoung, hlevel, hstale, refusedReasons]
    by_cases hschedulable : schedulable node = true
    swap
    · simp [hyoung, hlevel, hstale, hschedulable, refusedReasons]
    simp only [hyoung, hlevel, hstale, hschedulable, Bool.not_true, not_true, if_false, Bool.false_eq_true]
    split_ifs <;> simp [refusedReasons]

theorem mem_decide (hnode : node ∈ nodes) :
    ∃ budget, (decideNode nodes now cfg parseTime budget node).1 ∈ Guard.decide nodes now cfg parseTime recent := by
  obtain ⟨before, after, rfl⟩ := List.append_of_mem hnode
  exact ⟨_, List.mem_of_getElem? (Guard.getElem?_decideLoop _ before after node)⟩

theorem reason_of_mem {dec : Decision} (h : dec ∈ Guard.decide nodes clock cfg parseTime recent) :
    ∃ node ∈ nodes, ∃ budget, dec.node = nodeName node ∧ dec.reason = outcome nodes clock cfg parseTime budget node ∧
      (dec.action = .cordon ↔ outcome nodes clock cfg parseTime budget node = .cordon) := by
  obtain ⟨before, node, after, hnodes, rfl⟩ := Guard.mem_decideLoop h
  obtain ⟨hname, hreason, haction, -⟩ := Guard.decideNode_spec _ node
  exact ⟨node, by simp [hnodes], _, hname, hreason, haction⟩

/-- Of a page that a pass came to, the rules about refusals name the sick nodes that could take work, or whose data is
stale, and that the pass did not decide to cordon. -/
theorem refusals_name_iff (hothers : Foreign others) (hd : DistinctNames nodes)
    (hdecisions : t.state.decisions = Guard.decide nodes clock cfg parseTime recent) (hnode : node ∈ nodes) :
    Names refusals now (guardStore [t] others) (nodeName node) ↔ Sick clock cfg parseTime node ∧
      (schedulable node = true ∨ Active node Guard.gpuHealthDataStale) ∧ ¬CordonDecided t.state node := by
  rw [refusals_name hothers]
  simp only [List.mem_singleton, exists_eq_left]
  have hnodup : (t.state.decisions.map (·.node)).Nodup := by
    rw [hdecisions, Guard.decide, Guard.map_node_decideLoop]
    exact hd
  constructor
  · rintro ⟨dec, hdec, hname, hrefused⟩
    have hmem := hdec
    rw [hdecisions] at hmem
    obtain ⟨other, hother, budget, hothername, hreason, haction⟩ := reason_of_mem hmem
    obtain rfl : other = node := hd.eq hother hnode (hothername.symm.trans hname)
    rw [hreason, outcome_refused_iff] at hrefused
    obtain ⟨hsick, hopen, hcordon⟩ := hrefused
    refine ⟨hsick, hopen, ?_⟩
    rintro ⟨dec', hdec', hname', haction'⟩
    obtain rfl : dec' = dec := List.inj_on_of_nodup_map hnodup hdec' hdec (hname'.trans hname.symm)
    exact hcordon (haction.mp haction')
  · rintro ⟨hsick, hopen, hcordoned⟩
    obtain ⟨budget, hdec⟩ := @mem_decide clock nodes node cfg parseTime recent hnode
    obtain ⟨hname, hreason, haction, -⟩ :=
      @Guard.decideNode_spec nodes clock cfg parseTime budget node
    rw [← hdecisions] at hdec
    refine ⟨_, hdec, hname, ?_⟩
    rw [hreason, outcome_refused_iff]
    exact ⟨hsick, hopen, fun hout => hcordoned ⟨_, hdec, hname, haction.mpr hout⟩⟩

/-- A page of a guard that may cordon one node of the pair. -/
def pairTarget : GuardTarget where
  host := "10.244.1.7:9403"
  pod := "gpu-node-guard-0"
  state := { Guard.enforcing.start.state with
    isLeader := true
    lastLoop := 600
    decisions := Guard.decide sickPair 600 Guard.enforceOne Cluster.parseTime []
    nodeStates := Guard.nodeStates sickPair }

/-- The second of the pair. -/
def secondSick : Node := readyNode "gpu-1" [(Guard.gpuUnrecoverable, "1970-01-01T00:00:00Z")]

theorem refusals_name_sickPair : Names refusals 700 (guardStore [pairTarget] []) (nodeName secondSick) ↔
    Sick 600 Guard.enforceOne Cluster.parseTime secondSick ∧
      (schedulable secondSick = true ∨ Active secondSick Guard.gpuHealthDataStale) ∧
        ¬CordonDecided pairTarget.state secondSick :=
  @refusals_name_iff _ _ _ sickPair _ _ _ _ _ (List.forall_mem_nil _) (by decide) rfl (by simp [sickPair, secondSick])

end Policy

end GpuNodeHealth.Alerts
