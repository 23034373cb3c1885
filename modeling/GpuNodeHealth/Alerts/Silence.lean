import GpuNodeHealth.Alerts.Refusals
import GpuNodeHealth.Guard.LastPass

/-! What silence says. If none of the rules about the guard finds anything, some pass not
long ago has listed the fleet, and of the nodes it listed every one was schedulable, and
was sent a cordon if its highest active condition had called for one for long enough. How
the cordon was answered silence does not say. -/

namespace GpuNodeHealth.Alerts

open Agent (Double)
open Cluster (Node parseTime)
open Guard (Api Config Decision GuardObject LoopPass Reason Req State fleet fullName iterate metrics nodeName outcome
  schedulable stateMetrics stateNames)
open Interaction (Calls Event)
open Metrics (Metric Number Sample)

/-- The rules about the guard, its refusals and the nodes out of service. -/
def guardRules : List (AlertRule Double) :=
  [guardDown, guardNoLeader, guardEvaluationStale, nodeStillCordoned] ++ refusals

variable {guards : List GuardTarget} {others : List (Sample Double)} {t : GuardTarget} {m : Metric} {state : State}
  {name : String} {now : ℚ} {cfg : Config} {identity : String} {passes : List LoopPass} {g : GuardObject}

/-! ### The guard itself -/

theorem mem_state (hname : m.name ∈ stateNames) : m ∈ metrics state ↔ m ∈ stateMetrics state := by
  have hnode : ∀ n ∈ Guard.nodeStateNames, n ∉ stateNames := by decide
  have hexporter : ∀ n ∈ Guard.exporterNames, n ∉ stateNames := by decide
  simp only [metrics, List.mem_append, List.mem_flatMap, List.mem_map]
  constructor
  · rintro (((hm | ⟨st, -, hm⟩) | ⟨dec, -, rfl⟩) | ⟨dec, -, hm⟩)
    · exact hm
    · exact absurd hname (hnode m.name (Guard.nodeStateMetrics_name hm))
    · exact absurd (show "decision" ∈ stateNames from hname) (by decide)
    · exact absurd hname (hexporter m.name (Guard.exporterMetrics_name hm))
  · exact fun hm => .inl (.inl (.inl hm))

/-- The families of the guard itself are of one value. -/
theorem value_state (hm : m ∈ stateMetrics state) :
    (m.name = "is_leader" → m.value = .int (if state.isLeader then 1 else 0)) ∧
    (m.name = "last_loop_timestamp_seconds" →
      m.value = .int (if 0 ≤ state.lastLoop then ⌊state.lastLoop⌋ else ⌈state.lastLoop⌉)) := by
  simp only [stateMetrics, List.mem_cons, List.not_mem_nil, or_false] at hm
  rcases hm with rfl | rfl | rfl | rfl | rfl | rfl | rfl | rfl | rfl | rfl
  all_goals exact ⟨by simp, by simp⟩

/-- Where the largest of a family of the guard does not pass a test, that of some page does not. -/
theorem exists_state (hothers : Foreign others) (hname : name ∈ stateNames) {value : State → Number}
    (hvalue : ∀ state, ∀ m ∈ stateMetrics state, m.name = name → m.value = value state) {p : Double → Bool}
    (hne : guards ≠ [])
    (h : (((Query.select (fullName name) []).maxBy []).filter p).found (guardStore guards others) = []) :
    ∃ t ∈ guards, p (value t.state).toDouble = false := by
  have hsome : (Query.select (fullName name) []).eval (guardStore guards others) ≠ [] := by
    obtain ⟨t, ht⟩ := List.exists_mem_of_ne_nil guards hne
    obtain ⟨m, hm, hmname⟩ := List.mem_map.mp (show name ∈ (stateMetrics t.state).map Metric.name from hname)
    refine List.ne_nil_of_mem ((mem_series hothers).mpr ⟨t, ht, m, ?_, hmname, List.forall_mem_nil _, rfl⟩)
    exact (mem_state (hmname ▸ hname)).mpr hm
  obtain ⟨e, he, hfalse⟩ := exists_of_max hsome h
  obtain ⟨t, ht, m, hm, hmname, -, rfl⟩ := (mem_series hothers).mp he
  have hstate := (mem_state (hmname ▸ hname)).mp hm
  exact ⟨t, ht, hvalue t.state m hstate hmname ▸ hfalse⟩

theorem scraped (hothers : Foreign others) (h : (guardDown.expr now).found (guardStore guards others) = []) :
    guards ≠ [] := by
  rintro rfl
  obtain ⟨habsent, -⟩ := found_or.mp h
  have hseries : series "gpuguard_up" [] = .select (fullName "up") [] := rfl
  refine found_absent.mp habsent (List.eq_nil_iff_forall_not_mem.mpr fun labels hlabels => ?_)
  rw [hseries] at hlabels
  obtain ⟨e, he, -⟩ := mem_found.mp hlabels
  obtain ⟨t, ht, -⟩ := (mem_series hothers).mp he
  cases ht

theorem leading (hothers : Foreign others) (hne : guards ≠ [])
    (h : (guardNoLeader.expr now).found (guardStore guards others) = []) : ∃ t ∈ guards, t.state.isLeader = true := by
  obtain ⟨t, ht, hfalse⟩ := @exists_state _ _ "is_leader" hothers (by decide)
    (fun state => .int (if state.isLeader then 1 else 0)) (fun _ _ hm => (value_state hm).1) _ hne h
  refine ⟨t, ht, ?_⟩
  by_contra hnot
  rw [if_neg hnot] at hfalse
  exact absurd hfalse (by decide)

/-- The clock of the page as the rule about it has it. -/
theorem evaluated_lately (hothers : Foreign others) (hne : guards ≠ [])
    (hclocks : ∀ t ∈ guards, 0 ≤ t.state.lastLoop ∧ t.state.lastLoop ≤ 2 ^ 53)
    (h : (guardEvaluationStale.expr now).found (guardStore guards others) = []) :
    ∃ t ∈ guards, now < t.state.lastLoop + 301 := by
  have hseries : series "gpuguard_last_loop_timestamp_seconds" [] =
      .select (fullName "last_loop_timestamp_seconds") [] := rfl
  rw [guardEvaluationStale, found_map, hseries] at h
  obtain ⟨t, ht, hfalse⟩ := @exists_state _ _ _ hothers (by decide)
    (fun state => .int (if 0 ≤ state.lastLoop then ⌊state.lastLoop⌋ else ⌈state.lastLoop⌉))
    (fun _ _ hm => (value_state hm).2) _ hne h
  obtain ⟨hnonneg, hbound⟩ := hclocks t ht
  refine ⟨t, ht, ?_⟩
  have hfloor : |⌊t.state.lastLoop⌋| ≤ 2 ^ 53 := by
    rw [abs_of_nonneg (Int.floor_nonneg.mpr hnonneg)]
    exact_mod_cast (Int.floor_le t.state.lastLoop).trans hbound
  rw [if_pos hnonneg, Number.toDouble, Function.comp, Metrics.round_int hfloor] at hfalse
  by_contra hlate
  have hago : (300 : ℚ) + 1 ≤ now - ⌊t.state.lastLoop⌋ := by linarith [Int.floor_le t.state.lastLoop, not_lt.mp hlate]
  rw [above_ago (by norm_num) (by norm_num) hago] at hfalse
  cases hfalse

/-! ### Silence -/

/-- Of the nodes of a pass that no rule names every one is schedulable, and a sick one was decided to be cordoned. -/
theorem silent_node {nodes : List Node} {node : Node} {clock : ℚ} {recent : List ℚ} (hothers : Foreign others)
    (ht : t ∈ guards) (hsilent : Silent guardRules now (guardStore guards others))
    (hdecisions : t.state.decisions = Guard.decide nodes clock cfg.policy parseTime recent)
    (hstates : t.state.nodeStates = Guard.nodeStates nodes) (hnode : node ∈ nodes) :
    schedulable node = true ∧ (Sick clock cfg.policy parseTime node → CordonDecided t.state node) := by
  have hopen : schedulable node = true := by
    by_contra hclosed
    have hstate : ⟨nodeName node, if schedulable node then 0 else 1, if Guard.ready node then 1 else 0⟩ ∈
        t.state.nodeStates := by
      rw [hstates]
      exact List.mem_map_of_mem hnode
    have hout : OutOfService guards (nodeName node) := by
      refine ⟨t, ht, _, hstate, rfl, ?_⟩
      rw [if_neg hclosed]
      exact Nat.one_pos
    have hfound := (@stillCordoned_found _ _ now hothers _).mpr ⟨_, hout, rfl⟩
    rw [hsilent _ (by simp [guardRules])] at hfound
    cases hfound
  refine ⟨hopen, fun hsick => ?_⟩
  obtain ⟨budget, hdec⟩ := @mem_decide clock nodes node cfg.policy parseTime recent hnode
  obtain ⟨hname, hreason, haction, -⟩ :=
    @Guard.decideNode_spec nodes clock cfg.policy parseTime budget node
  rw [← hdecisions] at hdec
  refine ⟨_, hdec, hname, haction.mpr ?_⟩
  by_contra hcordon
  have hrefused := outcome_refused_iff.mpr ⟨hsick, .inl hopen, hcordon⟩
  obtain ⟨r, hr, labels, hlabels, -⟩ := (@refusals_name guards others _ now hothers).mpr
    ⟨t, ht, _, hdec, hname, hreason ▸ hrefused⟩
  rw [hsilent r (List.mem_append_right _ hr)] at hlabels
  cases hlabels

/-- If every page of the guard that is scraped is that of one run, and no rule finds anything, a pass of the run is not
long ago, has listed the fleet, found every node schedulable, and sent a cordon for the sick ones, with whatever
answer. -/
theorem silence (hrun : Calls (iterate cfg identity) cfg.start passes g)
    (hclocks : ∀ pass ∈ passes, 0 ≤ pass.arg ∧ pass.arg ≤ 2 ^ 53) (hguards : ∀ t ∈ guards, t.state = g.state)
    (hothers : Foreign others) (hsilent : Silent guardRules now (guardStore guards others)) :
    ∃ pass ∈ passes, now < pass.arg + 301 ∧ ∃ nodes, fleet pass.events = some nodes ∧ ∀ node ∈ nodes,
      schedulable node = true ∧
        (Sick pass.arg cfg.policy parseTime node → ∃ v, (⟨.cordon (nodeName node), v⟩ : Event Api) ∈ pass.events) := by
  have hne : guards ≠ [] := scraped hothers (hsilent guardDown (by simp [guardRules]))
  obtain ⟨t, ht, hleads⟩ := leading hothers hne (hsilent guardNoLeader (by simp [guardRules]))
  rw [hguards t ht] at hleads
  obtain ⟨pass, hpass, nodes, hreflects⟩ := Guard.run_leads hrun hleads
  have hbounds : ∀ t ∈ guards, 0 ≤ t.state.lastLoop ∧ t.state.lastLoop ≤ 2 ^ 53 := by
    intro t ht
    rw [hguards t ht, hreflects.clock]
    exact hclocks pass hpass
  obtain ⟨t', ht', hlate⟩ := evaluated_lately hothers hne hbounds (hsilent guardEvaluationStale (by simp [guardRules]))
  rw [hguards t' ht', hreflects.clock] at hlate
  refine ⟨pass, hpass, hlate, nodes, hreflects.listed, fun node hnode => ?_⟩
  rw [← hguards t ht] at hreflects
  obtain ⟨hopen, hsick⟩ := silent_node hothers ht hsilent hreflects.decisions hreflects.nodeStates hnode
  refine ⟨hopen, fun h => ?_⟩
  obtain ⟨dec, hdec, hname, hact⟩ := hsick h
  exact hname ▸ hreflects.sent dec hdec hact

/-- A guard whose first pass has cordoned a node, and its page. -/
def quietGuard : GuardObject :=
  (((iterate Guard.enforcing "guard" 600).call Guard.enforcing.start).play Guard.quietApi []).1.2

def quietTarget : GuardTarget := ⟨"10.244.1.7:9403", "gpu-node-guard-0", quietGuard.state⟩

theorem quietTarget_silent : Silent guardRules 700 (guardStore [quietTarget] []) := by
  rw [Silent, guardStore_single]
  decide +kernel

theorem silence_quietTarget :
    ∃ pass ∈ [Interaction.Call.play (iterate Guard.enforcing "guard") Guard.quietApi 600 Guard.enforcing.start],
      700 < pass.arg + 301 ∧ ∃ nodes, fleet pass.events = some nodes ∧ ∀ node ∈ nodes, schedulable node = true ∧
        (Sick pass.arg Guard.enforcing.policy parseTime node →
          ∃ v, (⟨.cordon (nodeName node), v⟩ : Event Api) ∈ pass.events) := by
  refine @silence [quietTarget] _ _ _ _ _ quietGuard (Calls.nil.play Guard.quietApi 600) ?_ ?_
    (List.forall_mem_nil _) quietTarget_silent
  · intro pass hpass
    rw [List.mem_singleton.mp hpass]
    exact ⟨show (0 : ℚ) ≤ 600 by norm_num, show (600 : ℚ) ≤ 2 ^ 53 by norm_num⟩
  · intro t ht
    rw [List.mem_singleton.mp ht, quietTarget]

end GpuNodeHealth.Alerts
