import GpuNodeHealth.Agent.Reporting
import GpuNodeHealth.Alerts.AgentPages

/-! What silence of the rules about the agents says. If none of them finds anything, an
enrolled node has an agent that collected not long ago, and nothing that takes a condition
has happened there: no line for it was read, no thread was seen stuck, and every source
could be read. -/

namespace GpuNodeHealth.Alerts

open Agent (Act Collected ConditionName Deployed Double Setup Steady)
open Agent.Exposition (State agentMetrics conditionMetrics dstateMetrics exporterMetrics fullName kernlogMetrics metrics
  patchMetrics roundThousandth sorted withNode)
open Cluster (Node)
open Guard (roundHalfEven)
open Metrics (Label Metric Number Sample)

/-- The rules about the agents, and those that go by their conditions. -/
def agentRules : List (AlertRule Double) :=
  [agentMissingOnNode, collectStale, gpuHealthDataStale, gpuUnrecoverable, gpuWorkqueueStalled, gpuEngineTimeout,
    gpuProbeFailed]

/-! ### Enrolled nodes -/

/-- kube-state-metrics has the node with the label of enrolment. -/
def Enrolled (others : List (Sample Double)) (name : String) : Prop :=
  ∃ s ∈ others, s.name = "kube_node_labels".toList ∧
    valueOf s.labels "label_gpu_health_amd_io_agent".toList = "true".toList ∧
      valueOf s.labels "node".toList = name.toList

/-- A sample that is there for its labels has the value 1. -/
def OnlyLabels (others : List (Sample Double)) : Prop :=
  ∀ s ∈ others, s.name = "kube_node_labels".toList → s.value = .finite 1

/-- An exporter on the node is to be scraped. -/
def HasExporter (store : List (Sample Double)) (name : String) : Prop :=
  ∃ s ∈ store, s.name = "up".toList ∧ valueOf s.labels "job".toList = "amd-gpu-exporter".toList ∧
    valueOf s.labels "node".toList = name.toList

variable {agents : List AgentTarget} {others : List (Sample Double)} {t : AgentTarget} {m : Metric} {s : Sample Double}
  {name : String} {now : ℚ}

theorem agentStore_name (hexact : ∀ t ∈ agents, t.state.Exact) (hs : s ∈ agentStore agents others) :
    s ∈ others ∨ s.name = "up".toList ∨ ∃ name, s.name = fullName name := by
  rcases List.mem_append.mp hs with hs | hs
  · obtain ⟨_, htarget, hs⟩ := List.mem_flatMap.mp hs
    obtain ⟨t, ht, rfl⟩ := List.mem_map.mp htarget
    rw [scrape_agent (hexact t ht)] at hs
    rcases List.mem_append.mp hs with hs | hs
    · obtain ⟨m, -, rfl⟩ := List.mem_map.mp hs
      exact .inr (.inr ⟨m.name, rfl⟩)
    · rw [List.mem_singleton.mp hs]
      exact .inr (.inl rfl)
  · exact .inl hs

theorem group_of_node {labels labels' : List Label}
    (h : valueOf labels "node".toList = valueOf labels' "node".toList) :
    group ["node".toList] labels = group ["node".toList] labels' := by
  refine group_congr fun key hkey => ?_
  rwa [List.mem_singleton.mp hkey]

theorem valueOf_sample_node (m : Metric) : valueOf (t.sample m).labels "node".toList = t.node.toList := by
  have hnode : "node".toList ∉ t.labels.map Prod.fst := by
    show "node".toList ∉ targetKeys
    decide
  change valueOf (t.labels ++ externalLabels ++ (withNode t.node m).map (renamed t.labels)) _ = _
  rw [List.append_assoc, valueOf_append hnode, valueOf_append (by decide), withNode, List.map_cons,
    renamed_of_notMem hnode]
  rfl

/-- A node that is enrolled, and that no rule misses, has the page of an agent. -/
theorem reporting (hexact : ∀ t ∈ agents, t.state.Exact) (hothers : NotOfAgents others) (hones : OnlyLabels others)
    (hsilent : (agentMissingOnNode.expr now).found (agentStore agents others) = []) (henrolled : Enrolled others name) :
    ∃ t ∈ agents, t.node = name := by
  obtain ⟨s, hs, hname, henrolment, hnode⟩ := henrolled
  have hvalues : ∀ e ∈ (series "kube_node_labels" [is "label_gpu_health_amd_io_agent" "true"]).eval
      (agentStore agents others), e.value = .finite 1 := by
    intro e he
    obtain ⟨s, hs, hname, -, rfl⟩ := mem_select.mp he
    rcases agentStore_name hexact hs with hs | hup | ⟨own, hown⟩
    · exact hones s hs hname
    · exact absurd (hname.symm.trans hup) (by decide)
    · exact absurd ((congrArg List.head? (hname.symm.trans hown)).trans head_fullName) (by decide)
  have hlabelled : group ["node".toList] s.labels ∈ (((series "kube_node_labels"
      [is "label_gpu_health_amd_io_agent" "true"]).maxBy ["node".toList]).filter (equals 1)).found
        (agentStore agents others) := by
    refine (found_constant (by decide) hvalues).mpr ⟨_, mem_select.mpr ⟨s, ?_, hname, ?_, rfl⟩, rfl⟩
    · exact List.mem_append_right _ hs
    · intro matcher hmatcher
      rw [List.mem_singleton.mp hmatcher]
      exact decide_eq_true henrolment
  obtain ⟨g, hg, hsame⟩ := exists_of_without hsilent hlabelled
  obtain ⟨e, he, rfl⟩ := exists_of_found hg
  have hseries : series "gpuhealth_agent_up" [] = .select (fullName "agent_up") [] := rfl
  rw [hseries, mem_agentSeries hexact hothers] at he
  obtain ⟨t, ht, m, -, -, -, rfl⟩ := he
  refine ⟨t, ht, String.toList_inj.mp ?_⟩
  have hvalue := valueOf_of_sameLabels hsame "node".toList
  rwa [valueOf_group List.mem_cons_self, valueOf_group List.mem_cons_self, valueOf_sample_node, hnode] at hvalue

/-! ### The clock of a page -/

/-- The call for the clock. -/
def clockCall (state : State) : Metric where
  name := "collect_timestamp_seconds"
  value := roundThousandth state.collectedAt
  helpText := "Unix time of the last completed collection pass."

theorem mem_clock {state : State} : clockCall state ∈ metrics state := by
  simp [metrics, agentMetrics, clockCall]

/-- A clock that is so far back is found, whatever becomes of it on the page. -/
theorem stale_found (hexact : ∀ t ∈ agents, t.state.Exact) (hothers : NotOfAgents others) (ht : t ∈ agents) {y : ℚ}
    (hclock : (roundThousandth t.state.collectedAt).toDouble = .finite y) (hago : y + 121 ≤ now) :
    (collectStale.expr now).found (agentStore agents others) ≠ [] := by
  have hseries : series "gpuhealth_collect_timestamp_seconds" [] =
      .select (fullName "collect_timestamp_seconds") [] := rfl
  have helement : ⟨(t.sample (clockCall t.state)).labels, .finite y⟩ ∈
      (Query.select (fullName "collect_timestamp_seconds") []).eval (agentStore agents others) :=
    (mem_agentSeries hexact hothers).mpr
      ⟨t, ht, clockCall t.state, mem_clock, rfl, List.forall_mem_nil _, by rw [← hclock]; rfl⟩
  have hfound : above 120 (ago now (.finite y)) = true := above_ago (by norm_num) (by norm_num) (by linarith)
  rw [collectStale, found_map, hseries]
  exact List.ne_nil_of_mem (found_filter.mpr ⟨_, helement, rfl, hfound⟩)

/-- What the page has of a clock is not far ahead of it. -/
theorem roundThousandth_within {c : ℚ} (hnonneg : 0 ≤ c) (hsmall : c < 2 ^ 49) :
    ∃ y, (roundThousandth (.float (.finite c))).toDouble = .finite y ∧ y ≤ c + 2 := by
  have hthousands : (roundHalfEven (c * 1000) : ℚ) ≤ c * 1000 + 1 := by
    have hfloor : roundHalfEven (c * 1000) ≤ ⌊c * 1000⌋ + 1 := by
      unfold roundHalfEven
      split_ifs <;> omega
    have hcast : (roundHalfEven (c * 1000) : ℚ) ≤ (⌊c * 1000⌋ : ℤ) + 1 := by exact_mod_cast hfloor
    linarith [Int.floor_le (c * 1000)]
  have hcount : (0 : ℚ) ≤ roundHalfEven (c * 1000) := by
    exact_mod_cast Metrics.roundHalfEven_nonneg (mul_nonneg hnonneg (by norm_num))
  obtain ⟨y, hround, hle⟩ := @Metrics.round_within (roundHalfEven (c * 1000) / 1000) (by linarith) (by linarith)
  exact ⟨y, hround, by linarith⟩

/-! ### The agents behind the pages -/

/-- The conditions of a page, of what was collected. -/
def conditionsOf (collected : Collected) : List (String × Bool) :=
  Agent.allConditions.map fun name => (name.label, (collected.conditionDetail name).active)

/-- The page has the clock and the conditions of the agent's state. -/
def Shows (d : Deployed) (state : State) : Prop :=
  (state.collectedAt, state.conditions) = match d.threads.collector.collected with
    | none => (.int 0, [])
    | some collected => (.float (.finite collected.collectedAt), conditionsOf collected)

/-- An agent that is scraped after some acts. -/
structure ScrapedAgent where
  target : AgentTarget
  setup : Setup
  node : Node
  acts : List Act
  exact : target.state.Exact
  shows : Shows (setup.run node acts) target.state
  steady : Steady acts
  clocks : ∀ met, Act.collect met ∈ acts → 0 ≤ met.now ∧ met.now < 2 ^ 49

def ScrapedAgent.run (a : ScrapedAgent) : Deployed := a.setup.run a.node a.acts

variable {a : ScrapedAgent} {scraped : List ScrapedAgent} {condition : ConditionName}

theorem ScrapedAgent.active_iff (a : ScrapedAgent) (condition : ConditionName) :
    (condition.label, true) ∈ a.target.state.conditions ↔ a.run.Active condition := by
  have hlabels : ∀ c c' : ConditionName, c.label = c'.label → c = c' := by
    intro c c' h
    cases c <;> cases c' <;> first | rfl | exact absurd h (by decide)
  have hshows := a.shows
  unfold Shows at hshows
  rw [ScrapedAgent.run, Deployed.Active, Agent.Collector.detail]
  cases hcollected : (a.setup.run a.node a.acts).threads.collector.collected with
  | none =>
    rw [hcollected] at hshows
    simp [(Prod.mk.inj hshows).2]
  | some collected =>
    rw [hcollected] at hshows
    rw [(Prod.mk.inj hshows).2]
    simp only [conditionsOf, List.mem_map, Prod.mk.injEq, Option.map_some, Option.some.injEq, exists_eq_left']
    constructor
    · rintro ⟨c, -, hlabel, hactive⟩
      exact hlabels c condition hlabel ▸ hactive
    · exact fun hactive => ⟨condition, Agent.mem_allConditions condition, rfl, hactive⟩

/-- A condition that no rule finds on any page is not active. -/
theorem not_active (hothers : NotOfAgents others) (ha : a ∈ scraped)
    (hsilent : Silent agentRules now (agentStore (scraped.map (·.target)) others))
    (hprobe : condition = .gpuProbeFailed → HasExporter (agentStore (scraped.map (·.target)) others) a.target.node) :
    ¬a.run.Active condition := by
  rw [← a.active_iff]
  intro hactive
  have hexact : ∀ t ∈ scraped.map (·.target), t.state.Exact := List.forall_mem_map.mpr fun a _ => a.exact
  have ht : a.target ∈ scraped.map (·.target) := List.mem_map_of_mem ha
  have hrule (hold : ℚ) (hmem : conditionRule condition.label hold ∈ agentRules) : False := by
    have hfound := (@conditionRule_found _ _ now hold hexact hothers condition.label _).mpr ⟨_, ht, hactive, rfl⟩
    rw [hsilent _ hmem] at hfound
    cases hfound
  cases condition with
  | gpuUnrecoverable => exact hrule 0 (by simp [agentRules, gpuUnrecoverable, ConditionName.label])
  | gpuWorkqueueStalled => exact hrule 0 (by simp [agentRules, gpuWorkqueueStalled, ConditionName.label])
  | gpuEngineTimeout => exact hrule 600 (by simp [agentRules, gpuEngineTimeout, ConditionName.label])
  | gpuHealthDataStale => exact hrule 0 (by simp [agentRules, gpuHealthDataStale, ConditionName.label])
  | gpuProbeFailed =>
    obtain ⟨s, hs, hname, hjob, hnode⟩ := hprobe rfl
    have hgroup := group_of_node (hnode.trans (@valueOf_condition a.target "GPUProbeFailed").2.symm)
    have hfound := (@gpuProbeFailed_found _ _ now hexact hothers _).mpr
      ⟨_, ht, hactive, rfl, s, hs, hname, hjob, hgroup⟩
    rw [hsilent gpuProbeFailed (by simp [agentRules])] at hfound
    cases hfound

/-- An agent whose page is not found stale has collected not long ago. -/
theorem latest_collection (hothers : NotOfAgents others) (hnow : 121 ≤ now) (ha : a ∈ scraped)
    (hsilent : Silent agentRules now (agentStore (scraped.map (·.target)) others)) :
    ∃ before late, a.setup.Latest a.acts before late ∧ now < late.now + 123 := by
  have hexact : ∀ t ∈ scraped.map (·.target), t.state.Exact := List.forall_mem_map.mpr fun a _ => a.exact
  have ht : a.target ∈ scraped.map (·.target) := List.mem_map_of_mem ha
  have hfresh : ∀ y, (roundThousandth a.target.state.collectedAt).toDouble = .finite y → now < y + 121 := by
    intro y hclock
    by_contra hold
    exact stale_found hexact hothers ht hclock (not_lt.mp hold) (hsilent collectStale (by simp [agentRules]))
  have hshows := a.shows
  unfold Shows at hshows
  cases hcollected : (a.setup.run a.node a.acts).threads.collector.collected with
  | none =>
    rw [hcollected] at hshows
    have hzero := hfresh 0 (by rw [(Prod.mk.inj hshows).1]; exact Metrics.round_zero)
    linarith
  | some collected =>
    rw [hcollected] at hshows
    obtain ⟨before, late, hlatest⟩ := @Agent.latest_of_collected a.setup a.node a.acts (by rw [hcollected]; rfl)
    obtain ⟨collected', hcollected', hclock, -⟩ := @Agent.collected_latest a.setup a.node _ _ _ hlatest
    obtain rfl : collected = collected' := Option.some.inj (hcollected.symm.trans hcollected')
    have hmem : Act.collect late ∈ a.acts := by
      obtain ⟨-, after, hsplit, -⟩ := hlatest
      simp [hsplit]
    obtain ⟨hnonneg, hsmall⟩ := a.clocks late hmem
    obtain ⟨y, hround, hle⟩ := roundThousandth_within hnonneg hsmall
    have hlately := hfresh y (by rw [(Prod.mk.inj hshows).1, hclock]; exact hround)
    exact ⟨before, late, hlatest, by linarith⟩

/-- If no rule about the agents finds anything, every enrolled node has an agent, and
every agent has collected not long ago and found nothing that takes a condition; of the
exporter that is said only of nodes where one is to be scraped. -/
theorem agents_silence (hothers : NotOfAgents others) (hones : OnlyLabels others) (hnow : 121 ≤ now)
    (hsilent : Silent agentRules now (agentStore (scraped.map (·.target)) others)) :
    (∀ name, Enrolled others name → ∃ a ∈ scraped, a.target.node = name) ∧ ∀ a ∈ scraped, ∃ before late,
      a.setup.Latest a.acts before late ∧ now < late.now + 123 ∧ ∀ condition : ConditionName,
        (condition = .gpuProbeFailed → HasExporter (agentStore (scraped.map (·.target)) others) a.target.node) →
          ¬a.setup.Warranted a.node before late condition := by
  have hexact : ∀ t ∈ scraped.map (·.target), t.state.Exact := List.forall_mem_map.mpr fun a _ => a.exact
  refine ⟨fun name henrolled => ?_, fun a ha => ?_⟩
  · obtain ⟨t, ht, hnode⟩ := reporting hexact hothers hones (hsilent _ (by simp [agentRules])) henrolled
    obtain ⟨a, ha, rfl⟩ := List.mem_map.mp ht
    exact ⟨a, ha, hnode⟩
  · obtain ⟨before, late, hlatest, hlately⟩ := latest_collection hothers hnow ha hsilent
    refine ⟨before, late, hlatest, hlately, fun condition hprobe hwarranted => ?_⟩
    exact not_active hothers ha hsilent hprobe ((Agent.active_iff_warranted a.steady hlatest).mpr hwarranted)

/-- An agent that has collected once, and its page. -/
def calmState : State where
  collectedAt := .float (.finite 30)
  conditions := Agent.allConditions.map fun name => (name.label, false)

theorem calmState_exact : calmState.Exact where
  collectedAt := by
    have hthirty : Double.round 30 = .finite 30 := by decide +kernel
    exact hthirty
  collectSeconds := trivial
  lastHit := List.forall_mem_nil _
  maxSeconds := trivial
  gpuMaxSeconds := trivial
  scrapeSeconds := trivial
  counters := List.forall_mem_nil _

def calmTarget : AgentTarget := ⟨"10.244.3.9:9101", "gpu-health-agent-x7k2p", "gpu-0", calmState⟩

def calmAgent : ScrapedAgent where
  target := calmTarget
  setup := Agent.oneLog
  node := Agent.idleNode
  acts := [.pump "kern.log" 29 fun _ => Agent.serve Agent.emptyLog {}, .collect Agent.quietMeeting]
  exact := calmState_exact
  shows := by
    unfold Shows
    decide +kernel
  steady := by simp [Steady]
  clocks met hmet := by
    obtain rfl : met = Agent.quietMeeting := by simpa using hmet
    norm_num [Agent.quietMeeting]

/-- What kube-state-metrics says of its node. -/
def enrolment : Sample Double where
  name := "kube_node_labels".toList
  labels := [("node".toList, "gpu-0".toList), ("label_gpu_health_amd_io_agent".toList, "true".toList)]
  value := .finite 1

/-- The call for patches that are not there. -/
def noPatches : Metric where
  name := "patch_counters_present"
  value := .int 0
  helpText := "1 when this node exposes amdgpu D1-D7 patch counters."

/-- The calls for the page, with what is sorted there written out. -/
theorem calm_metrics : metrics calmState = agentMetrics calmState ++ dstateMetrics {} ++ exporterMetrics {} ++
    noPatches :: (["GPUEngineTimeout", "GPUHealthDataStale", "GPUProbeFailed", "GPUUnrecoverable",
      "GPUWorkqueueStalled"].map fun condition => conditionCall (condition, false)) := by
  have hsorted : sorted calmState.conditions = ["GPUEngineTimeout", "GPUHealthDataStale", "GPUProbeFailed",
      "GPUUnrecoverable", "GPUWorkqueueStalled"].map fun condition => (condition, false) := by
    simp [calmState, Agent.allConditions, ConditionName.label, sorted, List.mergeSort,
      List.MergeSort.Internal.splitInTwo]
  have hkernlog : kernlogMetrics calmState.kernlog = [] := by simp [calmState, kernlogMetrics, sorted]
  have hpatch : patchMetrics calmState.patch = [noPatches] := by
    simp [calmState, patchMetrics, noPatches, sorted, Agent.Exposition.ofBool]
  rw [metrics, conditionMetrics, hsorted, hkernlog, hpatch, List.append_nil, List.append_assoc]
  rfl

theorem calmAgent_silent : Silent agentRules 130 (agentStore [calmTarget] [enrolment]) := by
  have hstore : agentStore [calmTarget] [enrolment] =
      (metrics calmState).map calmTarget.sample ++ [up calmTarget.labels 1] ++ [enrolment] := by
    rw [agentStore, List.map_singleton, store, List.flatMap_singleton, scrape_agent calmState_exact]
    rfl
  rw [hstore, calm_metrics, Silent]
  decide +kernel

theorem agents_silence_calmAgent :
    (∀ name, Enrolled [enrolment] name → ∃ a ∈ [calmAgent], a.target.node = name) ∧ ∀ a ∈ [calmAgent], ∃ before late,
      a.setup.Latest a.acts before late ∧ 130 < late.now + 123 ∧ ∀ condition : ConditionName,
        (condition = .gpuProbeFailed → HasExporter (agentStore [calmTarget] [enrolment]) a.target.node) →
          ¬a.setup.Warranted a.node before late condition := by
  refine @agents_silence [enrolment] 130 [calmAgent] ?_ ?_ (by norm_num) calmAgent_silent
  · intro s hs name hname
    rw [List.mem_singleton.mp hs] at hname
    exact absurd ((congrArg List.head? hname).trans head_fullName) (by decide)
  · intro s hs _
    rw [List.mem_singleton.mp hs]
    rfl

end GpuNodeHealth.Alerts
