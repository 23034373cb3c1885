import GpuNodeHealth.Agent.Transitions
import GpuNodeHealth.Alerts.Rules
import GpuNodeHealth.Alerts.Scraping

/-! The pages of the agents in the store, and what the rules that go by the conditions find
there. The rule about the conditions that the API server has goes by names that no agent
publishes. -/

namespace GpuNodeHealth.Alerts

open Agent (ConditionName Double World applyPatch float? mergeCondition mergeInto)
open Agent.Exposition (State fullName metrics render withNode)
open Cluster (Node NodeCondition)
open Metrics (Label Metric Number Sample)

/-- An agent that is scraped. -/
structure AgentTarget where
  host : String
  pod : String
  node : String
  state : State

def AgentTarget.labels (t : AgentTarget) : List Label :=
  [("job".toList, "gpu-health-agent".toList), ("instance".toList, t.host.toList), ("pod".toList, t.pod.toList)]

def AgentTarget.target (t : AgentTarget) : Target := ⟨t.labels, render t.node t.state⟩

/-- The sample of a call, as the store has it. -/
def AgentTarget.sample (t : AgentTarget) (m : Metric) : Sample Double where
  name := fullName m.name
  labels := attach t.labels (withNode t.node m)
  value := m.value.toDouble

/-- The store, with samples of other jobs. -/
def agentStore (agents : List AgentTarget) (others : List (Sample Double)) : List (Sample Double) :=
  store (agents.map AgentTarget.target) ++ others

/-- No sample is one of an agent. -/
def NotOfAgents (others : List (Sample Double)) : Prop := ∀ s ∈ others, ∀ name, s.name ≠ fullName name

variable {agents : List AgentTarget} {others : List (Sample Double)} {t : AgentTarget} {m : Metric} {name : String}
  {matchers : List Matcher} {now hold : ℚ}

theorem scrape_agent (h : t.state.Exact) :
    scrape t.target = (metrics t.state).map t.sample ++ [up t.labels 1] := by
  have hread : Metrics.parse float? t.target.page = _ :=
    Agent.Exposition.parse_render (fun _ => Number.float?_str) h
  rw [scrape_page hread, Agent.Exposition.samples_render, List.map_map]
  rfl

theorem head_fullName : (fullName name).head? = "gpuhealth".toList.head? :=
  List.head?_append_of_ne_nil _ (by decide)

theorem up_notOfAgents : "up".toList ≠ fullName name := by
  intro h
  exact absurd ((congrArg List.head? h).trans head_fullName) (by decide)

/-- Of a family of the agents the store has what `metric` was called with. -/
theorem mem_agentSeries (hexact : ∀ t ∈ agents, t.state.Exact) (hothers : NotOfAgents others) {e : Element Double} :
    e ∈ (Query.select (fullName name) matchers).eval (agentStore agents others) ↔
      ∃ t ∈ agents, ∃ m ∈ metrics t.state, m.name = name ∧
        (∀ matcher ∈ matchers, matcher.accepts (t.sample m).labels = true) ∧
          e = ⟨(t.sample m).labels, m.value.toDouble⟩ := by
  rw [agentStore, @mem_select_store _ _ _ (fun t => (metrics t.state).map t.sample) _ _ _ _
    (fun t ht => scrape_agent (hexact t ht)) up_notOfAgents fun s hs => hothers s hs name]
  refine exists_congr fun t => and_congr_right fun _ => ?_
  constructor
  · rintro ⟨s, hs, hname, haccepts, rfl⟩
    obtain ⟨m, hm, rfl⟩ := List.mem_map.mp hs
    exact ⟨m, hm, Agent.Exposition.fullName_inj hname, haccepts, rfl⟩
  · rintro ⟨m, hm, rfl, haccepts, rfl⟩
    exact ⟨_, List.mem_map_of_mem hm, rfl, haccepts, rfl⟩

/-! ### Conditions -/

/-- The call for a condition. -/
def conditionCall (condition : String × Bool) : Metric where
  name := "condition"
  value := .int (if condition.2 then 1 else 0)
  labels := [("condition", condition.1)]
  helpText := "1 while this node health condition is asserted."

theorem mem_conditions : m ∈ metrics t.state ∧ m.name = "condition" ↔
    ∃ condition ∈ t.state.conditions, m = conditionCall condition := by
  have hstems := (((((@Agent.Exposition.agent_stems t.state).append (@Agent.Exposition.kernlog_stems t.state)).append
    (@Agent.Exposition.dstate_stems t.state)).append (@Agent.Exposition.exporter_stems t.state))).append
      (@Agent.Exposition.patch_stems t.state)
  constructor
  · rintro ⟨hm, hname⟩
    rcases List.mem_append.mp hm with hm | hm
    · have hstem := hstems m hm
      rw [hname] at hstem
      exact absurd hstem (by decide)
    · obtain ⟨condition, hc, rfl⟩ := List.mem_map.mp hm
      exact ⟨condition, Agent.Exposition.mem_sorted.mp hc, rfl⟩
  · rintro ⟨condition, hc, rfl⟩
    have hmem : conditionCall condition ∈ Agent.Exposition.conditionMetrics t.state.conditions :=
      List.mem_map_of_mem (Agent.Exposition.mem_sorted.mpr hc)
    exact ⟨List.mem_append_right _ hmem, rfl⟩

/-- The labels of a condition of an agent. -/
def AgentTarget.condition (t : AgentTarget) (condition : String) : List Label :=
  t.labels ++ externalLabels ++ [("node".toList, t.node.toList), ("condition".toList, condition.toList)]

theorem sample_condition (condition : String × Bool) :
    (t.sample (conditionCall condition)).labels = t.condition condition.1 := by
  refine attach_eq (List.forall_mem_cons.mpr ⟨?_, List.forall_mem_singleton.mpr ?_⟩)
  · show "node".toList ∉ targetKeys
    decide
  · show "condition".toList ∉ targetKeys
    decide

theorem valueOf_condition (condition : String) :
    valueOf (t.condition condition) "condition".toList = condition.toList ∧
      valueOf (t.condition condition) "node".toList = t.node.toList := by
  have hcondition : "condition".toList ∉ t.labels.map Prod.fst := by
    show "condition".toList ∉ targetKeys
    decide
  have hnode : "node".toList ∉ t.labels.map Prod.fst := by
    show "node".toList ∉ targetKeys
    decide
  rw [AgentTarget.condition, List.append_assoc, valueOf_append hcondition, valueOf_append hnode,
    valueOf_append (by decide), valueOf_append (by decide)]
  exact ⟨rfl, rfl⟩

/-- A rule that goes by a condition finds the agents that have it active. -/
theorem conditionRule_found (hexact : ∀ t ∈ agents, t.state.Exact) (hothers : NotOfAgents others) {condition : String}
    {g : List Label} : g ∈ ((conditionRule condition hold).expr now).found (agentStore agents others) ↔
      ∃ t ∈ agents, (condition, true) ∈ t.state.conditions ∧ g = t.condition condition := by
  have hseries : series "gpuhealth_condition" [is "condition" condition] =
      .select (fullName "condition") [is "condition" condition] := rfl
  have haccepts : ∀ (t : AgentTarget) (c : String × Bool),
      (is "condition" condition).accepts (t.sample (conditionCall c)).labels = true ↔ c.1 = condition := fun t c => by
    rw [sample_condition, is, Matcher.accepts, (valueOf_condition c.1).1, decide_eq_true_eq, String.toList_inj]
  simp only [conditionRule, found_filter, hseries, mem_agentSeries hexact hothers, List.mem_singleton, forall_eq]
  constructor
  · rintro ⟨e, ⟨t, ht, m, hm, hname, hmatch, rfl⟩, rfl, hone⟩
    obtain ⟨⟨c, active⟩, hc, rfl⟩ := mem_conditions.mp ⟨hm, hname⟩
    obtain rfl : c = condition := (haccepts t _).mp hmatch
    cases active with
    | false => exact absurd (show equals 1 (Double.round (0 : ℤ)) = true from hone) (by decide +kernel)
    | true => exact ⟨t, ht, hc, sample_condition _⟩
  · rintro ⟨t, ht, hc, rfl⟩
    obtain ⟨hm, hname⟩ := mem_conditions.mpr ⟨_, hc, rfl⟩
    refine ⟨_, ⟨t, ht, _, hm, hname, (haccepts t _).mpr rfl, rfl⟩, sample_condition _, ?_⟩
    show equals 1 (Double.round (1 : ℤ)) = true
    decide +kernel

/-- A failed probe is found only on a node that some exporter is to be scraped on. -/
theorem gpuProbeFailed_found (hexact : ∀ t ∈ agents, t.state.Exact) (hothers : NotOfAgents others) {g : List Label} :
    g ∈ (gpuProbeFailed.expr now).found (agentStore agents others) ↔
      ∃ t ∈ agents, ("GPUProbeFailed", true) ∈ t.state.conditions ∧ g = t.condition "GPUProbeFailed" ∧
        ∃ s ∈ agentStore agents others, s.name = "up".toList ∧
          valueOf s.labels "job".toList = "amd-gpu-exporter".toList ∧
            group ["node".toList] s.labels = group ["node".toList] g := by
  have hcondition := @conditionRule_found _ _ now 0 hexact hothers "GPUProbeFailed" g
  have hseries : series "up" [is "job" "amd-gpu-exporter"] = .select "up".toList [is "job" "amd-gpu-exporter"] := rfl
  have hcount : ∀ g', g' ∈ (((series "up" [is "job" "amd-gpu-exporter"]).countBy ["node".toList]).filter
      (above 0)).found (agentStore agents others) ↔ ∃ s ∈ agentStore agents others, s.name = "up".toList ∧
        valueOf s.labels "job".toList = "amd-gpu-exporter".toList ∧ group ["node".toList] s.labels = g' := by
    intro g'
    rw [found_count, hseries]
    simp only [mem_select, List.mem_singleton, forall_eq, is, Matcher.accepts, decide_eq_true_eq]
    constructor
    · rintro ⟨⟨e, ⟨s, hs, hname, hjob, rfl⟩, hgroup⟩, -⟩
      exact ⟨s, hs, hname, hjob, hgroup⟩
    · rintro ⟨s, hs, hname, hjob, hgroup⟩
      refine ⟨⟨_, ⟨s, hs, hname, hjob, rfl⟩, hgroup⟩, ?_⟩
      refine (above_count _).trans (decide_eq_true (List.length_pos_of_mem (a := s.value) ?_))
      refine mem_valuesIn.mpr ⟨_, mem_select.mpr ⟨s, hs, hname, ?_, rfl⟩, hgroup, rfl⟩
      intro matcher hmatcher
      rw [List.mem_singleton.mp hmatcher]
      exact decide_eq_true hjob
  have hfilter : ((series "gpuhealth_condition" [is "condition" "GPUProbeFailed"]).filter (equals 1)).found
      (agentStore agents others) = ((conditionRule "GPUProbeFailed" 0).expr now).found (agentStore agents others) := rfl
  rw [gpuProbeFailed, found_andOn]
  simp only [hcount]
  constructor
  · rintro ⟨e, he, rfl, _, ⟨s, hs, hname, hjob, rfl⟩, hgroup⟩
    obtain ⟨t, ht, hc, hg⟩ := hcondition.mp (hfilter ▸ mem_found.mpr ⟨e, he, rfl⟩)
    rw [group_group] at hgroup
    exact ⟨t, ht, hc, hg, s, hs, hname, hjob, hgroup⟩
  · rintro ⟨t, ht, hc, hg, s, hs, hname, hjob, hgroup⟩
    obtain ⟨e, he, hlabels⟩ := mem_found.mp (hfilter ▸ hcondition.mpr ⟨t, ht, hc, hg⟩)
    exact ⟨e, he, hlabels, _, ⟨s, hs, hname, hjob, rfl⟩, group_group.trans hgroup⟩

/-- What is known when the rules are evaluated. -/
structure AgentView where
  clock : ℚ
  agents : List AgentTarget
  others : List (Sample Double)

def AgentView.evaluation (v : AgentView) : Evaluation Double := (v.clock, agentStore v.agents v.others)

/-- The alert of a condition fires exactly while evaluations for so long have found it active on the page of that
agent; one in another pod has other labels, so its alert starts anew. -/
theorem conditionRule_fires_iff {views : List AgentView} (hclock : views.Pairwise fun v v' => v.clock ≤ v'.clock)
    (hexact : ∀ v ∈ views, ∀ t ∈ v.agents, t.state.Exact) (hothers : ∀ v ∈ views, NotOfAgents v.others)
    (condition : String) (g : List Label) :
    (conditionRule condition hold).Fires (views.map AgentView.evaluation) g ↔
      ∃ before first rest last, views = before ++ first :: rest ∧ (first :: rest).getLast? = some last ∧
        (∀ v ∈ first :: rest, ∃ t ∈ v.agents, (condition, true) ∈ t.state.conditions ∧ g = t.condition condition) ∧
          hold ≤ last.clock - first.clock :=
  AlertRule.fires_map hclock fun v hv => conditionRule_found (hexact v hv) (hothers v hv)

/-- An agent that finds engine timeouts recurring. -/
def timeoutTarget : AgentTarget where
  host := "10.244.3.9:9101"
  pod := "gpu-health-agent-x7k2p"
  node := "gpu-0"
  state := { conditions := [("GPUEngineTimeout", true)] }

theorem timeoutTarget_exact : timeoutTarget.state.Exact where
  collectedAt := trivial
  collectSeconds := trivial
  lastHit := List.forall_mem_nil _
  maxSeconds := trivial
  gpuMaxSeconds := trivial
  scrapeSeconds := trivial
  counters := List.forall_mem_nil _

theorem conditionRule_fires_timeoutTarget :
    (conditionRule "GPUEngineTimeout" 600).Fires
      ([⟨0, [timeoutTarget], []⟩, ⟨630, [timeoutTarget], []⟩].map AgentView.evaluation)
      (timeoutTarget.condition "GPUEngineTimeout") := by
  have hexact : ∀ v ∈ [(⟨0, [timeoutTarget], []⟩ : AgentView), ⟨630, [timeoutTarget], []⟩], ∀ t ∈ v.agents,
      t.state.Exact := by simp [timeoutTarget_exact]
  refine (conditionRule_fires_iff (by simp) hexact (by simp [NotOfAgents]) _ _).mpr
    ⟨[], _, _, _, rfl, rfl, ?_, by norm_num⟩
  simp [timeoutTarget]

/-! ### The conditions of the API server -/

/-- The conditions that the rule about the API server looks for. -/
def bareConditions : List String := ["GPUUnrecoverable", "GPUWorkqueueStalled", "GPUHealthDataStale"]

/-- The samples of kube-state-metrics are of conditions of some Nodes, with the types as they are. -/
def FromNodes (nodes : List Node) (samples : List (Sample Double)) : Prop :=
  ∀ s ∈ samples, s.name = "kube_node_status_condition".toList → ∃ node ∈ nodes, ∃ c ∈ node.conditions, ∃ type,
    c.type = some type ∧ valueOf s.labels "condition".toList = type.toList

theorem mergeInto_type {conditions : List NodeCondition} {new c : NodeCondition} (h : c ∈ mergeInto conditions new) :
    c.type ∈ conditions.map (·.type) ∨ c.type = new.type := by
  unfold mergeInto at h
  split_ifs at h
  · obtain ⟨old, hold, rfl⟩ := List.mem_map.mp h
    refine .inl (List.mem_map.mpr ⟨old, hold, ?_⟩)
    split_ifs <;> rfl
  · rcases List.mem_append.mp h with h | h
    · exact .inl (List.mem_map_of_mem h)
    · exact .inr (congrArg _ (List.mem_singleton.mp h))

theorem applyPatch_type {patch : List NodeCondition} {node : Node} {c : NodeCondition}
    (h : c ∈ (applyPatch node patch).conditions) :
    c.type ∈ node.conditions.map (·.type) ∨ ∃ new ∈ patch, c.type = new.type := by
  unfold applyPatch at h
  induction patch generalizing node with
  | nil => exact .inl (List.mem_map_of_mem h)
  | cons new patch ih =>
    rcases @ih { node with conditions := mergeInto node.conditions new } h with hc | ⟨later, hlater, hc⟩
    · obtain ⟨old, hold, htype⟩ := List.mem_map.mp hc
      rw [← htype]
      exact (mergeInto_type hold).imp id fun htype => ⟨new, List.mem_cons_self, htype⟩
    · exact .inr ⟨later, List.mem_cons_of_mem _ hlater, hc⟩

/-- No agent brings a condition onto its Node but under a name with the prefix. -/
theorem run_type {w : World} {steps : List Agent.Step} {c : NodeCondition} (h : c ∈ (w.run steps).node.conditions) :
    c.type ∈ w.node.conditions.map (·.type) ∨ ∃ name : ConditionName, c.type = some name.type := by
  induction steps using List.reverseRecOn generalizing c with
  | nil => exact .inl (List.mem_map_of_mem h)
  | append_singleton steps step ih =>
    rw [World.run, List.foldl_append] at h
    cases step with
    | restart => exact ih h
    | publish p =>
      change c ∈ ((w.run steps).publish p).node.conditions at h
      rw [Agent.publish_node] at h
      split_ifs at h
      · rcases applyPatch_type h with hc | ⟨new, hnew, hc⟩
        · obtain ⟨old, hold, htype⟩ := List.mem_map.mp hc
          rw [← htype]
          exact ih hold
        · rw [Agent.observeAll_patch Agent.allConditions_nodup] at hnew
          obtain ⟨name, -, hentry⟩ := List.mem_filterMap.mp hnew
          obtain ⟨info, -, rfl⟩ := Option.map_eq_some_iff.mp hentry
          exact .inr ⟨name, hc⟩
      · exact ih h

/-- Whatever the agents publish, the rule about the conditions of the API server finds nothing. -/
theorem fromAPIServer_found {agents : List (World × List Agent.Step)} {samples : List (Sample Double)}
    (hbare : ∀ agent ∈ agents, ∀ c ∈ agent.1.node.conditions, ∀ type ∈ bareConditions, c.type ≠ some type)
    (hsamples : FromNodes (agents.map fun agent => (agent.1.run agent.2).node) samples) :
    (conditionFromAPIServer.expr now).found samples = [] := by
  refine List.eq_nil_iff_forall_not_mem.mpr fun g hg => ?_
  have hseries : ∀ matchers, series "kube_node_status_condition" matchers =
      .select "kube_node_status_condition".toList matchers := fun _ => rfl
  simp only [conditionFromAPIServer, found_filter, hseries, mem_select] at hg
  obtain ⟨e, ⟨s, hs, hname, haccepts, rfl⟩, -, -⟩ := hg
  have hmatch := haccepts _ List.mem_cons_self
  obtain ⟨node, hnode, c, hc, type, htype, hvalue⟩ := hsamples s hs hname
  rw [oneOf, Matcher.accepts, hvalue, decide_eq_true_eq] at hmatch
  obtain ⟨bare, hmem, heq⟩ := List.mem_map.mp hmatch
  obtain rfl : bare = type := String.toList_inj.mp heq
  obtain ⟨agent, hagent, rfl⟩ := List.mem_map.mp hnode
  rcases run_type hc with hold | ⟨name, hnew⟩
  · obtain ⟨old, hold, heq⟩ := List.mem_map.mp hold
    exact hbare agent hagent old hold bare hmem (heq.trans htype)
  · have hprefixed : ∀ name : ConditionName, name.type ∉ bareConditions := by
      rintro (_ | _ | _ | _ | _) <;> decide
    exact hprefixed name (Option.some.inj (htype.symm.trans hnew) ▸ hmem)

/-- What kube-state-metrics says of a condition that an agent has published. -/
def exportedCondition : Sample Double where
  name := "kube_node_status_condition".toList
  labels := [("node".toList, "gpu-0".toList), ("condition".toList, ConditionName.gpuUnrecoverable.type.toList),
    ("status".toList, "true".toList)]
  value := .finite 1

theorem fromAPIServer_exportedCondition : (conditionFromAPIServer.expr 30).found [exportedCondition] = [] := by
  refine @fromAPIServer_found _ [({ node := { name := some "gpu-0" } }, [.publish (Agent.allActive 0)])] _
    (by simp) ?_
  intro s hs _
  rw [List.mem_singleton.mp hs]
  exact ⟨_, List.mem_singleton_self _, _, List.mem_cons_self, _, rfl, rfl⟩

end GpuNodeHealth.Alerts
