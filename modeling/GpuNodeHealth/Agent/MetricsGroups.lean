import GpuNodeHealth.Agent.Metrics
import GpuNodeHealth.Guard.MetricsGroups

/-! Families in groups, for the agent. It writes the three families of the tasks in one
loop over the two scopes, so their lines alternate in every text. -/

namespace GpuNodeHealth.Agent.Exposition

open Metrics (Entry Grouped Label Metric Number Registry families intercalate_render_eq_nil isKey isName
  line?_sampleLine numeral_blank sampleLine sampleLine_newline)

variable {node : String} {m : Metric}

/-- What a call of `metric` comes to. -/
def entry (node : String) (m : Metric) : Entry :=
  { m.entry (fullName m.name) m.labelSet with line := metricLine (fullName m.name) (allLabels node m) m.value.str }

theorem render_eq (node : String) (state : State) :
    render node state = (((metrics state).map (entry node)).foldl Registry.write {}).text := by
  rw [render, List.foldl_map]
  rfl

/-- With labels the braces are there. -/
theorem metricLine_eq {full value : List Char} {labels : List Label} (h : labels ≠ []) :
    metricLine full labels value = sampleLine full labels value := by
  rw [metricLine, sampleLine, if_neg (mt intercalate_render_eq_nil.mp h), List.cons_append, List.append_assoc,
    List.singleton_append]

/-- Next to the node, one label of another name. -/
theorem allLabels_single {key value : String} (hkey : key ≠ "node") (h : m.labels = [(key, value)]) :
    allLabels node m = [("node".toList, node.toList), (key.toList, value.toList)] := by
  have hother : ¬("node".toList = key.toList) := fun heq => hkey (String.toList_inj.mp heq).symm
  simpa [allLabels, Metric.labelSet, h, setLabel] using hother

/-- The line of a call with one label belongs to its family. -/
theorem entry_tells {key value : String} (hname : isName (fullName m.name) = true) (hkey : isKey key.toList = true)
    (hother : key ≠ "node") (h : m.labels = [(key, value)]) : (entry node m).Tells := by
  have hkeys : ∀ label ∈ allLabels node m, isKey label.1 = true := by
    rw [allLabels_single hother h]
    simp only [List.forall_mem_cons]
    exact ⟨by decide, hkey, nofun⟩
  have hlabels : allLabels node m ≠ [] := by
    rw [allLabels_single hother h]
    exact List.cons_ne_nil _ _
  have hline : (entry node m).line = sampleLine (fullName m.name) (allLabels node m) m.value.str :=
    metricLine_eq hlabels
  constructor
  · have hread : Metrics.line? some (sampleLine (fullName m.name) (allLabels node m) m.value.str) =
        some (.sample { name := fullName m.name, labels := allLabels node m, value := m.value.str }) :=
      line?_sampleLine hname hkeys m.value.str_numeral m.value.str_ne_nil rfl
    rw [hline, Metrics.family?, hread]
    rfl
  · rw [hline]
    exact sampleLine_newline hname hkeys fun hmem => (numeral_blank (m.value.str_numeral _ hmem)).2.2 rfl

/-- Two calls for the first scope, and the one for the second that comes back to the first family. -/
theorem scopes_sublist (d : DStateState) : ∃ ms : List Metric, ms.Sublist (dstateMetrics d) ∧
    ms.map Metric.name = ["dstate_processes", "dstate_stuck_processes", "dstate_processes"] ∧
      ∀ m ∈ ms, ∃ scope, m.labels = [("scope", scope)] := by
  refine ⟨(scopeMetrics "all" d.total d.stuck d.maxSeconds).take 2 ++
    (scopeMetrics "gpu_worker" d.gpuTotal d.gpuStuck d.gpuMaxSeconds).take 1, ?_, rfl, ?_⟩
  · exact ((List.take_sublist _ _).trans (List.sublist_append_right _ _)).append (List.take_sublist _ _)
  · simp [scopeMetrics]

theorem render_not_grouped (node : String) (state : State) : ¬Grouped (families (render node state)) := by
  obtain ⟨ms, hms, hnames, hlabels⟩ := scopes_sublist state.dstate
  have hall : ms.Sublist (metrics state) := hms.trans (((((List.sublist_append_right _ _).trans
    (List.sublist_append_left _ _)).trans (List.sublist_append_left _ _)).trans (List.sublist_append_left _ _)))
  have hproper : ∀ name ∈ ms.map Metric.name, isName (fullName name) = true := by
    rw [hnames]
    decide
  have htells : ∀ e ∈ ms.map (entry node), e.Tells := by
    intro e he
    obtain ⟨m, hm, rfl⟩ := List.mem_map.mp he
    obtain ⟨scope, hscope⟩ := hlabels m hm
    exact entry_tells (hproper _ (List.mem_map_of_mem hm)) (by decide) (by decide) hscope
  have hne : (metrics state).map (entry node) ≠ [] := fun hnil => List.cons_ne_nil _ _ (List.map_eq_nil_iff.mp hnil)
  have hfamilies := Metrics.families_sublist (hall.map (entry node)) htells hne
  have hfull : (ms.map (entry node)).map Entry.full = (ms.map Metric.name).map fullName := by
    rw [List.map_map, List.map_map]
    rfl
  rw [hfull, hnames] at hfamilies
  rw [render_eq]
  exact fun hgrouped => absurd (hgrouped _ _ hfamilies) (by decide)

/-- In the guard's text every family stands together exactly if there are at most one node
and at most one exporter, in the agent's text it never does. -/
theorem families_together (guard : Guard.State) (node : String) (state : State) :
    (Grouped (families (Guard.render guard)) ↔
      guard.nodeStates.length ≤ 1 ∧ guard.exporterDecisions.length ≤ 1) ∧
    ¬Grouped (families (render node state)) :=
  ⟨Guard.render_grouped_iff guard, render_not_grouped node state⟩

/-- Two nodes, none of them cordoned, and an agent that has not collected yet. -/
theorem families_alternate :
    ¬Grouped (families (Guard.render
      { mode := "observe", minHealthyNodes := 2, nodeStates := [⟨"gpu-1", 0, 1⟩, ⟨"gpu-2", 0, 1⟩] })) ∧
    ¬Grouped (families (render "gpu-1" {})) :=
  ⟨fun hgrouped => absurd ((Guard.render_grouped_iff _).mp hgrouped).1 (by decide), render_not_grouped _ _⟩

end GpuNodeHealth.Agent.Exposition
