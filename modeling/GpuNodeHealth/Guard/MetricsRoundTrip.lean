import GpuNodeHealth.Guard.Metrics
import GpuNodeHealth.Text.Splitlines

/-! The text of the guard's metrics is read as the samples that were passed to `metric`,
in order, each family with its type in front. Of a state with names of their own no two
samples are of one series. -/

namespace GpuNodeHealth.Guard

open Agent (float?)
open Metrics
open Text (lineBreak)

variable {state : State} {m : Metric}

/-- What a call of `metric` is meant to say. -/
def sampleOf (m : Metric) : Sample Number := m.sample (fullName m.name) m.value

/-- A call with proper names, a proper type, a help text of one line, and a number of Python. -/
structure Proper (m : Metric) : Prop where
  named : isName (fullName m.name) = true
  keys : ∀ label ∈ m.labelSet, isKey label.1 = true
  kind : m.mtype.toList ∈ kinds
  help : ∀ c ∈ m.helpText.toList, lineBreak c = false
  value : m.value.Exact

/-- What of this the names settle. -/
def properNames (name mtype : String) (keys : List String) : Bool :=
  isName (fullName name) && keys.all (fun key => isKey key.toList) && mtype.toList ∈ kinds

theorem proper_of {name mtype helpText : String} {value : Number} {labels : List (String × String)}
    (keys : List String) (hkeys : labels.map Prod.fst = keys) (h : properNames name mtype keys = true)
    (hhelp : ∀ c ∈ helpText.toList, lineBreak c = false) (hvalue : value.Exact) :
    Proper { name, value, labels, mtype, helpText } := by
  simp only [properNames, Bool.and_eq_true, List.all_eq_true, decide_eq_true_eq] at h
  obtain ⟨⟨hname, hkey⟩, hkind⟩ := h
  refine ⟨hname, fun label hlabel => ?_, hkind, hhelp, hvalue⟩
  obtain ⟨l, hl, rfl⟩ := List.mem_map.mp hlabel
  exact hkey l.1 (hkeys ▸ List.mem_map_of_mem hl)

theorem seconds_exact (dec : PodDecision) : dec.seconds.Exact := by
  unfold PodDecision.seconds
  split_ifs
  · trivial
  · exact exact_round _

theorem stateMetrics_proper (state : State) : ∀ m ∈ stateMetrics state, Proper m := by
  unfold stateMetrics
  simp only [List.forall_mem_cons]
  refine ⟨?_, ?_, ?_, ?_, ?_, ?_, ?_, ?_, ?_, ?_, nofun⟩
  all_goals
    refine proper_of [] rfl (by decide +kernel) ?_ trivial
    repeat rw [String.toList_append]
    repeat rw [String.toList_ofList]
    decide +kernel

theorem nodeStateMetrics_proper (st : NodeState) : ∀ m ∈ nodeStateMetrics st, Proper m := by
  unfold nodeStateMetrics
  simp only [List.forall_mem_cons]
  refine ⟨?_, ?_, nofun⟩
  all_goals
    refine proper_of ["node"] rfl (by decide +kernel) ?_ trivial
    repeat rw [String.toList_append]
    repeat rw [String.toList_ofList]
    decide +kernel

theorem decisionMetric_proper (dec : Decision) : Proper (decisionMetric dec) := by
  refine proper_of ["node", "action", "reason", "level", "condition"] rfl (by decide +kernel) ?_ trivial
  repeat rw [String.toList_append]
  repeat rw [String.toList_ofList]
  decide +kernel

theorem exporterMetrics_proper (dec : PodDecision) : ∀ m ∈ exporterMetrics dec, Proper m := by
  unfold exporterMetrics
  simp only [List.forall_mem_cons]
  refine ⟨proper_of ["exporter_pod", "node", "action", "reason"] rfl (by decide +kernel) ?_ trivial,
    proper_of ["exporter_pod", "node"] rfl (by decide +kernel) ?_ (seconds_exact dec), nofun⟩
  all_goals
    repeat rw [String.toList_append]
    repeat rw [String.toList_ofList]
    decide +kernel

theorem metrics_proper (state : State) : ∀ m ∈ metrics state, Proper m := by
  intro m hm
  simp only [metrics, List.mem_append, List.mem_flatMap, List.mem_map] at hm
  rcases hm with ((hm | ⟨st, -, hm⟩) | ⟨dec, -, rfl⟩) | ⟨dec, -, hm⟩
  · exact stateMetrics_proper state m hm
  · exact nodeStateMetrics_proper st m hm
  · exact decisionMetric_proper dec
  · exact exporterMetrics_proper dec m hm

/-! ### Reading -/

/-- The calls with what they are read as. -/
def reads {β : Type*} (meaning : Number → β) (state : State) : List (Entry × Sample β) :=
  (metrics state).map fun m => (m.entry (fullName m.name) m.labelSet, m.sample (fullName m.name) (meaning m.value))

theorem reads_fst {β : Type*} (meaning : Number → β) (state : State) : (reads meaning state).map Prod.fst =
    (metrics state).map fun m => m.entry (fullName m.name) m.labelSet := by
  rw [reads, List.map_map]
  rfl

theorem render_eq (state : State) : render state =
    (((metrics state).map fun m => m.entry (fullName m.name) m.labelSet).foldl Registry.write {}).text := by
  rw [render, List.foldl_map]
  rfl

/-- Whatever a reader makes of the numbers, every call is read as what it is. -/
theorem reads_entries {β : Type*} {readValue : List Char → Option β} {meaning : Number → β}
    (h : ∀ v : Number, v.Exact → readValue v.str = some (meaning v)) (state : State) :
    ∀ p ∈ reads meaning state, p.1.Reads readValue p.2 := by
  intro p hp
  obtain ⟨m, hm, rfl⟩ := List.mem_map.mp hp
  have hproper := metrics_proper state m hm
  have hhelp : '\n' ∉ m.helpText.toList := fun hmem => absurd (hproper.help _ hmem) (by decide)
  exact Metric.entry_reads hproper.named hproper.keys hproper.kind hhelp (h m.value hproper.value)

theorem reads_ne_nil {β : Type*} (meaning : Number → β) (state : State) : reads meaning state ≠ [] := by
  simp [reads, metrics, stateMetrics]

theorem parse_render {β : Type*} {readValue : List Char → Option β} {meaning : Number → β}
    (h : ∀ v : Number, v.Exact → readValue v.str = some (meaning v)) (state : State) :
    parse readValue (render state) = some (readLines [] (reads meaning state)) := by
  rw [render_eq, ← reads_fst meaning]
  exact parse_text (reads_entries h state) (reads_ne_nil meaning state)

/-! ### Series -/

/-- Two samples of one series. -/
def SameSeries {β : Type*} (s t : Sample β) : Prop := s.name = t.name ∧ s.labelMap = t.labelMap

theorem fullName_inj {name name' : String} (h : fullName name = fullName name') : name = name' :=
  String.toList_inj.mp (List.cons.inj (List.append_cancel_left h)).2

/-- Calls for families of their own. -/
theorem sameSeries_name {m m' : Metric} (h : m.name ≠ m'.name) : ¬SameSeries (sampleOf m) (sampleOf m') :=
  fun hsame => h (fullName_inj hsame.1)

/-- Calls whose first labels differ. -/
theorem sameSeries_label {m m' : Metric} {key value value' : String} {rest rest' : List (String × String)}
    (hm : m.labels = (key, value) :: rest) (hm' : m'.labels = (key, value') :: rest') (h : value ≠ value') :
    ¬SameSeries (sampleOf m) (sampleOf m') := by
  rintro ⟨-, hmap⟩
  have hvalue := congrFun hmap key.toList
  simp only [Sample.labelMap, sampleOf, Metric.sample, Metric.labelSet, hm, hm', List.map_cons,
    List.lookup_cons_self, Option.some.injEq] at hvalue
  exact h (String.toList_inj.mp hvalue)

theorem pairwise_of_names {ms : List Metric} (h : (ms.map Metric.name).Nodup) :
    ms.Pairwise fun m m' => ¬SameSeries (sampleOf m) (sampleOf m') :=
  (List.pairwise_map.mp h).imp sameSeries_name

theorem apart_of_names {ms ms' : List Metric} (h : (ms.map Metric.name).Disjoint (ms'.map Metric.name)) :
    ∀ m ∈ ms, ∀ m' ∈ ms', ¬SameSeries (sampleOf m) (sampleOf m') := fun _ hm _ hm' =>
  sameSeries_name fun heq => h (List.mem_map_of_mem hm) (heq ▸ List.mem_map_of_mem hm')

/-- Of entities with names of their own, each with the same families. -/
theorem pairwise_flatMap_of_label {α : Type*} {xs : List α} {calls : α → List Metric} (key : String) {of : α → String}
    {names : List String} (hxs : (xs.map of).Nodup) (hnames : ∀ x, (calls x).map Metric.name = names)
    (hnodup : names.Nodup) (hlabel : ∀ x, ∀ m ∈ calls x, ∃ rest, m.labels = (key, of x) :: rest) :
    (xs.flatMap calls).Pairwise fun m m' => ¬SameSeries (sampleOf m) (sampleOf m') := by
  refine List.pairwise_flatMap.mpr ⟨fun x _ => pairwise_of_names (by rw [hnames]; exact hnodup), ?_⟩
  refine (List.pairwise_map.mp hxs).imp fun {x y} hne m hm m' hm' => ?_
  obtain ⟨rest, hrest⟩ := hlabel x m hm
  obtain ⟨rest', hrest'⟩ := hlabel y m' hm'
  exact sameSeries_label hrest hrest' hne

theorem names_flatMap {α : Type*} {xs : List α} {calls : α → List Metric} {names : List String}
    (hnames : ∀ x, (calls x).map Metric.name = names) : (xs.flatMap calls).map Metric.name ⊆ names := by
  intro name hname
  obtain ⟨m, hm, rfl⟩ := List.mem_map.mp hname
  obtain ⟨x, -, hx⟩ := List.mem_flatMap.mp hm
  rw [← hnames x]
  exact List.mem_map_of_mem hx

def stateNames : List String :=
  ["up", "is_leader", "enforce_mode", "last_loop_timestamp_seconds", "loop_errors_total", "event_errors_total",
    "nodes_watched", "healthy_capacity", "min_healthy_nodes", "cordons_total"]

def nodeStateNames : List String := ["node_unschedulable", "node_ready"]

def exporterNames : List String := ["exporter_decision", "exporter_unreachable_seconds"]

/-- The families, one after the other. -/
theorem names_nodup : (stateNames ++ nodeStateNames ++ ["decision"] ++ exporterNames).Nodup := by decide

theorem nodeStateMetrics_label {st : NodeState} (h : m ∈ nodeStateMetrics st) :
    ∃ rest, m.labels = ("node", st.node) :: rest := by
  simp only [nodeStateMetrics, List.mem_cons, List.not_mem_nil, or_false] at h
  rcases h with rfl | rfl
  · exact ⟨_, rfl⟩
  · exact ⟨_, rfl⟩

theorem exporterMetrics_label {dec : PodDecision} (h : m ∈ exporterMetrics dec) :
    ∃ rest, m.labels = ("exporter_pod", dec.pod) :: rest := by
  simp only [exporterMetrics, List.mem_cons, List.not_mem_nil, or_false] at h
  rcases h with rfl | rfl
  · exact ⟨_, rfl⟩
  · exact ⟨_, rfl⟩

theorem nodeStateMetrics_name {st : NodeState} (h : m ∈ nodeStateMetrics st) : m.name ∈ nodeStateNames :=
  List.mem_map_of_mem h

theorem exporterMetrics_name {dec : PodDecision} (h : m ∈ exporterMetrics dec) : m.name ∈ exporterNames :=
  List.mem_map_of_mem h

/-- With names of their own no two calls are for one series. -/
theorem metrics_distinct (hnodes : (state.nodeStates.map (·.node)).Nodup)
    (hdecisions : (state.decisions.map (·.node)).Nodup) (hpods : (state.exporterDecisions.map (·.pod)).Nodup) :
    (metrics state).Pairwise fun m m' => ¬SameSeries (sampleOf m) (sampleOf m') := by
  have hstate : (stateMetrics state).map Metric.name = stateNames := rfl
  have hnode : ∀ st, (nodeStateMetrics st).map Metric.name = nodeStateNames := fun _ => rfl
  have hdecision : ∀ dec, [decisionMetric dec].map Metric.name = ["decision"] := fun _ => rfl
  have hexporter : ∀ dec, (exporterMetrics dec).map Metric.name = exporterNames := fun _ => rfl
  have hflat : state.decisions.map decisionMetric = state.decisions.flatMap fun dec => [decisionMetric dec] :=
    List.map_eq_flatMap
  obtain ⟨hfront, hexporters, hbehind⟩ := List.nodup_append.mp names_nodup
  obtain ⟨hfront, hdec, hdecs⟩ := List.nodup_append.mp hfront
  obtain ⟨hnames, hnodeNames, hstates⟩ := List.nodup_append.mp hfront
  rw [metrics, hflat]
  refine List.pairwise_append.mpr ⟨List.pairwise_append.mpr ⟨List.pairwise_append.mpr ⟨?_, ?_, ?_⟩, ?_, ?_⟩, ?_, ?_⟩
  · exact pairwise_of_names (hstate ▸ hnames)
  · exact pairwise_flatMap_of_label "node" hnodes hnode hnodeNames fun st m => nodeStateMetrics_label
  · refine apart_of_names fun name hname hname' => ?_
    exact hstates name (hstate ▸ hname) name (names_flatMap hnode hname') rfl
  · refine pairwise_flatMap_of_label "node" hdecisions hdecision hdec fun dec m hm => ?_
    obtain rfl := List.mem_singleton.mp hm
    exact ⟨_, rfl⟩
  · refine apart_of_names fun name hname hname' => ?_
    rw [List.map_append, List.mem_append] at hname
    refine hdecs name (List.mem_append.mpr ?_) name (names_flatMap hdecision hname') rfl
    exact hname.imp (fun h => hstate ▸ h) fun h => names_flatMap hnode h
  · exact pairwise_flatMap_of_label "exporter_pod" hpods hexporter hexporters fun dec m => exporterMetrics_label
  · refine apart_of_names fun name hname hname' => ?_
    rw [List.map_append, List.map_append, List.mem_append, List.mem_append] at hname
    refine hbehind name (List.mem_append.mpr ?_) name (names_flatMap hexporter hname') rfl
    rcases hname with (h | h) | h
    · exact .inl (List.mem_append_left _ (hstate ▸ h))
    · exact .inl (List.mem_append_right _ (names_flatMap hnode h))
    · exact .inr (names_flatMap hdecision h)

/-! ### The round trip -/

/-- The text is read as the samples that were passed, in order, as Python means the
numbers and as doubles. The type of every family stands once, in front of its first
sample, and with names of their own no two samples are of one series. -/
theorem exposition_round_trip (state : State) : ∃ lines, parse Number.read (render state) = some lines ∧
    lines.filterMap Line.sample? = (metrics state).map sampleOf ∧
    (parse float? (render state)).map (List.filterMap Line.sample?) =
      some ((metrics state).map fun m => m.sample (fullName m.name) m.value.toDouble) ∧
    (∀ front s back, lines = front ++ .sample s :: back →
      front.countP (Line.types s.name) = 1 ∧ back.countP (Line.types s.name) = 0) ∧
    ((state.nodeStates.map (·.node)).Nodup → (state.decisions.map (·.node)).Nodup →
      (state.exporterDecisions.map (·.pod)).Nodup →
        (lines.filterMap Line.sample?).Pairwise fun s t => ¬(s.name = t.name ∧ s.labelMap = t.labelMap)) := by
  have hsamples : (readLines [] (reads id state)).filterMap Line.sample? = (metrics state).map sampleOf := by
    rw [samples_readLines, reads, List.map_map]
    rfl
  have hfamily : ∀ p ∈ reads (id : Number → Number) state, p.2.name = p.1.full := by
    intro p hp
    obtain ⟨m, -, rfl⟩ := List.mem_map.mp hp
    rfl
  refine ⟨readLines [] (reads id state), parse_render (fun _ => Number.read_str) state, hsamples, ?_,
    fun front s back hlines => ?_, fun hnodes hdecisions hpods => ?_⟩
  · have hdoubles : ∀ v : Number, v.Exact → float? v.str = some v.toDouble := fun _ => Number.float?_str
    rw [parse_render hdoubles state, Option.map_some,
      samples_readLines, reads, List.map_map]
    rfl
  · have honce := types_once hfamily hlines
    rw [if_neg List.not_mem_nil] at honce
    exact honce
  · rw [hsamples]
    exact List.pairwise_map.mpr (metrics_distinct hnodes hdecisions hpods)

/-- Two nodes, one with a name that has to be escaped. -/
def quotedNode : State where
  mode := "enforce"
  minHealthyNodes := 1
  nodesWatched := 2
  decisions := [⟨"gpu-0", .noop, .healthy, none, "", ""⟩,
    ⟨"gpu\\\"1\n", .noop, .observeMode, some .l3, gpuUnrecoverable, ""⟩]
  exporterDecisions := [⟨"exporter-0", "gpu-0", .noop, .reachable, 0, ""⟩]
  nodeStates := [⟨"gpu-0", 0, 1⟩, ⟨"gpu\\\"1\n", 0, 1⟩]

theorem exposition_quotedNode : ∃ lines, parse Number.read (render quotedNode) = some lines ∧
    lines.filterMap Line.sample? = (metrics quotedNode).map sampleOf ∧
    (lines.filterMap Line.sample?).Pairwise fun s t => ¬(s.name = t.name ∧ s.labelMap = t.labelMap) := by
  obtain ⟨lines, hparse, hsamples, -, -, hdistinct⟩ := exposition_round_trip quotedNode
  exact ⟨lines, hparse, hsamples, hdistinct (by decide) (by decide) (by decide)⟩

end GpuNodeHealth.Guard
