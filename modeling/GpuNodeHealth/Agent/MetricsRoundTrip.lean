import GpuNodeHealth.Agent.MetricsGroups
import GpuNodeHealth.Guard.MetricsRoundTrip

/-! The text of the agent's metrics is read as the samples that were passed to `metric`,
in order, each of them with the node in front of its labels. -/

namespace GpuNodeHealth.Agent.Exposition

open Guard (SameSeries)
open Metrics (Entry Label Line Metric Number Registry isKey isName kinds parse parse_text readLines
  samples_readLines types_once)

variable {node : String} {state : State} {m : Metric}

/-- The labels of a sample: the node, and what the call has. -/
def withNode (node : String) (m : Metric) : List Label := ("node".toList, node.toList) :: m.labelSet

/-- What a call is read as, by what its number is read as. -/
def sampleAs {β : Type*} (node : String) (meaning : Number → β) (m : Metric) : Metrics.Sample β where
  name := fullName m.name
  labels := withNode node m
  value := meaning m.value

/-- What a call of `metric` is meant to say. -/
def sampleOf (node : String) (m : Metric) : Metrics.Sample Number := sampleAs node id m

/-! ### Labels -/

theorem setLabel_new {labels : List Label} {label : Label} (h : label.1 ∉ labels.map Prod.fst) :
    setLabel labels label = labels ++ [label] := by
  have hother : labels.any (·.1 = label.1) = false := by
    rw [List.any_eq_false]
    intro l hl
    have hne : l.1 ≠ label.1 := fun heq => h (heq ▸ List.mem_map_of_mem hl)
    simpa using hne
  rw [setLabel, hother, if_neg Bool.false_ne_true]

theorem foldl_setLabel {labels more : List Label} (h : ((labels ++ more).map Prod.fst).Nodup) :
    more.foldl setLabel labels = labels ++ more := by
  induction more generalizing labels with
  | nil => exact (List.append_nil _).symm
  | cons label more ih =>
    have hsplit : labels ++ label :: more = labels ++ [label] ++ more := by simp
    rw [List.foldl_cons, hsplit]
    rw [hsplit] at h
    have hfront : ((labels ++ [label]).map Prod.fst).Nodup := by
      rw [List.map_append] at h
      exact h.of_append_left
    have hnew : label.1 ∉ labels.map Prod.fst := by
      rw [List.map_append, List.map_singleton, List.nodup_append] at hfront
      exact fun hmem => hfront.2.2 _ hmem _ (List.mem_singleton.mpr rfl) rfl
    rw [setLabel_new hnew, ih h]

theorem keys_labelSet (m : Metric) : m.labelSet.map Prod.fst = (m.labels.map Prod.fst).map String.toList := by
  rw [Metric.labelSet, List.map_map, List.map_map]
  rfl

/-- No label of a call takes the place of another. -/
theorem allLabels_eq (h : ("node" :: m.labels.map Prod.fst).Nodup) : allLabels node m = withNode node m := by
  refine foldl_setLabel ?_
  rw [List.singleton_append, List.map_cons, keys_labelSet]
  exact h.map (f := String.toList) fun a b => String.toList_inj.mp

/-! ### Calls -/

/-- A call with proper names, labels of its own, a proper type, a help text of one line,
and a number of Python. -/
structure Proper (m : Metric) : Prop where
  named : isName (fullName m.name) = true
  keys : ∀ label ∈ m.labelSet, isKey label.1 = true
  own : ("node" :: m.labels.map Prod.fst).Nodup
  kind : m.mtype.toList ∈ kinds
  help : '\n' ∉ m.helpText.toList
  value : m.value.Exact

/-- What of this the names settle. -/
def properNames (name mtype : String) (keys : List String) : Bool :=
  isName (fullName name) && keys.all (fun key => isKey key.toList) && decide ("node" :: keys).Nodup &&
    mtype.toList ∈ kinds

theorem proper_of {name mtype helpText : String} {value : Number} {labels : List (String × String)}
    (keys : List String) (hkeys : labels.map Prod.fst = keys) (h : properNames name mtype keys = true)
    (hhelp : '\n' ∉ helpText.toList) (hvalue : value.Exact) :
    Proper { name, value, labels, mtype, helpText } := by
  simp only [properNames, Bool.and_eq_true, List.all_eq_true, decide_eq_true_eq] at h
  obtain ⟨⟨⟨hname, hkey⟩, hown⟩, hkind⟩ := h
  refine ⟨hname, fun label hlabel => ?_, hkeys ▸ hown, hkind, hhelp, hvalue⟩
  obtain ⟨l, hl, rfl⟩ := List.mem_map.mp hlabel
  exact hkey l.1 (hkeys ▸ List.mem_map_of_mem hl)

/-- Every number of a state is one of Python's, and the counters of the patches have names. -/
structure State.Exact (state : State) : Prop where
  collectedAt : state.collectedAt.Exact
  collectSeconds : state.collectSeconds.Exact
  lastHit : ∀ hit ∈ state.kernlog.lastHit, hit.2.Exact
  maxSeconds : state.dstate.maxSeconds.Exact
  gpuMaxSeconds : state.dstate.gpuMaxSeconds.Exact
  scrapeSeconds : state.exporter.scrapeSeconds.Exact
  counters : ∀ counter ∈ state.patch.counters, isName (fullName ("patch_" ++ counter.1)) = true

theorem roundThousandth_exact {v : Number} (h : v.Exact) : (roundThousandth v).Exact := by
  unfold roundThousandth
  split
  · exact Metrics.exact_round _
  · exact h

theorem mem_sorted {α : Type} {items : List (String × α)} {item : String × α} :
    item ∈ sorted items ↔ item ∈ items := List.mem_mergeSort

theorem agentMetrics_proper (h : state.Exact) : ∀ m ∈ agentMetrics state, Proper m := by
  unfold agentMetrics
  simp only [List.forall_mem_cons]
  refine ⟨proper_of [] rfl (by decide) ?_ trivial,
    proper_of [] rfl (by decide) ?_ (roundThousandth_exact h.collectedAt),
    proper_of [] rfl (by decide) ?_ h.collectSeconds, proper_of [] rfl (by decide) ?_ trivial,
    List.forall_mem_nil _⟩
  all_goals
    repeat rw [String.toList_ofList]
    decide

theorem kernlogMetrics_proper (h : state.Exact) : ∀ m ∈ kernlogMetrics state.kernlog, Proper m := by
  intro m hm
  simp only [kernlogMetrics, List.mem_append, List.mem_map] at hm
  rcases hm with (⟨hit, -, rfl⟩ | ⟨hit, hhit, rfl⟩) | ⟨file, -, rfl⟩
  · refine proper_of ["rule", "severity"] rfl (by decide) ?_ trivial
    rw [String.toList_ofList]
    decide
  · refine proper_of ["rule"] rfl (by decide) ?_ (roundThousandth_exact (h.lastHit _ (mem_sorted.mp hhit)))
    rw [String.toList_ofList]
    decide
  · refine proper_of ["path"] rfl (by decide) ?_ trivial
    rw [String.toList_ofList]
    decide

theorem scopeMetrics_proper {scope : String} {total stuck : ℕ} {maxSeconds : Number} (h : maxSeconds.Exact) :
    ∀ m ∈ scopeMetrics scope total stuck maxSeconds, Proper m := by
  unfold scopeMetrics
  simp only [List.forall_mem_cons]
  refine ⟨proper_of ["scope"] rfl (by decide) ?_ trivial,
    proper_of ["scope"] rfl (by decide) ?_ trivial, proper_of ["scope"] rfl (by decide) ?_ h,
    List.forall_mem_nil _⟩
  all_goals
    repeat rw [String.toList_append]
    repeat rw [String.toList_ofList]
    decide

theorem dstateMetrics_proper (h : state.Exact) : ∀ m ∈ dstateMetrics state.dstate, Proper m := by
  unfold dstateMetrics
  simp only [List.forall_mem_append, List.forall_mem_cons]
  refine ⟨⟨⟨proper_of [] rfl (by decide) ?_ trivial, proper_of [] rfl (by decide) ?_ trivial,
    List.forall_mem_nil _⟩, scopeMetrics_proper h.maxSeconds⟩, scopeMetrics_proper h.gpuMaxSeconds⟩
  all_goals
    repeat rw [String.toList_append]
    repeat rw [String.toList_ofList]
    decide

theorem exporterMetrics_proper (h : state.Exact) : ∀ m ∈ exporterMetrics state.exporter, Proper m := by
  unfold exporterMetrics
  simp only [List.forall_mem_append, List.forall_mem_cons, List.forall_mem_map]
  refine ⟨⟨proper_of [] rfl (by decide) ?_ trivial, proper_of [] rfl (by decide) ?_ h.scrapeSeconds,
    proper_of [] rfl (by decide) ?_ trivial, proper_of [] rfl (by decide) ?_ trivial,
    List.forall_mem_nil _⟩, fun u _ => proper_of ["gpu_id", "namespace", "pod", "container"] rfl
      (by decide) ?_ trivial⟩
  all_goals
    repeat rw [String.toList_ofList]
    decide

theorem counter_kind : "counter".toList ∈ kinds := by decide

theorem patchMetrics_proper (h : state.Exact) : ∀ m ∈ patchMetrics state.patch, Proper m := by
  unfold patchMetrics
  simp only [List.forall_mem_cons, List.forall_mem_map]
  refine ⟨proper_of [] rfl (by decide) ?_ trivial, fun counter hcounter => ?_⟩
  · rw [String.toList_ofList]
    decide
  · exact {
      named := h.counters _ (mem_sorted.mp hcounter)
      keys := List.forall_mem_nil _
      own := List.nodup_singleton _
      kind := counter_kind
      help := List.not_mem_nil
      value := trivial }

theorem conditionMetrics_proper (conditions : List (String × Bool)) : ∀ m ∈ conditionMetrics conditions, Proper m := by
  unfold conditionMetrics
  simp only [List.forall_mem_map]
  refine fun condition _ => proper_of ["condition"] rfl (by decide) ?_ trivial
  rw [String.toList_ofList]
  decide

theorem metrics_proper (h : state.Exact) : ∀ m ∈ metrics state, Proper m := by
  unfold metrics
  simp only [List.forall_mem_append]
  exact ⟨⟨⟨⟨⟨agentMetrics_proper h, kernlogMetrics_proper h⟩, dstateMetrics_proper h⟩, exporterMetrics_proper h⟩,
    patchMetrics_proper h⟩, conditionMetrics_proper _⟩

/-! ### Reading -/

section Reading

variable {β : Type*} {readValue : List Char → Option β} {meaning : Number → β}

theorem node_key : isKey "node".toList = true := by decide

theorem entry_reads (hm : Proper m) (h : readValue m.value.str = some (meaning m.value)) :
    (entry node m).Reads readValue (sampleAs node meaning m) := by
  have hkeys : ∀ label ∈ withNode node m, isKey label.1 = true :=
    List.forall_mem_cons.mpr ⟨node_key, hm.keys⟩
  have hline : (entry node m).line = Metrics.sampleLine (fullName m.name) (withNode node m) m.value.str := by
    show metricLine _ _ _ = _
    rw [allLabels_eq hm.own]
    exact metricLine_eq (List.cons_ne_nil _ _)
  constructor
  · rfl
  · exact hm.named
  · exact hm.kind
  · exact hm.help
  · rw [hline]
    exact Metrics.line?_sampleLine hm.named hkeys m.value.str_numeral m.value.str_ne_nil h
  · rw [hline]
    exact Metrics.sampleLine_newline hm.named hkeys fun hmem =>
      (Metrics.numeral_blank (m.value.str_numeral _ hmem)).2.2 rfl

/-- The calls with what they are read as. -/
def reads (node : String) (meaning : Number → β) (state : State) : List (Entry × Metrics.Sample β) :=
  (metrics state).map fun m => (entry node m, sampleAs node meaning m)

theorem parse_render (h : ∀ v : Number, v.Exact → readValue v.str = some (meaning v)) (hstate : state.Exact) :
    parse readValue (render node state) = some (readLines [] (reads node meaning state)) := by
  have hentries : ∀ p ∈ reads node meaning state, p.1.Reads readValue p.2 := by
    intro p hp
    obtain ⟨m, hm, rfl⟩ := List.mem_map.mp hp
    have hproper := metrics_proper hstate m hm
    exact entry_reads hproper (h m.value hproper.value)
  have hfirst : (reads node meaning state).map Prod.fst = (metrics state).map (entry node) := by
    rw [reads, List.map_map]
    rfl
  have hne : reads node meaning state ≠ [] := by simp [reads, metrics, agentMetrics]
  rw [render_eq, ← hfirst]
  exact parse_text hentries hne

theorem samples_render (node : String) (meaning : Number → β) (state : State) :
    (readLines [] (reads node meaning state)).filterMap Line.sample? =
      (metrics state).map (sampleAs node meaning) := by
  rw [samples_readLines, reads, List.map_map]
  rfl

end Reading

/-! ### Series -/

/-- The families with labels, and the names of these. -/
def familyKeys : List (String × List String) :=
  [("kernlog_events_total", ["rule", "severity"]), ("kernlog_last_event_timestamp_seconds", ["rule"]),
    ("kernlog_file_readable", ["path"]), ("dstate_processes", ["scope"]), ("dstate_stuck_processes", ["scope"]),
    ("dstate_max_seconds", ["scope"]),
    ("exporter_gpu_unhealthy_info", ["gpu_id", "namespace", "pod", "container"]), ("condition", ["condition"])]

def keysOf (name : String) : List String := (familyKeys.lookup name).getD []

/-- What tells the samples of a node apart. -/
def series (m : Metric) : String × List (String × String) := (m.name, m.labels)

theorem patch_ne {name counter : String} (h : name.toList.take 6 ≠ "patch_".toList) : "patch_" ++ counter ≠ name := by
  rintro rfl
  rw [String.toList_append] at h
  exact h rfl

/-- A call with the labels of its family. -/
def Keyed (m : Metric) : Prop := m.labels.map Prod.fst = keysOf m.name

theorem scopeMetrics_keyed (scope : String) (total stuck : ℕ) (maxSeconds : Number) :
    ∀ m ∈ scopeMetrics scope total stuck maxSeconds, Keyed m := by
  simp only [scopeMetrics, List.forall_mem_cons]
  exact ⟨rfl, rfl, rfl, List.forall_mem_nil _⟩

theorem patchMetrics_keyed (p : PatchSignal) : ∀ m ∈ patchMetrics p, Keyed m := by
  simp only [patchMetrics, List.forall_mem_cons, List.forall_mem_map]
  refine ⟨rfl, fun counter _ => ?_⟩
  have hnone : familyKeys.lookup ("patch_" ++ counter.1) = none := by
    refine List.lookup_eq_none_iff.mpr fun p hp => ?_
    have hother : ∀ p ∈ familyKeys, p.1.toList.take 6 ≠ "patch_".toList := by decide
    simpa using patch_ne (hother p hp)
  rw [Keyed, keysOf, hnone]
  rfl

theorem metrics_keyed : ∀ m ∈ metrics state, Keyed m := by
  simp only [metrics, List.forall_mem_append]
  refine ⟨⟨⟨⟨⟨?_, ?_⟩, ?_⟩, ?_⟩, patchMetrics_keyed _⟩, ?_⟩
  · simp only [agentMetrics, List.forall_mem_cons]
    exact ⟨rfl, rfl, rfl, rfl, List.forall_mem_nil _⟩
  · simp only [kernlogMetrics, List.forall_mem_append, List.forall_mem_map]
    exact ⟨⟨fun _ _ => rfl, fun _ _ => rfl⟩, fun _ _ => rfl⟩
  · simp only [dstateMetrics, List.forall_mem_append, List.forall_mem_cons]
    exact ⟨⟨⟨rfl, rfl, List.forall_mem_nil _⟩, scopeMetrics_keyed _ _ _ _⟩, scopeMetrics_keyed _ _ _ _⟩
  · simp only [exporterMetrics, List.forall_mem_append, List.forall_mem_cons, List.forall_mem_map]
    exact ⟨⟨rfl, rfl, rfl, rfl, List.forall_mem_nil _⟩, fun _ _ => rfl⟩
  · simp only [conditionMetrics, List.forall_mem_map]
    exact fun _ _ => rfl

theorem eq_of_lookup {α β : Type*} [BEq α] [LawfulBEq α] {l l' : List (α × β)}
    (hkeys : l.map Prod.fst = l'.map Prod.fst) (hnodup : (l.map Prod.fst).Nodup)
    (h : ∀ k, l.lookup k = l'.lookup k) : l = l' := by
  induction l generalizing l' with
  | nil => exact (List.map_eq_nil_iff.mp hkeys.symm).symm
  | cons p l ih =>
    obtain ⟨k, v⟩ := p
    cases l' with
    | nil => cases hkeys
    | cons p' l' =>
      obtain ⟨k', v'⟩ := p'
      obtain ⟨rfl, hrest⟩ := List.cons.inj hkeys
      obtain ⟨hnew, hnodup⟩ := List.nodup_cons.mp hnodup
      have hvalue := h k
      rw [List.lookup_cons_self, List.lookup_cons_self, Option.some.injEq] at hvalue
      subst hvalue
      refine congrArg _ (ih hrest hnodup fun j => ?_)
      by_cases hj : j = k
      · have hnone : ∀ l'' : List (α × β), k ∉ l''.map Prod.fst → l''.lookup k = none := fun l'' hmem =>
          List.lookup_eq_none_iff.mpr fun p hp => by
            have hne : k ≠ p.1 := fun heq => hmem (heq ▸ List.mem_map_of_mem hp)
            simpa using hne
        rw [hj, hnone l hnew, hnone l' (hrest ▸ hnew)]
      · have hother := h j
        rwa [List.lookup_cons, List.lookup_cons, beq_false_of_ne hj] at hother

theorem fullName_inj {name name' : String} (h : fullName name = fullName name') : name = name' :=
  String.toList_inj.mp (List.cons.inj (List.append_cancel_left h)).2

theorem withNode_keys (h : Proper m) : ((withNode node m).map Prod.fst).Nodup := by
  rw [withNode, List.map_cons, keys_labelSet]
  exact h.own.map (f := String.toList) fun a b => String.toList_inj.mp

theorem labelSet_inj {m' : Metric} (h : m.labelSet = m'.labelSet) : m.labels = m'.labels := by
  refine List.map_injective_iff.mpr ?_ h
  rintro ⟨k, v⟩ ⟨k', v'⟩ heq
  exact Prod.ext (String.toList_inj.mp (Prod.ext_iff.mp heq).1) (String.toList_inj.mp (Prod.ext_iff.mp heq).2)

/-- The name and the labels tell the series apart. -/
theorem sameSeries_iff {m' : Metric} (hm : Proper m) (hkeyed : Keyed m) (hkeyed' : Keyed m') :
    SameSeries (sampleOf node m) (sampleOf node m') ↔ series m = series m' := by
  constructor
  · rintro ⟨hname, hmap⟩
    have hname : m.name = m'.name := fullName_inj hname
    have hkeys : (withNode node m).map Prod.fst = (withNode node m').map Prod.fst := by
      rw [withNode, withNode, List.map_cons, List.map_cons, keys_labelSet, keys_labelSet, hkeyed, hkeyed', hname]
    have hlookup : ∀ k, (withNode node m).lookup k = (withNode node m').lookup k := fun k => congrFun hmap k
    have hlabels := eq_of_lookup hkeys (withNode_keys hm) hlookup
    exact Prod.ext hname (labelSet_inj (List.cons.inj hlabels).2)
  · intro heq
    obtain ⟨hname, hlabels⟩ := Prod.ext_iff.mp heq
    have hlabelSet : withNode node m = withNode node m' := congrArg (_ :: List.map _ ·) hlabels
    refine ⟨congrArg fullName hname, funext fun k => ?_⟩
    show (withNode node m).lookup k = (withNode node m').lookup k
    rw [hlabelSet]

/-- The dicts of a state have every key once, and no counter of the patches is named like
the flag beside them. -/
structure State.Keys (state : State) : Prop where
  counts : (state.kernlog.counts.map Prod.fst).Nodup
  lastHit : (state.kernlog.lastHit.map Prod.fst).Nodup
  filesOk : (state.kernlog.filesOk.map Prod.fst).Nodup
  counters : ("counters_present" :: state.patch.counters.map Prod.fst).Nodup
  conditions : (state.conditions.map Prod.fst).Nodup

/-- What the series of an unhealthy card says. -/
def cardKey (u : Card) : String × String × String × String := (u.gpuId, u.ns, u.pod, u.container)

/-- Calls of families that a part of the name tells apart. -/
theorem nodup_series_append {γ : Type*} (part : String → γ) {parts parts' : List γ} {ms ms' : List Metric}
    (h : ∀ m ∈ ms, part m.name ∈ parts) (h' : ∀ m ∈ ms', part m.name ∈ parts') (hparts : ∀ p ∈ parts, p ∉ parts') :
    ((ms ++ ms').map series).Nodup ↔ (ms.map series).Nodup ∧ (ms'.map series).Nodup := by
  rw [List.map_append, List.nodup_append', and_congr_right_iff]
  intro _
  refine and_iff_left ?_
  intro s hs hs'
  obtain ⟨m, hm, rfl⟩ := List.mem_map.mp hs
  obtain ⟨m', hm', heq⟩ := List.mem_map.mp hs'
  have hname : m'.name = m.name := (Prod.ext_iff.mp heq).1
  exact hparts _ (h m hm) (hname ▸ h' m' hm')

/-- One call for each of some items that have labels of their own. -/
theorem nodup_series_of_label {α : Type*} {items : List α} {call : α → Metric} (key : String) {of : α → String}
    (hitems : (items.map of).Nodup) (hlabel : ∀ x, ∃ rest, (call x).labels = (key, of x) :: rest) :
    ((items.map call).map series).Nodup := by
  rw [List.map_map]
  refine hitems.of_map.map_on fun x hx y hy heq => ?_
  obtain ⟨rest, hrest⟩ := hlabel x
  obtain ⟨rest', hrest'⟩ := hlabel y
  have hlabels : (call x).labels = (call y).labels := (Prod.ext_iff.mp heq).2
  rw [hrest, hrest', List.cons.injEq, Prod.mk.injEq] at hlabels
  exact List.inj_on_of_nodup_map hitems hx hy hlabels.1.2

theorem nodup_sorted {α : Type} {items : List (String × α)} (h : (items.map Prod.fst).Nodup) :
    ((sorted items).map Prod.fst).Nodup :=
  ((List.mergeSort_perm _ _).map Prod.fst).nodup_iff.mpr h

theorem kernlog_nodup (h : state.Keys) : ((kernlogMetrics state.kernlog).map series).Nodup := by
  have hname : ∀ {α : Type} (items : List α) (call : α → Metric) (name : String), (∀ x, (call x).name = name) →
      ∀ m ∈ items.map call, id m.name ∈ [name] := fun items call name hcall =>
    List.forall_mem_map.mpr fun x _ => List.mem_singleton.mpr (hcall x)
  rw [kernlogMetrics, @nodup_series_append _ id ["kernlog_events_total", "kernlog_last_event_timestamp_seconds"] _ _ _
    (List.forall_mem_append.mpr ⟨List.forall_mem_map.mpr fun _ _ => List.mem_cons_self,
      List.forall_mem_map.mpr fun _ _ => List.mem_of_mem_tail (List.mem_singleton.mpr rfl)⟩)
    (hname _ _ "kernlog_file_readable" fun _ => rfl) (by decide),
    nodup_series_append id (hname _ _ "kernlog_events_total" fun _ => rfl)
      (hname _ _ "kernlog_last_event_timestamp_seconds" fun _ => rfl) (by decide)]
  refine ⟨⟨?_, ?_⟩, ?_⟩
  · exact nodup_series_of_label "rule" (nodup_sorted h.counts) fun _ => ⟨_, rfl⟩
  · exact nodup_series_of_label "rule" (nodup_sorted h.lastHit) fun _ => ⟨_, rfl⟩
  · exact nodup_series_of_label "path" (nodup_sorted h.filesOk) fun _ => ⟨_, rfl⟩

theorem dstate_nodup (d : DStateState) : ((dstateMetrics d).map series).Nodup := by
  have hseries : (dstateMetrics d).map series = (dstateMetrics {}).map series := rfl
  rw [hseries]
  decide

theorem exporter_nodup_iff (e : ExporterState) :
    ((exporterMetrics e).map series).Nodup ↔ (e.unhealthy.map cardKey).Nodup := by
  have hcards : ∀ call : Card → Metric, (∀ u, series (call u) = ("exporter_gpu_unhealthy_info",
      [("gpu_id", u.gpuId), ("namespace", u.ns), ("pod", u.pod), ("container", u.container)])) →
      (((e.unhealthy.map call).map series).Nodup ↔ (e.unhealthy.map cardKey).Nodup) := by
    intro call hcall
    have hmap : (e.unhealthy.map call).map series = (e.unhealthy.map cardKey).map fun key =>
        ("exporter_gpu_unhealthy_info",
          [("gpu_id", key.1), ("namespace", key.2.1), ("pod", key.2.2.1), ("container", key.2.2.2)]) := by
      rw [List.map_map, List.map_map]
      exact List.map_congr_left fun u _ => hcall u
    rw [hmap, List.nodup_map_iff]
    rintro ⟨g, n, p, c⟩ ⟨g', n', p', c'⟩ heq
    simpa using heq
  rw [exporterMetrics, @nodup_series_append _ id
    ["exporter_reachable", "exporter_scrape_seconds", "exporter_gpu_total", "exporter_gpu_unhealthy"]
    ["exporter_gpu_unhealthy_info"] _ _ ?_ ?_ (by decide), hcards _ fun _ => rfl]
  · refine and_iff_right ?_
    show List.Nodup [("exporter_reachable", []), ("exporter_scrape_seconds", []), ("exporter_gpu_total", []),
      ("exporter_gpu_unhealthy", [])]
    decide
  · simp only [List.forall_mem_cons]
    exact ⟨by decide, by decide, by decide, by decide, List.forall_mem_nil _⟩
  · exact List.forall_mem_map.mpr fun _ _ => List.mem_singleton.mpr rfl

theorem patch_nodup (h : state.Keys) : ((patchMetrics state.patch).map series).Nodup := by
  have hmap : (patchMetrics state.patch).map series =
      ("counters_present" :: (sorted state.patch.counters).map Prod.fst).map fun name => ("patch_" ++ name, []) := by
    rw [patchMetrics, List.map_cons, List.map_cons, List.map_map, List.map_map]
    rfl
  have hperm : ("counters_present" :: (sorted state.patch.counters).map Prod.fst).Nodup :=
    (((List.mergeSort_perm _ _).map Prod.fst).cons _).nodup_iff.mpr h.counters
  rw [hmap]
  refine hperm.map fun name name' heq => ?_
  have hlists := congrArg String.toList (Prod.ext_iff.mp heq).1
  rw [String.toList_append, String.toList_append] at hlists
  exact String.toList_inj.mp (List.append_cancel_left hlists)

theorem condition_nodup (h : state.Keys) : ((conditionMetrics state.conditions).map series).Nodup :=
  nodup_series_of_label "condition" (nodup_sorted h.conditions) fun _ => ⟨_, rfl⟩

/-- Families of different parts of the state differ in the first letters. -/
def stem (name : String) : List Char := name.toList.take 6

/-- Calls of families with these first letters. -/
def Stems (names : List String) (ms : List Metric) : Prop := ∀ m ∈ ms, stem m.name ∈ names.map stem

theorem Stems.append {names names' : List String} {ms ms' : List Metric} (h : Stems names ms) (h' : Stems names' ms') :
    Stems (names ++ names') (ms ++ ms') := by
  rw [Stems, List.map_append]
  refine List.forall_mem_append.mpr ⟨fun m hm => ?_, fun m hm => ?_⟩
  · exact List.mem_append_left _ (h m hm)
  · exact List.mem_append_right _ (h' m hm)

theorem stems_of_names {names : List String} {ms : List Metric} (known : List String)
    (h : ms.map Metric.name ⊆ known) (hknown : ∀ name ∈ known, stem name ∈ names.map stem) : Stems names ms :=
  fun _ hm => hknown _ (h (List.mem_map_of_mem hm))

theorem names_map {α : Type} {items : List α} {call : α → Metric} {name : String} (h : ∀ x, (call x).name = name) :
    (items.map call).map Metric.name ⊆ [name] := by
  intro n hn
  obtain ⟨m, hm, rfl⟩ := List.mem_map.mp hn
  obtain ⟨x, -, rfl⟩ := List.mem_map.mp hm
  exact List.mem_singleton.mpr (h x)

theorem agent_stems : Stems ["agent_up", "collect"] (agentMetrics state) :=
  stems_of_names ["agent_up", "collect_timestamp_seconds", "collect_duration_seconds", "collect_errors_total"]
    (List.Subset.refl _) (by decide)

theorem kernlog_stems : Stems ["kernlog"] (kernlogMetrics state.kernlog) := by
  refine List.forall_mem_append.mpr ⟨List.forall_mem_append.mpr ⟨?_, ?_⟩, ?_⟩
  · exact stems_of_names ["kernlog_events_total"] (names_map fun _ => rfl) (by decide)
  · exact stems_of_names ["kernlog_last_event_timestamp_seconds"] (names_map fun _ => rfl) (by decide)
  · exact stems_of_names ["kernlog_file_readable"] (names_map fun _ => rfl) (by decide)

theorem dstate_stems : Stems ["proc_readable", "dstate"] (dstateMetrics state.dstate) :=
  stems_of_names ((dstateMetrics {}).map Metric.name) (List.Subset.refl _) (by decide)

theorem exporter_stems : Stems ["exporter"] (exporterMetrics state.exporter) := by
  refine List.forall_mem_append.mpr ⟨?_, ?_⟩
  · exact stems_of_names
      ["exporter_reachable", "exporter_scrape_seconds", "exporter_gpu_total", "exporter_gpu_unhealthy"]
      (List.Subset.refl _) (by decide)
  · exact stems_of_names ["exporter_gpu_unhealthy_info"] (names_map fun _ => rfl) (by decide)

theorem patch_stems : Stems ["patch_"] (patchMetrics state.patch) := by
  have hflag : stem "patch_counters_present" ∈ ["patch_"].map stem := by decide
  refine List.forall_mem_cons.mpr ⟨hflag, List.forall_mem_map.mpr fun counter _ => ?_⟩
  rw [stem, String.toList_append]
  exact List.mem_singleton.mpr rfl

theorem condition_stems : Stems ["condition"] (conditionMetrics state.conditions) :=
  stems_of_names ["condition"] (names_map fun _ => rfl) (by decide)

/-- Of one node no two calls are for one series, exactly if no card is reported twice. -/
theorem metrics_distinct_iff (h : state.Keys) :
    ((metrics state).map series).Nodup ↔ (state.exporter.unhealthy.map cardKey).Nodup := by
  have hfront := (@agent_stems state).append (@kernlog_stems state)
  have hdstate := hfront.append (@dstate_stems state)
  have hexporter := hdstate.append (@exporter_stems state)
  have hpatch := hexporter.append (@patch_stems state)
  have hagent : ((agentMetrics state).map series).Nodup := by
    show List.Nodup [("agent_up", []), ("collect_timestamp_seconds", []), ("collect_duration_seconds", []),
      ("collect_errors_total", [])]
    decide
  rw [metrics, nodup_series_append stem hpatch condition_stems (by decide),
    nodup_series_append stem hexporter patch_stems (by decide),
    nodup_series_append stem hdstate exporter_stems (by decide),
    nodup_series_append stem hfront dstate_stems (by decide),
    nodup_series_append stem agent_stems kernlog_stems (by decide), exporter_nodup_iff]
  simp only [hagent, kernlog_nodup h, dstate_nodup, patch_nodup h, condition_nodup h, true_and, and_true]

/-! ### The round trip -/

/-- The text is read as the samples that were passed, in order, as Python means the
numbers and as doubles, and every one of them has the node. The type of every family
stands once, in front of its first sample, and no two samples are of one series, exactly
if no card is reported twice. -/
theorem page_round_trip (node : String) (h : state.Exact) :
    ∃ lines, parse Number.read (render node state) = some lines ∧
      lines.filterMap Line.sample? = (metrics state).map (sampleOf node) ∧
      (parse float? (render node state)).map (List.filterMap Line.sample?) =
        some ((metrics state).map (sampleAs node Number.toDouble)) ∧
      (∀ s ∈ lines.filterMap Line.sample?, s.labelMap "node".toList = some node.toList) ∧
      (∀ front s back, lines = front ++ .sample s :: back →
        front.countP (Line.types s.name) = 1 ∧ back.countP (Line.types s.name) = 0) ∧
      (state.Keys → ((lines.filterMap Line.sample?).Pairwise (fun s t => ¬SameSeries s t) ↔
        (state.exporter.unhealthy.map cardKey).Nodup)) := by
  have hsamples := samples_render node id state
  refine ⟨readLines [] (reads node id state), parse_render (fun _ => Number.read_str) h, hsamples, ?_, ?_, ?_, ?_⟩
  · have hdoubles : ∀ v : Number, v.Exact → float? v.str = some v.toDouble := fun _ => Number.float?_str
    rw [parse_render hdoubles h, Option.map_some, samples_render]
  · rw [hsamples]
    exact List.forall_mem_map.mpr fun m _ => List.lookup_cons_self
  · have hfamily : ∀ p ∈ reads node (id : Number → Number) state, p.2.name = p.1.full :=
      List.forall_mem_map.mpr fun m _ => rfl
    intro front s back hlines
    have honce := types_once hfamily hlines
    rw [if_neg List.not_mem_nil] at honce
    exact honce
  · intro hkeys
    rw [← metrics_distinct_iff hkeys, hsamples, List.pairwise_map, List.Nodup, List.pairwise_map]
    refine List.Pairwise.iff_of_mem fun {m m'} hm hm' => not_congr ?_
    exact sameSeries_iff (metrics_proper h m hm) (metrics_keyed m hm) (metrics_keyed m' hm')

/-- A state whose labels have to be escaped, and one card in two places of the report. -/
def twiceReported : State where
  collectedAt := .float (.round (1700000000123456 / 1000000))
  kernlog := { counts := [("ring_timeout", 3)], filesOk := [("/var/log/\"kern\".log", true)] }
  exporter := { reachable := true, gpuTotal := 8, unhealthy := [⟨⟨"3", "tenants", "a\\b\n"⟩, "main"⟩,
    ⟨⟨"3", "tenants", "a\\b\n"⟩, "main"⟩] }
  conditions := [("GPUProbeFailed", true), ("GPUHealthDataStale", false)]

theorem twiceReported_exact : twiceReported.Exact where
  collectedAt := Metrics.exact_round _
  collectSeconds := trivial
  lastHit := List.forall_mem_nil _
  maxSeconds := trivial
  gpuMaxSeconds := trivial
  scrapeSeconds := trivial
  counters := List.forall_mem_nil _

theorem page_twiceReported : ∃ lines, parse Number.read (render "gpu-0" twiceReported) = some lines ∧
    lines.filterMap Line.sample? = (metrics twiceReported).map (sampleOf "gpu-0") ∧
    ¬(lines.filterMap Line.sample?).Pairwise fun s t => ¬SameSeries s t := by
  obtain ⟨lines, hparse, hsamples, -, -, -, hdistinct⟩ := page_round_trip "gpu-0" twiceReported_exact
  refine ⟨lines, hparse, hsamples, fun hpairwise => ?_⟩
  have hkeys : twiceReported.Keys := ⟨by decide, by decide, by decide, by decide, by decide⟩
  exact absurd ((hdistinct hkeys).mp hpairwise) (by decide)

end GpuNodeHealth.Agent.Exposition
