import GpuNodeHealth.Guard.Degradation
import GpuNodeHealth.Guard.MetricsRoundTrip
import GpuNodeHealth.Metrics.Lookup
import GpuNodeHealth.Tools.Recorder

/-! The recorder reads back what the guard wrote. Node and pod names are such that no
label of the guard's text looks like another one. -/

namespace GpuNodeHealth.Tools

open Agent (strip)
open Cluster (Node dnsAlphanum isDns1123 isDnsLabel)
open Guard
open Metrics
open Text

variable {state : State} {m : Metric} {node : List Char} {view : View}

/-! ### Names -/

theorem dns_plain {c : Char} (h : dnsAlphanum c = true) : plainChar c = true := by
  rw [plainChar, Bool.or_eq_true]
  delta Char.isAlphanum Char.isAlpha Char.isLower Char.isDigit
  simp only [dnsAlphanum, Bool.or_eq_true, Bool.and_eq_true, decide_eq_true_eq, Char.le_def] at h ⊢
  exact .inl (h.imp (fun hlower => .inr hlower) id)

theorem isDns1123_plain {name : String} (h : isDns1123 name = true) : Plain name.toList := by
  rw [isDns1123, Bool.and_eq_true, List.all_eq_true] at h
  intro c hc
  have hname : ['.'].intercalate (name.toList.splitOn '.') = name.toList := List.intercalate_splitOn '.'
  rw [← hname] at hc
  rcases mem_intercalate hc with rfl | ⟨label, hlabel, hc⟩
  · rfl
  · have hchars := h.2 label hlabel
    rw [isDnsLabel, Bool.and_eq_true, List.all_eq_true] at hchars
    have hchar := hchars.2 c hc
    rw [Bool.or_eq_true, decide_eq_true_eq] at hchar
    rcases hchar with halpha | rfl
    · exact dns_plain halpha
    · rfl

/-! ### Lines -/

theorem strip_numeral {text : List Char} (h : ∀ c ∈ text, numeralChar c = true) : strip text = text := by
  have hspace : ∀ c ∈ text, ¬(Pattern.isSpace c = true) := fun c hc => by
    rw [graphic_space (wordChar_numeral (h c hc)).graphic]
    exact Bool.false_ne_true
  have hfront : text.dropWhile Pattern.isSpace = text := by
    cases text with
    | nil => rfl
    | cons c text => exact List.dropWhile_cons_of_neg (hspace c List.mem_cons_self)
  rw [strip, hfront]
  exact List.rdropWhile_eq_self_iff.mpr fun hne => hspace _ (List.getLast_mem hne)

/-- What a call of `metric` does to the view. -/
def turn (node : List Char) (view : View) (m : Metric) : Option View :=
  readSeries node view (series (fullName m.name) m.labelSet) m.value.str

theorem readLine_entry (m : Metric) :
    readLine node view (m.entry (fullName m.name) m.labelSet).line = turn node view m := by
  have hline : (m.entry (fullName m.name) m.labelSet).line =
      series (fullName m.name) m.labelSet ++ ' ' :: m.value.str := sampleLine_series _ _ _
  have hhead : (m.entry (fullName m.name) m.labelSet).line.head? = some 'g' := rfl
  have hvalue : ' ' ∉ m.value.str := class_not_mem m.value.str_numeral rfl
  have hread : ¬((m.entry (fullName m.name) m.labelSet).line.head? = some '#' ∨
      ' ' ∉ (m.entry (fullName m.name) m.labelSet).line) := by
    rw [hhead, hline]
    simp
  rw [readLine, if_neg hread, hline, rpartition_written hvalue]
  rfl

/-- Every line of the text is whole. -/
theorem lines_unbroken (h : ∀ m ∈ metrics state, PlainLabels m.labelSet) :
    ∀ line ∈ written [] ((metrics state).map fun m => m.entry (fullName m.name) m.labelSet),
      ∀ c ∈ line, lineBreak c = false := by
  intro line hline
  obtain ⟨e, he, hline⟩ := mem_written hline
  obtain ⟨m, hm, rfl⟩ := List.mem_map.mp he
  have hproper := metrics_proper state m hm
  rcases hline with hline | rfl
  · exact declaration_unbroken hproper.named hproper.kind hproper.help hline
  · have hvalue : ∀ c ∈ m.value.str, lineBreak c = false := fun c hc =>
      graphic_break (wordChar_numeral (m.value.str_numeral c hc)).graphic
    have hseries : ∀ c ∈ series (fullName m.name) m.labelSet, lineBreak c = false := fun c hc =>
      graphic_break (series_graphic hproper.named (h m hm) c hc)
    rw [Metric.entry, sampleLine_series]
    exact List.forall_mem_append.mpr ⟨hseries, List.forall_mem_cons.mpr ⟨rfl, hvalue⟩⟩

/-- The recorder takes the calls of `metric` one after the other. -/
theorem guardView_metrics (h : ∀ m ∈ metrics state, PlainLabels m.labelSet) (node : List Char) :
    guardView (render state) node = (metrics state).foldlM (turn node) {} := by
  have hskip : ∀ view line, line.head? = some '#' → readLine node view line = some view := fun view line hline =>
    if_pos (.inl hline)
  have hlines := lines_foldl {} ((metrics state).map fun m => m.entry (fullName m.name) m.labelSet)
  rw [List.nil_append] at hlines
  have hne : ((metrics state).map fun m => m.entry (fullName m.name) m.labelSet) ≠ [] := by
    simp [metrics, stateMetrics]
  have htext : render state =
      (written [] ((metrics state).map fun m => m.entry (fullName m.name) m.labelSet)).flatMap (· ++ ['\n']) := by
    rw [render_eq, text_eq (hlines ▸ written_ne_nil hne _), hlines]
  have hsome : render state ≠ [] := by simp [render, Registry.text]
  rw [guardView, if_neg hsome, htext, splitlines_lines (lines_unbroken h), foldlM_written hskip, List.map_map,
    List.foldlM_map]
  exact congrArg (fun f => List.foldlM f _ _) (funext fun view => funext fun m => readLine_entry m)

/-! ### Turns -/

/-- What a number without labels does to the view. -/
def tally (view : View) (m : Metric) : View :=
  if m.name = "cordons_total" then { view with cordons := m.value.str }
  else if m.name = "healthy_capacity" then { view with capacity := m.value.str }
  else if m.name = "loop_errors_total" then { view with loopErrors := m.value.str }
  else if m.name = "event_errors_total" then { view with eventErrors := m.value.str }
  else view

theorem name_brace {full : List Char} (h : isName full = true) : '{' ∉ full := class_not_mem (isName_chars h) rfl

theorem turn_unlabelled (hname : isName (fullName m.name) = true) (h : m.labels = []) :
    turn node view m = some (tally view m) := by
  have hseries : series (fullName m.name) m.labelSet = fullName m.name := by
    rw [Metric.labelSet, h]
    rfl
  have hdecision : ¬("gpuguard_decision\x7b".toList <+: fullName m.name) := fun hstart =>
    name_brace hname (hstart.mem (by decide))
  have hvalue := strip_numeral m.value.str_numeral
  have hcordons : "gpuguard_cordons_total".toList = fullName "cordons_total" := by decide
  have hcapacity : "gpuguard_healthy_capacity".toList = fullName "healthy_capacity" := by decide
  have hloop : "gpuguard_loop_errors_total".toList = fullName "loop_errors_total" := by decide
  have hevent : "gpuguard_event_errors_total".toList = fullName "event_errors_total" := by decide
  have hiff : ∀ name, fullName m.name = fullName name ↔ m.name = name := fun name => ⟨fullName_inj, congrArg fullName⟩
  rw [turn, readSeries, hseries, if_neg fun hboth => hdecision hboth.1, hvalue, hcordons, hcapacity, hloop, hevent]
  simp only [hiff, tally]
  split_ifs <;> rfl

theorem decision_brace : "gpuguard_decision\x7b".toList = fullName "decision" ++ ['{'] := by decide

theorem labelSet_ne_nil (h : m.labels ≠ []) : m.labelSet ≠ [] := fun hnil => h (List.map_eq_nil_iff.mp hnil)

/-- A labelled series is read if it is a decision about the node. -/
theorem readSeries_labelled {key : List Char} (hbrace : '{' ∈ key)
    (h : ¬("gpuguard_decision\x7b".toList <+: key ∧ (after? (nodeLabel node) key).isSome)) (val : List Char) :
    readSeries node view key val = some view := by
  have hother : ∀ name : List Char, '{' ∉ name → key ≠ name := by
    rintro name hname rfl
    exact hname hbrace
  rw [readSeries, if_neg h, if_neg (hother _ (by decide)), if_neg (hother _ (by decide)),
    if_neg (hother _ (by decide)), if_neg (hother _ (by decide))]

theorem turn_other (hname : isName (fullName m.name) = true) (hother : m.name ≠ "decision") (h : m.labels ≠ []) :
    turn node view m = some view := by
  obtain ⟨rest, hseries⟩ := series_brace (labelSet_ne_nil h) (fullName m.name)
  have hdecision : ¬("gpuguard_decision\x7b".toList <+: fullName m.name ++ '{' :: rest) := by
    rw [decision_brace, segment_prefix_iff (by decide) (name_brace hname)]
    exact fun hsame => hother (fullName_inj hsame.1).symm
  rw [turn, hseries]
  exact readSeries_labelled (by simp) (fun hboth => hdecision hboth.1) _

/-- A field is that of the first label whose name ends in the word. -/
theorem field_series {labels : List Label} (h : PlainLabels labels) (hne : labels ≠ []) {full word : List Char}
    (hname : isName full = true) (hword : ∀ c ∈ word, keyChar c = true) (old : List Char) :
    field (word ++ ['=']) (series full labels) old =
      some ((((led labels).find? fun p => word <:+ p.2.1).map fun p => p.2.2).getD old) := by
  have hfull : '=' ∉ full := class_not_mem (isName_chars hname) rfl
  have hvalue := after?_value h.led hword hfull
  rw [field, series_eq hne]
  cases hfind : (led labels).find? fun p => word <:+ p.2.1 with
  | none =>
    rw [hfind, Option.map_none, Option.map_eq_none_iff] at hvalue
    rw [hvalue]
    rfl
  | some p =>
    rw [hfind, Option.map_some, Option.map_eq_some_iff] at hvalue
    obtain ⟨rest, hrest, hquoted⟩ := hvalue
    rw [hrest]
    exact hquoted

/-- What the decision about the node does to the view. -/
def judge (view : View) (dec : Decision) : View :=
  { view with reason := dec.reason.label.toList, level := ((dec.level.map Level.label).getD "").toList }

/-- The decision about the node is read as what it is, the others are not. -/
theorem turn_decision {dec : Decision} (hplain : PlainLabels (decisionMetric dec).labelSet) (hnode : '"' ∉ node) :
    turn node view (decisionMetric dec) = some (if dec.node.toList = node then judge view dec else view) := by
  have hne : (decisionMetric dec).labelSet ≠ [] := List.cons_ne_nil _ _
  have hname : isName (fullName "decision") = true := by decide
  obtain ⟨rest, hseries⟩ := series_brace hne (fullName "decision")
  have hbrace : '{' ∈ series (fullName "decision") (decisionMetric dec).labelSet := by simp [hseries]
  have hdecision : "gpuguard_decision\x7b".toList <+: series (fullName "decision") (decisionMetric dec).labelSet := by
    rw [hseries, decision_brace]
    exact ⟨rest, by simp⟩
  have hfound : (after? (nodeLabel node) (series (fullName "decision") (decisionMetric dec).labelSet)).isSome ↔
      dec.node.toList = node := by
    have hword : ∀ c ∈ "node".toList, keyChar c = true := by decide
    have hfull : '"' ∉ fullName "decision" := by decide
    rw [series_eq hne]
    refine (after?_quoted hplain.led hword hnode hfull).trans ?_
    simp +decide [led, decisionMetric, Metric.labelSet]
  have hreason : field "reason=".toList (series (fullName "decision") (decisionMetric dec).labelSet) view.reason =
      some dec.reason.label.toList :=
    field_series hplain hne hname (by decide : ∀ c ∈ "reason".toList, keyChar c = true) view.reason
  have hlevel : field "level=".toList (series (fullName "decision") (decisionMetric dec).labelSet) view.level =
      some ((dec.level.map Level.label).getD "").toList :=
    field_series hplain hne hname (by decide : ∀ c ∈ "level".toList, keyChar c = true) view.level
  have hvalue : strip (decisionMetric dec).value.str ∈ ["1".toList, "1.0".toList] := by
    rw [strip_numeral (Number.str_numeral _)]
    exact List.mem_cons_self
  have hname : fullName (decisionMetric dec).name = fullName "decision" := rfl
  rw [turn, readSeries, hname]
  by_cases hnode : dec.node.toList = node
  · rw [if_pos ⟨hdecision, hfound.mpr hnode⟩, if_pos hvalue, if_pos hnode, hreason, hlevel]
    rfl
  · rw [if_neg hnode]
    exact readSeries_labelled hbrace (fun hboth => hnode (hfound.mp hboth.2)) _

/-! ### The whole text -/

theorem foldlM_some {α β : Type*} {f : α → β → Option α} {g : α → β → α} {xs : List β}
    (h : ∀ x ∈ xs, ∀ a, f a x = some (g a x)) (a : α) : xs.foldlM f a = some (xs.foldl g a) := by
  induction xs generalizing a with
  | nil => rfl
  | cons x xs ih =>
    obtain ⟨hx, hxs⟩ := List.forall_mem_cons.mp h
    rw [List.foldlM_cons, hx]
    exact ih hxs (g a x)

/-- What is left where the view does not change. -/
theorem foldlM_unread {ms : List Metric} (h : ∀ m ∈ ms, isName (fullName m.name) = true ∧ m.name ≠ "decision" ∧
    m.labels ≠ []) (view : View) : ms.foldlM (turn node) view = some view := by
  rw [foldlM_some (g := fun view _ => view) fun m hm view => turn_other (h m hm).1 (h m hm).2.1 (h m hm).2.2]
  exact congrArg some (List.foldl_fixed ms)

/-- The numbers of a state, in digits. -/
def counted (state : State) : View where
  cordons := Nat.toDigits 10 state.cordonsTotal
  capacity := Nat.toDigits 10 state.healthyCapacity
  loopErrors := Nat.toDigits 10 state.loopErrors
  eventErrors := Nat.toDigits 10 state.eventErrors

theorem foldlM_stateMetrics (state : State) : (stateMetrics state).foldlM (turn node) {} = some (counted state) := by
  have hlabels : ∀ m ∈ stateMetrics state, m.labels = [] := by simp [stateMetrics]
  have hdigits : ∀ n : ℕ, (Number.int n).str = Nat.toDigits 10 n := fun n => by
    rw [str_int, if_neg (by omega), Int.natAbs_natCast]
  rw [foldlM_some fun m hm view => turn_unlabelled (stateMetrics_proper state m hm).named (hlabels m hm), counted,
    ← hdigits, ← hdigits, ← hdigits, ← hdigits]
  rfl

/-- Of decisions with nodes of their own the one about the node is left. -/
theorem foldlM_decisions {decs : List Decision} (hplain : ∀ dec ∈ decs, PlainLabels (decisionMetric dec).labelSet)
    (hnode : '"' ∉ node) (hdistinct : (decs.map (·.node)).Nodup) (view : View) :
    (decs.map decisionMetric).foldlM (turn node) view =
      some (((decs.find? (·.node.toList = node)).map (judge view)).getD view) := by
  induction decs generalizing view with
  | nil => rfl
  | cons dec decs ih =>
    obtain ⟨hdec, hdecs⟩ := List.forall_mem_cons.mp hplain
    obtain ⟨hnew, hdistinct⟩ := List.nodup_cons.mp hdistinct
    rw [List.map_cons, List.foldlM_cons, turn_decision hdec hnode, Option.bind_eq_bind, Option.bind_some,
      ih hdecs hdistinct]
    by_cases hfound : dec.node.toList = node
    · have hnone : decs.find? (·.node.toList = node) = none := by
        refine List.find?_eq_none.mpr fun other hother hsame => hnew ?_
        have hsame : other.node = dec.node := String.toList_inj.mp ((of_decide_eq_true hsame).trans hfound.symm)
        exact List.mem_map.mpr ⟨other, hother, hsame⟩
      rw [if_pos hfound, hnone, List.find?_cons_of_pos (by simpa using hfound)]
      rfl
    · rw [if_neg hfound, List.find?_cons_of_neg (by simpa using hfound)]

/-! ### What the labels are -/

theorem action_plain (action : Action) : Plain action.label.toList := by
  cases action <;> decide

theorem reason_plain (reason : Reason) : Plain reason.label.toList := by
  cases reason <;> decide

theorem level_plain (level : Option Level) : Plain ((level.map Level.label).getD "").toList := by
  rcases level with _ | level
  · decide
  · cases level <;> decide

theorem podAction_plain (action : PodAction) : Plain action.label.toList := by
  cases action <;> decide

theorem podReason_plain (reason : PodReason) : Plain reason.label.toList := by
  cases reason <;> decide

theorem triggerLevel_type {node : Node} {now : ℚ} {minAgeSeconds : ℤ} {parseTime : TimeParser} {t : Trigger}
    (h : triggerLevel node now minAgeSeconds parseTime = some t) :
    ∃ ctype ∈ levelRules.flatMap (·.2), t.cond.type = some ctype := by
  rw [triggerLevel_eq, Option.map_eq_some_iff] at h
  obtain ⟨⟨level, c⟩, hfirst, rfl⟩ := h
  obtain ⟨⟨level', types⟩, hrule, hfirst⟩ := List.exists_of_findSome?_eq_some hfirst
  obtain ⟨ctype, hctype, hactive⟩ := List.exists_of_findSome?_eq_some hfirst
  obtain ⟨c', hc', heq⟩ := Option.map_eq_some_iff.mp hactive
  obtain ⟨-, rfl⟩ := Prod.mk.inj heq
  exact ⟨ctype, List.mem_flatMap.mpr ⟨_, hrule, hctype⟩, (conditionIndex_mem (activeCondition_eq_some.mp hc').1).2⟩

/-- The condition of a decision is one of the rules', or none. -/
theorem decide_condition {nodes : List Node} {now : ℚ} {cfg : PolicyConfig} {parseTime : TimeParser}
    {recentCordons : List ℚ} {dec : Decision} (h : dec ∈ Guard.decide nodes now cfg parseTime recentCordons) :
    dec.condition ∈ "" :: levelRules.flatMap (·.2) := by
  have hturn : ∀ budget node, (decideNode nodes now cfg parseTime budget node).1.condition ∈
      "" :: levelRules.flatMap (·.2) := by
    intro budget node
    have hfinding := @finding_decideNode nodes now cfg parseTime budget node
    rw [Decision.finding, Prod.mk.injEq, Prod.mk.injEq] at hfinding
    rw [hfinding.2.2]
    cases htrigger : triggerLevel node now cfg.conditionMinAgeSeconds parseTime with
    | none => exact List.mem_cons_self
    | some t =>
      obtain ⟨ctype, hctype, htype⟩ := triggerLevel_type htrigger
      rw [Option.elim_some, htype]
      exact List.mem_cons_of_mem _ hctype
  obtain ⟨before, node, after, -, rfl⟩ := mem_decideLoop h
  exact hturn _ node

theorem condition_plain : ∀ condition ∈ "" :: levelRules.flatMap (·.2), Plain condition.toList := by decide +kernel

theorem plainLabels_of (hproper : Proper m) (h : ∀ label ∈ m.labels, Plain label.2.toList) :
    PlainLabels m.labelSet := by
  intro label hlabel
  refine ⟨hproper.keys label hlabel, ?_⟩
  obtain ⟨l, hl, rfl⟩ := List.mem_map.mp hlabel
  exact h l hl

/-- What a state is made of: decisions on a fleet, whose names the API server accepts
like those of the nodes and pods that are watched. -/
structure Accepted (state : State) : Prop where
  decisions : ∀ dec ∈ state.decisions, isDns1123 dec.node = true
  conditions : ∀ dec ∈ state.decisions, dec.condition ∈ "" :: levelRules.flatMap (·.2)
  nodes : ∀ st ∈ state.nodeStates, isDns1123 st.node = true
  exporters : ∀ dec ∈ state.exporterDecisions, isDns1123 dec.pod = true ∧ isDns1123 dec.node = true

theorem metrics_plain (h : Accepted state) : ∀ m ∈ metrics state, PlainLabels m.labelSet := by
  intro m hm
  refine plainLabels_of (metrics_proper state m hm) ?_
  simp only [metrics, List.mem_append, List.mem_flatMap, List.mem_map] at hm
  rcases hm with ((hm | ⟨st, hst, hm⟩) | ⟨dec, hdec, rfl⟩) | ⟨dec, hdec, hm⟩
  · have hlabels : ∀ m ∈ stateMetrics state, m.labels = [] := by simp [stateMetrics]
    rw [hlabels m hm]
    exact List.forall_mem_nil _
  · have hnode := isDns1123_plain (h.nodes st hst)
    simp only [nodeStateMetrics, List.mem_cons, List.not_mem_nil, or_false] at hm
    rcases hm with rfl | rfl
    · exact List.forall_mem_singleton.mpr hnode
    · exact List.forall_mem_singleton.mpr hnode
  · simp only [decisionMetric, List.forall_mem_cons]
    exact ⟨isDns1123_plain (h.decisions dec hdec), action_plain _, reason_plain _, level_plain _,
      condition_plain _ (h.conditions dec hdec), List.forall_mem_nil _⟩
  · obtain ⟨hpod, hnode⟩ := h.exporters dec hdec
    simp only [exporterMetrics, List.mem_cons, List.not_mem_nil, or_false] at hm
    rcases hm with rfl | rfl
    · simp only [List.forall_mem_cons]
      exact ⟨isDns1123_plain hpod, isDns1123_plain hnode, podAction_plain _, podReason_plain _,
        List.forall_mem_nil _⟩
    · simp only [List.forall_mem_cons]
      exact ⟨isDns1123_plain hpod, isDns1123_plain hnode, List.forall_mem_nil _⟩

/-! ### The view -/

/-- The recorder reads the numbers of the state, and the decision about the node. -/
theorem guardView_accepted (h : Accepted state) (hdistinct : (state.decisions.map (·.node)).Nodup)
    (hnode : '"' ∉ node) : guardView (render state) node =
      some (((state.decisions.find? (·.node.toList = node)).map (judge (counted state))).getD (counted state)) := by
  have hplain := metrics_plain h
  have hnodes : ∀ m ∈ state.nodeStates.flatMap nodeStateMetrics,
      isName (fullName m.name) = true ∧ m.name ≠ "decision" ∧ m.labels ≠ [] := by
    intro m hm
    obtain ⟨st, -, hm⟩ := List.mem_flatMap.mp hm
    obtain ⟨rest, hlabels⟩ := nodeStateMetrics_label hm
    refine ⟨(nodeStateMetrics_proper st m hm).named, ?_, hlabels ▸ List.cons_ne_nil _ _⟩
    exact ne_of_mem_of_not_mem (nodeStateMetrics_name hm) (by decide)
  have hexporters : ∀ m ∈ state.exporterDecisions.flatMap exporterMetrics,
      isName (fullName m.name) = true ∧ m.name ≠ "decision" ∧ m.labels ≠ [] := by
    intro m hm
    obtain ⟨dec, -, hm⟩ := List.mem_flatMap.mp hm
    obtain ⟨rest, hlabels⟩ := exporterMetrics_label hm
    refine ⟨(exporterMetrics_proper dec m hm).named, ?_, hlabels ▸ List.cons_ne_nil _ _⟩
    exact ne_of_mem_of_not_mem (exporterMetrics_name hm) (by decide)
  have hdecisions : ∀ dec ∈ state.decisions, PlainLabels (decisionMetric dec).labelSet := fun dec hdec =>
    hplain _ (by simp only [metrics, List.mem_append, List.mem_map]; exact .inl (.inr ⟨dec, hdec, rfl⟩))
  rw [guardView_metrics hplain, metrics, List.foldlM_append, List.foldlM_append, List.foldlM_append,
    foldlM_stateMetrics, Option.bind_eq_bind, Option.bind_some, foldlM_unread hnodes, Option.bind_some,
    foldlM_decisions hdecisions hnode hdistinct, Option.bind_some, foldlM_unread hexporters]

/-- For a state of decisions on a fleet the recorder reads of every node the reason and
the level of its decision, question marks where it has none, and the numbers. -/
theorem guardView_render {nodes : List Node} {now : ℚ} {cfg : PolicyConfig} {parseTime : TimeParser}
    {recentCordons : List ℚ} {n : String}
    (hdecisions : state.decisions = Guard.decide nodes now cfg parseTime recentCordons)
    (hdistinct : DistinctNames nodes) (hnodes : ∀ node ∈ nodes, isDns1123 (nodeName node) = true)
    (hstates : ∀ st ∈ state.nodeStates, isDns1123 st.node = true)
    (hexporters : ∀ dec ∈ state.exporterDecisions, isDns1123 dec.pod = true ∧ isDns1123 dec.node = true)
    (hn : isDns1123 n = true) :
    ∃ view, guardView (render state) n.toList = some view ∧
      (∀ dec ∈ state.decisions, dec.node = n →
        view.reason = dec.reason.label.toList ∧ view.level = ((dec.level.map Level.label).getD "").toList) ∧
      ((∀ dec ∈ state.decisions, dec.node ≠ n) → view.reason = ['?'] ∧ view.level = ['?']) ∧
      view.cordons = Nat.toDigits 10 state.cordonsTotal ∧ view.capacity = Nat.toDigits 10 state.healthyCapacity ∧
      view.loopErrors = Nat.toDigits 10 state.loopErrors ∧ view.eventErrors = Nat.toDigits 10 state.eventErrors := by
  have hnames : state.decisions.map (·.node) = nodes.map nodeName := by
    rw [hdecisions]
    exact map_node_decideLoop _ nodes
  have haccepted : Accepted state := by
    refine ⟨fun dec hdec => ?_, fun dec hdec => decide_condition (hdecisions ▸ hdec), hstates, hexporters⟩
    have hmem : dec.node ∈ nodes.map nodeName := hnames ▸ List.mem_map_of_mem hdec
    obtain ⟨node, hnode, hname⟩ := List.mem_map.mp hmem
    exact hname ▸ hnodes node hnode
  have hview := guardView_accepted haccepted (hnames ▸ hdistinct) ((isDns1123_plain hn).not_mem (c := '"') rfl)
  cases hfound : state.decisions.find? (·.node.toList = n.toList) with
  | none =>
    have hnone : ∀ dec ∈ state.decisions, dec.node ≠ n := fun dec hdec hname =>
      List.find?_eq_none.mp hfound dec hdec (by simp [hname])
    rw [hfound] at hview
    exact ⟨_, hview, fun dec hdec hname => absurd hname (hnone dec hdec), fun _ => ⟨rfl, rfl⟩, rfl, rfl, rfl, rfl⟩
  | some dec =>
    have hdec := List.mem_of_find?_eq_some hfound
    have hfits := List.find?_some hfound
    have hname : dec.node = n := String.toList_inj.mp (of_decide_eq_true hfits)
    have honly : ∀ dec' ∈ state.decisions, dec'.node = n → dec' = dec := fun dec' hdec' hname' =>
      List.inj_on_of_nodup_map (hnames ▸ hdistinct) hdec' hdec (hname'.trans hname.symm)
    rw [hfound] at hview
    refine ⟨_, hview, fun dec' hdec' hname' => ?_, fun hnone => absurd hname (hnone dec hdec), rfl, rfl, rfl, rfl⟩
    rw [honly dec' hdec' hname']
    exact ⟨rfl, rfl⟩

/-- The guard after a pass over two nodes, one of which it cordoned. -/
def cordonedOne : State where
  mode := "enforce"
  minHealthyNodes := 1
  isLeader := true
  nodesWatched := 2
  healthyCapacity := 1
  cordonsTotal := 12
  decisions := Guard.decide twoNodes 600 enforceOne Cluster.parseTime []
  exporterDecisions := [⟨"metrics-exporter-4x2pq", "gpu-1", .noop, .reachable, 0, ""⟩]
  nodeStates := nodeStates twoNodes

theorem guardView_cordonedOne : ∃ view, guardView (render cordonedOne) "gpu-0".toList = some view ∧
    view.reason = "cordon".toList ∧ view.level = "L3".toList ∧ view.cordons = "12".toList := by
  obtain ⟨view, hview, hdecision, -, hcordons, -⟩ := @guardView_render cordonedOne twoNodes 600 enforceOne
    Cluster.parseTime [] "gpu-0" rfl (by decide +kernel) (by decide +kernel) (by decide +kernel) (by decide +kernel)
    (by decide +kernel)
  have hfound : ∃ dec ∈ cordonedOne.decisions, dec.node = "gpu-0" ∧ dec.reason = .cordon ∧ dec.level = some .l3 := by
    decide +kernel
  obtain ⟨dec, hdec, hnode, hreason, hlevel⟩ := hfound
  obtain ⟨hviewReason, hviewLevel⟩ := hdecision dec hdec hnode
  refine ⟨view, hview, ?_, ?_, hcordons.trans (by decide +kernel)⟩
  · rw [hviewReason, hreason]
    rfl
  · rw [hviewLevel, hlevel]
    rfl

end GpuNodeHealth.Tools
