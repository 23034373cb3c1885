import GpuNodeHealth.Guard.Budget
import GpuNodeHealth.Guard.NodeRuns
import GpuNodeHealth.Guard.NodeTurns

/-! Who gets an Event. Every decision about a sick node in service comes with
one, except that the reason of a node out of the enforce scope has none. So a
pass witnesses all it found as long as it withholds no cordon for the scope, and
is not cut short while there is something left to tell. -/

namespace GpuNodeHealth.Guard

open Cluster Interaction

/-- A node in service with an aged trigger at a cordon level. -/
def Actionable (now : ℚ) (cfg : PolicyConfig) (parseTime : TimeParser) (node : Node) : Prop :=
  (∃ t ∈ triggerLevel node now cfg.conditionMinAgeSeconds parseTime, t.tooYoung = false ∧ t.level ∈ cordonLevels) ∧
    schedulable node = true

instance (now : ℚ) (cfg : PolicyConfig) (parseTime : TimeParser) (node : Node) :
    Decidable (Actionable now cfg parseTime node) := inferInstanceAs (Decidable (_ ∧ _))

/-- Nothing but the scope keeps the guard from cordoning the node: it is eligible,
and the candidates before it leave budget. -/
structure OnlyScopeWithholds (nodes : List Node) (now : ℚ) (cfg : PolicyConfig) (parseTime : TimeParser)
    (recentCordons : List ℚ) (before : List Node) (node : Node) : Prop where
  mode : cfg.mode = "enforce"
  scope : cfg.enforceNodes ≠ []
  outside : nodeName node ∉ cfg.enforceNodes
  eligible : Eligible nodes now cfg parseTime node
  budget : candidates nodes now cfg parseTime before < openingBudget now cfg recentCordons

variable {nodes : List Node} {now : ℚ} {cfg : PolicyConfig} {parseTime : TimeParser} {recentCordons : List ℚ}

/-! ### The decision about a node in its place -/

/-- The decision about a node at its place in the list. -/
def decisionAt (nodes : List Node) (now : ℚ) (cfg : PolicyConfig) (parseTime : TimeParser)
    (recentCordons : List ℚ) (before : List Node) (node : Node) : Decision :=
  (decideNode nodes now cfg parseTime (openingBudget now cfg recentCordons -
    cordons (decideLoop nodes now cfg parseTime (openingBudget now cfg recentCordons) before)) node).1

theorem decide_split {before after : List Node} {node : Node} (h : nodes = before ++ node :: after) :
    ∃ done rest, decide nodes now cfg parseTime recentCordons =
      done ++ decisionAt nodes now cfg parseTime recentCordons before node :: rest ∧
        done.map (·.node) = before.map nodeName := by
  have hloop : decide nodes now cfg parseTime recentCordons =
      decideLoop nodes now cfg parseTime (openingBudget now cfg recentCordons) (before ++ node :: after) :=
    congrArg _ h
  rw [decideLoop_append] at hloop
  exact ⟨_, _, hloop, map_node_decideLoop _ before⟩

theorem Eligible.actionable {node : Node} (h : Eligible nodes now cfg parseTime node) :
    Actionable now cfg parseTime node := ⟨h.trigger, h.schedulable⟩

/-- The decision about an actionable node is told, unless it is withheld for
the scope. -/
theorem told_decideNode {budget : ℤ} {node : Node} (h : Actionable now cfg parseTime node) :
    Told (decideNode nodes now cfg parseTime budget node).1 ↔
      outcome nodes now cfg parseTime budget node ≠ .outOfScope := by
  obtain ⟨-, hreason, haction, -⟩ := @decideNode_spec nodes now cfg parseTime budget node
  obtain ⟨⟨t, ht, hy, hl⟩, hs⟩ := h
  rw [Told, haction, hreason]
  simp only [outcome, Option.mem_def.mp ht, hy, hl, hs, not_true, if_false, Bool.false_eq_true, Bool.not_true]
  split_ifs <;> simp [eventReason]

theorem not_told_iff {before : List Node} {node : Node} (hact : Actionable now cfg parseTime node) :
    ¬Told (decisionAt nodes now cfg parseTime recentCordons before node) ↔
      OnlyScopeWithholds nodes now cfg parseTime recentCordons before node := by
  have hspent := @cordons_decideLoop nodes now cfg parseTime (openingBudget now cfg recentCordons) before
  rw [decisionAt, told_decideNode hact, not_ne_iff, outcome_settle_iff (by decide), settle_outOfScope_iff]
  constructor
  · rintro ⟨helig, hbudget, hmode, hscope, hout⟩
    exact ⟨hmode, hscope, hout, helig, by omega⟩
  · rintro ⟨hmode, hscope, hout, helig, hbudget⟩
    exact ⟨helig, by omega, hmode, hscope, hout⟩

/-! ### Events by name -/

/-- With distinct names, a decision of the list is told once or not at all. -/
theorem countP_told {decisions : List Decision} (hn : (decisions.map (·.node)).Nodup) {dec : Decision}
    (hd : dec ∈ decisions) :
    (decisions.countP fun d => d.node = dec.node ∧ Told d) = if Told dec then 1 else 0 := by
  induction decisions with
  | nil => cases hd
  | cons d rest ih =>
    rw [List.map_cons, List.nodup_cons] at hn
    rw [List.countP_cons]
    rcases List.mem_cons.mp hd with rfl | hd
    · have hrest : (rest.countP fun d => d.node = dec.node ∧ Told d) = 0 := by
        refine List.countP_eq_zero.mpr fun d hd' => ?_
        have hne : d.node ≠ dec.node := fun h => hn.1 (h ▸ List.mem_map_of_mem hd')
        simp [hne]
      rw [hrest]
      simp
    · have hne : d.node ≠ dec.node := fun h => hn.1 (h ▸ List.mem_map_of_mem hd)
      rw [ih hn.2 hd]
      simp [hne]

/-- A name that none of the decisions has is not told of. -/
theorem countP_told_eq_zero {decisions : List Decision} {name : String}
    (h : name ∉ decisions.map (·.node)) : (decisions.countP fun d => d.node = name ∧ Told d) = 0 := by
  refine List.countP_eq_zero.mpr fun d hd => ?_
  have hne : d.node ≠ name := fun he => h (he ▸ List.mem_map_of_mem hd)
  simp [hne]

/-- The requests that may cut a pass short: an Event, when no node after the one
it is about is actionable. -/
def CutsNothing (nodes : List Node) (now : ℚ) (cfg : PolicyConfig) (parseTime : TimeParser) (e : Event Api) : Prop :=
  ∃ before node after, nodes = before ++ node :: after ∧ aboutNode e = some (nodeName node) ∧
    ∀ later ∈ after, ¬Actionable now cfg parseTime later

/-! ### The pass -/

/-- In a fleet of distinct names, the position of a node is the position of the
decision about it. -/
theorem split_unique {before after before' after' : List Node} {node node' : Node} {nodes : List Node}
    (hd : DistinctNames nodes) (h : nodes = before ++ node :: after) (h' : nodes = before' ++ node' :: after')
    (hname : nodeName node = nodeName node') : before = before' ∧ node = node' ∧ after = after' := by
  have hlen : ∀ {before after : List Node} {node : Node}, nodes = before ++ node :: after →
      (nodes.map nodeName).idxOf (nodeName node) = before.length := by
    intro before after node h
    have hnodup : ((before ++ node :: after).map nodeName).Nodup := h ▸ hd
    rw [List.map_append, List.map_cons, List.nodup_append] at hnodup
    have hnot : nodeName node ∉ before.map nodeName := fun hm => hnodup.2.2 _ hm _ List.mem_cons_self rfl
    rw [h, List.map_append, List.map_cons, List.idxOf_append_of_notMem hnot]
    simp
  have hsame : before.length = before'.length := by rw [← hlen h, ← hlen h', hname]
  obtain ⟨hb, hrest⟩ := List.append_inj (h.symm.trans h') hsame
  obtain ⟨hn, ha⟩ := List.cons.inj hrest
  exact ⟨hb, hn, ha⟩

section

variable {es : List (Event Api)} {done rest : List Decision} {dec : Decision} {e : Event Api}

/-- In a pass cut short, a node before the end of it is told of like in any
other pass, the node at its end by the last event at most, and a node after it
not at all. -/
theorem eventsAbout_cutShort (hn : ((done ++ dec :: rest).map (·.node)).Nodup)
    (hlast : aboutNode e = none ∧ dec.action = .cordon ∨ aboutNode e = some dec.node ∧ Told dec)
    (hcount : ∀ name, eventsAbout name es = (done.countP fun d => d.node = name ∧ Told d) +
      if aboutNode e = some name then 1 else 0) :
    (∀ d ∈ done, eventsAbout d.node es = if Told d then 1 else 0) ∧
      eventsAbout dec.node es = (if aboutNode e = some dec.node then 1 else 0) ∧
        ∀ d ∈ rest, eventsAbout d.node es = 0 := by
  rw [List.map_append, List.map_cons, List.nodup_append, List.nodup_cons] at hn
  obtain ⟨hdone, ⟨hdec, -⟩, hapart⟩ := hn
  have hother : ∀ {name}, name ≠ dec.node → aboutNode e ≠ some name := by
    rintro name hne he
    rcases hlast with ⟨hnone, -⟩ | ⟨hsome, -⟩
    · cases hnone.symm.trans he
    · exact hne (Option.some.inj (he.symm.trans hsome))
  refine ⟨fun d hd => ?_, ?_, fun d hd => ?_⟩
  · have hne : d.node ≠ dec.node := hapart _ (List.mem_map_of_mem hd) _ List.mem_cons_self
    rw [hcount, countP_told hdone hd, if_neg (hother hne), Nat.add_zero]
  · have hnot : dec.node ∉ done.map (·.node) := fun hm => hapart _ hm _ List.mem_cons_self rfl
    rw [hcount, countP_told_eq_zero hnot, Nat.zero_add]
  · have hne : d.node ≠ dec.node := fun h => hdec (h ▸ List.mem_map_of_mem hd)
    have hnot : d.node ∉ done.map (·.node) := fun h =>
      hapart _ h _ (List.mem_cons_of_mem _ (List.mem_map_of_mem hd)) rfl
    rw [hcount, countP_told_eq_zero hnot, if_neg (hother hne)]

/-- The nodes of the decisions after one of a pass are the nodes after its node. -/
theorem node_of_decision (h : decide nodes now cfg parseTime recentCordons = done ++ dec :: rest) :
    ∃ before node after, nodes = before ++ node :: after ∧ nodeName node = dec.node ∧
      after.map nodeName = rest.map (·.node) := by
  have hnames : nodes.map nodeName = done.map (·.node) ++ dec.node :: rest.map (·.node) := by
    have hmap : (decide nodes now cfg parseTime recentCordons).map (·.node) = nodes.map nodeName :=
      map_node_decideLoop _ nodes
    rw [← hmap, h, List.map_append, List.map_cons]
  obtain ⟨before, later, hnodes, -, hlater⟩ := List.map_eq_append_iff.mp hnames
  obtain ⟨node, after, rfl, hnode, hafter⟩ := List.map_eq_cons_iff.mp hlater
  exact ⟨before, node, after, hnodes, hnode, hafter⟩

theorem nodup_decide (hd : DistinctNames nodes) :
    ((decide nodes now cfg parseTime recentCordons).map (·.node)).Nodup := by
  rw [decide, map_node_decideLoop]
  exact hd

/-- A pass that came to its end has told of every actionable node it did not
withhold for the scope. -/
theorem finished_witnessed_iff (hd : DistinctNames nodes)
    (h : PassEvents (decide nodes now cfg parseTime recentCordons) es false) :
    (∀ node ∈ nodes, Actionable now cfg parseTime node → eventsAbout (nodeName node) es = 1) ↔
      ∀ before node after, nodes = before ++ node :: after →
        ¬OnlyScopeWithholds nodes now cfg parseTime recentCordons before node := by
  have hat : ∀ {before node after}, nodes = before ++ node :: after → eventsAbout (nodeName node) es =
      if Told (decisionAt nodes now cfg parseTime recentCordons before node) then 1 else 0 := by
    intro before node after hnodes
    obtain ⟨done, rest, hdec, -⟩ := @decide_split nodes now cfg parseTime recentCordons before after node hnodes
    rw [h.finished.2, ← countP_told (nodup_decide hd) (hdec ▸ List.mem_append_right _ List.mem_cons_self)]
    rw [decisionAt, decideNode_node]
  constructor
  · intro hall before node after hnodes hscope
    have hone := hall node (by simp [hnodes]) hscope.eligible.actionable
    rw [hat hnodes, if_neg ((not_told_iff hscope.eligible.actionable).mpr hscope)] at hone
    cases hone
  · intro hnone node hnode hact
    obtain ⟨before, after, hnodes⟩ := List.append_of_mem hnode
    rw [hat hnodes, if_pos]
    by_contra hquiet
    exact hnone before node after hnodes ((not_told_iff hact).mp hquiet)

theorem decisionAt_mem {before after : List Node} {node : Node} (hnodes : nodes = before ++ node :: after) :
    decisionAt nodes now cfg parseTime recentCordons before node ∈ decide nodes now cfg parseTime recentCordons := by
  obtain ⟨done, rest, hdec, -⟩ := @decide_split nodes now cfg parseTime recentCordons before after node hnodes
  rw [hdec]
  exact List.mem_append_right _ List.mem_cons_self

theorem decisionAt_node (before : List Node) (node : Node) :
    (decisionAt nodes now cfg parseTime recentCordons before node).node = nodeName node :=
  decideNode_node _ node

variable (nodes now cfg parseTime recentCordons) in
/-- A pass that an event cuts short at a decision, and how often its nodes are told of. -/
structure CutAt (es : List (Event Api)) (done : List Decision) (dec : Decision) (rest : List Decision) (e : Event Api) :
    Prop where
  decided : decide nodes now cfg parseTime recentCordons = done ++ dec :: rest
  aborts : aborts e = true
  mem : e ∈ es
  alone : ∀ e' ∈ es, Guard.aborts e' = true → e' = e
  last : aboutNode e = none ∧ dec.action = .cordon ∨ aboutNode e = some dec.node ∧ Told dec
  before : ∀ d ∈ done, eventsAbout d.node es = if Told d then 1 else 0
  here : eventsAbout dec.node es = if aboutNode e = some dec.node then 1 else 0
  after : ∀ d ∈ rest, eventsAbout d.node es = 0

theorem PassEvents.cutAt (h : PassEvents (decide nodes now cfg parseTime recentCordons) es true)
    (hd : DistinctNames nodes) :
    ∃ done dec rest e, CutAt nodes now cfg parseTime recentCordons es done dec rest e := by
  obtain ⟨done, dec, rest, gs, e, hdec, rfl, haborts, hquiet, hlast, hcount⟩ := h.cutShort
  obtain ⟨hdone, hhere, hrest⟩ := eventsAbout_cutShort (hdec ▸ nodup_decide hd) hlast hcount
  refine ⟨done, dec, rest, e, hdec, haborts, by simp, fun e' he' haborts' => ?_, hlast, hdone, hhere, hrest⟩
  rcases List.mem_append.mp he' with he' | he'
  · exact absurd ⟨e', he', haborts'⟩ hquiet
  · exact List.mem_singleton.mp he'

/-- A node stands before the end of the pass, at it, or after it. -/
theorem CutAt.place (h : CutAt nodes now cfg parseTime recentCordons es done dec rest e) {before after : List Node}
    {node : Node} (hnodes : nodes = before ++ node :: after) :
    decisionAt nodes now cfg parseTime recentCordons before node ∈ done ∨
      decisionAt nodes now cfg parseTime recentCordons before node = dec ∨
        decisionAt nodes now cfg parseTime recentCordons before node ∈ rest := by
  have hmem := @decisionAt_mem nodes now cfg parseTime recentCordons before after node hnodes
  rw [h.decided] at hmem
  simpa using hmem

theorem CutAt.unscoped (h : CutAt nodes now cfg parseTime recentCordons es done dec rest e)
    (hall : ∀ node ∈ nodes, Actionable now cfg parseTime node → eventsAbout (nodeName node) es = 1)
    {before after : List Node} {node : Node} (hnodes : nodes = before ++ node :: after) :
    ¬OnlyScopeWithholds nodes now cfg parseTime recentCordons before node := by
  intro hscope
  have hact := hscope.eligible.actionable
  have hone := hall node (by simp [hnodes]) hact
  have hsilent := (not_told_iff hact).mpr hscope
  rw [← decisionAt_node before node] at hone
  rcases h.place hnodes with hdec | hdec | hdec
  · rw [h.before _ hdec, if_neg hsilent] at hone
    cases hone
  · rw [hdec] at hsilent
    rcases h.last with ⟨-, hcordon⟩ | ⟨-, htold⟩
    · exact hsilent (.inl hcordon)
    · exact hsilent htold
  · rw [h.after _ hdec] at hone
    cases hone

theorem CutAt.cutsNothing (h : CutAt nodes now cfg parseTime recentCordons es done dec rest e)
    (hall : ∀ node ∈ nodes, Actionable now cfg parseTime node → eventsAbout (nodeName node) es = 1) :
    CutsNothing nodes now cfg parseTime e := by
  rcases h.last with ⟨hnone, hcordon⟩ | ⟨habout, -⟩
  · obtain ⟨before, target, after, hnodes, htarget, helig, -⟩ := mem_decide_cordon
      (h.decided ▸ List.mem_append_right done List.mem_cons_self) hcordon
    have hone := hall target (by simp [hnodes]) helig.actionable
    rw [← htarget, h.here, hnone] at hone
    cases hone
  · obtain ⟨before, node, after, hnodes, hname, hafter⟩ := node_of_decision h.decided
    refine ⟨before, node, after, hnodes, habout.trans (congrArg some hname.symm), fun later hlater hact => ?_⟩
    obtain ⟨d, hd, hdname⟩ := List.mem_map.mp (hafter ▸ List.mem_map_of_mem hlater)
    have hone := hall later (by simp [hnodes, hlater]) hact
    rw [← hdname, h.after d hd] at hone
    cases hone

theorem CutAt.witnessed (h : CutAt nodes now cfg parseTime recentCordons es done dec rest e) (hd : DistinctNames nodes)
    (hscope : ∀ before node after, nodes = before ++ node :: after →
      ¬OnlyScopeWithholds nodes now cfg parseTime recentCordons before node)
    (hcuts : CutsNothing nodes now cfg parseTime e) {node : Node} (hnode : node ∈ nodes)
    (hact : Actionable now cfg parseTime node) : eventsAbout (nodeName node) es = 1 := by
  obtain ⟨before, after, hnodes⟩ := List.append_of_mem hnode
  have htold : Told (decisionAt nodes now cfg parseTime recentCordons before node) := by
    by_contra hsilent
    exact hscope before node after hnodes ((not_told_iff hact).mp hsilent)
  obtain ⟨b, target, a, hsplit, habout, hlater⟩ := hcuts
  have htarget : aboutNode e = some dec.node := by
    rcases h.last with ⟨hnone, -⟩ | ⟨hsome, -⟩
    · cases hnone.symm.trans habout
    · exact hsome
  rw [← decisionAt_node before node]
  rcases h.place hnodes with hdec | hdec | hdec
  · rw [h.before _ hdec, if_pos htold]
  · rw [hdec, h.here, if_pos htarget]
  · -- a node after the one that was told of last would not be actionable
    obtain ⟨b', node', a', hsplit', hname', hafter'⟩ := node_of_decision h.decided
    obtain ⟨-, -, rfl⟩ := split_unique hd hsplit hsplit'
      ((Option.some.inj (habout.symm.trans htarget)).trans hname'.symm)
    have hmem : nodeName node ∈ a.map nodeName := by
      rw [hafter', ← decisionAt_node before node]
      exact List.mem_map_of_mem hdec
    obtain ⟨later, hl, hsame⟩ := List.mem_map.mp hmem
    obtain rfl : later = node := hd.eq (by simp [hsplit, hl]) hnode hsame
    exact absurd hact (hlater later hl)

/-- A pass cut short must have been so by the Event about its last actionable
node. -/
theorem cutShort_witnessed_iff (hd : DistinctNames nodes)
    (h : PassEvents (decide nodes now cfg parseTime recentCordons) es true) :
    (∀ node ∈ nodes, Actionable now cfg parseTime node → eventsAbout (nodeName node) es = 1) ↔
      (∀ before node after, nodes = before ++ node :: after →
        ¬OnlyScopeWithholds nodes now cfg parseTime recentCordons before node) ∧
      ∀ e ∈ es, aborts e = true → CutsNothing nodes now cfg parseTime e := by
  obtain ⟨done, dec, rest, e, hcut⟩ := h.cutAt hd
  constructor
  · intro hall
    refine ⟨fun before node after hnodes => hcut.unscoped hall hnodes, fun e' he' haborts => ?_⟩
    rw [hcut.alone e' he' haborts]
    exact hcut.cutsNothing hall
  · rintro ⟨hscope, hcuts⟩ node hnode hact
    exact hcut.witnessed hd hscope (hcuts e hcut.mem hcut.aborts) hnode hact

end

/-- A pass attempts exactly one Event about each actionable node of the fleet it
listed, unless a cordon is withheld for the scope alone, or an exception other
than a K8sError cuts the pass short of an actionable node. -/
theorem runNodes_witnessed_iff {cfg : Config} {g g' : GuardObject} {es : List (Event Api)}
    {v : Except Exc NodesOutcome} (hreturns : ((runNodes cfg now).call g).Returns es (v, g'))
    (hfleet : fleet es = some nodes) (hd : DistinctNames nodes) :
    (∀ node ∈ nodes, Actionable now cfg.policy Cluster.parseTime node → eventsAbout (nodeName node) es = 1) ↔
      (∀ before node after, nodes = before ++ node :: after →
        ¬OnlyScopeWithholds nodes now cfg.policy Cluster.parseTime g.recentCordons before node) ∧
      ∀ e ∈ es, aborts e = true → CutsNothing nodes now cfg.policy Cluster.parseTime e := by
  obtain ⟨gs, rfl, hpass⟩ := Program.wp_returns runNodes_events hreturns nodes hfleet
  have hlisting : ∀ name, eventsAbout name (⟨.listNodes cfg.nodeLabelSelector, .ok nodes⟩ :: gs) =
      eventsAbout name gs := fun _ => rfl
  have haborts : ∀ e ∈ (⟨.listNodes cfg.nodeLabelSelector, .ok nodes⟩ : Event Api) :: gs, aborts e = true →
      e ∈ gs := by
    intro e he habort
    rcases List.mem_cons.mp he with rfl | he
    · cases habort
    · exact he
  simp only [hlisting]
  cases hcut : raised v with
  | false =>
    rw [hcut] at hpass
    rw [finished_witnessed_iff hd hpass, iff_self_and]
    exact fun _ e he habort => absurd ⟨e, haborts e he habort, habort⟩ hpass.finished.1
  | true =>
    rw [hcut] at hpass
    rw [cutShort_witnessed_iff hd hpass]
    refine and_congr_right fun _ => ⟨fun h e he habort => h e (haborts e he habort) habort, fun h e he => ?_⟩
    exact h e (List.mem_cons_of_mem _ he)

theorem runNodes_witnessed_iff_twoNodes :
    (∀ node ∈ twoNodes, Actionable 600 enforcing.policy Cluster.parseTime node →
        eventsAbout (nodeName node) twoNodesPass.events = 1) ↔
      (∀ before node after, twoNodes = before ++ node :: after →
        ¬OnlyScopeWithholds twoNodes 600 enforcing.policy Cluster.parseTime [] before node) ∧
      ∀ e ∈ twoNodesPass.events, aborts e = true → CutsNothing twoNodes 600 enforcing.policy Cluster.parseTime e :=
  runNodes_witnessed_iff (Program.play_returns twoNodesApi ((runNodes enforcing 600).call enforcing.start))
    (by decide +kernel) (by decide +kernel)

/-- Enforcing, but only on the healthy one of the two nodes. -/
def scopedAway : Config := { enforcing with enforceNodes := ["gpu-1"] }

/-- The refusal for the scope is about a sick node in service, and leaves no Event. -/
theorem scopedAway_unwitnessed :
    fleet (Call.play (runNodes scopedAway) twoNodesApi 600 scopedAway.start).events = some twoNodes ∧
      DistinctNames twoNodes ∧ Actionable 600 scopedAway.policy Cluster.parseTime twoNodes[0] ∧
      (decide twoNodes 600 scopedAway.policy Cluster.parseTime []).map (·.reason) = [.outOfScope, .healthy] ∧
      eventsAbout "gpu-0" (Call.play (runNodes scopedAway) twoNodesApi 600 scopedAway.start).events = 0 := by
  decide +kernel

end GpuNodeHealth.Guard
