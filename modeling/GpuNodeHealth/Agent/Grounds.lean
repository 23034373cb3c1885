import GpuNodeHealth.Agent.Evidence
import GpuNodeHealth.Guard.Capacity

/-! No cordon without grounds. Whatever the agent's threads do, however often it is
restarted, and whoever else writes to the Node, a node that the guard decides to cordon
has been shown with a condition that one process published, with evidence for it at every
publish, from before the minimum age until the latest publish that reached the Node. -/

namespace GpuNodeHealth.Agent

open Cluster Debounce Files Interaction Text
open Guard (conditionIndex)

/-- The publish reaches the Node, with something to say. -/
def Deployed.Takes (d : Deployed) (act : Act) : Prop :=
  ∃ now answer, act = .publish now true answer ∧ d.threads.collector.collected.isSome

/-- None of the publishes reached the Node with something to say. -/
def Setup.Untaken (setup : Setup) (node : Node) (acts : List Act) : Prop :=
  ∀ front act rest, acts = front ++ act :: rest → ¬(setup.run node front).Takes act

variable {setup : Setup} {node : Node} {acts : List Act} {act : Act} {name : ConditionName}

theorem status_true {info : ConditionInfo} : info.status = "True" ↔ info.active = true := by
  cases h : info.active <;> simp [ConditionInfo.status, h]

theorem detail_isSome (d : Deployed) :
    (d.threads.collector.detail name).isSome = d.threads.collector.collected.isSome := by
  simp [Collector.detail]

/-! ### What the publisher holds -/

/-- The streak a condition is in: its first publish, and those of the same process since. -/
def Setup.InStreak (setup : Setup) (node : Node) (acts : List Act) (name : ConditionName) (since : String) : Prop :=
  ∃ before first applied answer streak, acts = before ++ .publish first applied answer :: streak ∧
    Act.restart ∉ streak ∧ since = rfc3339 first ∧
    ∀ upto now applied answer rest, acts = upto ++ .publish now applied answer :: rest → before <+: upto →
      (setup.run node upto).Active name

/-- An act that ends a run is one of it, or comes last. -/
theorem snoc_eq_append_cons {α : Type} {l upto rest : List α} {a b : α} (h : l ++ [a] = upto ++ b :: rest) :
    (l = upto ∧ a = b ∧ rest = []) ∨ ∃ rest', l = upto ++ b :: rest' ∧ rest = rest' ++ [a] := by
  rcases List.eq_nil_or_concat' rest with rfl | ⟨rest', last, rfl⟩
  · obtain ⟨rfl, hlast⟩ := List.append_inj' h rfl
    exact .inl ⟨rfl, (List.cons.inj hlast).1, rfl⟩
  · rw [← List.cons_append, ← List.append_assoc] at h
    obtain ⟨rfl, hlast⟩ := List.append_inj' h rfl
    obtain ⟨rfl, -⟩ := List.cons.inj hlast
    exact .inr ⟨rest', rfl, rfl⟩

theorem Setup.InStreak.snoc {since : String} (h : setup.InStreak node acts name since) (hact : act ≠ .restart)
    (hactive : ∀ now applied answer, act = .publish now applied answer → (setup.run node acts).Active name) :
    setup.InStreak node (acts ++ [act]) name since := by
  obtain ⟨before, first, applied, answer, streak, hsplit, hrestart, hsince, hall⟩ := h
  refine ⟨before, first, applied, answer, streak ++ [act], by simp [hsplit], ?_, hsince, ?_⟩
  · simpa [hrestart] using hact.symm
  · intro upto now applied answer rest hupto hbefore
    rcases snoc_eq_append_cons hupto with ⟨rfl, rfl, -⟩ | ⟨rest', hupto, -⟩
    · exact hactive now applied answer rfl
    · exact hall upto now applied answer rest' hupto hbefore

theorem inStreak_self {now : ℚ} {applied : Bool} {answer : Except Exc Unit} (h : (setup.run node acts).Active name) :
    setup.InStreak node (acts ++ [.publish now applied answer]) name (rfc3339 now) := by
  refine ⟨acts, now, applied, answer, [], rfl, List.not_mem_nil, rfl, ?_⟩
  intro upto now' applied' answer' rest hupto hbefore
  rcases snoc_eq_append_cons hupto with ⟨rfl, -, -⟩ | ⟨rest', hupto, -⟩
  · exact h
  · have hlength := congrArg List.length hupto
    have hle := hbefore.length_le
    simp only [List.length_append, List.length_cons] at hlength
    omega

/-- A condition that the publisher holds True is in a streak. -/
theorem run_view (acts : List Act) {status since : String}
    (hview : (setup.run node acts).world.publisher.view name = some (status, since)) :
    (setup.run node acts).threads.collector.collected.isSome ∧
      (status = "True" → setup.InStreak node acts name since) := by
  induction acts using List.reverseRecOn generalizing status since with
  | nil => cases hview
  | append_singleton acts act ih =>
    rw [run_acts_snoc] at hview ⊢
    cases act with
    | pump path now answer =>
      have hsame : ((setup.run node acts).step setup (.pump path now answer)).threads.collector =
          (setup.run node acts).threads.collector ∧
            ((setup.run node acts).step setup (.pump path now answer)).world = (setup.run node acts).world := by
        unfold Deployed.step
        split_ifs <;> exact ⟨rfl, rfl⟩
      rw [hsame.2] at hview
      obtain ⟨hsome, hstreak⟩ := ih hview
      exact ⟨hsame.1 ▸ hsome, fun htrue => (hstreak htrue).snoc (by simp) (by simp)⟩
    | collect met =>
      obtain ⟨hsome, hstreak⟩ := ih hview
      refine ⟨?_, fun htrue => (hstreak htrue).snoc (by simp) (by simp)⟩
      by_cases hanswered : met.Answered setup.cfg
      · obtain ⟨collected, hnew, -⟩ := @collect_answered (setup.run node acts).threads setup.cfg met hanswered
        exact congrArg Option.isSome hnew
      · exact (congrArg Option.isSome (collect_unanswered hanswered).2).trans hsome
    | restart => cases hview
    | write other =>
      obtain ⟨hsome, hstreak⟩ := ih hview
      exact ⟨hsome, fun htrue => (hstreak htrue).snoc (by simp) (by simp)⟩
    | publish now applied answer =>
      have hpublish := publish_view (setup.run node acts).world
        ((setup.run node acts).publication now applied answer) name
      rw [Deployed.step, hpublish] at hview
      simp only [Deployed.publication] at hview
      cases hdetail : (setup.run node acts).threads.collector.detail name with
      | none =>
        rw [hdetail] at hview
        obtain ⟨hsome, -⟩ := ih hview
        rw [← @detail_isSome name, hdetail] at hsome
        cases hsome
      | some info =>
        rw [hdetail, remember] at hview
        have hsome : (setup.run node acts).threads.collector.collected.isSome := by
          rw [← @detail_isSome name, hdetail]
          rfl
        refine ⟨hsome, ?_⟩
        rintro rfl
        have hheld := fst_hold ((setup.run node acts).world.publisher.view name) (info.status, rfc3339 now)
        rw [hview, Option.map_some, Option.some_inj] at hheld
        have hactive : (setup.run node acts).Active name := ⟨info, hdetail, status_true.mp hheld.symm⟩
        cases hold : (setup.run node acts).world.publisher.view name with
        | none =>
          rw [hold] at hview
          obtain ⟨-, rfl⟩ := Prod.mk.inj (Option.some.inj hview)
          exact inStreak_self hactive
        | some view =>
          obtain ⟨status, before⟩ := view
          rw [hold] at hview
          simp only [Debounce.hold] at hview
          split_ifs at hview with hsame
          · obtain ⟨rfl, rfl⟩ := Prod.mk.inj (Option.some.inj hview)
            exact ((ih hold).2 rfl).snoc (by simp) fun _ _ _ _ => hactive
          · obtain ⟨-, rfl⟩ := Prod.mk.inj (Option.some.inj hview)
            exact inStreak_self hactive

/-! ### What the Node shows -/

/-- The Node shows of every condition what the publish after some acts had it show, and what
the publisher then held of it. -/
structure Setup.Displayed (setup : Setup) (node : Node) (acts upto : List Act) (now : ℚ) (answer : Except Exc Unit)
    (after : List Act) : Prop where
  split : acts = upto ++ .publish now true answer :: after
  latest : ∀ before act rest, after = before ++ act :: rest →
    ¬(setup.run node (upto ++ .publish now true answer :: before)).Takes act
  shown : ∀ name, ∃ info cond since, (setup.run node upto).threads.collector.detail name = some info ∧
    conditionIndex (setup.run node acts).world.node name.type = some cond ∧ cond.status = some info.status ∧
    cond.lastTransitionTime = some since ∧
    (setup.run node (upto ++ [.publish now true answer])).world.publisher.view name = some (info.status, since)

variable {upto after : List Act} {now : ℚ} {answer : Except Exc Unit}

theorem conditionIndex_mergeInto_foreign (node : Node) (conditions : List NodeCondition) {new : NodeCondition}
    {ctype : String} (h : new.type ≠ some ctype) :
    conditionIndex { node with conditions := mergeInto conditions new } ctype =
      conditionIndex { node with conditions } ctype := by
  have hmap : conditionIndex { node with conditions := conditions.map fun old =>
      if old.type = new.type then mergeCondition old new else old } ctype =
        conditionIndex { node with conditions } ctype := by
    induction conditions using List.reverseRecOn with
    | nil => rfl
    | append_singleton conditions c ih =>
      rw [List.map_append, List.map_singleton, Guard.conditionIndex_append, Guard.conditionIndex_append, ih]
      split_ifs with htype <;> simp_all [mergeCondition]
  unfold mergeInto
  split_ifs
  · exact hmap
  · simp [Guard.conditionIndex_append, h]

theorem conditionIndex_applyPatch_foreign (node : Node) {patch : List NodeCondition} {ctype : String}
    (h : ∀ c ∈ patch, c.type ≠ some ctype) :
    conditionIndex (applyPatch node patch) ctype = conditionIndex node ctype := by
  unfold applyPatch
  induction patch using List.reverseRecOn with
  | nil => rfl
  | append_singleton patch c ih =>
    rw [List.foldl_append, List.foldl_cons, List.foldl_nil, conditionIndex_mergeInto_foreign _ _ (h c (by simp))]
    exact ih fun c hc => h c (List.mem_append_left _ hc)

/-- Nobody else touches the conditions of the agent. -/
theorem write_shows (node : Node) (other : NodeWrite) :
    conditionIndex (other.apply node) name.type = conditionIndex node name.type := by
  cases other with
  | schedule unschedulable => rfl
  | conditions patch foreign => exact conditionIndex_applyPatch_foreign node fun c hc => foreign c hc name

/-- Whatever does not reach the Node leaves what it shows. -/
theorem step_shows (hact : ¬(setup.run node acts).Takes act) :
    conditionIndex (setup.run node (acts ++ [act])).world.node name.type =
      conditionIndex (setup.run node acts).world.node name.type := by
  rw [run_acts_snoc]
  cases act with
  | pump path now answer =>
    unfold Deployed.step
    split_ifs <;> rfl
  | collect met => rfl
  | restart => rfl
  | write other => exact write_shows _ other
  | publish now applied answer =>
    have hindex := publish_index (setup.run node acts).world ((setup.run node acts).publication now applied answer) name
    rw [Deployed.step, hindex]
    split_ifs with happlied
    · obtain rfl : applied = true := happlied
      have hnone : (setup.run node acts).threads.collector.detail name = none := by
        rw [← Option.not_isSome_iff_eq_none, detail_isSome]
        exact fun hsome => hact ⟨now, answer, rfl, hsome⟩
      simp [Deployed.publication, hnone]
    · rfl

theorem Setup.Displayed.snoc (h : setup.Displayed node acts upto now answer after)
    (hact : ¬(setup.run node acts).Takes act) :
    setup.Displayed node (acts ++ [act]) upto now answer (after ++ [act]) where
  split := by simp [h.split]
  latest before act' rest hsplit := by
    rcases snoc_eq_append_cons hsplit with ⟨rfl, rfl, -⟩ | ⟨rest', hsplit, -⟩
    · exact h.split ▸ hact
    · exact h.latest before act' rest' hsplit
  shown name := by
    obtain ⟨info, cond, since, hdetail, hindex, hrest⟩ := h.shown name
    exact ⟨info, cond, since, hdetail, (step_shows hact).trans hindex, hrest⟩

/-- A publish that reaches the Node is what it shows. -/
theorem displayed_self (h : (setup.run node acts).threads.collector.collected.isSome) :
    setup.Displayed node (acts ++ [.publish now true answer]) acts now answer [] where
  split := rfl
  latest before act rest hnil := by simp at hnil
  shown name := by
    rw [← @detail_isSome name] at h
    obtain ⟨info, hdetail⟩ := Option.isSome_iff_exists.mp h
    have hdetail' : ((setup.run node acts).publication now true answer).detail name = some info := hdetail
    obtain ⟨since, hview, hsince⟩ := publish_view_some (w := (setup.run node acts).world) hdetail'
    have hindex := publish_index (setup.run node acts).world ((setup.run node acts).publication now true answer) name
    have happlied : ((setup.run node acts).publication now true answer).applied = true := rfl
    rw [hdetail', Option.map_some, Option.some_or, if_pos happlied] at hindex
    rw [run_acts_snoc]
    exact ⟨info, _, since, hdetail, hindex, rfl, hsince, hview⟩

/-- A Node without conditions of the agent shows those of the latest publish that reached it. -/
theorem run_displayed (hfresh : ∀ name : ConditionName, conditionIndex node name.type = none) (acts : List Act) :
    (setup.Untaken node acts ∧
        ∀ name : ConditionName, conditionIndex (setup.run node acts).world.node name.type = none) ∨
      ∃ upto now answer after, setup.Displayed node acts upto now answer after := by
  induction acts using List.reverseRecOn with
  | nil => exact .inl ⟨fun front act rest hnil => by simp at hnil, hfresh⟩
  | append_singleton acts act ih =>
    by_cases hact : (setup.run node acts).Takes act
    · obtain ⟨now, answer, rfl, hsome⟩ := hact
      exact .inr ⟨acts, now, answer, [], displayed_self hsome⟩
    · rcases ih with ⟨huntaken, hnone⟩ | ⟨upto, now, answer, after, hshown⟩
      · refine .inl ⟨fun front act' rest hsplit => ?_, fun name => (step_shows hact).trans (hnone name)⟩
        rcases snoc_eq_append_cons hsplit with ⟨rfl, rfl, -⟩ | ⟨rest', hsplit, -⟩
        · exact hact
        · exact huntaken front act' rest' hsplit
      · exact .inr ⟨upto, now, answer, after ++ [act], hshown.snoc hact⟩

/-! ### The guard -/

/-- A stretch of one process, from a publish before a moment until the latest one that reached
the Node. At each of its publishes the condition had evidence in the latest collection, and the
last one had GPUHealthDataStale inactive: of no log had the latest pump failed, and /proc was
listed. A log whose pumps have not begun, or are over, does not show there. -/
structure Setup.Stretch (setup : Setup) (node : Node) (acts : List Act) (name : ConditionName) (moment : ℚ)
    (before streak after : List Act) : Prop where
  split : acts = before ++ streak ++ after
  cordons : name ∉ [ConditionName.gpuProbeFailed, .gpuHealthDataStale]
  process : Act.restart ∉ streak
  starts : ∃ first applied answer, streak.head? = some (.publish first applied answer) ∧ first < moment
  ends : ∃ upto now answer front late, streak = upto ++ [.publish now true answer] ∧
    ¬(setup.run node (before ++ upto)).Active .gpuHealthDataStale ∧ setup.Latest (before ++ upto) front late ∧
      ¬setup.Blind node front late
  latest : ∀ upto act rest, after = upto ++ act :: rest → ¬(setup.run node (before ++ streak ++ upto)).Takes act
  grounds : ∀ upto now applied answer rest, streak = upto ++ .publish now applied answer :: rest →
    setup.Evidence node (before ++ upto) name

/-- Where nothing is stale the latest collection was not blind. -/
theorem sighted {info : ConditionInfo}
    (hdetail : (setup.run node acts).threads.collector.detail .gpuHealthDataStale = some info)
    (hinactive : info.active = false) :
    ¬(setup.run node acts).Active .gpuHealthDataStale ∧
      ∃ front late, setup.Latest acts front late ∧ ¬setup.Blind node front late := by
  have hstale : ¬(setup.run node acts).Active .gpuHealthDataStale := by
    rintro ⟨other, hother, hactive⟩
    obtain rfl : info = other := Option.some.inj (hdetail.symm.trans hother)
    rw [hinactive] at hactive
    cases hactive
  have hsome : (setup.run node acts).threads.collector.collected.isSome := by
    rw [← @detail_isSome .gpuHealthDataStale, hdetail]
    rfl
  obtain ⟨front, late, hlatest⟩ := latest_of_collected acts hsome
  exact ⟨hstale, front, late, hlatest, fun hblind => hstale ((active_latest hlatest).mpr (blind_iff.mpr hblind))⟩

theorem aged_of_young {cond : NodeCondition} {g : ℚ} {minAgeSeconds : ℤ} {parse : Guard.TimeParser}
    (h : Guard.young cond g minAgeSeconds parse = false) :
    ∃ since, parse cond.lastTransitionTime = some since ∧ (minAgeSeconds : ℚ) ≤ g - since := by
  unfold Guard.young at h
  cases hparse : parse cond.lastTransitionTime with
  | none => simp [hparse] at h
  | some since =>
    rw [hparse] at h
    exact ⟨since, rfl, not_lt.mp (of_decide_eq_false h)⟩

/-- The condition behind a cordon: it is True, of a level that cordons, and old enough. -/
theorem eligible_condition {nodes : List Node} {g : ℚ} {cfg : Guard.PolicyConfig} {parse : Guard.TimeParser}
    {target : Node} (h : Guard.Eligible nodes g cfg parse target) :
    ∃ name : ConditionName, name ∉ [ConditionName.gpuProbeFailed, .gpuHealthDataStale] ∧
      ∃ cond since, conditionIndex target name.type = some cond ∧ cond.status = some "True" ∧
        parse cond.lastTransitionTime = some since ∧ (cfg.conditionMinAgeSeconds : ℚ) ≤ g - since := by
  obtain ⟨t, ht, hyoung, hlevel⟩ := h.trigger
  rw [Guard.triggerLevel_eq, Option.map_eq_some_iff] at ht
  obtain ⟨⟨level, cond⟩, hfirst, rfl⟩ := ht
  obtain ⟨since, hparse, hage⟩ := aged_of_young hyoung
  have hcond (name : ConditionName) (hname : name ∉ [ConditionName.gpuProbeFailed, .gpuHealthDataStale])
      {c : NodeCondition} {l : Guard.Level} (hactive : Guard.activeCondition target name.type = some c)
      (hc : Guard.firstActive target = some (l, c)) :
      ∃ name : ConditionName, name ∉ [ConditionName.gpuProbeFailed, .gpuHealthDataStale] ∧
        ∃ cond since, conditionIndex target name.type = some cond ∧ cond.status = some "True" ∧
          parse cond.lastTransitionTime = some since ∧ (cfg.conditionMinAgeSeconds : ℚ) ≤ g - since := by
    obtain ⟨-, rfl⟩ := Prod.mk.inj (Option.some.inj (hfirst.symm.trans hc))
    obtain ⟨hindex, hstatus⟩ := Guard.activeCondition_eq_some.mp hactive
    exact ⟨name, hname, cond, since, hindex, hstatus, hparse, hage⟩
  rcases Guard.firstActive_cases target with ⟨c, hc, hf⟩ | ⟨c, -, hc, hf⟩ | ⟨c, -, -, hc, hf⟩ | ⟨-, hreport⟩
  · exact hcond .gpuUnrecoverable (by decide) hc hf
  · exact hcond .gpuWorkqueueStalled (by decide) hc hf
  · exact hcond .gpuEngineTimeout (by decide) hc hf
  · obtain rfl : level = .l1 := hreport _ hfirst
    simp [Guard.cordonLevels] at hlevel

/-- A node that the guard decides to cordon has been published with evidence, by one process and
without a break, from before the minimum age until the latest publish that reached it. The guard
reads whole seconds, so the age is right to a second. -/
theorem cordon_grounded (hfresh : ∀ name : ConditionName, conditionIndex node name.type = none) (acts : List Act)
    (hstamps : ∀ now applied answer, Act.publish now applied answer ∈ acts → Cluster.ReadsBack rfc3339 now)
    {nodes : List Node} (hd : Guard.DistinctNames nodes) (hmem : (setup.run node acts).world.node ∈ nodes) {g : ℚ}
    {cfg : Guard.PolicyConfig} {recent : List ℚ} {dec : Guard.Decision}
    (hdec : dec ∈ Guard.decide nodes g cfg parseTime recent) (haction : dec.action = .cordon)
    (hnode : dec.node = Guard.nodeName (setup.run node acts).world.node) :
    ∃ name before streak after,
      setup.Stretch node acts name (g - cfg.conditionMinAgeSeconds + 1) before streak after := by
  obtain ⟨nodesBefore, target, nodesAfter, hnodes, htarget, helig, -⟩ := Guard.mem_decide_cordon hdec haction
  obtain rfl : target = (setup.run node acts).world.node :=
    hd.eq (by simp [hnodes]) hmem (htarget.symm.trans hnode)
  obtain ⟨name, hname, cond, since, hindex, hstatus, hparse, hage⟩ := eligible_condition helig
  rcases run_displayed hfresh acts with ⟨-, hnone⟩ | ⟨upto, now, answer, after, hshown⟩
  · cases (hnone name).symm.trans hindex
  obtain ⟨info, cond', stamp, hdetail, hindex', hinfo, hstamp, hview⟩ := hshown.shown name
  obtain rfl : cond = cond' := Option.some.inj (hindex.symm.trans hindex')
  have htrue : info.status = "True" := Option.some.inj (hinfo.symm.trans hstatus)
  obtain ⟨before, first, applied, answer', streak, hsplit, hrestart, rfl, hactive⟩ := (run_view _ hview).2 htrue
  have hacts : acts = before ++ .publish first applied answer' :: streak ++ after := by
    rw [← hsplit, hshown.split]
    simp
  refine ⟨name, before, .publish first applied answer' :: streak, after, hacts, hname, ?_, ?_, ?_, ?_, ?_⟩
  · simpa using hrestart
  · refine ⟨first, applied, answer', rfl, ?_⟩
    have hreads := hstamps first applied answer' (by simp [hacts])
    rw [hstamp, hreads] at hparse
    obtain rfl := Option.some.inj hparse
    have hfloor := Int.lt_floor_add_one first
    linarith
  · obtain ⟨info', cond', since', hdetail', hindex', hinfo', -⟩ := hshown.shown .gpuHealthDataStale
    have hinactive : info'.active = false := by
      refine eq_false_of_ne_true fun hactive => helig.fresh (Guard.active_iff.mpr ⟨cond', hindex', ?_⟩)
      rw [hinfo', status_true.mpr hactive]
    obtain ⟨hstale, front, late, hsighted⟩ := sighted hdetail' hinactive
    rcases snoc_eq_append_cons hsplit with ⟨rfl, hlast, rfl⟩ | ⟨rest, rfl, rfl⟩
    · exact ⟨[], now, answer, front, late, by rw [hlast]; rfl, by rwa [List.append_nil], by rwa [List.append_nil]⟩
    · exact ⟨.publish first applied answer' :: rest, now, answer, front, late, rfl, hstale, hsighted⟩
  · intro before' act rest hafter
    have hprefix : upto ++ .publish now true answer :: before' =
        before ++ .publish first applied answer' :: streak ++ before' := by
      rw [← hsplit]
      simp
    exact hprefix ▸ hshown.latest before' act rest hafter
  · intro upto' now' applied' answer'' rest hupto
    refine run_evidence (hactive (before ++ upto') now' applied' answer'' rest ?_ (List.prefix_append _ _))
    rw [hsplit, hupto, List.append_assoc]

def hangLine : Line := ⟨ascii "amdgpu 0000:05:00.0: amdgpu: GPU reset begin!", by decide +kernel⟩

def emptyLog : FileSystem := FileSystem.empty.rotate "kern.log"

def oneLog : Setup where
  paths := ["kern.log"]
  census := quietCensus
  unseen := rfl

def idleNode : Node := Guard.readyNode "gpu-0" []

theorem idleNode_fresh (name : ConditionName) : conditionIndex idleNode name.type = none := by
  cases name <;> decide +kernel

/-- A reset begins after the first collection, and is published for five minutes. -/
def hang : List Act :=
  [.pump "kern.log" 29 fun _ => serve emptyLog {}, .collect quietMeeting,
    .pump "kern.log" 44 fun _ => serve (emptyLog.apply (.append "kern.log" [hangLine])) {},
    .collect { quietMeeting with now := 45 }, .publish 45 true (.ok ()),
    .collect { quietMeeting with now := 345 }, .publish 345 true (.ok ())]

def hungFleet : List Node := [(oneLog.run idleNode hang).world.node, Guard.readyNode "gpu-1" []]

def hungDecision : Guard.Decision :=
  (Guard.decide hungFleet 400 Guard.enforceOne parseTime []).head (by decide +kernel)

theorem cordon_grounded_hang : ∃ name before streak after,
    oneLog.Stretch idleNode hang name (400 - Guard.enforceOne.conditionMinAgeSeconds + 1) before streak after := by
  have hstamps : ∀ now applied answer, Act.publish now applied answer ∈ hang → Cluster.ReadsBack rfc3339 now := by
    intro now applied answer h
    simp only [hang, List.mem_cons, reduceCtorEq, Act.publish.injEq, List.not_mem_nil, false_or, or_false] at h
    rcases h with ⟨rfl, -⟩ | ⟨rfl, -⟩
    · decide +kernel
    · decide +kernel
  exact cordon_grounded idleNode_fresh hang hstamps (show Guard.DistinctNames hungFleet by decide +kernel)
    List.mem_cons_self (show hungDecision ∈ _ from List.head_mem _) (by decide +kernel) (by decide +kernel)

end GpuNodeHealth.Agent
