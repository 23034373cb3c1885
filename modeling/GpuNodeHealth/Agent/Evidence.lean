import GpuNodeHealth.Agent.Deployment

/-! What stands behind a published condition. Whenever a condition is active, the latest
collection that was answered found what it takes: lines read from the kernel logs since
another collection of this process at most a window before, a thread of the driver seen
stuck, an exporter that failed, or a source that could not be read. -/

namespace GpuNodeHealth.Agent

open Cluster Files
open Interaction (Event)

/-! ### Evidence -/

/-- No source that is on raises. -/
def Meeting.Answered (cfg : Config) (met : Meeting) : Prop :=
  (cfg.exporterEnabled = true → ∃ signal, met.exporter = .ok signal) ∧
    (cfg.patchCountersEnabled = true → ∃ signal, met.patch = .ok signal)

/-- The latest collection of the present process that was answered, after some acts. -/
def Setup.Latest (setup : Setup) (acts before : List Act) (late : Meeting) : Prop :=
  late.Answered setup.cfg ∧ ∃ after, acts = before ++ .collect late :: after ∧ Act.restart ∉ after ∧
    ∀ met, Act.collect met ∈ after → ¬met.Answered setup.cfg

/-- The collections of the present process, as the census goes through them. -/
def collections (acts : List Act) : List CensusCall :=
  acts.foldl (fun calls act => match act with
    | .collect met => calls ++ [⟨met.scannedAt, met.proc⟩]
    | .restart => []
    | _ => calls) []

/-- So many lines that count under the rules were read since an answered collection of the
process that is at most a window before. -/
def Setup.LoggedAt (setup : Setup) (node : Node) (before : List Act) (late : Meeting) (rules : List Rule) (n : ℤ) :
    Prop :=
  setup.cfg.kernlogEnabled = true ∧ ∃ front early between, before = front ++ .collect early :: between ∧
    Act.restart ∉ between ∧ early.Answered setup.cfg ∧ late.now - early.now ≤ 900 ∧
      n ≤ tallyOf (setup.readIn node (front ++ [.collect early]) between) rules

/-- At a collection after some acts, a thread of the driver has been in D for long enough. -/
def Setup.StuckAt (setup : Setup) (acts : List Act) (met : Meeting) : Prop :=
  setup.cfg.dstateEnabled = true ∧ ∃ s ∈ (CensusCall.mk met.scannedAt met.proc).sleepers, setup.census.GpuTask s ∧
    setup.census.stuckSeconds ≤ secondsInD (collections acts) ⟨met.scannedAt, met.proc⟩ s.key

/-- A log was last read without success, or /proc cannot be listed. -/
def Setup.Blind (setup : Setup) (node : Node) (before : List Act) (late : Meeting) : Prop :=
  (setup.cfg.kernlogEnabled = true ∧
    ∃ path ∈ setup.paths, (setup.run node before).threads.watcher.filesOk path = some false) ∨
  (setup.cfg.dstateEnabled = true ∧ ∃ exc, late.proc = .error exc)

/-- What settles a condition at a collection after some acts. -/
def Setup.Warranted (setup : Setup) (node : Node) (before : List Act) (late : Meeting) : ConditionName → Prop
  | .gpuUnrecoverable => setup.LoggedAt node before late fatalHangRules 1
  | .gpuWorkqueueStalled => setup.LoggedAt node before late workqueueRules 1 ∨ setup.StuckAt before late
  | .gpuEngineTimeout => setup.LoggedAt node before late engineRules 2
  | .gpuProbeFailed => setup.cfg.exporterEnabled = true ∧ ∃ signal, late.exporter = .ok signal ∧
      (signal.reachable = some false ∨ signal.unhealthy ≠ [])
  | .gpuHealthDataStale => setup.Blind node before late

/-- What the latest collection went by. -/
def Setup.Evidence (setup : Setup) (node : Node) (acts : List Act) (name : ConditionName) : Prop :=
  ∃ before late, setup.Latest acts before late ∧ setup.Warranted node before late name

variable {setup : Setup} {node : Node} {acts before rest : List Act} {act : Act} {late : Meeting} {rules : List Rule}
  {n : ℤ} {name : ConditionName}

/-! ### The samples of the evaluator -/

/-- What a collection that is answered evaluates. -/
def Threads.call (cfg : Config) (t : Threads) (met : Meeting) : Evaluation where
  now := met.now
  kernlog := if cfg.kernlogEnabled then t.watcher.snapshot else {}
  dstate := if cfg.dstateEnabled then (t.census.collect met.scannedAt met.proc).1.signal else {}
  exporter := if cfg.exporterEnabled then met.exporter.toOption.getD {} else {}

theorem ask_ok {α : Type} (on : Bool) (nothing a : α) : ask on nothing (.ok a) = .ok (if on then a else nothing) := by
  unfold ask
  split_ifs <;> rfl

theorem ask_answered {α : Type} {on : Bool} (nothing : α) {answer : Except Exc α}
    (h : on = true → ∃ a, answer = .ok a) :
    ask on nothing answer = .ok (if on then answer.toOption.getD nothing else nothing) := by
  unfold ask
  split_ifs with hon
  · obtain ⟨a, rfl⟩ := h hon
    rfl
  · rfl

theorem ask_kernlog (t : Threads) (cfg : Config) (met : Meeting) :
    ask cfg.kernlogEnabled {} (t.pass met).kernlog = .ok (t.call cfg met).kernlog := ask_ok _ _ _

theorem ask_dstate (t : Threads) (cfg : Config) (met : Meeting) :
    ask cfg.dstateEnabled {} (t.pass met).dstate = .ok (t.call cfg met).dstate := ask_ok _ _ _

/-- A collection that is answered evaluates what it collected. -/
theorem collect_answered {t : Threads} {cfg : Config} {met : Meeting} (h : met.Answered cfg) :
    ∃ collected, (t.collect cfg met).collector.collected = some collected ∧ collected.collectedAt = met.now ∧
      collected.conditionDetail = (t.collector.evaluator.evaluate (t.call cfg met)).1 ∧
        (t.collect cfg met).collector.evaluator = (t.collector.evaluator.evaluate (t.call cfg met)).2 := by
  have hcollected : ∃ collected, t.collector.attempt cfg (t.pass met) =
      .ok (collected, (t.collector.evaluator.evaluate (t.call cfg met)).2) ∧ collected.collectedAt = met.now ∧
        collected.conditionDetail = (t.collector.evaluator.evaluate (t.call cfg met)).1 := by
    have hexporter : ask cfg.exporterEnabled {} (t.pass met).exporter = .ok (t.call cfg met).exporter :=
      ask_answered _ h.1
    have hpatch : ask cfg.patchCountersEnabled {} (t.pass met).patch = .ok _ := ask_answered _ h.2
    unfold Collector.attempt
    rw [ask_kernlog, ask_dstate, hexporter, hpatch]
    exact ⟨_, rfl, rfl, rfl⟩
  obtain ⟨collected, hattempt, hnow, hdetail⟩ := hcollected
  refine ⟨collected, ?_, hnow, hdetail, ?_⟩
  · rw [Threads.collect, Collector.collectOnce, hattempt]
  · rw [Threads.collect, Collector.collectOnce, hattempt]

/-- One that is not changes nothing. -/
theorem collect_unanswered {t : Threads} {cfg : Config} {met : Meeting} (h : ¬met.Answered cfg) :
    (t.collect cfg met).collector.evaluator = t.collector.evaluator ∧
      (t.collect cfg met).collector.collected = t.collector.collected := by
  have hraises : ∃ exc, t.collector.attempt cfg (t.pass met) = .error exc := by
    unfold Collector.attempt
    rw [ask_kernlog, ask_dstate]
    cases hexporter : ask cfg.exporterEnabled {} (t.pass met).exporter with
    | error exc => exact ⟨exc, rfl⟩
    | ok exporter =>
      cases hpatch : ask cfg.patchCountersEnabled {} (t.pass met).patch with
      | error exc => exact ⟨exc, rfl⟩
      | ok patch =>
        refine absurd ⟨fun hon => ?_, fun hon => ?_⟩ h
        · rw [hon, ask, if_pos rfl] at hexporter
          exact ⟨exporter, hexporter⟩
        · rw [hon, ask, if_pos rfl] at hpatch
          exact ⟨patch, hpatch⟩
  obtain ⟨exc, hattempt⟩ := hraises
  rw [Threads.collect, Collector.collectOnce, hattempt]
  exact ⟨rfl, rfl⟩

theorem call_counts (d : Deployed) (met : Meeting) :
    (d.threads.call setup.cfg met).kernlog.counts = d.counted setup.cfg := by
  funext rule
  rw [Threads.call, Deployed.counted]
  split_ifs <;> rfl

/-- The sample of a collection after some acts. -/
def Setup.sampleAt (setup : Setup) (node : Node) (before : List Act) (early : Meeting) : ℚ × (Rule → ℤ) :=
  (early.now, (setup.run node before).counted setup.cfg)

/-- The counters have grown since a sample by what was read since. -/
theorem counted_since {early : Meeting} (hrestart : Act.restart ∉ rest) (rule : Rule) :
    (setup.run node (before ++ .collect early :: rest)).counted setup.cfg rule =
      (setup.sampleAt node before early).2 rule +
        setup.credit (setup.readIn node (before ++ [.collect early]) rest) rule := by
  have hcollect : (setup.run node (before ++ [.collect early])).counted setup.cfg rule =
      (setup.run node before).counted setup.cfg rule := by
    rw [run_acts_snoc]
    rfl
  rw [← List.singleton_append, ← List.append_assoc, counted_readIn hrestart, hcollect]
  rfl

/-- Every sample held is that of a collection of the present process. -/
structure Setup.Sampled (setup : Setup) (node : Node) (acts : List Act) : Prop where
  window : (setup.run node acts).threads.collector.evaluator.windowSeconds = 900
  recurrence : (setup.run node acts).threads.collector.evaluator.engineTimeoutRecurrence = 2
  samples : ∀ s ∈ (setup.run node acts).threads.collector.evaluator.history, ∃ before early after,
    acts = before ++ .collect early :: after ∧ Act.restart ∉ after ∧ early.Answered setup.cfg ∧
      s = setup.sampleAt node before early

/-- A sample held before an act of the same process. -/
theorem Setup.Sampled.older (h : setup.Sampled node acts) (hact : act ≠ .restart) {s : ℚ × (Rule → ℤ)}
    (hs : s ∈ (setup.run node acts).threads.collector.evaluator.history) : ∃ before early after,
      acts ++ [act] = before ++ .collect early :: after ∧ Act.restart ∉ after ∧ early.Answered setup.cfg ∧
        s = setup.sampleAt node before early := by
  obtain ⟨before, early, after, hsplit, hrestart, hsample⟩ := h.samples s hs
  refine ⟨before, early, after ++ [act], by simp [hsplit], ?_, hsample⟩
  simpa [hrestart] using hact.symm

/-- What is held after a collection that is answered. -/
theorem history_collect {met : Meeting} (h : met.Answered setup.cfg) :
    (setup.run node (acts ++ [.collect met])).threads.collector.evaluator =
      { (setup.run node acts).threads.collector.evaluator with
        history := Window.push (setup.run node acts).threads.collector.evaluator.windowSeconds
          (setup.run node acts).threads.collector.evaluator.history (setup.sampleAt node acts met) } := by
  obtain ⟨collected, -, -, -, heval⟩ := @collect_answered (setup.run node acts).threads setup.cfg met h
  rw [run_acts_snoc, Setup.sampleAt, ← call_counts]
  exact heval

/-- Nothing else touches the evaluator, or what was collected. -/
theorem step_collector (hact : act ≠ .restart) (hcollect : ∀ met, act = .collect met → ¬met.Answered setup.cfg) :
    (setup.run node (acts ++ [act])).threads.collector.evaluator =
        (setup.run node acts).threads.collector.evaluator ∧
      (setup.run node (acts ++ [act])).threads.collector.collected =
        (setup.run node acts).threads.collector.collected := by
  rw [run_acts_snoc]
  cases act with
  | pump path now answer =>
    unfold Deployed.step
    split_ifs <;> exact ⟨rfl, rfl⟩
  | collect met => exact collect_unanswered (hcollect met rfl)
  | publish now applied answer => exact ⟨rfl, rfl⟩
  | write other => exact ⟨rfl, rfl⟩
  | restart => exact absurd rfl hact

theorem run_restart : setup.run node (acts ++ [.restart]) = setup.start (setup.run node acts).world.node :=
  run_acts_snoc

/-- An act is a restart, or a collection that is answered, or leaves the evaluator alone. -/
theorem act_cases (cfg : Config) (act : Act) : act = .restart ∨ (∃ met, act = .collect met ∧ met.Answered cfg) ∨
    (act ≠ .restart ∧ ∀ met, act = .collect met → ¬met.Answered cfg) := by
  by_cases hrestart : act = .restart
  · exact .inl hrestart
  · by_cases hcollect : ∃ met, act = .collect met ∧ met.Answered cfg
    · exact .inr (.inl hcollect)
    · exact .inr (.inr ⟨hrestart, fun met hmet hanswered => hcollect ⟨met, hmet, hanswered⟩⟩)

theorem run_sampled (acts : List Act) : setup.Sampled node acts := by
  induction acts using List.reverseRecOn with
  | nil => exact ⟨rfl, rfl, fun s hs => absurd hs List.not_mem_nil⟩
  | append_singleton acts act ih =>
    rcases act_cases setup.cfg act with rfl | ⟨met, rfl, hanswered⟩ | ⟨hact, hcollect⟩
    · exact ⟨by rw [run_restart]; rfl, by rw [run_restart]; rfl, fun s hs => absurd (run_restart ▸ hs) List.not_mem_nil⟩
    · have hrun := @history_collect setup node acts met hanswered
      refine ⟨hrun ▸ ih.window, hrun ▸ ih.recurrence, fun s hs => ?_⟩
      rw [hrun] at hs
      rcases List.mem_append.mp (Window.evict_subset _ hs) with hs | hs
      · exact ih.older (by simp) hs
      · exact ⟨acts, met, [], rfl, List.not_mem_nil, hanswered, List.mem_singleton.mp hs⟩
    · have hsame := (@step_collector setup node acts act hact hcollect).1
      exact ⟨hsame ▸ ih.window, hsame ▸ ih.recurrence, fun s hs => ih.older hact (hsame ▸ hs)⟩

/-! ### The census -/

theorem collections_snoc : collections (acts ++ [act]) = match act with
    | .collect met => collections acts ++ [⟨met.scannedAt, met.proc⟩]
    | .restart => []
    | _ => collections acts := by
  rw [collections, List.foldl_append]
  rfl

theorem run_census (hdstate : setup.cfg.dstateEnabled = true) (acts : List Act) :
    (setup.run node acts).threads.census = setup.census.collectAll (collections acts) := by
  induction acts using List.reverseRecOn with
  | nil => rfl
  | append_singleton acts act ih =>
    rw [run_acts_snoc, collections_snoc]
    cases act with
    | pump path now answer =>
      rw [← ih]
      unfold Deployed.step
      split_ifs <;> rfl
    | collect met =>
      simp only [collectAll_snoc, ← ih]
      simp [Deployed.step, Threads.collect, hdstate]
    | publish now applied answer => exact ih
    | write other => exact ih
    | restart => rfl

/-- What a collection reports as stuck has been in D for long enough. -/
theorem gpuStuck_iff {met : Meeting} :
    0 < ((setup.run node acts).threads.call setup.cfg met).dstate.gpuStuck ↔ setup.StuckAt acts met := by
  unfold Setup.StuckAt Threads.call
  cases hdstate : setup.cfg.dstateEnabled with
  | false => simp
  | true =>
    rw [run_census hdstate, if_pos rfl, eq_self_iff_true, true_and]
    cases hlisted : (CensusCall.mk met.scannedAt met.proc).listed with
    | false =>
      cases hproc : met.proc with
      | error exc =>
        refine iff_of_false (lt_irrefl 0) ?_
        rintro ⟨s, hs, -⟩
        cases hs
      | ok entries => simp [CensusCall.listed, hproc] at hlisted
    | true =>
      rw [collect_listed _ hlisted]
      have hcount : 0 < ((setup.census.collectAll (collections acts)).report met.scannedAt
          (CensusCall.mk met.scannedAt met.proc).sleepers).signal.gpuStuck ↔ _ := List.countP_pos_iff
      rw [hcount]
      refine exists_congr fun s => and_congr_right fun hs => ?_
      rw [Bool.and_eq_true_iff, and_comm, isGpu_collectAll_iff setup.unseen,
        isStuck_collectAll_iff setup.unseen hlisted hs]

/-! ### Growth -/

theorem hits_self (counts : Rule → ℤ) (rules : List Rule) : hits counts counts rules = 0 := by
  simp [hits]

/-- By how much the counters of some rules have grown at a collection, as the evaluator takes it. -/
def Setup.growth (setup : Setup) (node : Node) (acts : List Act) (met : Meeting) (rules : List Rule) : ℤ :=
  let counts := (setup.run node acts).counted setup.cfg
  let history := Window.push 900 (setup.run node acts).threads.collector.evaluator.history
    (setup.sampleAt node acts met)
  hits counts ((history.head?.map Prod.snd).getD counts) rules

/-- What a collection that is answered says of the conditions that take a node out of service. -/
theorem active_collect (met : Meeting) :
    let call := (setup.run node acts).threads.call setup.cfg met
    let evaluated := ((setup.run node acts).threads.collector.evaluator.evaluate call).1
    ((evaluated .gpuUnrecoverable).active = true ↔ 1 ≤ setup.growth node acts met fatalHangRules) ∧
      ((evaluated .gpuWorkqueueStalled).active = true ↔
        1 ≤ setup.growth node acts met workqueueRules ∨ 0 < call.dstate.gpuStuck) ∧
        ((evaluated .gpuEngineTimeout).active = true ↔ 2 ≤ setup.growth node acts met engineRules) := by
  have hsampled : setup.Sampled node acts := run_sampled acts
  have hgrowth (rules : List Rule) : setup.growth node acts met rules =
      hits ((setup.run node acts).threads.call setup.cfg met).kernlog.counts
        (((((setup.run node acts).threads.collector.evaluator.evaluate
          ((setup.run node acts).threads.call setup.cfg met)).2.history.head?).map Prod.snd).getD
            ((setup.run node acts).threads.call setup.cfg met).kernlog.counts) rules := by
    rw [ConditionEvaluator.evaluate, call_counts, hsampled.window]
    rfl
  refine ⟨?_, ?_, ?_⟩
  · rw [hgrowth]
    exact decide_eq_true_iff
  · rw [hgrowth]
    exact decide_eq_true_iff
  · rw [hgrowth, ← hsampled.recurrence]
    exact decide_eq_true_iff

/-- Without its logs the agent counts nothing. -/
theorem growth_off (hoff : setup.cfg.kernlogEnabled = false) : setup.growth node before late rules ≤ 0 := by
  have hzero (acts : List Act) : (setup.run node acts).counted setup.cfg = fun _ => 0 := by
    funext rule
    rw [Deployed.counted, hoff]
    rfl
  obtain ⟨b, hb, hcase⟩ := @Window.push_head ℚ _ _ _ 900
    (setup.run node before).threads.collector.evaluator.history (setup.sampleAt node before late)
  have hbaseline : b.2 = fun _ => 0 := by
    rcases hcase with rfl | ⟨hold, -⟩
    · exact hzero before
    · obtain ⟨front, early, after, -, -, -, rfl⟩ := (run_sampled before).samples b hold
      exact hzero front
  rw [Setup.growth, hb, Option.map_some, Option.getD_some, hzero, hbaseline, hits_self]

/-- What an evaluation counts was read since a collection inside the window. -/
theorem growth_logged {met : Meeting} (hrules : rules.Nodup) (hn : 0 < n)
    (h : n ≤ setup.growth node acts met rules) : setup.LoggedAt node acts met rules n := by
  have hkernlog : setup.cfg.kernlogEnabled = true := by
    by_contra hoff
    have hnone := @growth_off setup node acts met rules (eq_false_of_ne_true hoff)
    omega
  obtain ⟨b, hb, hcase⟩ := @Window.push_head ℚ _ _ _ 900 (setup.run node acts).threads.collector.evaluator.history
    (setup.sampleAt node acts met)
  rw [Setup.growth, hb, Option.map_some, Option.getD_some] at h
  rcases hcase with rfl | ⟨hold, hwindow⟩
  · rw [Setup.sampleAt, hits_self] at h
    omega
  · obtain ⟨before, early, between, rfl, hrestart, hanswered, rfl⟩ := (run_sampled acts).samples b hold
    refine ⟨hkernlog, before, early, between, rfl, hrestart, hanswered, hwindow, h.trans ?_⟩
    refine hits_le_tallyOf hrules fun rule => ?_
    have hgrown := @counted_since setup node before between early hrestart rule
    have hcredit := @credit_le setup (setup.readIn node (before ++ [.collect early]) between) rule
    omega

/-! ### The latest collection -/

theorem run_paths (acts : List Act) : (setup.run node acts).threads.watcher.paths = setup.paths := by
  induction acts using List.reverseRecOn with
  | nil => rfl
  | append_singleton acts act ih =>
    rw [run_acts_snoc]
    cases act with
    | pump path now answer =>
      unfold Deployed.step
      split_ifs
      · have hkeeps := congrArg Prod.fst (pump_keeps path now answer (setup.run node acts).threads.watcher [])
        have hrun := runPath_play path now answer (setup.run node acts).threads.watcher
        change ((runPath path now).play answer (setup.run node acts).threads.watcher []).1.2.paths = _
        rw [hrun, ← ih]
        generalize (pump path now).play answer (setup.run node acts).threads.watcher [] = out at hkeeps ⊢
        obtain ⟨⟨exc | _, w⟩, es⟩ := out
        · simp only
          split_ifs <;> exact hkeeps
        · exact hkeeps
      · exact ih
    | collect met => exact ih
    | publish now applied answer => exact ih
    | write other => exact ih
    | restart => rfl

/-- What is collected is what the latest collection that was answered came to. -/
theorem collected_latest (h : setup.Latest acts before late) : ∃ collected,
    (setup.run node acts).threads.collector.collected = some collected ∧ collected.collectedAt = late.now ∧
      collected.conditionDetail = ((setup.run node before).threads.collector.evaluator.evaluate
        ((setup.run node before).threads.call setup.cfg late)).1 := by
  obtain ⟨hanswered, after, rfl, hrestart, hlatest⟩ := h
  induction after using List.reverseRecOn with
  | nil =>
    obtain ⟨collected, hsome, hnow, hdetail, -⟩ :=
      @collect_answered (setup.run node before).threads setup.cfg late hanswered
    rw [run_acts_snoc]
    exact ⟨collected, hsome, hnow, hdetail⟩
  | append_singleton after act ih =>
    obtain ⟨collected, hsome, hcollected⟩ := ih (fun hmem => hrestart (List.mem_append_left _ hmem))
      fun met hmet => hlatest met (List.mem_append_left _ hmet)
    refine ⟨collected, ?_, hcollected⟩
    rw [← hsome, ← List.cons_append, ← List.append_assoc]
    refine (step_collector ?_ ?_).2
    · rintro rfl
      exact hrestart (List.mem_append_right _ List.mem_cons_self)
    · rintro met rfl
      exact hlatest met (List.mem_append_right _ List.mem_cons_self)

theorem Setup.Latest.snoc (h : setup.Latest acts before late) (hact : act ≠ .restart)
    (hcollect : ∀ met, act = .collect met → ¬met.Answered setup.cfg) : setup.Latest (acts ++ [act]) before late := by
  obtain ⟨hanswered, after, rfl, hrestart, hlatest⟩ := h
  refine ⟨hanswered, after ++ [act], by simp, by simpa [hrestart] using hact.symm, fun met hmet => ?_⟩
  rcases List.mem_append.mp hmet with hmet | hmet
  · exact hlatest met hmet
  · exact hcollect met (List.mem_singleton.mp hmet).symm

/-- Something is collected exactly since a collection of the process was answered. -/
theorem latest_of_collected (acts : List Act) (h : (setup.run node acts).threads.collector.collected.isSome) :
    ∃ before late, setup.Latest acts before late := by
  induction acts using List.reverseRecOn with
  | nil => cases h
  | append_singleton acts act ih =>
    rcases act_cases setup.cfg act with rfl | ⟨met, rfl, hanswered⟩ | ⟨hact, hcollect⟩
    · rw [run_restart] at h
      cases h
    · exact ⟨acts, met, hanswered, [], rfl, List.not_mem_nil, fun _ hmem => absurd hmem List.not_mem_nil⟩
    · rw [(step_collector hact hcollect).2] at h
      obtain ⟨before, late, hlatest⟩ := ih h
      exact ⟨before, late, hlatest.snoc hact hcollect⟩

/-! ### What is active has evidence -/

theorem probeFailed_iff (signal : ExporterSignal) :
    (probeFailed signal).active = true ↔ signal.reachable = some false ∨ signal.unhealthy ≠ [] := by
  unfold probeFailed
  split_ifs with hreachable hunhealthy <;> simp_all

theorem blind_iff : (healthDataStale (blindSources ((setup.run node before).threads.call setup.cfg late).dstate
    ((setup.run node before).threads.call setup.cfg late).kernlog.filesOk)).active = true ↔
      setup.Blind node before late := by
  have hactive : ∀ blind : List String, (healthDataStale blind).active = true ↔ blind ≠ [] := by
    simp [healthDataStale]
  have hproc : ((setup.run node before).threads.call setup.cfg late).dstate.readable = some false ↔
      setup.cfg.dstateEnabled = true ∧ ∃ exc, late.proc = .error exc := by
    rw [Threads.call]
    cases setup.cfg.dstateEnabled with
    | false => simp
    | true =>
      have hreadable := @readable_iff (setup.run node before).threads late
      cases hlisted : late.proc with
      | error exc => simp_all
      | ok entries => simp_all
  have hlogs : (∀ f ∈ ((setup.run node before).threads.call setup.cfg late).kernlog.filesOk, f.2 = true) ↔
      ¬(setup.cfg.kernlogEnabled = true ∧
        ∃ path ∈ setup.paths, (setup.run node before).threads.watcher.filesOk path = some false) := by
    rw [Threads.call]
    cases setup.cfg.kernlogEnabled with
    | false => simp
    | true =>
      rw [if_pos rfl, snapshot_filesOk, run_paths]
      simp
  rw [hactive, Ne, blindSources_eq_nil, hlogs, Setup.Blind, ← hproc, not_and_or, not_not, not_not, or_comm]

theorem unreachable_iff (hanswered : late.Answered setup.cfg) :
    (probeFailed ((setup.run node before).threads.call setup.cfg late).exporter).active = true ↔
      setup.cfg.exporterEnabled = true ∧ ∃ signal, late.exporter = .ok signal ∧
        (signal.reachable = some false ∨ signal.unhealthy ≠ []) := by
  rw [probeFailed_iff, Threads.call]
  cases henabled : setup.cfg.exporterEnabled with
  | false => simp
  | true =>
    obtain ⟨signal, hsignal⟩ := hanswered.1 henabled
    simp [hsignal, Except.toOption]
/-- What is active is what the latest collection evaluated. -/
theorem active_latest (h : setup.Latest acts before late) : (setup.run node acts).Active name ↔
    (((setup.run node before).threads.collector.evaluator.evaluate
      ((setup.run node before).threads.call setup.cfg late)).1 name).active = true := by
  obtain ⟨collected, hsome, -, hdetail⟩ := @collected_latest setup node acts before late h
  rw [← hdetail]
  simp [Deployed.Active, Collector.detail, hsome]

/-- What is active at the latest collection has been found there. -/
theorem warranted_of_active (h : setup.Latest acts before late) (hactive : (setup.run node acts).Active name) :
    setup.Warranted node before late name := by
  obtain ⟨hunrecoverable, hstalled, htimeout⟩ := @active_collect setup node before late
  rw [active_latest h] at hactive
  cases name with
  | gpuUnrecoverable => exact growth_logged (by decide) Int.one_pos (hunrecoverable.mp hactive)
  | gpuWorkqueueStalled =>
    exact (hstalled.mp hactive).imp (growth_logged (by decide) Int.one_pos) gpuStuck_iff.mp
  | gpuEngineTimeout => exact growth_logged (by decide) two_pos (htimeout.mp hactive)
  | gpuProbeFailed => exact (unreachable_iff h.1).mp hactive
  | gpuHealthDataStale => exact blind_iff.mp hactive

/-- In every state that is reached, what is active has evidence. -/
theorem run_evidence (hactive : (setup.run node acts).Active name) : setup.Evidence node acts name := by
  have hsome : (setup.run node acts).threads.collector.collected.isSome := by
    obtain ⟨info, hdetail, -⟩ := hactive
    obtain ⟨collected, hcollected, -⟩ := Option.map_eq_some_iff.mp hdetail
    rw [hcollected]
    rfl
  obtain ⟨before, late, hlatest⟩ := latest_of_collected acts hsome
  exact ⟨before, late, hlatest, warranted_of_active hlatest hactive⟩

end GpuNodeHealth.Agent
