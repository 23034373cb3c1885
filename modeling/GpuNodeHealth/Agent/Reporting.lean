import GpuNodeHealth.Agent.Grounds

/-! Nothing is lost on the way to a condition. As long as the clock of the collections does
not step back, what the latest collection says of a condition, and what the Node shows of
the latest publish that reached it, is settled by the lines that were read, the threads that
were seen and the answers that were given, whatever the order in which the threads of the
agent went. -/

namespace GpuNodeHealth.Agent

open Cluster Files
open Guard (conditionIndex)

/-- The clock of the collections does not step back. -/
def Steady (acts : List Act) : Prop :=
  acts.Pairwise fun act act' => ∀ met met', act = .collect met → act' = .collect met' → met.now ≤ met'.now

variable {setup : Setup} {node : Node} {acts before between : List Act} {early late : Meeting} {rules : List Rule}
  {n : ℤ} {name : ConditionName}

/-! ### The samples that are held -/

/-- The counters only grow from sample to sample. -/
theorem run_ordered (acts : List Act) : (setup.run node acts).threads.collector.evaluator.history.Pairwise
    fun s s' => ∀ rule, s.2 rule ≤ s'.2 rule := by
  induction acts using List.reverseRecOn with
  | nil => exact List.Pairwise.nil
  | append_singleton acts act ih =>
    rcases act_cases setup.cfg act with rfl | ⟨met, rfl, hanswered⟩ | ⟨hact, hcollect⟩
    · rw [run_restart]
      exact List.Pairwise.nil
    · rw [history_collect hanswered]
      refine List.Pairwise.sublist (Window.evict_sublist _) ?_
      refine List.pairwise_append.mpr ⟨ih, List.pairwise_singleton _ _, ?_⟩
      intro s hs s' hs' rule
      obtain ⟨before, early, after, rfl, hrestart, -, rfl⟩ := (run_sampled acts).samples s hs
      have hgrown := @counted_since setup node before after early hrestart rule
      have hcredit := @credit_nonneg setup (setup.readIn node (before ++ [.collect early]) after) rule
      rw [List.mem_singleton.mp hs']
      change _ ≤ (setup.run node (before ++ .collect early :: after)).counted setup.cfg rule
      omega
    · rw [(step_collector hact hcollect).1]
      exact ih

/-- A sample is held as long as no later collection of the process is more than a window after it. -/
theorem run_kept (hanswered : early.Answered setup.cfg) (hrestart : Act.restart ∉ between)
    (hwindow : ∀ met, Act.collect met ∈ between → met.now - early.now ≤ 900) :
    setup.sampleAt node before early ∈
      (setup.run node (before ++ .collect early :: between)).threads.collector.evaluator.history := by
  have hpushed (acts : List Act) (met : Meeting) (h : met.Answered setup.cfg) (s : ℚ × (Rule → ℤ))
      (hs : s ∈ (setup.run node acts).threads.collector.evaluator.history ++ [setup.sampleAt node acts met])
      (hinside : met.now - s.1 ≤ 900) :
      s ∈ (setup.run node (acts ++ [.collect met])).threads.collector.evaluator.history := by
    rw [history_collect h, (run_sampled acts).window]
    exact Window.mem_evict hs hinside
  induction between using List.reverseRecOn with
  | nil =>
    refine hpushed before early hanswered _ (List.mem_append_right _ List.mem_cons_self) ?_
    simp [Setup.sampleAt]
  | append_singleton between act ih =>
    have hkept := ih (fun hmem => hrestart (List.mem_append_left _ hmem))
      fun met hmet => hwindow met (List.mem_append_left _ hmet)
    rw [← List.cons_append, ← List.append_assoc]
    rcases act_cases setup.cfg act with rfl | ⟨met, rfl, hmet⟩ | ⟨hact, hcollect⟩
    · exact absurd (List.mem_append_right _ List.mem_cons_self) hrestart
    · exact hpushed _ met hmet _ (List.mem_append_left _ hkept) (hwindow met (by simp))
    · rw [(step_collector hact hcollect).1]
      exact hkept

/-! ### Growth -/

theorem tallyOf_le_hits (hrules : rules.Nodup) {counts baseline : Rule → ℤ} {ls : List (List UInt8)}
    (h : ∀ rule, baseline rule + tally ls rule ≤ counts rule) : tallyOf ls rules ≤ hits counts baseline rules := by
  induction rules with
  | nil => simp [hits, tallyOf]
  | cons rule rules ih =>
    obtain ⟨hrule, hnodup⟩ := List.nodup_cons.mp hrules
    have hrest := ih hnodup
    have hgrowth := h rule
    simp only [hits, List.map_cons, List.sum_cons] at hrest ⊢
    rw [tallyOf_cons hrule]
    omega

/-- What was read since a collection that is still inside the window counts. -/
theorem le_growth (hrules : rules.Nodup) (h : setup.LoggedAt node before late rules n)
    (hsteady : ∀ met, Act.collect met ∈ before → met.now ≤ late.now) (hlate : late.Answered setup.cfg) :
    n ≤ setup.growth node before late rules := by
  obtain ⟨hkernlog, front, early, between, rfl, hrestart, hearly, hwindow, hread⟩ := h
  set acts := front ++ .collect early :: between
  have hinside : ∀ met, Act.collect met ∈ between → met.now - early.now ≤ 900 := by
    intro met hmet
    have hbefore := hsteady met (List.mem_append_right _ (List.mem_cons_of_mem _ hmet))
    linarith
  have hkept : setup.sampleAt node front early ∈ Window.push 900
      (setup.run node acts).threads.collector.evaluator.history (setup.sampleAt node acts late) :=
    Window.mem_evict (List.mem_append_left _ (run_kept hearly hrestart hinside)) hwindow
  have hordered := @run_ordered setup node (acts ++ [.collect late])
  rw [history_collect hlate, (run_sampled acts).window] at hordered
  rw [Setup.growth]
  cases hhistory : Window.push 900 (setup.run node acts).threads.collector.evaluator.history
    (setup.sampleAt node acts late) with
  | nil =>
    rw [hhistory] at hkept
    cases hkept
  | cons b rest =>
    rw [hhistory] at hkept hordered
    have holder : ∀ rule, b.2 rule ≤ (setup.sampleAt node front early).2 rule := by
      rcases List.mem_cons.mp hkept with heq | hrest
      · exact fun rule => (congrArg (·.2 rule) heq).ge
      · exact (List.pairwise_cons.mp hordered).1 _ hrest
    refine hread.trans (tallyOf_le_hits hrules fun rule => ?_)
    have hgrown : (setup.run node acts).counted setup.cfg rule = _ := counted_since hrestart rule
    have hbaseline := holder rule
    rw [Setup.credit, if_pos hkernlog] at hgrown
    change b.2 rule + _ ≤ (setup.run node acts).counted setup.cfg rule
    omega

/-! ### What is active -/

/-- Whatever else went on, a condition is active exactly if what settles it was found. -/
theorem active_iff_warranted (hsteady : Steady acts) (h : setup.Latest acts before late) :
    (setup.run node acts).Active name ↔ setup.Warranted node before late name := by
  refine ⟨warranted_of_active h, fun hwarranted => (active_latest h).mpr ?_⟩
  obtain ⟨hanswered, after, hsplit, -, -⟩ := h
  have hearlier : ∀ met, Act.collect met ∈ before → met.now ≤ late.now := by
    intro met hmet
    rw [hsplit, Steady, List.pairwise_append] at hsteady
    exact hsteady.2.2 _ hmet _ List.mem_cons_self met late rfl rfl
  obtain ⟨hunrecoverable, hstalled, htimeout⟩ := @active_collect setup node before late
  cases name with
  | gpuUnrecoverable => exact hunrecoverable.mpr (le_growth (by decide) hwarranted hearlier hanswered)
  | gpuWorkqueueStalled =>
    refine hstalled.mpr (Or.imp (fun hlogged => ?_) gpuStuck_iff.mpr hwarranted)
    exact le_growth (by decide) hlogged hearlier hanswered
  | gpuEngineTimeout => exact htimeout.mpr (le_growth (by decide) hwarranted hearlier hanswered)
  | gpuProbeFailed => exact (unreachable_iff hanswered).mpr hwarranted
  | gpuHealthDataStale => exact blind_iff.mpr hwarranted

/-! ### What the Node shows -/

/-- The Node shows every condition as the collection behind the latest publish that
reached it has settled it. -/
theorem node_shows_iff (hfresh : ∀ name : ConditionName, conditionIndex node name.type = none) (hsteady : Steady acts) :
    (setup.Untaken node acts ∧
        ∀ name : ConditionName, conditionIndex (setup.run node acts).world.node name.type = none) ∨
      ∃ upto now answer after before late, acts = upto ++ .publish now true answer :: after ∧
        (∀ front act rest, after = front ++ act :: rest →
          ¬(setup.run node (upto ++ .publish now true answer :: front)).Takes act) ∧
        setup.Latest upto before late ∧ ∀ name : ConditionName,
          (Guard.Active (setup.run node acts).world.node name.type ↔ setup.Warranted node before late name) := by
  rcases run_displayed hfresh acts with huntaken | ⟨upto, now, answer, after, hshown⟩
  · exact .inl huntaken
  obtain ⟨info, -, -, hdetail, -⟩ := hshown.shown .gpuUnrecoverable
  have hsome : (setup.run node upto).threads.collector.collected.isSome := by
    rw [← @detail_isSome .gpuUnrecoverable, hdetail]
    rfl
  obtain ⟨before, late, hlatest⟩ := latest_of_collected upto hsome
  have hbefore : Steady upto := by
    have hprefix := hsteady
    rw [hshown.split, Steady, List.pairwise_append] at hprefix
    exact hprefix.1
  refine .inr ⟨upto, now, answer, after, before, late, hshown.split, hshown.latest, hlatest, fun name => ?_⟩
  obtain ⟨info, cond, since, hdetail, hindex, hstatus, -⟩ := hshown.shown name
  rw [← active_iff_warranted hbefore hlatest, Guard.active_iff]
  constructor
  · rintro ⟨other, hother, htrue⟩
    obtain rfl : cond = other := Option.some.inj (hindex.symm.trans hother)
    exact ⟨info, hdetail, status_true.mp (Option.some.inj (hstatus.symm.trans htrue))⟩
  · rintro ⟨other, hother, hactive⟩
    obtain rfl : info = other := Option.some.inj (hdetail.symm.trans hother)
    exact ⟨cond, hindex, hstatus.trans (congrArg some (status_true.mpr hactive))⟩

theorem hang_steady : Steady hang := by
  simp [Steady, hang, quietMeeting]
  norm_num

/-- A reset that began after the first of three collections shows after the third. -/
theorem node_shows_hang : (oneLog.Untaken idleNode hang ∧
      ∀ name : ConditionName, conditionIndex (oneLog.run idleNode hang).world.node name.type = none) ∨
    ∃ upto now answer after before late, hang = upto ++ .publish now true answer :: after ∧
      (∀ front act rest, after = front ++ act :: rest →
        ¬(oneLog.run idleNode (upto ++ .publish now true answer :: front)).Takes act) ∧
      oneLog.Latest upto before late ∧ ∀ name : ConditionName,
        (Guard.Active (oneLog.run idleNode hang).world.node name.type ↔ oneLog.Warranted idleNode before late name) :=
  node_shows_iff idleNode_fresh hang_steady

end GpuNodeHealth.Agent
