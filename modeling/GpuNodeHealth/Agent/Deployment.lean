import GpuNodeHealth.Agent.Census
import GpuNodeHealth.Agent.ClockSteps
import GpuNodeHealth.Agent.Dwell
import GpuNodeHealth.Agent.LinesRead

/-! The whole agent and its Node. It runs in whatever order its threads and its publisher
go, with restarts, a clock that may step, and others that write to the Node. What one
process has counted at any time is what it has read of the kernel logs so far. -/

namespace GpuNodeHealth.Agent

open Cluster Debounce Files Interaction
open Guard (conditionIndex)

/-! ### The agent and its Node -/

/-- How an agent is set up: its switches, the logs it follows, and a census that has seen
nothing. -/
structure Setup where
  cfg : Config := {}
  paths : List String
  census : DStateCensus
  unseen : census.since = fun _ => none

/-- The agent's threads, of which the one that follows the logs may have ended, and its
publisher with the Node. -/
structure Deployed where
  threads : Threads
  following : Bool := true
  world : World

/-- What others write to the Node: whether it may be scheduled on, or conditions that are not
the agent's. -/
inductive NodeWrite where
  | schedule (unschedulable : Option Bool)
  | conditions (patch : List NodeCondition) (foreign : ∀ c ∈ patch, ∀ name : ConditionName, c.type ≠ some name.type)

def NodeWrite.apply (node : Node) : NodeWrite → Node
  | .schedule unschedulable => { node with unschedulable }
  | .conditions patch _ => applyPatch node patch

/-- What happens next: a pump, a collection, a publish or a restart, or somebody else writes
the Node. -/
inductive Act where
  | pump (path : String) (now : ℚ) (answer : Answers)
  | collect (met : Meeting)
  | publish (now : ℚ) (applied : Bool) (answer : Except Exc Unit)
  | restart
  | write (other : NodeWrite)

theorem nothing_tracked : ∀ _ : ConditionName, (none : Option String).isSome = (none : Option String).isSome :=
  fun _ => rfl

/-- Nothing has been published. -/
def ConditionPublisher.new : ConditionPublisher := ⟨fun _ => none, fun _ => none, nothing_tracked⟩

def Setup.start (setup : Setup) (node : Node) : Deployed where
  threads := .start setup.paths setup.census
  world := ⟨.new, node⟩

/-- What the publisher is given: the state of the latest collection. -/
def Deployed.publication (d : Deployed) (now : ℚ) (applied : Bool) (answer : Except Exc Unit) : Publication :=
  ⟨now, d.threads.collector.detail, applied, answer⟩

def Deployed.step (setup : Setup) (d : Deployed) : Act → Deployed
  | .pump path now answer => if d.following then
      { d with threads := d.threads.pump path now answer, following := d.threads.survives path now answer }
    else d
  | .collect met => { d with threads := d.threads.collect setup.cfg met }
  | .publish now applied answer => { d with world := d.world.publish (d.publication now applied answer) }
  | .restart => setup.start d.world.node
  | .write other => { d with world := { d.world with node := other.apply d.world.node } }

/-- The lines that an act has the agent read. -/
def Deployed.reads (d : Deployed) : Act → List (List UInt8)
  | .pump path now answer =>
    if d.following then linesRead ((runPath path now).play answer d.threads.watcher []).2 else []
  | _ => []

def Setup.run (setup : Setup) (node : Node) (acts : List Act) : Deployed :=
  acts.foldl (Deployed.step setup) (setup.start node)

/-- The lines read in the course of some acts, after others. -/
def Setup.readIn (setup : Setup) (node : Node) (before : List Act) : List Act → List (List UInt8)
  | [] => []
  | act :: rest => (setup.run node before).reads act ++ setup.readIn node (before ++ [act]) rest

/-- How many lines count under some rules. -/
def tallyOf (ls : List (List UInt8)) (rules : List Rule) : ℕ := ls.countP fun line => ruleOfBytes line ∈ rules.map some

/-- What was last collected has the condition active. -/
def Deployed.Active (d : Deployed) (name : ConditionName) : Prop :=
  ∃ info, d.threads.collector.detail name = some info ∧ info.active = true

variable {setup : Setup} {node : Node} {acts before rest : List Act} {act : Act} {rules : List Rule}

theorem run_acts_snoc : setup.run node (acts ++ [act]) = (setup.run node acts).step setup act := by
  simp [Setup.run]

theorem readIn_snoc : setup.readIn node before (rest ++ [act]) =
    setup.readIn node before rest ++ (setup.run node (before ++ rest)).reads act := by
  induction rest generalizing before with
  | nil => simp [Setup.readIn]
  | cons a rest ih => simp [Setup.readIn, ih, List.append_assoc]

/-! ### The counters -/

/-- What is collected of the counters. -/
def Deployed.counted (d : Deployed) (cfg : Config) (rule : Rule) : ℤ :=
  if cfg.kernlogEnabled then d.threads.watcher.counts rule else 0

/-- What is counted of some lines, if the log is watched at all. -/
def Setup.credit (setup : Setup) (ls : List (List UInt8)) (rule : Rule) : ℤ :=
  if setup.cfg.kernlogEnabled then tally ls rule else 0

theorem credit_append (ls ls' : List (List UInt8)) (rule : Rule) :
    setup.credit (ls ++ ls') rule = setup.credit ls rule + setup.credit ls' rule := by
  unfold Setup.credit
  split_ifs
  · rw [tally_append, Nat.cast_add]
  · rfl

theorem credit_nonneg (ls : List (List UInt8)) (rule : Rule) : 0 ≤ setup.credit ls rule := by
  unfold Setup.credit
  split_ifs <;> omega

theorem credit_le (ls : List (List UInt8)) (rule : Rule) : setup.credit ls rule ≤ tally ls rule := by
  unfold Setup.credit
  split_ifs <;> omega

/-- An act of the process counts what it reads. -/
theorem counted_step (d : Deployed) (hact : act ≠ .restart) (rule : Rule) :
    (d.step setup act).counted setup.cfg rule = d.counted setup.cfg rule + setup.credit (d.reads act) rule := by
  have hsame (d' : Deployed) (h : d'.threads.watcher.counts = d.threads.watcher.counts) (hreads : d.reads act = []) :
      d'.counted setup.cfg rule = d.counted setup.cfg rule + setup.credit (d.reads act) rule := by
    rw [Deployed.counted, Deployed.counted, h, hreads, Setup.credit]
    simp [tally]
  cases act with
  | pump path now answer =>
    by_cases hfollowing : d.following = true
    · obtain ⟨new, hnew, hcounts⟩ := runPath_counts path now answer d.threads.watcher []
      rw [List.nil_append] at hnew
      simp only [Deployed.step, Deployed.reads, hfollowing, if_true, Deployed.counted, Threads.pump, hcounts, hnew,
        Setup.credit]
      split_ifs <;> simp
    · refine hsame _ ?_ ?_
      · simp [Deployed.step, hfollowing]
      · simp [Deployed.reads, hfollowing]
  | collect met => exact hsame _ rfl rfl
  | publish now applied answer => exact hsame _ rfl rfl
  | write other => exact hsame _ rfl rfl
  | restart => exact absurd rfl hact

/-- So do the acts of a stretch of it. -/
theorem counted_readIn (hrestart : Act.restart ∉ rest) (rule : Rule) :
    (setup.run node (before ++ rest)).counted setup.cfg rule =
      (setup.run node before).counted setup.cfg rule + setup.credit (setup.readIn node before rest) rule := by
  induction rest using List.reverseRecOn with
  | nil => simp [Setup.readIn, Setup.credit, tally]
  | append_singleton rest act ih =>
    have hne : act ≠ .restart := by
      rintro rfl
      exact hrestart (List.mem_append_right _ List.mem_cons_self)
    have hsofar := ih fun hmem => hrestart (List.mem_append_left _ hmem)
    rw [← List.append_assoc, run_acts_snoc, counted_step _ hne, hsofar, readIn_snoc, credit_append]
    ring

theorem tallyOf_cons {rule : Rule} (hrule : rule ∉ rules) (ls : List (List UInt8)) :
    tallyOf ls (rule :: rules) = tally ls rule + tallyOf ls rules := by
  induction ls with
  | nil => rfl
  | cons line ls ih =>
    simp only [tallyOf, tally, List.countP_cons, List.map_cons, List.mem_cons, Bool.decide_or] at ih ⊢
    rw [ih]
    by_cases heq : ruleOfBytes line = some rule
    · simp [heq, hrule]
      omega
    · simp [heq]
      omega

theorem hits_le_tallyOf (hrules : rules.Nodup) {counts baseline : Rule → ℤ} {ls : List (List UInt8)}
    (h : ∀ rule, counts rule ≤ baseline rule + tally ls rule) : hits counts baseline rules ≤ tallyOf ls rules := by
  induction rules with
  | nil => simp [hits]
  | cons rule rules ih =>
    obtain ⟨hrule, hnodup⟩ := List.nodup_cons.mp hrules
    have hrest := ih hnodup
    have hgrowth := h rule
    simp only [hits, List.map_cons, List.sum_cons] at hrest ⊢
    rw [tallyOf_cons hrule]
    omega

end GpuNodeHealth.Agent
