import GpuNodeHealth.Agent.Attribution
import GpuNodeHealth.Agent.Collector
import GpuNodeHealth.Metrics.Reading

/-! Prometheus text exposition for the agent: the calls of `metric` that a collected state
comes to, and the text they are rendered to. Every line has the node as a label. -/

namespace GpuNodeHealth.Agent.Exposition

open Guard (roundHalfEven)
open Metrics (Entry Label Metric Number Registry)

/-! ### The state -/

/-- What is left out of a state reads as its default. -/
structure KernlogState where
  counts : List (String × ℤ) := []
  lastHit : List (String × Number) := []
  filesOk : List (String × Bool) := []

structure DStateState where
  readable : Bool := false
  wchanDenied : ℕ := 0
  total : ℕ := 0
  stuck : ℕ := 0
  maxSeconds : Number := .int 0
  gpuTotal : ℕ := 0
  gpuStuck : ℕ := 0
  gpuMaxSeconds : Number := .int 0

structure ExporterState where
  reachable : Bool := false
  scrapeSeconds : Number := .int 0
  gpuTotal : ℤ := 0
  unhealthy : List Card := []

structure State where
  collectedAt : Number := .int 0
  collectSeconds : Number := .int 0
  collectErrors : ℕ := 0
  kernlog : KernlogState := {}
  dstate : DStateState := {}
  exporter : ExporterState := {}
  patch : PatchSignal := {}
  conditions : List (String × Bool) := []

/-! ### A call -/

/-- The name of a family. -/
def fullName (name : String) : List Char := "gpuhealth".toList ++ '_' :: name.toList

/-- A label of the line, in the place of one of its name. -/
def setLabel (labels : List Label) (label : Label) : List Label :=
  if labels.any (·.1 = label.1) then labels.map fun l => if l.1 = label.1 then label else l else labels ++ [label]

/-- The node, and the labels of the call. -/
def allLabels (node : String) (m : Metric) : List Label := m.labelSet.foldl setLabel [("node".toList, node.toList)]

/-- `_Buf.metric` -/
def metric (node : String) (b : Registry) (m : Metric) : Registry :=
  b.write { m.entry (fullName m.name) m.labelSet with
    line := metricLine (fullName m.name) (allLabels node m) m.value.str }

/-- `metric` prints a bool as a number. -/
def ofBool (b : Bool) : Number := .int (if b then 1 else 0)

/-- `round(value, 3)` -/
def roundThousandth : Number → Number
  | .float (.finite q) => .float (.round (roundHalfEven (q * 1000) / 1000))
  | v => v

/-- `sorted`, of the items of a dict -/
def sorted {α : Type} (items : List (String × α)) : List (String × α) := items.mergeSort fun a b => a.1 ≤ b.1

/-- The third column of the rules. -/
def severity : Rule → String
  | .mesUnrecoverable | .gpuResetBegin | .vramLost | .gpuWorkqueueBlocked | .schedKilledEntity => "fatal"
  | .sdmaQueueExhausted | .ringTimeout | .jobTimedout | .gpuResetSucceeded | .vmFault | .otherTaskBlocked => "warning"
  | .d4Watchdog | .d4MapEvicted | .d1Remediate | .d9RingState | .d7Reap | .ttmGivingUp | .ttmDeleteBlocked
  | .d3Failover => "patch"

def severityOf (rule : String) : String := ((rules.find? (·.label = rule)).map severity).getD "unknown"

/-! ### The calls -/

def agentMetrics (state : State) : List Metric :=
  [{ name := "agent_up", value := .int 1, helpText := "1 while the agent is serving." },
   { name := "collect_timestamp_seconds", value := roundThousandth state.collectedAt
     helpText := "Unix time of the last completed collection pass." },
   { name := "collect_duration_seconds", value := state.collectSeconds
     helpText := "Wall-clock seconds the last collection pass took." },
   { name := "collect_errors_total", value := .int state.collectErrors, mtype := "counter"
     helpText := "Collection passes that raised. Non-zero means this agent's own data is suspect." }]

def kernlogMetrics (kern : KernlogState) : List Metric :=
  (sorted kern.counts).map (fun (rule, count) =>
    { name := "kernlog_events_total", value := .int count
      labels := [("rule", rule), ("severity", severityOf rule)], mtype := "counter"
      helpText := "Kernel-log signature hits since agent start." }) ++
  (sorted kern.lastHit).map (fun (rule, ts) =>
    { name := "kernlog_last_event_timestamp_seconds", value := roundThousandth ts, labels := [("rule", rule)]
      helpText := "Unix time of the most recent hit for this signature." }) ++
  (sorted kern.filesOk).map fun (path, ok) =>
    { name := "kernlog_file_readable", value := ofBool ok, labels := [("path", path)]
      helpText := "0 means the agent cannot read this log file, so every kernel-log signal from this node is blind." }

/-- One turn of the loop over the scopes. -/
def scopeMetrics (scope : String) (total stuck : ℕ) (maxSeconds : Number) : List Metric :=
  [{ name := "dstate_processes", value := .int total, labels := [("scope", scope)]
     helpText := "Tasks (threads) currently in uninterruptible sleep. Counted per thread, not per process: the " ++
       "wedged task is often a thread of a process whose leader has already exited." },
   { name := "dstate_stuck_processes", value := .int stuck, labels := [("scope", scope)]
     helpText := "Tasks in D for longer than the stuck threshold." },
   { name := "dstate_max_seconds", value := maxSeconds, labels := [("scope", scope)]
     helpText := "Longest continuous time any task has spent in D." }]

def dstateMetrics (d : DStateState) : List Metric :=
  [{ name := "proc_readable", value := ofBool d.readable
     helpText := "0 means /proc is unreadable and the D-state census is blind." },
   { name := "dstate_wchan_denied", value := .int d.wchanDenied
     helpText := "Tasks in D whose /proc/<tid>/wchan the kernel refused to disclose (the read goes through " ++
       "ptrace_may_access and fails whole, unlike stat). Their GPU/non-GPU split falls back to matching the task " ++
       "name, which is known not to reach the tasks that matter - the ones wedged on 0004 were called " ++
       "grpcpp_sync_ser and llama-server. Non-zero means the census is blind in exactly the direction that hides " ++
       "a hang." }] ++
  scopeMetrics "all" d.total d.stuck d.maxSeconds ++ scopeMetrics "gpu_worker" d.gpuTotal d.gpuStuck d.gpuMaxSeconds

def exporterMetrics (e : ExporterState) : List Metric :=
  [{ name := "exporter_reachable", value := ofBool e.reachable
     helpText := "0 means the node-local AMD device-metrics-exporter did not answer." },
   { name := "exporter_scrape_seconds", value := e.scrapeSeconds },
   { name := "exporter_gpu_total", value := .int e.gpuTotal },
   { name := "exporter_gpu_unhealthy", value := .int e.unhealthy.length
     helpText := "GPUs the AMD exporter reports as unhealthy." }] ++
  e.unhealthy.map fun u =>
    { name := "exporter_gpu_unhealthy_info", value := .int 1
      labels := [("gpu_id", u.gpuId), ("namespace", u.ns), ("pod", u.pod), ("container", u.container)]
      helpText := "One series per unhealthy GPU, carrying the tenant workload currently occupying it." }

def patchMetrics (p : PatchSignal) : List Metric :=
  { name := "patch_counters_present", value := ofBool p.present
    helpText := "1 when this node exposes amdgpu D1-D7 patch counters." } ::
  (sorted p.counters).map fun (name, value) => { name := "patch_" ++ name, value := .int value, mtype := "counter" }

def conditionMetrics (conditions : List (String × Bool)) : List Metric :=
  (sorted conditions).map fun (name, active) =>
    { name := "condition", value := .int (if active then 1 else 0), labels := [("condition", name)]
      helpText := "1 while this node health condition is asserted." }

/-- The calls of `metric`, in order. -/
def metrics (state : State) : List Metric :=
  agentMetrics state ++ kernlogMetrics state.kernlog ++ dstateMetrics state.dstate ++
    exporterMetrics state.exporter ++ patchMetrics state.patch ++ conditionMetrics state.conditions

def render (node : String) (state : State) : List Char := ((metrics state).foldl (metric node) {}).text

end GpuNodeHealth.Agent.Exposition
