import GpuNodeHealth.Agent.Publisher
import GpuNodeHealth.Agent.Rules
import GpuNodeHealth.Window.Baseline

/-! Turning raw signals into conditions. Each evaluation takes a sample of the
kernel-log counters; a condition that watches some of the rules goes by how much
their counters grew since the oldest sample inside the window. -/

namespace GpuNodeHealth.Agent

/-! ### Signals -/

/-- What the log watcher reports; a path it has not tried yet has no entry. -/
structure KernlogSignal where
  counts : Rule → ℤ := fun _ => 0
  lastHit : Rule → Option (ℚ × String) := fun _ => none
  filesOk : List (String × Bool) := []

/-- What the census of stuck tasks reports, as far as conditions go; the longest
time as it is printed. -/
structure DStateSignal where
  gpuStuck : ℕ := 0
  gpuMaxSeconds : String := "0"
  readable : Option Bool := none

structure UnhealthyGpu where
  gpuId : String
  ns : String
  pod : String

/-- What the probe of the exporter reports. -/
structure ExporterSignal where
  reachable : Option Bool := none
  error : String := ""
  gpuTotal : ℤ := 0
  healthy : ℕ := 0
  unhealthy : List UnhealthyGpu := []

def fatalHangRules : List Rule := [.mesUnrecoverable, .gpuResetBegin, .vramLost, .schedKilledEntity]

def workqueueRules : List Rule := [.gpuWorkqueueBlocked]

def engineRules : List Rule := [.ringTimeout, .jobTimedout]

/-! ### Conditions -/

/-- How much the counters of some rules grew; one that was reset did not. -/
def hits (counts baseline : Rule → ℤ) (rules : List Rule) : ℤ :=
  (rules.map fun r => max 0 (counts r - baseline r)).sum

/-- The line of the latest hit of some rules. -/
def latestLine (lastHit : Rule → Option (ℚ × String)) (rules : List Rule) : String :=
  (rules.foldl (fun best r => match lastHit r with
    | some entry => if best.1 < entry.1 then entry else best
    | none => best) ((0, "") : ℚ × String)).2

def unrecoverable (n : ℤ) (window line : String) : ConditionInfo where
  active := 0 < n
  reason := if n ≠ 0 then "KernelFatalGPUEvent" else "NoFatalGPUEvent"
  message := if n ≠ 0 then s!"{n} unrecoverable GPU event(s) in the last {window}s: {line}"
    else s!"No MES/reset/VRAM-loss events in the last {window}s."

def workqueueStalled (wqLog : ℤ) (dstate : DStateSignal) (window line : String) : ConditionInfo where
  active := 0 < wqLog ∨ 0 < dstate.gpuStuck
  reason :=
    if 0 < wqLog ∧ 0 < dstate.gpuStuck then "WorkqueueBlockedAndStuckWorkers"
    else if 0 < wqLog then "KernelReportedBlockedWorker"
    else if 0 < dstate.gpuStuck then "StuckGPUWorkerThreads"
    else "WorkqueuesResponsive"
  message := if 0 < wqLog ∨ 0 < dstate.gpuStuck then
      s!"{dstate.gpuStuck} GPU workqueue thread(s) stuck in D (longest {dstate.gpuMaxSeconds}s); " ++
        s!"{wqLog} kernel hung-task report(s) in the last {window}s. {line}"
    else "GPU workqueue threads are not blocked."

/-- One timeout is routine under load; it takes a recurrence. -/
def engineTimeout (eng recurrence : ℤ) (window line : String) : ConditionInfo where
  active := recurrence ≤ eng
  reason := if recurrence ≤ eng then "RecurringEngineTimeout" else "NoRecurringTimeout"
  message := if recurrence ≤ eng then
      s!"{eng} ring/job timeout(s) in the last {window}s (threshold {recurrence}): {line}"
    else s!"{eng} ring/job timeout(s) in the last {window}s; below the recurrence threshold."

def UnhealthyGpu.describe (u : UnhealthyGpu) : String :=
  s!"gpu{u.gpuId}" ++ if u.pod ≠ "" then s!" ({u.ns}/{u.pod})" else ""

def probeFailed (exporter : ExporterSignal) : ConditionInfo :=
  if exporter.reachable = some false then
    ⟨true, "ExporterUnreachable", s!"Node-local AMD metrics exporter did not answer: {exporter.error}"⟩
  else if exporter.unhealthy ≠ [] then
    ⟨true, "ExporterReportsUnhealthyGPU",
      s!"AMD exporter reports {exporter.unhealthy.length} unhealthy GPU(s): " ++
        String.intercalate ", " (exporter.unhealthy.map UnhealthyGpu.describe)⟩
  else
    ⟨false, "ExporterHealthy",
      s!"AMD exporter reachable; {exporter.healthy} of {exporter.gpuTotal} GPU(s) report healthy. " ++
        "Note: gpu_health is ECC/topology-driven and is not expected " ++
        "to detect a fence or MES stall on its own."⟩

/-- The signal sources that could not be read. -/
def blindSources (dstate : DStateSignal) (filesOk : List (String × Bool)) : List String :=
  (if dstate.readable = some false then ["/proc unreadable"] else []) ++
    ((filesOk.mergeSort fun a b => a.1 ≤ b.1).filter fun f => !f.2).map fun f => s!"{f.1} unreadable"

def healthDataStale (blind : List String) : ConditionInfo where
  active := blind ≠ []
  reason := if blind ≠ [] then "SignalSourcesUnreadable" else "SignalsFresh"
  message := if blind ≠ [] then
      "This node's health signals are BLIND, so a green status here means nothing: " ++
        String.intercalate "; " blind
    else "All configured signal sources are readable."

/-! ### Evaluating -/

/-- The evaluator with its samples; the window also as it is printed. -/
structure ConditionEvaluator where
  windowSeconds : ℚ := 900
  windowText : String := "900"
  engineTimeoutRecurrence : ℤ := 2
  history : List (ℚ × (Rule → ℤ)) := []

/-- What one call of `evaluate` is given. -/
structure Evaluation where
  now : ℚ
  kernlog : KernlogSignal := {}
  dstate : DStateSignal := {}
  exporter : ExporterSignal := {}

/-- Exactly one sample per evaluation; the baseline is the oldest one left. -/
def ConditionEvaluator.evaluate (evaluator : ConditionEvaluator) (call : Evaluation) :
    (ConditionName → ConditionInfo) × ConditionEvaluator :=
  let counts := call.kernlog.counts
  let history := Window.push evaluator.windowSeconds evaluator.history (call.now, counts)
  let baseline := (history.head?.map Prod.snd).getD counts
  let line := latestLine call.kernlog.lastHit
  let window := evaluator.windowText
  let condition : ConditionName → ConditionInfo
    | .gpuUnrecoverable => unrecoverable (hits counts baseline fatalHangRules) window (line fatalHangRules)
    | .gpuWorkqueueStalled =>
      workqueueStalled (hits counts baseline workqueueRules) call.dstate window (line workqueueRules)
    | .gpuEngineTimeout => engineTimeout (hits counts baseline engineRules)
        evaluator.engineTimeoutRecurrence window (line engineRules)
    | .gpuProbeFailed => probeFailed call.exporter
    | .gpuHealthDataStale => healthDataStale (blindSources call.dstate call.kernlog.filesOk)
  (condition, { evaluator with history })

end GpuNodeHealth.Agent
