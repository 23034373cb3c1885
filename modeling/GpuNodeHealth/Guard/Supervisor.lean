import GpuNodeHealth.Guard.Client
import GpuNodeHealth.Guard.Config
import Mathlib.Data.Rat.Floor

/-! External liveness for the metrics exporter. A pod that runs and cannot be
scraped has an unreachable clock, which only an answer clears; once it has run
long enough the pod is deleted, at most once per cooldown and node. -/

namespace GpuNodeHealth.Guard

open Cluster Interaction

inductive PodAction where
  | delete | noop
  deriving DecidableEq, Repr

inductive PodReason where
  | reachable | notRunning | noPodIp | withinGrace | cooldown | disabled | wouldDelete | delete
  deriving DecidableEq, Repr

def PodReason.label : PodReason → String
  | .reachable => "reachable"
  | .notRunning => "not-running"
  | .noPodIp => "no-pod-ip"
  | .withinGrace => "within-grace"
  | .cooldown => "cooldown"
  | .disabled => "supervision-disabled"
  | .wouldDelete => "would-delete"
  | .delete => "delete"

structure PodDecision where
  pod : String
  node : String
  action : PodAction
  reason : PodReason
  unreachableSeconds : ℚ
  message : String
  deriving DecidableEq, Repr

/-- The memory of the supervisor: since when a pod has been unreachable, and
when an exporter pod of a node was last deleted. -/
structure ExporterSupervisor where
  unreachableSince : String → Option ℚ := fun _ => none
  lastDelete : String → Option ℚ := fun _ => none

/-! ### Numbers as Python prints and rounds them -/

/-- To the nearest integer, ties to even. -/
def roundHalfEven (x : ℚ) : ℤ :=
  if x - ⌊x⌋ < 1 / 2 then ⌊x⌋
  else if 1 / 2 < x - ⌊x⌋ then ⌊x⌋ + 1
  else if ⌊x⌋ % 2 = 0 then ⌊x⌋ else ⌊x⌋ + 1

/-- `round(x, 1)`. -/
def roundTenth (x : ℚ) : ℚ := roundHalfEven (x * 10) / 10

/-- The format `.0f`, which keeps the sign of what rounds to zero. -/
def format0f (x : ℚ) : String :=
  if x < 0 ∧ roundHalfEven x = 0 then "-0" else toString (roundHalfEven x)

/-! ### Evaluating -/

def exporterUrl (cfg : Config) (ip : String) : String := s!"http://{ip}:{cfg.exporterPort}/metrics"

def podName (pod : Pod) : String := pod.name.getD ""

/-- What to do about a pod that has been unreachable since `since`, and whether
its deletion goes on record. -/
def unreachableDecision (cfg : Config) (supervisor : ExporterSupervisor) (pod : Pod) (since now : ℚ) :
    PodDecision :=
  let name := podName pod
  let node := pod.nodeName.getD ""
  let elapsed := now - since
  let d (action : PodAction) (reason : PodReason) (message : String) : PodDecision :=
    ⟨name, node, action, reason, roundTenth elapsed, message⟩
  if elapsed < cfg.exporterUnreachableSeconds then
    d .noop .withinGrace (s!"unreachable for {format0f elapsed}s, grace is " ++
      s!"{cfg.exporterUnreachableSeconds}s")
  else
  match (supervisor.lastDelete node).filter fun last => now - last < cfg.exporterDeleteCooldownSeconds with
  | some last =>
    d .noop .cooldown (s!"unreachable for {format0f elapsed}s but an exporter pod on " ++
      s!"{node} was already deleted {format0f (now - last)}s ago. " ++
      "Deleting again would be a loop - on a node wedged in the " ++
      "driver the delete cannot complete at all.")
  | none =>
    if !cfg.exporterSupervisionEnabled then
      d .noop .disabled (s!"unreachable for {format0f elapsed}s. Supervision is off, so " ++
        "nothing was deleted - this pod belongs to the AMD operator, not to us.")
    else if cfg.mode ≠ "enforce" then
      d .noop .wouldDelete (s!"WOULD DELETE {name}: unreachable for {format0f elapsed}s. " ++
        "GUARD_MODE is observe.")
    else
      d .delete .delete (s!"deleting {name} on {node}: /metrics unreachable for " ++
        s!"{format0f elapsed}s. The delete is an attempt, not a cure - the " ++
        "unreachable clock keeps running until a scrape succeeds.")

/-- One turn of the loop of `evaluate`. -/
def evaluatePod (cfg : Config) (now : ℚ) (pod : Pod) : Method Api Exc ExporterSupervisor PodDecision :=
  let name := podName pod
  let node := pod.nodeName.getD ""
  let cleared (reason : PodReason) (message : String) : Method Api Exc ExporterSupervisor PodDecision := do
    modify fun s => { s with unreachableSince := Function.update s.unreachableSince name none }
    return ⟨name, node, .noop, reason, 0, message⟩
  let phase := pod.phase.getD "None"
  if pod.phase ≠ some "Running" then
    cleared .notRunning s!"phase={phase}"
  else
  match pod.podIP with
  | none | some "" => cleared .noPodIp "Running with no podIP yet"
  | some ip => do
    if (← scrapeOk (exporterUrl cfg ip) cfg.exporterTimeoutSeconds) then
      cleared .reachable s!"{exporterUrl cfg ip} answered"
    else
      let supervisor ← get
      let since := (supervisor.unreachableSince name).getD now
      let dec := unreachableDecision cfg supervisor pod since now
      modify fun s =>
        { unreachableSince := Function.update s.unreachableSince name (some since)
          lastDelete := if dec.action = .delete then Function.update s.lastDelete node (some now)
            else s.lastDelete }
      return dec

/-- The loop of `evaluate`, over the pods still to come. -/
def evaluateLoop (cfg : Config) (now : ℚ) : List Pod → Method Api Exc ExporterSupervisor (List PodDecision)
  | [] => return []
  | pod :: rest => do
    let dec ← evaluatePod cfg now pod
    let decisions ← evaluateLoop cfg now rest
    return dec :: decisions

/-- A decision for every pod; pods that no longer exist are forgotten. -/
def evaluate (cfg : Config) (pods : List Pod) (now : ℚ) :
    Method Api Exc ExporterSupervisor (List PodDecision) := do
  let live := pods.map podName
  let decisions ← evaluateLoop cfg now pods
  modify fun s => { s with
    unreachableSince := fun name => if name ∈ live then s.unreachableSince name else none }
  return decisions

end GpuNodeHealth.Guard
