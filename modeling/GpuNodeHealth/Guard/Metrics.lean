import GpuNodeHealth.Guard.Main
import GpuNodeHealth.Metrics.Reading

/-! Prometheus text exposition for the guard: the calls of `metric` that a state comes
to, and the text they are rendered to. -/

namespace GpuNodeHealth.Guard

open Metrics (Metric Registry Number)

/-- The name of a family. -/
def fullName (name : String) : List Char := "gpuguard".toList ++ '_' :: name.toList

/-- `Registry.metric` -/
def metric (r : Registry) (m : Metric) : Registry := r.write (m.entry (fullName m.name) m.labelSet)

/-! ### The calls -/

def Action.label : Action → String
  | .cordon => "cordon"
  | .noop => "noop"

def PodAction.label : PodAction → String
  | .delete => "delete"
  | .noop => "noop"

/-- `unreachable_seconds`: an integer zero where the clock was not read, else a float. -/
def PodDecision.seconds (dec : PodDecision) : Number :=
  if dec.unreachableSeconds = 0 ∧ dec.reason ∈ [.reachable, .notRunning, .noPodIp] then .int 0
  else .float (.round dec.unreachableSeconds)

def nodeStateMetrics (st : NodeState) : List Metric :=
  [{ name := "node_unschedulable", value := .int st.unschedulable, labels := [("node", st.node)]
     helpText := "1 while the node is cordoned, whoever cordoned it. This guard never uncordons, so a 1 here " ++
       "persists until a human clears it - which is exactly why it is a gauge and not an increase() over the " ++
       "cordon counter." },
   { name := "node_ready", value := .int st.ready, labels := [("node", st.node)]
     helpText := "kubelet's own Ready condition. Stays 1 through a GPU hang - recorded here so a dashboard can " ++
       "show that next to the GPU conditions rather than beside them." }]

def decisionMetric (dec : Decision) : Metric where
  name := "decision"
  value := .int 1
  labels := [("node", dec.node), ("action", dec.action.label), ("reason", dec.reason.label),
    ("level", (dec.level.map Level.label).getD ""), ("condition", dec.condition)]
  helpText := "Current decision per node, one series each. The reason label is the interesting one - reason=" ++
    "\"capacity-floor\" or \"rate-limit\" means the guard wanted to act and was not allowed to."

def exporterMetrics (dec : PodDecision) : List Metric :=
  [{ name := "exporter_decision", value := .int 1
     labels := [("exporter_pod", dec.pod), ("node", dec.node), ("action", dec.action.label),
       ("reason", dec.reason.label)]
     helpText := "Current decision per metrics-exporter pod." },
   { name := "exporter_unreachable_seconds", value := dec.seconds
     labels := [("exporter_pod", dec.pod), ("node", dec.node)]
     helpText := "How long this exporter's /metrics has been unreachable. Reset only by a successful scrape - " ++
       "never by a restart or a delete." }]

/-- What does not come in any number. -/
def stateMetrics (state : State) : List Metric :=
  [{ name := "up", value := .int 1, helpText := "gpu-node-guard process is serving." },
   { name := "is_leader", value := .int (if state.isLeader then 1 else 0)
     helpText := "1 on the replica currently holding the lease. Only the leader evaluates or acts." },
   { name := "enforce_mode", value := .int (if state.mode = "enforce" then 1 else 0)
     helpText := "1 when GUARD_MODE=enforce. 0 means every decision below is hypothetical." },
   -- `int` drops the fraction
   { name := "last_loop_timestamp_seconds"
     value := .int (if 0 ≤ state.lastLoop then ⌊state.lastLoop⌋ else ⌈state.lastLoop⌉)
     helpText := "Unix time of the last completed evaluation. Alert on this going stale: a guard that stopped " ++
       "evaluating looks exactly like a fleet with no problems." },
   { name := "loop_errors_total", value := .int state.loopErrors, mtype := "counter"
     helpText := "Evaluation loops that raised." },
   { name := "event_errors_total", value := .int state.eventErrors, mtype := "counter"
     helpText := "Kubernetes Events the guard failed to record. Non-zero means actions and refusals are " ++
       "happening unwitnessed." },
   { name := "nodes_watched", value := .int state.nodesWatched
     helpText := "Nodes matching the guard's label selector." },
   { name := "healthy_capacity", value := .int state.healthyCapacity
     helpText := "Nodes that are Ready, schedulable and not triggering a cordon. This is what the capacity floor " ++
       "is measured against." },
   { name := "min_healthy_nodes", value := .int state.minHealthyNodes, helpText := "Configured capacity floor." },
   { name := "cordons_total", value := .int state.cordonsTotal, mtype := "counter"
     helpText := "Cordons actually performed by this guard since start." }]

/-- The calls of `metric`, in order. -/
def metrics (state : State) : List Metric :=
  stateMetrics state ++ state.nodeStates.flatMap nodeStateMetrics ++ state.decisions.map decisionMetric ++
    state.exporterDecisions.flatMap exporterMetrics

def render (state : State) : List Char := ((metrics state).foldl metric {}).text

end GpuNodeHealth.Guard
