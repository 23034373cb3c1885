import GpuNodeHealth.Alerts.Firing
import GpuNodeHealth.Alerts.Values

/-! The alert rules about the guard, those about the agents, and those that go by the
conditions of the nodes. -/

namespace GpuNodeHealth.Alerts

open Agent (Double)
open Metrics (Sample)

/-- None of the rules finds anything. -/
def Silent (rules : List (AlertRule Double)) (now : ℚ) (store : List (Sample Double)) : Prop :=
  ∀ r ∈ rules, (r.expr now).found store = []

def series (name : String) (matchers : List Matcher) : Query Double := .select name.toList matchers

/-- `key="value"` -/
def is (key value : String) : Matcher := .is key.toList value.toList

/-- `key=~"value|..."` -/
def oneOf (key : String) (values : List String) : Matcher := .oneOf key.toList (values.map String.toList)

/-- `max by (keys) (q) > 0` -/
def someOf (keys : List String) (q : Query Double) : Query Double := (q.maxBy (keys.map String.toList)).filter (above 0)

/-! ### The guard itself -/

def guardDown : AlertRule Double where
  alert := "GPUGuardDown"
  expr _ := (series "gpuguard_up" []).absent.or (((series "gpuguard_up" []).maxBy []).filter (below 1))
  hold := 300

def guardNoLeader : AlertRule Double where
  alert := "GPUGuardNoLeader"
  expr _ := ((series "gpuguard_is_leader" []).maxBy []).filter (below 1)
  hold := 600

def guardEvaluationStale : AlertRule Double where
  alert := "GPUGuardEvaluationStale"
  expr now := (((series "gpuguard_last_loop_timestamp_seconds" []).maxBy []).map (ago now)).filter (above 300)
  hold := 300

/-! ### What it refuses -/

def refusedCapacityFloor : AlertRule Double where
  alert := "GPUGuardCordonRefusedCapacityFloor"
  expr _ := someOf ["node", "condition"] (series "gpuguard_decision" [is "reason" "capacity-floor"])
  hold := 300

def refusedRateLimit : AlertRule Double where
  alert := "GPUGuardCordonRefusedRateLimit"
  expr _ := someOf ["node"] (series "gpuguard_decision" [is "reason" "rate-limit"])
  hold := 300

def refusedStaleData : AlertRule Double where
  alert := "GPUGuardCordonRefusedStaleData"
  expr _ := someOf ["node"] (series "gpuguard_decision" [is "reason" "health-data-stale"])
  hold := 600

def wouldHaveCordoned : AlertRule Double where
  alert := "GPUGuardWouldHaveCordoned"
  expr _ := someOf ["node", "condition"]
    (series "gpuguard_decision" [oneOf "reason" ["observe-mode", "not-in-enforce-scope"]])
  hold := 300

/-! ### What lasts -/

def nodeStillCordoned : AlertRule Double where
  alert := "GPUNodeStillCordoned"
  expr _ := someOf ["node"] (series "gpuguard_node_unschedulable" [])
  hold := 1800

/-! ### The agents -/

/-- An enrolled node without the page of an agent. -/
def agentMissingOnNode : AlertRule Double where
  alert := "GPUHealthAgentMissingOnNode"
  expr _ := (((series "kube_node_labels" [is "label_gpu_health_amd_io_agent" "true"]).maxBy ["node".toList]).filter
    (equals 1)).without (((series "gpuhealth_agent_up" []).maxBy ["node".toList]).filter (equals 1))
  hold := 600

def collectStale : AlertRule Double where
  alert := "GPUHealthCollectStale"
  expr now := ((series "gpuhealth_collect_timestamp_seconds" []).map (ago now)).filter (above 120)
  hold := 300

/-! ### The conditions of the nodes -/

/-- The rules that go by a condition alone. -/
def conditionRule (condition : String) (hold : ℚ) : AlertRule Double where
  alert := condition
  expr _ := (series "gpuhealth_condition" [is "condition" condition]).filter (equals 1)
  hold

def gpuUnrecoverable : AlertRule Double := conditionRule "GPUUnrecoverable" 0

def gpuWorkqueueStalled : AlertRule Double := conditionRule "GPUWorkqueueStalled" 0

def gpuEngineTimeout : AlertRule Double := conditionRule "GPUEngineTimeout" 600

def gpuHealthDataStale : AlertRule Double := conditionRule "GPUHealthDataStale" 0

/-- Only where an exporter is to be scraped. -/
def gpuProbeFailed : AlertRule Double where
  alert := "GPUProbeFailed"
  expr _ := ((series "gpuhealth_condition" [is "condition" "GPUProbeFailed"]).filter (equals 1)).andOn ["node".toList]
    (((series "up" [is "job" "amd-gpu-exporter"]).countBy ["node".toList]).filter (above 0))
  hold := 300

/-- The conditions as the API server has them. -/
def conditionFromAPIServer : AlertRule Double where
  alert := "GPUNodeConditionFromAPIServer"
  expr _ := (series "kube_node_status_condition"
    [oneOf "condition" ["GPUUnrecoverable", "GPUWorkqueueStalled", "GPUHealthDataStale"], is "status" "true"]).filter
      (equals 1)

end GpuNodeHealth.Alerts
