import GpuNodeHealth.Guard.Policy

/-! The settings of the guard, each with the cautious default of the source. -/

namespace GpuNodeHealth.Guard

structure Config where
  mode : String := "observe"
  enforceNodes : List String := []
  nodeLabelSelector : String := "gpu-health.amd.io/agent=true"
  loopIntervalSeconds : ℤ := 30
  conditionMinAgeSeconds : ℤ := 120
  minHealthyNodes : ℤ := 2
  maxCordonsPerWindow : ℤ := 1
  rateLimitWindowSeconds : ℤ := 3600
  exporterSupervisionEnabled : Bool := false
  exporterNamespace : String := "kube-amd-gpu"
  exporterLabelSelector : String := "app.kubernetes.io/name=metrics-exporter"
  exporterPort : ℤ := 5000
  exporterTimeoutSeconds : ℤ := 10
  exporterUnreachableSeconds : ℤ := 900
  exporterDeleteCooldownSeconds : ℤ := 3600
  guardNamespace : String := "gpu-node-health"
  podName : String := "gpu-node-guard"
  leaseName : String := "gpu-node-guard"
  leaseDurationSeconds : ℤ := 30
  deriving DecidableEq, Repr

/-- The flat object `decide` takes. -/
def Config.policy (cfg : Config) : PolicyConfig where
  mode := cfg.mode
  enforceNodes := cfg.enforceNodes
  conditionMinAgeSeconds := cfg.conditionMinAgeSeconds
  minHealthyNodes := cfg.minHealthyNodes
  maxCordonsPerWindow := cfg.maxCordonsPerWindow
  rateLimitWindowSeconds := cfg.rateLimitWindowSeconds

/-- A guard that enforces with a floor of one node. -/
def enforcing : Config := { mode := "enforce", minHealthyNodes := 1 }

end GpuNodeHealth.Guard
