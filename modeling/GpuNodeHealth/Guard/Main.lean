import GpuNodeHealth.Guard.Leader
import GpuNodeHealth.Guard.Supervisor

/-! The guard itself: deciding is `decide`, and this is the doing. A pass that
leads cordons what it decided to, records an Event for every action and every
refusal worth one, looks after the exporters and publishes the outcome. -/

namespace GpuNodeHealth.Guard

open Cluster Interaction

/-- What the guard publishes. -/
structure State where
  mode : String
  minHealthyNodes : ℤ
  isLeader : Bool := false
  lastLoop : ℚ := 0
  loopErrors : ℕ := 0
  eventErrors : ℕ := 0
  nodesWatched : ℕ := 0
  healthyCapacity : ℕ := 0
  cordonsTotal : ℕ := 0
  decisions : List Decision := []
  exporterDecisions : List PodDecision := []
  nodeStates : List NodeState := []
  deriving DecidableEq, Repr

structure GuardObject where
  leader : Leader := {}
  supervisor : ExporterSupervisor := {}
  recentCordons : List ℚ := []
  state : State

/-- The guard a process starts with. -/
def Config.start (cfg : Config) : GuardObject where
  state := { mode := cfg.mode, minHealthyNodes := cfg.minHealthyNodes }

/-- The Event reason of a decision that is not acted on, if it is worth an Event. -/
def eventReason : Reason → Option String
  | .capacityFloor => some "GPUCordonRefusedCapacityFloor"
  | .rateLimit => some "GPUCordonRefusedRateLimit"
  | .staleData => some "GPUCordonRefusedStaleData"
  | .observeMode => some "GPUCordonWouldHave"
  | _ => none

def involvedObject (cfg : Config) (kind name : String) : ObjectReference :=
  if kind = "Node" then { kind := "Node", name }
  else if kind = "Pod" then { kind := "Pod", name, ns := some cfg.exporterNamespace }
  else { kind, name, ns := some cfg.guardNamespace }

/-- `_event`: best effort, but a failure is counted. -/
def event (cfg : Config) (kind name reason message etype : String) : Method Api Exc GuardObject Unit := do
  match ← tryK8s (emitEvent (involvedObject cfg kind name) reason message etype) with
  | .ok _ => return ()
  | .error _ => modify fun g => { g with state := { g.state with eventErrors := g.state.eventErrors + 1 } }

/-! ### Nodes -/

/-- One turn of the loop of `_run_nodes`: how many nodes it cordoned. -/
def runDecision (cfg : Config) (now : ℚ) (dec : Decision) : Method Api Exc GuardObject ℕ := do
  if dec.action = .cordon then
    match ← tryK8s (send (.cordon dec.node)) with
    | .error text =>
      event cfg "Node" dec.node "GPUCordonFailed"
        (s!"wanted to cordon {dec.node} but the patch " ++ s!"failed: {text}") "Warning"
      return 0
    | .ok _ =>
      modify fun g => { g with recentCordons := g.recentCordons ++ [now] }
      event cfg "Node" dec.node "GPUNodeCordoned" dec.message "Warning"
      return 1
  else
    match eventReason dec.reason with
    | some reason =>
      event cfg "Node" dec.node reason dec.message "Warning"
      return 0
    | none => return 0

/-- The loop of `_run_nodes`, over the decisions still to come. -/
def runDecisions (cfg : Config) (now : ℚ) : List Decision → Method Api Exc GuardObject ℕ
  | [] => return 0
  | dec :: rest => do
    let cordoned ← runDecision cfg now dec
    let cordonedLater ← runDecisions cfg now rest
    return cordoned + cordonedLater

/-- What `_run_nodes` returns. -/
structure NodesOutcome where
  nodes : List Node
  decisions : List Decision
  capacity : ℕ
  cordoned : ℕ
  deriving DecidableEq, Repr

def runNodes (cfg : Config) (now : ℚ) : Method Api Exc GuardObject NodesOutcome := do
  let nodes : List Node ← send (.listNodes cfg.nodeLabelSelector)
  let guard ← get
  let decisions := decide nodes now cfg.policy parseTime guard.recentCordons
  let capacity := healthyCapacity nodes now cfg.conditionMinAgeSeconds parseTime []
  let cordoned ← runDecisions cfg now decisions
  -- drop rate-limit history that has aged out
  modify fun g => { g with
    recentCordons := g.recentCordons.filter (now - cfg.rateLimitWindowSeconds ≤ ·) }
  return ⟨nodes, decisions, capacity, cordoned⟩

/-! ### Exporters -/

/-- One turn of the loop of `_run_exporters`. -/
def runPodDecision (cfg : Config) (dec : PodDecision) : Method Api Exc GuardObject Unit := do
  if dec.action = .delete then
    match ← tryK8s (send (.deletePod cfg.exporterNamespace dec.pod)) with
    | .error _ => return ()
    | .ok _ => event cfg "Pod" dec.pod "ExporterPodDeleted" dec.message "Warning"

/-- The loop of `_run_exporters`, over the decisions still to come. -/
def runPodDecisions (cfg : Config) : List PodDecision → Method Api Exc GuardObject Unit
  | [] => return ()
  | dec :: rest => do
    runPodDecision cfg dec
    runPodDecisions cfg rest

def runExporters (cfg : Config) (now : ℚ) : Method Api Exc GuardObject (List PodDecision) := do
  let pods : List Pod ← send (.listPods cfg.exporterNamespace cfg.exporterLabelSelector)
  let decisions ← Method.on (·.supervisor) (fun g supervisor => { g with supervisor })
    (evaluate cfg pods now)
  runPodDecisions cfg decisions
  return decisions

/-! ### The loop -/

def loopOnce (cfg : Config) (identity : String) (now : ℚ) : Method Api Exc GuardObject Unit := do
  let leads ← Method.on (·.leader) (fun g leader => { g with leader }) (acquireOrRenew cfg identity now)
  if leads then
    let outcome ← runNodes cfg now
    let exporterDecisions ← runExporters cfg now
    modify fun g => { g with state := { g.state with
      isLeader := true
      lastLoop := now
      nodesWatched := outcome.nodes.length
      healthyCapacity := outcome.capacity
      decisions := outcome.decisions
      exporterDecisions
      nodeStates := nodeStates outcome.nodes
      cordonsTotal := g.state.cordonsTotal + outcome.cordoned } }
  else
    modify fun g => { g with state := { g.state with isLeader := false, lastLoop := now } }

/-- One iteration of `run_forever`: whatever the pass raised is counted. -/
def iterate (cfg : Config) (identity : String) (now : ℚ) : Method Api Exc GuardObject Unit :=
  tryCatch (loopOnce cfg identity now) fun _ =>
    modify fun g => { g with state := { g.state with loopErrors := g.state.loopErrors + 1 } }

end GpuNodeHealth.Guard
