import GpuNodeHealth.Cluster.Objects
import Mathlib.Algebra.Order.Ring.Rat
import Mathlib.Data.Rat.Cast.Order
import Mathlib.Logic.Function.Basic

/-! What the guard is allowed to do: a snapshot of the fleet and a clock in, one
decision per node out. Conditions on a node give a trigger level, the level goes
through the guardrails, and what is left is a cordon. -/

namespace GpuNodeHealth.Guard

open Cluster

def gpuUnrecoverable : String := "gpu-health.amd.io/GPUUnrecoverable"
def gpuWorkqueueStalled : String := "gpu-health.amd.io/GPUWorkqueueStalled"
def gpuEngineTimeout : String := "gpu-health.amd.io/GPUEngineTimeout"
def gpuProbeFailed : String := "gpu-health.amd.io/GPUProbeFailed"
def gpuHealthDataStale : String := "gpu-health.amd.io/GPUHealthDataStale"

inductive Level where
  | l1 | l2 | l3
  deriving DecidableEq, Repr

def Level.label : Level → String
  | .l1 => "L1"
  | .l2 => "L2"
  | .l3 => "L3"

/-- Level and the conditions that trigger it, in descending severity. -/
def levelRules : List (Level × List String) :=
  [(.l3, [gpuUnrecoverable, gpuWorkqueueStalled]), (.l2, [gpuEngineTimeout]), (.l1, [gpuProbeFailed])]

def cordonLevels : List Level := [.l2, .l3]

inductive Action where
  | cordon | noop
  deriving DecidableEq, Repr

/-- Why a decision came out the way it did. -/
inductive Reason where
  | healthy | alreadyCordoned | reportOnly | tooYoung | staleData | observeMode | outOfScope
  | capacityFloor | rateLimit | cordon
  deriving DecidableEq, Repr

/-- The metric label value of a reason. -/
def Reason.label : Reason → String
  | .healthy => "healthy"
  | .alreadyCordoned => "already-cordoned"
  | .reportOnly => "report-only-level"
  | .tooYoung => "condition-too-young"
  | .staleData => "health-data-stale"
  | .observeMode => "observe-mode"
  | .outOfScope => "not-in-enforce-scope"
  | .capacityFloor => "capacity-floor"
  | .rateLimit => "rate-limit"
  | .cordon => "cordon"

structure Decision where
  node : String
  action : Action
  reason : Reason
  level : Option Level
  condition : String
  message : String
  deriving DecidableEq, Repr

/-- The flat object `decide` takes its settings from. -/
structure PolicyConfig where
  mode : String
  enforceNodes : List String
  conditionMinAgeSeconds : ℤ
  minHealthyNodes : ℤ
  maxCordonsPerWindow : ℤ
  rateLimitWindowSeconds : ℤ
  deriving DecidableEq, Repr

/-- A reader of timestamps: the epoch second, or nothing. -/
abbrev TimeParser := Option String → Option ℤ

/-! ### Reading a node -/

/-- The dict of a node's conditions by type; a later entry replaces an earlier
one of the same type, and entries without a type are skipped. -/
def conditionIndex (node : Node) : String → Option NodeCondition :=
  node.conditions.foldl (fun index c => match c.type with
    | none => index
    | some t => if t = "" then index else Function.update index t (some c)) fun _ => none

def isTrue (cond : Option NodeCondition) : Bool := (cond.bind (·.status)) = some "True"

def schedulable (node : Node) : Bool := !(node.unschedulable.getD false)

def ready (node : Node) : Bool := isTrue (conditionIndex node "Ready")

/-- The name `decide` uses: an absent one reads as the empty string. -/
def nodeName (node : Node) : String := node.name.getD ""

/-- The level a node triggers and the condition behind it. `tooYoung` is the
`_too_young` mark the source sets on its copy of the condition. -/
structure Trigger where
  level : Level
  cond : NodeCondition
  tooYoung : Bool
  deriving DecidableEq, Repr

/-- One turn of the loop of `trigger_level`: what a condition type triggers. -/
def triggerOf (node : Node) (now : ℚ) (minAgeSeconds : ℤ) (parseTime : TimeParser)
    (level : Level) (ctype : String) : Option Trigger :=
  match conditionIndex node ctype with
  | none => none
  | some cond =>
    if !isTrue (some cond) then none else
    match parseTime cond.lastTransitionTime with
    | none => some ⟨level, cond, true⟩
    | some since => some ⟨level, cond, now - since < minAgeSeconds⟩

/-- The highest level the node triggers: the first condition of the rules that
is True decides, whatever its age. -/
def triggerLevel (node : Node) (now : ℚ) (minAgeSeconds : ℤ) (parseTime : TimeParser) : Option Trigger :=
  levelRules.findSome? fun (level, types) =>
    types.findSome? (triggerOf node now minAgeSeconds parseTime level)

/-- Ready, schedulable and not triggering a cordon. -/
def inCapacity (node : Node) (now : ℚ) (minAgeSeconds : ℤ) (parseTime : TimeParser) : Bool :=
  ready node && schedulable node &&
    match triggerLevel node now minAgeSeconds parseTime with
    | none => true
    | some trigger => trigger.level ∉ cordonLevels

/-- The number the capacity floor is measured against. -/
def healthyCapacity (nodes : List Node) (now : ℚ) (minAgeSeconds : ℤ) (parseTime : TimeParser)
    (exclude : List String) : ℕ :=
  nodes.countP fun node =>
    !(node.name.any (· ∈ exclude)) && inCapacity node now minAgeSeconds parseTime

structure NodeState where
  node : String
  unschedulable : ℕ
  ready : ℕ
  deriving DecidableEq, Repr

/-- Schedulability and readiness per node. -/
def nodeStates (nodes : List Node) : List NodeState :=
  nodes.map fun node => ⟨nodeName node, if schedulable node then 0 else 1, if ready node then 1 else 0⟩

/-! ### Deciding -/

/-- Cordons of the record that still count against the window. -/
def inWindow (recentCordons : List ℚ) (now : ℚ) (windowSeconds : ℤ) : ℕ :=
  recentCordons.countP fun ts => now - ts < windowSeconds

/-- One turn of the loop of `decide`: the decision for a node, and the budget
left for the nodes after it. -/
def decideNode (nodes : List Node) (now : ℚ) (cfg : PolicyConfig) (parseTime : TimeParser)
    (budget : ℤ) (node : Node) : Decision × ℤ :=
  let name := nodeName node
  match triggerLevel node now cfg.conditionMinAgeSeconds parseTime with
  | none => (⟨name, .noop, .healthy, none, "", "no GPU health condition active"⟩, budget)
  | some trigger =>
    let level := trigger.level
    let ctype := trigger.cond.type.getD ""
    let cmsg := trigger.cond.message.getD ""
    let d (action : Action) (reason : Reason) (message : String) : Decision :=
      ⟨name, action, reason, some level, ctype, message⟩
    if trigger.tooYoung then
      (d .noop .tooYoung (s!"{ctype} is active but has held for less than " ++
        s!"{cfg.conditionMinAgeSeconds}s"), budget)
    else if level ∉ cordonLevels then
      (d .noop .reportOnly (s!"{ctype} is a {level.label} signal: reported, never cordoned. A " ++
        s!"single failed card does not justify removing 8. ({cmsg})"), budget)
    -- the agent says its own inputs are unreliable; checked before the mode
    else if isTrue (conditionIndex node gpuHealthDataStale) then
      (d .noop .staleData (s!"{ctype} is active but so is GPUHealthDataStale - the agent " ++
        "says its own data is unreliable, so this is not actioned. " ++
        "This needs a human, not a cordon."), budget)
    else if !schedulable node then
      (d .noop .alreadyCordoned s!"{ctype} is active and the node is already unschedulable", budget)
    else
    let remaining := healthyCapacity nodes now cfg.conditionMinAgeSeconds parseTime [name]
    if remaining < cfg.minHealthyNodes then
      (d .noop .capacityFloor (s!"{ctype} is active on {name}, but cordoning it would leave " ++
        s!"{remaining} healthy schedulable node(s), below the floor of " ++
        s!"{cfg.minHealthyNodes}. Refusing, and alerting instead. ({cmsg})"), budget)
    else if budget ≤ 0 then
      (d .noop .rateLimit (s!"{ctype} is active on {name}, but " ++
        s!"{cfg.maxCordonsPerWindow} cordon(s) already happened " ++
        s!"within {cfg.rateLimitWindowSeconds}s. More than that at " ++
        s!"once is a fleet-wide event, which is a human's call. ({cmsg})"), budget)
    else if cfg.mode ≠ "enforce" then
      (d .noop .observeMode (s!"WOULD CORDON {name}: {ctype} active and every guardrail " ++
        s!"passed. GUARD_MODE is observe, so nothing was done. ({cmsg})"), budget)
    -- scope comes last, so a node outside it still gets the complete dry-run record
    else if cfg.enforceNodes ≠ [] ∧ name ∉ cfg.enforceNodes then
      (d .noop .outOfScope (s!"WOULD CORDON {name}: {ctype} active and every guardrail " ++
        s!"passed, and GUARD_MODE is enforce - but {name} is not in " ++
        s!"GUARD_ENFORCE_NODES, so nothing was done. ({cmsg})"), budget)
    else
      (d .cordon .cordon (s!"cordoned {name}: {ctype} active. New pods will not be scheduled " ++
        "here. Existing pods are left alone - this guard never drains, " ++
        s!"and never uncordons. ({cmsg})"), budget - 1)

/-- The loop of `decide`, over the nodes still to come. -/
def decideLoop (nodes : List Node) (now : ℚ) (cfg : PolicyConfig) (parseTime : TimeParser) :
    ℤ → List Node → List Decision
  | _, [] => []
  | budget, node :: rest =>
    let turn := decideNode nodes now cfg parseTime budget node
    turn.1 :: decideLoop nodes now cfg parseTime turn.2 rest

/-- A decision for every node; `recentCordons` drives the rate limit. -/
def decide (nodes : List Node) (now : ℚ) (cfg : PolicyConfig) (parseTime : TimeParser)
    (recentCordons : List ℚ) : List Decision :=
  decideLoop nodes now cfg parseTime
    (cfg.maxCordonsPerWindow - inWindow recentCordons now cfg.rateLimitWindowSeconds) nodes

end GpuNodeHealth.Guard
