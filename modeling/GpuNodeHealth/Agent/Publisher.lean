import GpuNodeHealth.Cluster.Time
import GpuNodeHealth.Cluster.Objects
import GpuNodeHealth.Interaction.Method
import Mathlib.Logic.Function.Basic

/-! The agent's side of the conditions: a publisher that mirrors what the agent
evaluated onto the Node, with one PATCH a publish. It remembers the last status
of every condition and when it flipped, in memory only. -/

namespace GpuNodeHealth.Agent

open Cluster Interaction

inductive ConditionName where
  | gpuUnrecoverable | gpuWorkqueueStalled | gpuEngineTimeout | gpuProbeFailed | gpuHealthDataStale
  deriving DecidableEq, Repr

def allConditions : List ConditionName :=
  [.gpuUnrecoverable, .gpuWorkqueueStalled, .gpuEngineTimeout, .gpuProbeFailed, .gpuHealthDataStale]

def ConditionName.label : ConditionName → String
  | .gpuUnrecoverable => "GPUUnrecoverable"
  | .gpuWorkqueueStalled => "GPUWorkqueueStalled"
  | .gpuEngineTimeout => "GPUEngineTimeout"
  | .gpuProbeFailed => "GPUProbeFailed"
  | .gpuHealthDataStale => "GPUHealthDataStale"

def conditionPrefix : String := "gpu-health.amd.io/"

/-- The type of the Node condition a condition is published as. -/
def ConditionName.type (name : ConditionName) : String := conditionPrefix ++ name.label

/-- What the evaluation says about one condition. -/
structure ConditionInfo where
  active : Bool
  reason : String
  message : String
  deriving DecidableEq, Repr

/-- The dict of evaluated conditions. -/
abbrev Detail := ConditionName → Option ConditionInfo

def ConditionInfo.status (info : ConditionInfo) : String := if info.active then "True" else "False"

/-- The exceptions of the agent's client; it makes a K8sError of every failed
request it expects. -/
inductive Exc where
  | k8sError (text : String)
  | other (text : String)
  deriving DecidableEq, Repr

/-- The one request of the publisher: the conditions to merge into a Node. -/
structure StatusPatch where
  node : String
  conditions : List NodeCondition
  deriving DecidableEq, Repr

abbrev Api : Interface := Fallible StatusPatch Exc fun _ => Unit

/-- The publisher's two dicts. Whatever has a last status has a transition. -/
structure ConditionPublisher where
  lastStatus : ConditionName → Option String := fun _ => none
  transitions : ConditionName → Option String := fun _ => none
  tracked : ∀ name, (transitions name).isSome = (lastStatus name).isSome := by simp

/-! ### Publishing -/

/-- The transition moves only when the status flipped. -/
def ConditionPublisher.observe (publisher : ConditionPublisher) (now : String) (name : ConditionName)
    (info : ConditionInfo) : ConditionPublisher where
  lastStatus := Function.update publisher.lastStatus name (some info.status)
  transitions := if publisher.lastStatus name ≠ some info.status then
      Function.update publisher.transitions name (some now)
    else publisher.transitions
  tracked other := by
    have h := publisher.tracked other
    by_cases hname : other = name
    · subst hname
      split_ifs with hflip
      · simp
      · rw [not_not] at hflip
        simp [h, hflip]
    · split_ifs <;> simp [hname, h]

/-- The Node condition published for a condition just observed. -/
def ConditionPublisher.entry (publisher : ConditionPublisher) (now : String) (name : ConditionName)
    (info : ConditionInfo) : NodeCondition where
  type := some name.type
  status := some info.status
  reason := some info.reason
  message := some (String.ofList (info.message.toList.take 1024))
  lastHeartbeatTime := some now
  lastTransitionTime := publisher.transitions name

/-- The loop of `publish`, over the conditions still to come. -/
def ConditionPublisher.observeAll (now : String) (detail : Detail) :
    List ConditionName → ConditionPublisher → ConditionPublisher × List NodeCondition
  | [], publisher => (publisher, [])
  | name :: rest, publisher =>
    match detail name with
    | none => observeAll now detail rest publisher
    | some info =>
      let observed := publisher.observe now name info
      let (publisher', conditions) := observeAll now detail rest observed
      (publisher', observed.entry now name info :: conditions)

/-- Publish what was last evaluated; without an evaluation there is nothing to
say. A failed PATCH is logged and forgotten. -/
def publish (nodeName : String) (detail : Detail) (now : ℚ) : Method Api Exc ConditionPublisher Unit := do
  if allConditions.all fun name => (detail name).isNone then return ()
  else
    let publisher ← get
    let (publisher', conditions) := publisher.observeAll (rfc3339 now) detail allConditions
    set publisher'
    tryCatch (Method.request (StatusPatch.mk nodeName conditions)) fun
      | .k8sError _ => return ()
      | exc => throw exc

/-! ### The Node -/

/-- A strategic merge of two conditions of the same type. -/
def mergeCondition (old new : NodeCondition) : NodeCondition where
  type := old.type
  status := new.status <|> old.status
  reason := new.reason <|> old.reason
  message := new.message <|> old.message
  lastHeartbeatTime := new.lastHeartbeatTime <|> old.lastHeartbeatTime
  lastTransitionTime := new.lastTransitionTime <|> old.lastTransitionTime

/-- The merge key of conditions is their type: entries of a known type are
updated in place, others appended. -/
def mergeInto (conditions : List NodeCondition) (new : NodeCondition) : List NodeCondition :=
  if conditions.any (·.type = new.type) then
    conditions.map fun old => if old.type = new.type then mergeCondition old new else old
  else conditions ++ [new]

def applyPatch (node : Node) (patch : List NodeCondition) : Node :=
  { node with conditions := patch.foldl mergeInto node.conditions }

end GpuNodeHealth.Agent
