import Mathlib.Data.Rat.Defs

/-! The Kubernetes objects the guard and the agent exchange with the API server,
with the fields either of them reads or writes. A field that may be absent or
null is an option; an absent `metadata`, `spec` or `status` reads as one whose
fields are absent, and absent lists as empty ones. -/

namespace GpuNodeHealth.Cluster

/-- An entry of a Node's `.status.conditions`. -/
structure NodeCondition where
  type : Option String := none
  status : Option String := none
  reason : Option String := none
  message : Option String := none
  lastHeartbeatTime : Option String := none
  lastTransitionTime : Option String := none
  deriving DecidableEq, Repr

structure Node where
  name : Option String := none
  unschedulable : Option Bool := none
  conditions : List NodeCondition := []
  deriving DecidableEq, Repr

structure Pod where
  name : Option String := none
  nodeName : Option String := none
  phase : Option String := none
  podIP : Option String := none
  deriving DecidableEq, Repr

structure LeaseSpec where
  holderIdentity : Option String := none
  leaseDurationSeconds : Option ℤ := none
  acquireTime : Option String := none
  renewTime : Option String := none
  deriving DecidableEq, Repr

/-- A Lease as the API server stores it: every accepted write gives it a new
resource version. -/
structure Lease where
  resourceVersion : ℕ
  spec : LeaseSpec
  deriving DecidableEq, Repr

/-- What an Event is about. -/
structure ObjectReference where
  kind : String
  name : String
  ns : Option String := none
  deriving DecidableEq, Repr

/-- A core/v1 Event, less its own name and stamps. -/
structure CoreEvent where
  involvedObject : ObjectReference
  reason : String
  message : String
  type : String
  deriving DecidableEq, Repr

/-! ### Names -/

def dnsAlphanum (c : Char) : Bool := ('a' ≤ c && c ≤ 'z') || ('0' ≤ c && c ≤ '9')

def isDnsLabel (label : List Char) : Bool :=
  label.head?.any dnsAlphanum && label.getLast?.any dnsAlphanum && label.all fun c => dnsAlphanum c || c = '-'

/-- What the API server accepts as the name of a node or a pod: a DNS-1123 subdomain. -/
def isDns1123 (name : String) : Bool := name.length ≤ 253 && (name.toList.splitOn '.').all isDnsLabel

end GpuNodeHealth.Cluster
