import GpuNodeHealth.Cluster.Time
import GpuNodeHealth.Cluster.Objects
import GpuNodeHealth.Interaction.Method

/-! The guard's Kubernetes client: the requests it can send, how a request can
fail, and what the client makes of the failure. The scrape of an exporter is a
request of the same interface, since it too leaves the process. -/

namespace GpuNodeHealth.Guard

open Cluster Interaction

/-- The exceptions of a request. `transport` is a URLError, OSError or
ValueError, `other` anything the client does not catch. -/
inductive Exc where
  | k8sError (text : String)
  | httpError (code : ℕ) (detail : String)
  | transport (text : String)
  | other (text : String)
  deriving DecidableEq, Repr

inductive Req where
  | getLease (ns name : String)
  | createLease (ns name : String) (spec : LeaseSpec)
  | updateLease (ns name : String) (lease : Lease)
  | listNodes (labelSelector : String)
  | cordon (name : String)
  | createEvent (ns : String) (event : CoreEvent)
  | listPods (ns labelSelector : String)
  | deletePod (ns name : String)
  | httpGet (url : String) (timeout : ℤ)
  deriving DecidableEq, Repr

/-- A response of an exporter: its status and the bytes of its body. -/
structure Response where
  status : ℕ
  body : List UInt8
  deriving DecidableEq, Repr

/-- What the caller uses of the answer to a request. -/
abbrev Ans : Req → Type
  | .getLease .. => Lease
  | .listNodes .. => List Node
  | .listPods .. => List Pod
  | .httpGet .. => Response
  | _ => Unit

/-- The API server and the exporters, as the guard sees them. -/
abbrev Api : Interface := Fallible Req Exc Ans

/-! ### Requests on the wire -/

def unreserved (c : Char) : Bool := c.isAlphanum || c ∈ ['_', '.', '-', '~']

/-- `urllib.parse.quote` with nothing safe. -/
def quote (s : String) : String :=
  let digit (n : ℕ) : String := n.digitChar.toUpper.toString
  let percent (b : UInt8) : String := "%" ++ digit (b.toNat / 16) ++ digit (b.toNat % 16)
  String.join (s.toList.map fun c =>
    if unreserved c then c.toString else String.join ((String.utf8EncodeChar c).map percent))

def query (labelSelector : String) : String :=
  if labelSelector = "" then "" else "?labelSelector=" ++ quote labelSelector

def leasesPath (ns : String) : String := s!"/apis/coordination.k8s.io/v1/namespaces/{ns}/leases"

def Req.method : Req → String
  | .createLease .. | .createEvent .. => "POST"
  | .updateLease .. => "PUT"
  | .cordon .. => "PATCH"
  | .deletePod .. => "DELETE"
  | _ => "GET"

def Req.path : Req → String
  | .getLease ns name => s!"{leasesPath ns}/{name}"
  | .createLease ns _ _ => leasesPath ns
  | .updateLease ns name _ => s!"{leasesPath ns}/{name}"
  | .listNodes labelSelector => "/api/v1/nodes" ++ query labelSelector
  | .cordon name => s!"/api/v1/nodes/{name}"
  | .createEvent ns _ => s!"/api/v1/namespaces/{ns}/events"
  | .listPods ns labelSelector => s!"/api/v1/namespaces/{ns}/pods" ++ query labelSelector
  | .deletePod ns name => s!"/api/v1/namespaces/{ns}/pods/{name}"
  | .httpGet url _ => url

/-- How many seconds a request may take. -/
def Req.timeout : Req → ℤ
  | .httpGet _ timeout => timeout
  | _ => 10

/-- The first characters of a text. -/
def clip (n : ℕ) (s : String) : String := String.ofList (s.toList.take n)

/-- The exception `_request` raises for one of `urlopen`. -/
def Req.raised (r : Req) : Exc → Exc
  | .httpError code detail => .k8sError s!"{r.method} {r.path} -> {code}: {clip 400 detail}"
  | .transport text => .k8sError s!"{r.method} {r.path} failed: {text}"
  | exc => exc

section

variable {σ α : Type}

/-- `_request`: send the request, and turn its failure into a K8sError. -/
def send (r : Req) : Method Api Exc σ (Ans r) := tryCatch (Method.request r) fun exc => throw (r.raised exc)

/-- `try` with an `except K8sError` that goes on with the text of the error. -/
def tryK8s (m : Method Api Exc σ α) : Method Api Exc σ (Except String α) :=
  tryCatch (do return .ok (← m)) fun
    | .k8sError text => pure (.error text)
    | exc => throw exc

/-! ### The client's methods -/

/-- A lease that is not there is None; how the error spells that is all the
client goes by. -/
def getLease (ns name : String) : Method Api Exc σ (Option Lease) :=
  tryCatch (do return some (← send (.getLease ns name))) fun
    | .k8sError text => if "-> 404".toList <:+: text.toList then pure none else throw (.k8sError text)
    | exc => throw exc

def createLease (ns name holder : String) (duration : ℤ) (now : ℚ) : Method Api Exc σ Unit :=
  send (.createLease ns name
    { holderIdentity := some holder
      leaseDurationSeconds := some duration
      acquireTime := some (rfc3339Micro now)
      renewTime := some (rfc3339Micro now) })

/-- Which namespace an Event has to be created in: that of the involved object,
and `default` for one without. -/
def eventNamespace (involved : ObjectReference) : String :=
  match involved.ns with
  | none | some "" => "default"
  | some ns => ns

def emitEvent (involved : ObjectReference) (reason message etype : String) : Method Api Exc σ Unit :=
  send (.createEvent (eventNamespace involved) ⟨involved, reason, clip 1024 message, etype⟩)

/-- The bytes `bytes.strip` takes off. -/
def asciiSpace (b : UInt8) : Bool := b ∈ [9, 10, 11, 12, 13, 32]

/-- A 200 that says something other than blanks. -/
def Response.answers (resp : Response) : Bool :=
  resp.status = 200 && (resp.body.take 64).any (!asciiSpace ·)

/-- Whether an exporter answers; an exception of another kind is not caught. -/
def scrapeOk (url : String) (timeout : ℤ) : Method Api Exc σ Bool :=
  tryCatch (do
    let resp : Response ← Method.request (Req.httpGet url timeout)
    return resp.answers) fun
    | .httpError .. | .transport _ => pure false
    | exc => throw exc

/-! ### What they do -/

variable {G : List (Event Api) → Req → Prop} {s : σ} {es : List (Event Api)}

@[simp] theorem wp_send (r : Req) {Q : List (Event Api) → Except Exc (Ans r) → σ → Prop} :
    Method.wp G Q (send r) s es ↔
      G es r ∧ ∀ v : Except Exc (Ans r), Q (es ++ [⟨r, v⟩]) (v.mapError r.raised) s := by
  simp only [send, Method.wp_tryCatch, Method.wp_request, Method.wp_throw]
  refine and_congr_right fun _ => forall_congr' fun v => ?_
  cases v <;> rfl

@[simp] theorem wp_tryK8s (m : Method Api Exc σ α)
    {Q : List (Event Api) → Except Exc (Except String α) → σ → Prop} :
    Method.wp G Q (tryK8s m) s es ↔ Method.wp G (fun fs (v : Except Exc α) t => match v with
      | .ok a => Q fs (.ok (.ok a)) t
      | .error (.k8sError text) => Q fs (.ok (.error text)) t
      | .error exc => Q fs (.error exc) t) m s es := by
  rw [tryK8s, Method.wp_tryCatch, Method.wp_bind]
  refine Method.wp_congr fun fs v t => ?_
  rcases v with (_ | _ | _ | _) | a <;> rfl

end

end GpuNodeHealth.Guard
