import GpuNodeHealth.Agent.Exporter
import GpuNodeHealth.Interaction.Method

/-! Finding the exporter of this node. The endpoints of the exporter's Service name
their nodes; the resolver takes the first address of an endpoint on this node that is
not marked as not ready, and keeps the URL until a scrape fails. -/

namespace GpuNodeHealth.Agent

open Interaction Text

/-! ### Listings -/

/-- A field of an object of the API, which may be there with nothing in it. -/
inductive JsonField (α : Type) where
  | absent
  | null
  | value (a : α)
  deriving DecidableEq, Repr

structure EndpointConditions where
  ready : Option Bool := none
  deriving DecidableEq, Repr

structure Endpoint where
  nodeName : Option String := none
  conditions : Option EndpointConditions := none
  addresses : List String := []
  deriving DecidableEq, Repr

structure EndpointSlice where
  endpoints : JsonField (List Endpoint) := .absent
  deriving DecidableEq, Repr

/-- `(ep.get("conditions") or {}).get("ready", True)` -/
def Endpoint.ready (ep : Endpoint) : Bool := (ep.conditions.bind EndpointConditions.ready).getD true

/-! ### Requests -/

/-- The exceptions under `collect`; `raised` is any but those of the resolver itself. -/
inductive ProbeExc where
  | lookupError (text : String)
  | typeError (text : String)
  | attributeError (text : String)
  | raised (exc : Exc)
  deriving DecidableEq, Repr

/-- `str(exc)` -/
def ProbeExc.text : ProbeExc → String
  | .lookupError text | .typeError text | .attributeError text => text
  | .raised (.k8sError text) | .raised (.other text) => text

inductive ProbeReq where
  | listEndpointslices (ns service : String)
  | scrape (url : String) (timeout : ℤ)
  deriving DecidableEq, Repr

abbrev ProbeAns : ProbeReq → Type
  | .listEndpointslices .. => List EndpointSlice
  | .scrape .. => List UInt8

/-- The API server and the exporter, as the probe sees them. -/
abbrev ProbeApi : Interface := Fallible ProbeReq ProbeExc ProbeAns

/-! ### The resolver -/

structure NodeLocalEndpointResolver where
  ns : String
  svc : String
  node : String
  port : ℤ
  path : String
  cached : Option String := none
  deriving DecidableEq, Repr

namespace NodeLocalEndpointResolver

def invalidate (resolver : NodeLocalEndpointResolver) : NodeLocalEndpointResolver := { resolver with cached := none }

def addressUrl (resolver : NodeLocalEndpointResolver) (addr : String) : String :=
  s!"http://{addr}:{resolver.port}{resolver.path}"

/-- The loop over the endpoints of a slice. -/
def localAddress (resolver : NodeLocalEndpointResolver) : List Endpoint → Option String
  | [] => none
  | ep :: rest =>
    if ep.nodeName ≠ some resolver.node then localAddress resolver rest
    else if !ep.ready then localAddress resolver rest
    else match ep.addresses with
      | addr :: _ => some addr
      | [] => localAddress resolver rest

/-- The loop over the slices; one cannot iterate over null. -/
def resolve (resolver : NodeLocalEndpointResolver) : List EndpointSlice → Except ProbeExc String
  | [] => .error (.lookupError s!"no ready {resolver.ns}/{resolver.svc} endpoint on node {resolver.node}")
  | sl :: rest =>
    match sl.endpoints with
    | .absent => resolve resolver rest
    | .null => .error (.typeError "'NoneType' object is not iterable")
    | .value endpoints =>
      match localAddress resolver endpoints with
      | some addr => .ok (addressUrl resolver addr)
      | none => resolve resolver rest

def url : Method ProbeApi ProbeExc NodeLocalEndpointResolver String := do
  let resolver ← get
  match resolver.cached with
  | some cached => return cached
  | none =>
    let slices : List EndpointSlice ← Method.request (ProbeReq.listEndpointslices resolver.ns resolver.svc)
    match resolver.resolve slices with
    | .ok found =>
      modify fun resolver => { resolver with cached := some found }
      return found
    | .error exc => throw exc

end NodeLocalEndpointResolver

/-! ### The probe -/

structure ExporterProbe where
  url : String
  timeout : ℤ
  resolver : Option NodeLocalEndpointResolver := none
  deriving DecidableEq, Repr

/-- What `collect` returns, but for how long it took. -/
structure ProbeResult extends Counts where
  reachable : Bool := true
  error : String := ""
  url : String

namespace ExporterProbe

/-- `self._url or self._resolver.url()` -/
def target : Method ProbeApi ProbeExc ExporterProbe String := do
  let probe ← get
  if probe.url ≠ "" then return probe.url
  else match probe.resolver with
    | none => throw (.attributeError "'NoneType' object has no attribute 'url'")
    | some resolver =>
      Method.on (fun _ => resolver) (fun probe resolver => { probe with resolver := some resolver })
        NodeLocalEndpointResolver.url

/-- The handler of `collect`; the URL is empty if the exception came before there was one. -/
def unreachable (url : String) (exc : ProbeExc) : Method ProbeApi ProbeExc ExporterProbe ProbeResult := do
  modify fun probe => { probe with resolver := probe.resolver.map NodeLocalEndpointResolver.invalidate }
  return { reachable := false, error := Guard.clip 200 exc.text, url }

/-- What follows the `try`. -/
def parse (url : String) (bytes : List UInt8) : Method ProbeApi ProbeExc ExporterProbe ProbeResult :=
  match readBody (decode bytes) with
  | .ok counts => return { counts with url }
  | .error exc => throw (.raised exc)

/-- The value of a method or what it raises. -/
def attempt {α : Type} (m : Method ProbeApi ProbeExc ExporterProbe α) :
    Method ProbeApi ProbeExc ExporterProbe (Except ProbeExc α) :=
  tryCatch (do return .ok (← m)) fun exc => return .error exc

/-- `collect`, from the URL on. -/
def fetch (url : String) : Method ProbeApi ProbeExc ExporterProbe ProbeResult := do
  let probe ← get
  match ← attempt (Method.request (ProbeReq.scrape url probe.timeout)) with
  | .error exc => unreachable url exc
  | .ok bytes => parse url bytes

def collect : Method ProbeApi ProbeExc ExporterProbe ProbeResult := do
  match ← attempt target with
  | .error exc => unreachable "" exc
  | .ok url => fetch url

end ExporterProbe

/-! ### What it finds -/

/-- An endpoint of the node that is not marked as not ready has the address. -/
def Assigned (node : String) (slices : List EndpointSlice) (addr : String) : Prop :=
  ∃ sl ∈ slices, ∃ endpoints, sl.endpoints = .value endpoints ∧
    ∃ ep ∈ endpoints, ep.nodeName = some node ∧ ep.ready = true ∧ addr ∈ ep.addresses

/-- What the resolver should make of a listing: the URL of such an address if there is
one, a LookupError else. -/
structure Resolves (resolver : NodeLocalEndpointResolver) (slices : List EndpointSlice)
    (outcome : Except ProbeExc String) : Prop where
  sound : ∀ url, outcome = .ok url → ∃ addr, Assigned resolver.node slices addr ∧ url = resolver.addressUrl addr
  complete : (∃ addr, Assigned resolver.node slices addr) → ∃ url, outcome = .ok url
  missing : (¬∃ addr, Assigned resolver.node slices addr) → ∃ text, outcome = .error (.lookupError text)

/-- The answers of an API server with some slices. -/
def listing (slices : List EndpointSlice) : (r : ProbeReq) → Except ProbeExc (ProbeAns r)
  | .listEndpointslices .. => .ok slices
  | .scrape .. => .ok []

namespace NodeLocalEndpointResolver

variable {resolver : NodeLocalEndpointResolver} {sl : EndpointSlice} {slices : List EndpointSlice} {addr : String}

theorem localAddress_mem {endpoints : List Endpoint} (h : resolver.localAddress endpoints = some addr) :
    ∃ ep ∈ endpoints, ep.nodeName = some resolver.node ∧ ep.ready = true ∧ addr ∈ ep.addresses := by
  induction endpoints with
  | nil => cases h
  | cons ep rest ih =>
    have hlater : resolver.localAddress rest = some addr →
        ∃ ep' ∈ ep :: rest, ep'.nodeName = some resolver.node ∧ ep'.ready = true ∧ addr ∈ ep'.addresses := by
      intro hrest
      obtain ⟨ep', hep', hfound⟩ := ih hrest
      exact ⟨ep', List.mem_cons_of_mem _ hep', hfound⟩
    rw [localAddress] at h
    split_ifs at h with hnode hready
    · exact hlater h
    · exact hlater h
    · cases haddresses : ep.addresses with
      | nil =>
        rw [haddresses] at h
        exact hlater h
      | cons first others =>
        rw [haddresses] at h
        obtain rfl := Option.some.inj h
        exact ⟨ep, List.mem_cons_self, by simpa using hnode, by simpa using hready, haddresses ▸ List.mem_cons_self⟩

theorem localAddress_none {endpoints : List Endpoint} (h : resolver.localAddress endpoints = none) :
    ∀ ep ∈ endpoints, ep.nodeName = some resolver.node → ep.ready = true → addr ∉ ep.addresses := by
  induction endpoints with
  | nil => nofun
  | cons ep rest ih =>
    rw [localAddress] at h
    refine List.forall_mem_cons.mpr ?_
    split_ifs at h with hnode hready
    · exact ⟨fun hep => absurd hep hnode, ih h⟩
    · exact ⟨fun _ hep => by simp [hep] at hready, ih h⟩
    · cases haddresses : ep.addresses with
      | nil =>
        rw [haddresses] at h
        exact ⟨fun _ _ => List.not_mem_nil, ih h⟩
      | cons first others =>
        rw [haddresses] at h
        cases h

theorem assigned_cons : Assigned resolver.node (sl :: slices) addr ↔
    (∃ endpoints, sl.endpoints = .value endpoints ∧
      ∃ ep ∈ endpoints, ep.nodeName = some resolver.node ∧ ep.ready = true ∧ addr ∈ ep.addresses) ∨
      Assigned resolver.node slices addr := by
  simp only [Assigned, List.exists_mem_cons_iff]

/-- A slice without a usable endpoint changes nothing. -/
theorem assigned_skip (h : ∀ endpoints, sl.endpoints = .value endpoints → resolver.localAddress endpoints = none) :
    Assigned resolver.node (sl :: slices) addr ↔ Assigned resolver.node slices addr := by
  rw [assigned_cons, or_iff_right]
  rintro ⟨endpoints, hvalue, ep, hep, hnode, hready, haddr⟩
  exact localAddress_none (h endpoints hvalue) ep hep hnode hready haddr

theorem resolve_skip (hnull : sl.endpoints ≠ .null)
    (h : ∀ endpoints, sl.endpoints = .value endpoints → resolver.localAddress endpoints = none) :
    resolver.resolve (sl :: slices) = resolver.resolve slices := by
  rw [resolve]
  cases hendpoints : sl.endpoints with
  | absent => rfl
  | null => exact absurd hendpoints hnull
  | value endpoints => simp [h endpoints hendpoints]

/-- What is found is an address of this node. -/
theorem resolve_ok {url : String} (h : resolver.resolve slices = .ok url) :
    ∃ addr, Assigned resolver.node slices addr ∧ url = resolver.addressUrl addr := by
  induction slices with
  | nil => cases h
  | cons sl slices ih =>
    have hlater : resolver.resolve slices = .ok url →
        ∃ addr, Assigned resolver.node (sl :: slices) addr ∧ url = resolver.addressUrl addr := by
      intro hrest
      obtain ⟨addr, hassigned, hurl⟩ := ih hrest
      exact ⟨addr, assigned_cons.mpr (.inr hassigned), hurl⟩
    rw [resolve] at h
    cases hendpoints : sl.endpoints with
    | absent =>
      rw [hendpoints] at h
      exact hlater h
    | null =>
      rw [hendpoints] at h
      cases h
    | value endpoints =>
      rw [hendpoints] at h
      cases hlocal : resolver.localAddress endpoints with
      | none =>
        simp only [hlocal] at h
        exact hlater h
      | some addr =>
        simp only [hlocal] at h
        exact ⟨addr, assigned_cons.mpr (.inl ⟨endpoints, hendpoints, localAddress_mem hlocal⟩), (Except.ok.inj h).symm⟩

theorem resolves_skip (hnull : sl.endpoints ≠ .null)
    (h : ∀ endpoints, sl.endpoints = .value endpoints → resolver.localAddress endpoints = none) :
    Resolves resolver (sl :: slices) (resolver.resolve (sl :: slices)) ↔
      Resolves resolver slices (resolver.resolve slices) := by
  rw [resolve_skip hnull h]
  constructor
  · rintro ⟨hsound, hcomplete, hmissing⟩
    simp only [assigned_skip h] at hsound hcomplete hmissing
    exact ⟨hsound, hcomplete, hmissing⟩
  · rintro ⟨hsound, hcomplete, hmissing⟩
    constructor <;> simpa only [assigned_skip h]

/-- The slices with null for their endpoints are behind a slice with a usable endpoint. -/
def NullsBehind (node : String) (slices : List EndpointSlice) : Prop :=
  ∀ before sl after, slices = before ++ sl :: after → sl.endpoints = .null → ∃ addr, Assigned node before addr

theorem nullsBehind_cons (hnull : sl.endpoints ≠ .null) : NullsBehind resolver.node (sl :: slices) ↔
    ∀ before sl' after, slices = before ++ sl' :: after → sl'.endpoints = .null →
      ∃ addr, Assigned resolver.node (sl :: before) addr := by
  constructor
  · intro h before sl' after hslices hnull'
    exact h (sl :: before) sl' after (congrArg (sl :: ·) hslices) hnull'
  · intro h before sl' after hslices hnull'
    cases before with
    | nil =>
      obtain ⟨rfl, -⟩ := List.cons.inj hslices
      exact absurd hnull' hnull
    | cons first before =>
      obtain ⟨rfl, htail⟩ := List.cons.inj hslices
      exact h before sl' after htail hnull'

/-- The loops do as they should exactly if they are over before they come to a null. -/
theorem resolve_iff : Resolves resolver slices (resolver.resolve slices) ↔ NullsBehind resolver.node slices := by
  induction slices with
  | nil =>
    have hnone : ¬∃ addr, Assigned resolver.node [] addr := by simp [Assigned]
    exact iff_of_true ⟨nofun, fun h => absurd h hnone, fun _ => ⟨_, rfl⟩⟩ fun before sl after h => by simp at h
  | cons sl slices ih =>
    cases hendpoints : sl.endpoints with
    | null =>
      refine iff_of_false (fun h => ?_) fun h => ?_
      · have hraised : resolver.resolve (sl :: slices) = .error (.typeError "'NoneType' object is not iterable") := by
          rw [resolve, hendpoints]
        rw [hraised] at h
        by_cases hassigned : ∃ addr, Assigned resolver.node (sl :: slices) addr
        · obtain ⟨url, hurl⟩ := h.complete hassigned
          cases hurl
        · obtain ⟨text, htext⟩ := h.missing hassigned
          cases htext
      · obtain ⟨addr, sl', hsl', -⟩ := h [] sl slices rfl hendpoints
        cases hsl'
    | absent =>
      have hskip : ∀ endpoints, sl.endpoints = .value endpoints → resolver.localAddress endpoints = none := by
        simp [hendpoints]
      rw [resolves_skip (by simp [hendpoints]) hskip, ih, nullsBehind_cons (by simp [hendpoints])]
      simp only [assigned_skip hskip]
      rfl
    | value endpoints =>
      have hnull : sl.endpoints ≠ .null := by simp [hendpoints]
      cases hlocal : resolver.localAddress endpoints with
      | none =>
        have hskip : ∀ endpoints, sl.endpoints = .value endpoints → resolver.localAddress endpoints = none := by
          simp [hendpoints, hlocal]
        rw [resolves_skip hnull hskip, ih, nullsBehind_cons hnull]
        simp only [assigned_skip hskip]
        rfl
      | some addr =>
        have hfound : resolver.resolve (sl :: slices) = .ok (resolver.addressUrl addr) := by
          rw [resolve, hendpoints]
          simp [hlocal]
        have hassigned : ∀ slices, Assigned resolver.node (sl :: slices) addr := fun slices =>
          assigned_cons.mpr (.inl ⟨endpoints, hendpoints, localAddress_mem hlocal⟩)
        refine iff_of_true ⟨fun url => resolve_ok, fun _ => ⟨_, hfound⟩, fun h => absurd ⟨addr, hassigned slices⟩ h⟩ ?_
        exact (nullsBehind_cons hnull).mpr fun before _ _ _ _ => ⟨addr, hassigned before⟩

theorem localAddress_cached (cached : Option String) (endpoints : List Endpoint) :
    ({ resolver with cached } : NodeLocalEndpointResolver).localAddress endpoints =
      resolver.localAddress endpoints := by
  induction endpoints with
  | nil => rfl
  | cons ep rest ih => rw [localAddress, localAddress, ih]

/-- What is found does not depend on what is cached. -/
theorem resolve_cached (cached : Option String) (slices : List EndpointSlice) :
    ({ resolver with cached } : NodeLocalEndpointResolver).resolve slices = resolver.resolve slices := by
  induction slices with
  | nil => rfl
  | cons sl rest ih =>
    rw [resolve, resolve, ih]
    simp only [localAddress_cached]
    rfl

theorem url_uncached (resolver : NodeLocalEndpointResolver) (slices : List EndpointSlice) :
    (url.play (fun _ => listing slices) resolver.invalidate []).1.1 = resolver.resolve slices := by
  rw [← resolve_cached none slices, url, Method.play_bind, Method.play_get]
  simp only [invalidate, Method.play_bind, Method.play_request, listing]
  cases resolve { resolver with cached := none } slices with
  | error exc => rfl
  | ok found => rfl

end NodeLocalEndpointResolver

/-- A resolver without a cached URL finds an address of this node wherever there is one,
and raises a LookupError where there is none, exactly if no null comes first. -/
theorem url_resolves_iff (resolver : NodeLocalEndpointResolver) (slices : List EndpointSlice) :
    Resolves resolver slices
        (NodeLocalEndpointResolver.url.play (fun _ => listing slices) resolver.invalidate []).1.1 ↔
      ∀ before sl after, slices = before ++ sl :: after → sl.endpoints = .null →
        ∃ addr, Assigned resolver.node before addr := by
  rw [NodeLocalEndpointResolver.url_uncached, NodeLocalEndpointResolver.resolve_iff]
  rfl

/-- A null in front of the right slice raises a TypeError. -/
theorem null_slice_raises : ¬∀ (resolver : NodeLocalEndpointResolver) (slices : List EndpointSlice),
    Resolves resolver slices
      (NodeLocalEndpointResolver.url.play (fun _ => listing slices) resolver.invalidate []).1.1 := by
  intro h
  let here : Endpoint := { nodeName := some "n", addresses := ["10.0.0.1"] }
  obtain ⟨url, hurl⟩ := (h ⟨"ns", "svc", "n", 5000, "/metrics", none⟩ [⟨.null⟩, ⟨.value [here]⟩]).complete
    ⟨"10.0.0.1", ⟨.value [here]⟩, by simp, [here], rfl, here, List.mem_cons_self, rfl, rfl, List.mem_cons_self⟩
  cases hurl

end GpuNodeHealth.Agent
