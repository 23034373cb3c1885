import GpuNodeHealth.Agent.Resolver
import GpuNodeHealth.Interaction.Calls

/-! The probe from collection to collection. What is cached was found in the latest
listing, and a failed collection leaves nothing cached, so the next one lists first. -/

namespace GpuNodeHealth.Agent

open Interaction

/-- A collection as it went. -/
abbrev ProbeCall := Call ProbeApi ProbeExc ExporterProbe Unit ProbeResult

/-- The collection says that the exporter could not be reached. -/
def Unreached (result : Except ProbeExc ProbeResult) : Prop := ∃ r, result = .ok r ∧ r.reachable = false

/-- The last of some collections failed. -/
def LastFailed (calls : List ProbeCall) : Prop :=
  ∃ earlier call, calls = earlier ++ [call] ∧ Unreached call.result

/-- What collections exchanged with the API server and the exporter. -/
def history (calls : List ProbeCall) : List (Event ProbeApi) := calls.flatMap Call.events

/-- The listing an event brought, or that which was there before. -/
def listingAfter (last : Option (Except ProbeExc (List EndpointSlice))) :
    Event ProbeApi → Option (Except ProbeExc (List EndpointSlice))
  | ⟨.listEndpointslices _ _, answer⟩ => some answer
  | ⟨.scrape _ _, _⟩ => last

/-- The answer to the latest request for a listing. -/
def lastListing (es : List (Event ProbeApi)) : Option (Except ProbeExc (List EndpointSlice)) :=
  es.foldl listingAfter none

/-- The URL was made of an address that the latest listing assigns to this node. -/
def Current (resolver : NodeLocalEndpointResolver) (es : List (Event ProbeApi)) (url : String) : Prop :=
  ∃ slices addr, lastListing es = some (.ok slices) ∧ Assigned resolver.node slices addr ∧
    url = resolver.addressUrl addr

/-- A collection after some others. -/
structure FreshCall (resolver : NodeLocalEndpointResolver) (before : List ProbeCall) (call : ProbeCall) : Prop where
  scraped : ∀ front url timeout answer back, call.events = front ++ ⟨.scrape url timeout, answer⟩ :: back →
    Current resolver (history before ++ front) url
  refetched : LastFailed before →
    ∃ answer rest, call.events = ⟨.listEndpointslices resolver.ns resolver.svc, answer⟩ :: rest
  fetched : (∃ ns svc answer, ⟨.listEndpointslices ns svc, answer⟩ ∈ call.events) → before = [] ∨ LastFailed before

namespace ExporterProbe

/-- A probe without a fixed URL, as it is made. -/
def start (timeout : ℤ) (resolver : NodeLocalEndpointResolver) : ExporterProbe :=
  ⟨"", timeout, some resolver.invalidate⟩

/-! ### One collection -/

/-- How a collection can go, by what is cached before; with what it leaves cached. -/
inductive Went (timeout : ℤ) (resolver : NodeLocalEndpointResolver) :
    Option String → List (Event ProbeApi) → Except ProbeExc ProbeResult → Option String → Prop where
  | kept {url : String} {bytes : List UInt8} {result : Except ProbeExc ProbeResult} (reached : ¬Unreached result) :
      Went timeout resolver (some url) [⟨.scrape url timeout, .ok bytes⟩] result (some url)
  | lost {url : String} {exc : ProbeExc} {result : Except ProbeExc ProbeResult} (unreached : Unreached result) :
      Went timeout resolver (some url) [⟨.scrape url timeout, .error exc⟩] result none
  | unresolved {answer : Except ProbeExc (List EndpointSlice)} {result : Except ProbeExc ProbeResult}
      (unreached : Unreached result) :
      Went timeout resolver none [⟨.listEndpointslices resolver.ns resolver.svc, answer⟩] result none
  | found {slices : List EndpointSlice} {url : String} {bytes : List UInt8} {result : Except ProbeExc ProbeResult}
      (resolved : resolver.resolve slices = .ok url) (reached : ¬Unreached result) :
      Went timeout resolver none [⟨.listEndpointslices resolver.ns resolver.svc, .ok slices⟩,
        ⟨.scrape url timeout, .ok bytes⟩] result (some url)
  | unanswered {slices : List EndpointSlice} {url : String} {exc : ProbeExc} {result : Except ProbeExc ProbeResult}
      (resolved : resolver.resolve slices = .ok url) (unreached : Unreached result) :
      Went timeout resolver none [⟨.listEndpointslices resolver.ns resolver.svc, .ok slices⟩,
        ⟨.scrape url timeout, .error exc⟩] result none

/-- A probe with something cached, or nothing. -/
def holding (timeout : ℤ) (resolver : NodeLocalEndpointResolver) (cached : Option String) : ExporterProbe :=
  ⟨"", timeout, some { resolver with cached }⟩

variable {G : List (Event ProbeApi) → ProbeReq → Prop} {es : List (Event ProbeApi)} {timeout : ℤ}
  {resolver : NodeLocalEndpointResolver} {cached : Option String}

theorem wp_get {σ : Type} {Q : List (Event ProbeApi) → Except ProbeExc σ → σ → Prop} {s : σ} :
    Method.wp G Q get s es ↔ Q es (.ok s) s := .rfl

theorem wp_listing {Q : List (Event ProbeApi) → Except ProbeExc (List EndpointSlice) → NodeLocalEndpointResolver → Prop}
    (ns svc : String) : Method.wp G Q (Method.request (ProbeReq.listEndpointslices ns svc)) resolver es ↔
      G es (.listEndpointslices ns svc) ∧
        ∀ answer, Q (es ++ [⟨.listEndpointslices ns svc, answer⟩]) answer resolver := .rfl

theorem wp_url_some {Q : List (Event ProbeApi) → Except ProbeExc String → NodeLocalEndpointResolver → Prop}
    {url : String} (h : resolver.cached = some url) :
    Method.wp G Q NodeLocalEndpointResolver.url resolver es ↔ Q es (.ok url) resolver := by
  rw [NodeLocalEndpointResolver.url, Method.wp_bind, wp_get]
  dsimp only
  rw [h]
  exact Iff.rfl

theorem wp_url_none {Q : List (Event ProbeApi) → Except ProbeExc String → NodeLocalEndpointResolver → Prop}
    (h : resolver.cached = none) : Method.wp G Q NodeLocalEndpointResolver.url resolver es ↔
      G es (.listEndpointslices resolver.ns resolver.svc) ∧ ∀ answer : Except ProbeExc (List EndpointSlice),
        match answer.bind resolver.resolve with
        | .ok found => Q (es ++ [⟨.listEndpointslices resolver.ns resolver.svc, answer⟩]) (.ok found)
            { resolver with cached := some found }
        | .error exc => Q (es ++ [⟨.listEndpointslices resolver.ns resolver.svc, answer⟩]) (.error exc) resolver := by
  rw [NodeLocalEndpointResolver.url, Method.wp_bind, wp_get]
  dsimp only
  rw [h]
  dsimp only
  rw [Method.wp_bind, wp_listing]
  refine and_congr_right fun _ => forall_congr' fun answer => ?_
  cases answer with
  | error exc => exact Iff.rfl
  | ok slices =>
    dsimp only [Except.bind]
    cases resolver.resolve slices with
    | ok found => exact Iff.rfl
    | error exc => exact Iff.rfl

theorem wp_attempt {α : Type} {Q : List (Event ProbeApi) → Except ProbeExc (Except ProbeExc α) → ExporterProbe → Prop}
    {s : ExporterProbe} (m : Method ProbeApi ProbeExc ExporterProbe α) :
    Method.wp G Q (attempt m) s es ↔ Method.wp G (fun fs v t => Q fs (.ok v) t) m s es := by
  rw [attempt, Method.wp_tryCatch, Method.wp_bind]
  exact Method.wp_congr fun fs v t => by cases v <;> exact Iff.rfl

theorem wp_target {Q : List (Event ProbeApi) → Except ProbeExc String → ExporterProbe → Prop} :
    Method.wp G Q target (holding timeout resolver cached) es ↔
      Method.wp G (fun fs v t => Q fs v ⟨"", timeout, some t⟩) NodeLocalEndpointResolver.url
        { resolver with cached } es := by
  rw [target, Method.wp_bind]
  show Method.wp G Q (if ("" : String) ≠ "" then _ else _) _ _ ↔ _
  rw [if_neg (not_not.mpr rfl)]
  exact Method.wp_on _ _ _

/-- The text is read after the `try`; an exception there leaves the URL cached. -/
theorem parse_reached (url : String) (bytes : List UInt8) (s : ExporterProbe) :
    Method.wp G (fun fs v t => fs = es ∧ ¬Unreached v ∧ t = s) (parse url bytes) s es := by
  unfold parse
  cases readBody (Text.decode bytes) with
  | ok counts =>
    refine ⟨rfl, ?_, rfl⟩
    rintro ⟨result, hresult, hreachable⟩
    cases hresult
    cases hreachable
  | error exc =>
    refine ⟨rfl, ?_, rfl⟩
    rintro ⟨result, hresult, -⟩
    cases hresult

/-- A scrape that fails leaves nothing cached. -/
theorem fetch_went {Q : List (Event ProbeApi) → Except ProbeExc ProbeResult → ExporterProbe → Prop} (url : String)
    (hok : ∀ bytes v, ¬Unreached v →
      Q (es ++ [⟨.scrape url timeout, .ok bytes⟩]) v (holding timeout resolver cached))
    (herror : ∀ exc v, Unreached v →
      Q (es ++ [⟨.scrape url timeout, .error exc⟩]) v (holding timeout resolver none)) :
    Method.wp (fun _ _ => True) Q (fetch url) (holding timeout resolver cached) es := by
  rw [fetch, Method.wp_bind, wp_get]
  dsimp only
  rw [Method.wp_bind, wp_attempt]
  refine ⟨trivial, fun answer => ?_⟩
  cases answer with
  | error exc => exact herror exc _ ⟨_, rfl, rfl⟩
  | ok bytes =>
    refine Method.wp_post (parse_reached url bytes _) ?_
    rintro _ v _ - ⟨rfl, hreached, rfl⟩
    exact hok bytes v hreached

theorem collect_went (timeout : ℤ) (resolver : NodeLocalEndpointResolver) (cached : Option String) :
    collect.wp (fun _ _ => True) (fun es v t => ∃ cached', t = holding timeout resolver cached' ∧
      Went timeout resolver cached es v cached') (holding timeout resolver cached) [] := by
  rw [collect, Method.wp_bind, wp_attempt, wp_target]
  cases cached with
  | some url =>
    rw [wp_url_some rfl]
    exact fetch_went url (fun bytes v hreached => ⟨some url, rfl, .kept hreached⟩)
      fun exc v hunreached => ⟨none, rfl, .lost hunreached⟩
  | none =>
    rw [wp_url_none rfl]
    refine ⟨trivial, fun answer => ?_⟩
    cases answer with
    | error exc => exact ⟨none, rfl, .unresolved ⟨_, rfl, rfl⟩⟩
    | ok slices =>
      dsimp only [Except.bind]
      rw [NodeLocalEndpointResolver.resolve_cached]
      cases hresolve : resolver.resolve slices with
      | error exc => exact ⟨none, rfl, .unresolved ⟨_, rfl, rfl⟩⟩
      | ok url =>
        exact fetch_went url (fun bytes v hreached => ⟨some url, rfl, .found hresolve hreached⟩)
          fun exc v hunreached => ⟨none, rfl, .unanswered hresolve hunreached⟩

/-! ### The run -/

variable {calls : List ProbeCall} {call : ProbeCall} {probe : ExporterProbe} {url : String}

theorem history_snoc (calls : List ProbeCall) (call : ProbeCall) :
    history (calls ++ [call]) = history calls ++ call.events := by
  simp [history]

theorem lastFailed_snoc : LastFailed (calls ++ [call]) ↔ Unreached call.result := by
  constructor
  · rintro ⟨earlier, failed, hcalls, hfailed⟩
    obtain ⟨-, hlast⟩ := List.append_inj' hcalls rfl
    obtain rfl := List.singleton_inj.mp hlast
    exact hfailed
  · exact fun h => ⟨calls, call, rfl, h⟩

/-- A scrape brings no listing. -/
theorem current_scrape (h : Current resolver es url) (url' : String) (timeout : ℤ)
    (answer : Except ProbeExc (List UInt8)) : Current resolver (es ++ [⟨.scrape url' timeout, answer⟩]) url := by
  obtain ⟨slices, addr, hlast, hassigned⟩ := h
  refine ⟨slices, addr, ?_, hassigned⟩
  rw [lastListing, List.foldl_append]
  exact hlast

theorem current_listed {slices : List EndpointSlice} (es : List (Event ProbeApi)) (ns svc : String)
    (h : resolver.resolve slices = .ok url) :
    Current resolver (es ++ [⟨.listEndpointslices ns svc, .ok slices⟩]) url := by
  obtain ⟨addr, hassigned⟩ := NodeLocalEndpointResolver.resolve_ok h
  refine ⟨slices, addr, ?_, hassigned⟩
  rw [lastListing, List.foldl_append]
  rfl

/-- What is cached after some collections: nothing at first and after a failure, else
what the latest listing gave. -/
structure Held (resolver : NodeLocalEndpointResolver) (calls : List ProbeCall) (cached : Option String) : Prop where
  known : ∀ url, cached = some url → calls ≠ [] ∧ ¬LastFailed calls ∧ Current resolver (history calls) url
  unknown : cached = none → calls = [] ∨ LastFailed calls

/-- A collection that fails leaves nothing cached. -/
theorem Held.failed (h : Unreached call.result) : Held resolver (calls ++ [call]) none :=
  ⟨nofun, fun _ => .inr (lastFailed_snoc.mpr h)⟩

theorem Held.reached (h : ¬Unreached call.result) (hcurrent : Current resolver (history calls ++ call.events) url) :
    Held resolver (calls ++ [call]) (some url) := by
  refine ⟨?_, nofun⟩
  rintro _ ⟨⟩
  exact ⟨by simp, fun hfailed => h (lastFailed_snoc.mp hfailed), history_snoc calls call ▸ hcurrent⟩

theorem Held.step {cached' : Option String} (h : Held resolver calls cached)
    (hwent : Went timeout resolver cached call.events call.result cached') :
    Held resolver (calls ++ [call]) cached' := by
  obtain ⟨arg, object, events, result⟩ := call
  cases hwent with
  | kept reached => exact .reached reached (current_scrape (h.known _ rfl).2.2 _ _ _)
  | lost unreached => exact .failed unreached
  | unresolved unreached => exact .failed unreached
  | @found slices url bytes _ resolved reached =>
    have hlisted := current_listed (history calls) resolver.ns resolver.svc resolved
    have hcurrent := current_scrape hlisted url timeout (.ok bytes)
    rw [List.append_assoc] at hcurrent
    exact .reached reached hcurrent
  | unanswered resolved unreached => exact .failed unreached

theorem held (h : Calls (fun _ : Unit => collect) (start timeout resolver) calls probe) :
    ∃ cached, probe = holding timeout resolver cached ∧ Held resolver calls cached := by
  refine h.invariant (P := fun calls probe => ∃ cached, probe = holding timeout resolver cached ∧
    Held resolver calls cached) ⟨none, rfl, nofun, fun _ => .inl rfl⟩ ?_
  rintro calls _ arg ⟨cached, rfl, hheld⟩
  refine Method.wp_post (collect_went timeout resolver cached) ?_
  rintro events result probe - ⟨cached', rfl, hwent⟩
  exact ⟨cached', rfl, hheld.step hwent⟩

theorem Held.fresh_cached {answer : Except ProbeExc (List UInt8)} (h : Held resolver calls (some url))
    (hevents : call.events = [⟨.scrape url timeout, answer⟩]) : FreshCall resolver calls call where
  scraped front url' timeout' answer' back hcall := by
    rw [hevents] at hcall
    cases front with
    | nil =>
      cases (List.cons.inj hcall).1
      rw [List.append_nil]
      exact (h.known url rfl).2.2
    | cons e front => simp at hcall
  refetched hlast := absurd hlast (h.known url rfl).2.1
  fetched := by
    rintro ⟨ns, svc, answer', hmem⟩
    rw [hevents, List.mem_singleton] at hmem
    cases congrArg Sigma.fst hmem

theorem Held.fresh_listed {answer : Except ProbeExc (List EndpointSlice)} {rest : List (Event ProbeApi)}
    (h : Held resolver calls none)
    (hevents : call.events = ⟨.listEndpointslices resolver.ns resolver.svc, answer⟩ :: rest)
    (hrest : rest = [] ∨ ∃ slices url timeout bytes, answer = .ok slices ∧ resolver.resolve slices = .ok url ∧
      rest = [⟨.scrape url timeout, bytes⟩]) : FreshCall resolver calls call where
  scraped front url' timeout' answer' back hcall := by
    rw [hevents] at hcall
    cases front with
    | nil => cases congrArg Sigma.fst (List.cons.inj hcall).1
    | cons e front =>
      obtain ⟨rfl, hback⟩ := List.cons.inj hcall
      rcases hrest with rfl | ⟨slices, url, timeout, bytes, rfl, hresolve, rfl⟩
      · simp at hback
      · cases front with
        | nil =>
          cases (List.cons.inj hback).1
          exact current_listed _ resolver.ns resolver.svc hresolve
        | cons e front => simp at hback
  refetched _ := ⟨answer, rest, hevents⟩
  fetched _ := h.unknown rfl

/-- One collection, by what was cached before it. -/
theorem Held.fresh {cached' : Option String} (h : Held resolver calls cached)
    (hwent : Went timeout resolver cached call.events call.result cached') : FreshCall resolver calls call := by
  generalize hevents : call.events = events at hwent
  cases hwent with
  | kept reached => exact h.fresh_cached hevents
  | lost unreached => exact h.fresh_cached hevents
  | unresolved unreached => exact h.fresh_listed hevents (.inl rfl)
  | found resolved reached => exact h.fresh_listed hevents (.inr ⟨_, _, _, _, rfl, resolved, rfl⟩)
  | unanswered resolved unreached => exact h.fresh_listed hevents (.inr ⟨_, _, _, _, rfl, resolved, rfl⟩)

end ExporterProbe

def onNode : NodeLocalEndpointResolver := ⟨"kube-amd-gpu", "default-metrics-exporter", "n", 5000, "/metrics", none⟩

/-- The exporter of the node at an address, and what it answers. -/
def exporterAt (addr : String) (answer : Except ProbeExc (List UInt8)) (_ : List (Event ProbeApi)) :
    (r : ProbeReq) → Except ProbeExc (ProbeAns r)
  | .listEndpointslices .. => .ok [{ endpoints := .value [{ nodeName := some "n", addresses := [addr] }] }]
  | .scrape .. => answer

/-- A collection from a probe, and the probe after it. -/
def collection (addr : String) (answer : Except ProbeExc (List UInt8)) (probe : ExporterProbe) :
    ProbeCall × ExporterProbe :=
  (.play (fun _ => ExporterProbe.collect) (exporterAt addr answer) () probe,
    ((ExporterProbe.collect.call probe).play (exporterAt addr answer) []).1.2)

/-- It answers, its pod is replaced, and it answers elsewhere. -/
def answered : ProbeCall × ExporterProbe := collection "10.0.0.1" (.ok []) (.start 3 onNode)

def replaced : ProbeCall × ExporterProbe :=
  collection "10.0.0.2" (.error (.raised (.other "connection refused"))) answered.2

def answeredAgain : ProbeCall × ExporterProbe := collection "10.0.0.2" (.ok []) replaced.2

end GpuNodeHealth.Agent
