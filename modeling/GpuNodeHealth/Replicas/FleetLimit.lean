import GpuNodeHealth.RateLimit.SlidingWindow
import GpuNodeHealth.Replicas.StaleLeader
import Mathlib.Data.List.Dedup

/-! The rate limit of the fleet. A guard counts the cordons it remembers, by the
clocks of its passes; what the limit is about are the cordons of all guards, as
they happen. Where what a guard counts covers what happened, the limit holds. -/

namespace GpuNodeHealth.Replicas

open Cluster Guard Interaction RateLimit

variable {ι σ : Type} {cfg : Config} {identity : ι → String}

/-- The nodes that guards cordoned at the given times. -/
def nodesCordoned (s : Server ι) (during : ℚ → Bool) : List String :=
  ((s.cordons.filter fun c => during c.time).map (·.node)).dedup

/-- No interval of the length of the window holds more nodes than the limit. -/
def FleetLimited (cfg : Config) (s : Server ι) : Prop :=
  ∀ x : ℚ, ((nodesCordoned s fun t => x ≤ t ∧ t < x + cfg.rateLimitWindowSeconds).length : ℤ) ≤
      max 0 cfg.maxCordonsPerWindow ∧
    ((nodesCordoned s fun t => x < t ∧ t ≤ x + cfg.rateLimitWindowSeconds).length : ℤ) ≤
      max 0 cfg.maxCordonsPerWindow

/-- The cordons the guard counts when it sends the request. -/
def counted (cfg : Config) (env : Envelope Api ι Clock GuardObject) : ℕ :=
  inWindow env.caller.base.recentCordons env.caller.arg.1 cfg.rateLimitWindowSeconds + cordonsDone env.events

def isCordon : Req → Bool
  | .cordon _ => true
  | _ => false

/-- Whenever a cordon takes effect, the guard that sent it counts at least the
cordons that all guards made in the window before. -/
def Accounted (cfg : Config) (w : (guards cfg identity).Clocked ℚ) : Tick Exc ι Clock Arrival ℚ → Prop
  | .advance _ => True
  | .act l => ∀ arrived ∈ w.world.served l, isCordon arrived.1.req = true →
      (arrived.2.answer arrived.1.req).isOk = true →
        recent (w.world.server.cordons.map (·.time)) w.clock (cfg.rateLimitWindowSeconds : ℚ) ≤
          counted cfg arrived.1

instance (w : (guards cfg identity).Clocked ℚ) : (l : Tick Exc ι Clock Arrival ℚ) → Decidable (Accounted cfg w l)
  | .advance _ => inferInstanceAs (Decidable True)
  | .act l => inferInstanceAs (Decidable (∀ arrived ∈ w.world.served l, _))

theorem respond_cordons (s : Server ι) (caller : Caller ι Clock σ) (r : Req) (c : Arrival) :
    (s.respond caller r c).1.cordons = s.cordons ∨ ∃ node, r = .cordon node ∧ (c.answer r).isOk = true ∧
      (s.respond caller r c).1.cordons = s.cordons ++ [⟨node, c.time⟩] := by
  cases r with
  | getLease | createLease => rcases h : s.lease with _ | lease <;> simp [Server.respond, Server.write, h]
  | updateLease ns name lease =>
    rcases h : s.lease with _ | stored
    · simp [Server.respond, h]
    · by_cases hv : stored.resourceVersion = lease.resourceVersion <;> simp [Server.respond, Server.write, h, hv]
  | cordon node =>
    rcases h : c.answer (.cordon node) with exc | a
    · simp [Server.respond, h]
    · exact .inr ⟨node, rfl, rfl, by simp [Server.respond, h]⟩
  | _ => exact .inl rfl

theorem nodesCordoned_le (s : Server ι) (during : ℚ → Bool) :
    (nodesCordoned s during).length ≤ (s.cordons.map (·.time)).countP during := by
  refine (List.dedup_sublist _).length_le.trans ?_
  rw [List.length_map, List.countP_map, List.countP_eq_length_filter]
  rfl

theorem fleetLimited_of_limited {s : Server ι}
    (h : Limited (cfg.rateLimitWindowSeconds : ℚ) cfg.maxCordonsPerWindow (s.cordons.map (·.time))) :
    FleetLimited cfg s := by
  intro x
  obtain ⟨hleft, hright⟩ := h.window_le x
  exact ⟨(Int.ofNat_le.mpr (nodesCordoned_le s _)).trans hleft,
    (Int.ofNat_le.mpr (nodesCordoned_le s _)).trans hright⟩

section

variable [DecidableEq ι] {w w' : (guards cfg identity).Clocked ℚ} {l : Tick Exc ι Clock Arrival ℚ}

/-- A cordon that is accounted for stays within the limit. -/
theorem limited_step (hgood : w.Good (guardsContract cfg identity) sharedClock)
    (hlimited : Limited (cfg.rateLimitWindowSeconds : ℚ) cfg.maxCordonsPerWindow
      (w.world.server.cordons.map (·.time)))
    (haccounted : Accounted cfg w l) (hstep : w.step sharedClock l = some w') :
    Limited (cfg.rateLimitWindowSeconds : ℚ) cfg.maxCordonsPerWindow
      (w'.world.server.cordons.map (·.time)) := by
  cases l with
  | advance t =>
    simp only [System.Clocked.step] at hstep
    split_ifs at hstep
    cases hstep
    exact hlimited
  | act l =>
    simp only [System.Clocked.step] at hstep
    split_ifs at hstep with htimely
    obtain ⟨world, hworld, rfl⟩ := Option.map_eq_some_iff.mp hstep
    have hserver := System.World.step_server hworld
    rcases hserved : w.world.served l with _ | ⟨env, c⟩
    · rw [hserved] at hserver
      rwa [hserver]
    · rw [hserved] at hserver
      rw [hserver]
      rcases respond_cordons w.world.server env.caller env.req c with hsame | ⟨node, hr, hok, hnew⟩
      · exact hsame ▸ hlimited
      · have hbudget : (counted cfg env : ℤ) < cfg.maxCordonsPerWindow := by
          have hjust := hgood.world.served hserved
          obtain ⟨caller, es, r⟩ := env
          obtain rfl : r = .cordon node := hr
          exact_mod_cast hjust.2
        have htime : c.time = w.clock := htimely.arrival hserved
        have hle : recent (w.world.server.cordons.map (·.time)) w.clock (cfg.rateLimitWindowSeconds : ℚ) ≤
            counted cfg env := haccounted (env, c) hserved (by rw [hr]; rfl) hok
        have hlog : ((guards cfg identity).respond w.world.server env c).1.cordons.map (·.time) =
            w.world.server.cordons.map (·.time) ++ [w.clock] := by
          rw [← htime]
          exact (congrArg (List.map (·.time)) hnew).trans List.map_append
        rw [hlog, limited_snoc]
        exact ⟨hlimited, by omega⟩

/-- In every run in which the guards account for all cordons, the rate limit
holds of the fleet. -/
theorem fleet_limited (hid : Function.Injective identity) {start : ℚ} {ticks : List (Tick Exc ι Clock Arrival ℚ)}
    (hrun : clockedRun cfg identity start ticks = some w)
    (haccounted : Along (System.Clocked.step sharedClock) (Accounted cfg)
      (.start (guards cfg identity) {} start) ticks) :
    FleetLimited cfg w.world.server := by
  have hkept : (guardsContract cfg identity).Kept := guardsContract_kept hid
  have hinvariant := runFrom_invariant (P := fun u => u.Good (guardsContract cfg identity) sharedClock ∧
      Limited (cfg.rateLimitWindowSeconds : ℚ) cfg.maxCordonsPerWindow (u.world.server.cordons.map (·.time)))
    (fun u l u' h hl hstep => ⟨h.1.step hkept hstep, limited_step h.1 h.2 hl hstep⟩)
    ⟨clockedRun_good hid (show clockedRun cfg identity start [] = some _ from rfl), limited_nil⟩ hrun haccounted
  exact fleetLimited_of_limited hinvariant.2

end

/-! ### A limit that is not shared -/

/-- One guard, one cordon. -/
def loneCordon : List (Tick Exc Peer Clock Arrival ℚ) := swiftPass ++ answeredAt .first threeNodesApi 605

theorem fleet_limited_loneCordon :
    FleetLimited enforcing
      ((clockedRun enforcing twoGuards 600 loneCordon).get (by decide +kernel)).world.server :=
  fleet_limited twoGuards_injective (Option.some_get _).symm (by decide +kernel)

/-- Two nodes unrecoverable since the epoch, one healthy. -/
def badNodes : List Node :=
  [readyNode "gpu-0" [(gpuUnrecoverable, "1970-01-01T00:00:00Z")],
    readyNode "gpu-1" [(gpuUnrecoverable, "1970-01-01T00:00:00Z")], readyNode "gpu-2" []]

/-- What is listed once the given nodes are cordoned. -/
def badNodesApi (cordoned : List String) : (r : Req) → Except Exc (Ans r)
  | .listNodes _ => .ok (applyCordons cordoned badNodes)
  | .createEvent .. => .ok ()
  | .cordon _ => .ok ()
  | _ => .error notFound

/-- A guard cordons a node and goes away; another one takes over and cordons the next. -/
def handover : List (Tick Exc Peer Clock Arrival ℚ) :=
  .act (.begin .first clock600) :: [601, 602, 603, 604].flatMap (answeredAt .first (badNodesApi [])) ++
    [.act (.restart .first), .advance 631, .act (.begin .second clock631)] ++
    [632, 633, 634, 635].flatMap (answeredAt .second (badNodesApi ["gpu-0"]))

def handoverWorld : (guards enforcing twoGuards).Clocked ℚ :=
  (clockedRun enforcing twoGuards 600 handover).get (by decide +kernel)

/-- Two nodes within half a minute, at a limit of one an hour. -/
theorem not_fleet_limited : ¬∀ (cfg : Config) (identity : Peer → String) (start : ℚ)
    (ticks : List (Tick Exc Peer Clock Arrival ℚ)) (w : (guards cfg identity).Clocked ℚ),
    Function.Injective identity → clockedRun cfg identity start ticks = some w →
      FleetLimited cfg w.world.server := by
  intro h
  have hlimited := h enforcing twoGuards 600 handover handoverWorld twoGuards_injective (Option.some_get _).symm
  exact absurd (hlimited 600).1 (by decide +kernel)

end GpuNodeHealth.Replicas
