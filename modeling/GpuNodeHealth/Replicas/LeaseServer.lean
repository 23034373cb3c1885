import GpuNodeHealth.Guard.Leader
import GpuNodeHealth.Interaction.Clocked
import Mathlib.Data.List.Chain

/-! The API server as the replicas of the guard see it: one Lease, written only
by them, and the nodes they cordon. A Lease is created only if there is none,
and replaced only by a write that names the version it was read at. What else it
answers, and whether a cordon succeeds, is up to the environment. -/

namespace GpuNodeHealth.Replicas

open Cluster Guard Interaction

/-- A clock reading that a Lease keeps to the second. -/
abbrev Clock := { t : ℚ // ReadsBack rfc3339Micro t }

/-- A write of the Lease: what it stored, and which call wrote it at what clock. -/
structure Write (ι : Type) where
  proc : ι
  call : ℕ
  now : Clock
  spec : LeaseSpec
  deriving DecidableEq

/-- A node cordoned, and when. -/
structure Cordoned where
  node : String
  time : ℚ
  deriving DecidableEq, Repr

/-- The writes of the Lease, the newest first, and the cordons, the newest last. -/
structure Server (ι : Type) where
  writes : List (Write ι) := []
  cordons : List Cordoned := []

/-- When a request arrives, and what the environment would answer. -/
structure Arrival where
  time : ℚ
  answer : (r : Req) → Except Exc (Ans r)

variable {ι σ α : Type}

/-- The stored Lease; every write gives it a new version. -/
def Server.lease (s : Server ι) : Option Lease :=
  s.writes.head?.map fun w => ⟨s.writes.length, w.spec⟩

def Server.write (s : Server ι) (caller : Caller ι Clock σ) (spec : LeaseSpec) : Server ι :=
  { s with writes := ⟨caller.proc, caller.call, caller.arg, spec⟩ :: s.writes }

def notFound : Exc := .httpError 404 "not found"

def conflict : Exc := .httpError 409 "conflict"

/-- What the server does with a request. -/
def Server.respond (s : Server ι) (caller : Caller ι Clock σ) (r : Req) (c : Arrival) :
    Server ι × Except Exc (Ans r) :=
  match r with
  | .getLease .. =>
    match s.lease with
    | some lease => (s, .ok lease)
    | none => (s, .error notFound)
  | .createLease _ _ spec =>
    match s.lease with
    | some _ => (s, .error conflict)
    | none => (s.write caller spec, .ok ())
  | .updateLease _ _ lease =>
    match s.lease with
    | some stored =>
      if stored.resourceVersion = lease.resourceVersion then (s.write caller lease.spec, .ok ())
      else (s, .error conflict)
    | none => (s, .error notFound)
  | .cordon node =>
    match c.answer (.cordon node) with
    | .ok a => ({ s with cordons := s.cordons ++ [⟨node, c.time⟩] }, .ok a)
    | .error exc => (s, .error exc)
  | r => (s, c.answer r)

/-- Replicas that call a method of the guard with their clock. -/
def replicas (method : ι → Clock → Method Api Exc σ α) (fresh : σ) :
    System Req Exc Ans ι Clock σ α (Server ι) Arrival where
  method
  fresh
  respond s env c := s.respond env.caller env.req c

/-! ### The order of the writes -/

/-- The write is what a guard writes: its own name, and the clock of its call. -/
def Write.Own (identity : ι → String) (w : Write ι) : Prop :=
  w.spec.holderIdentity = some (identity w.proc) ∧ w.spec.renewTime = some (rfc3339Micro w.now)

/-- A guard writes in the order of its calls. -/
def Write.InOrder (newer older : Write ι) : Prop :=
  newer.proc = older.proc → older.call < newer.call ∧ older.now ≤ newer.now

/-- One guard takes over from another only after the time of the Lease. -/
def Write.TakesOver (duration : ℤ) (newer older : Write ι) : Prop :=
  newer.proc ≠ older.proc → (⌊older.now.1⌋ + duration : ℚ) < newer.now

structure LeaseKept (identity : ι → String) (duration : ℤ) (s : Server ι) : Prop where
  own : ∀ w ∈ s.writes, w.Own identity
  inOrder : s.writes.Pairwise Write.InOrder
  takesOver : s.writes.IsChain (Write.TakesOver duration)

/-- The call read the Lease, and the guard wrote nothing since an earlier call. -/
def ReadBy (caller : Caller ι Clock σ) (lease : Lease) (s : Server ι) : Prop :=
  ∃ w older, w :: older <:+ s.writes ∧ lease = ⟨older.length + 1, w.spec⟩ ∧
    ∀ u ∈ w :: older, u.proc = caller.proc → u.call < caller.call ∧ u.now ≤ caller.arg

/-- The call wrote the Lease. -/
def WrittenBy (caller : Caller ι Clock σ) (s : Server ι) : Prop :=
  ∃ w ∈ s.writes, w.proc = caller.proc ∧ w.call = caller.call ∧ w.now = caller.arg

variable {caller : Caller ι Clock σ} {s s' : Server ι} {identity : ι → String} {duration : ℤ} {r : Req}
  {c : Arrival}

theorem ReadBy.mono {lease : Lease} (h : ReadBy caller lease s) (hs : s.writes <:+ s'.writes) :
    ReadBy caller lease s' := by
  obtain ⟨w, older, hsuffix, hrest⟩ := h
  exact ⟨w, older, hsuffix.trans hs, hrest⟩

theorem WrittenBy.mono (h : WrittenBy caller s) (hs : s.writes <:+ s'.writes) : WrittenBy caller s' := by
  obtain ⟨w, hw, hrest⟩ := h
  exact ⟨w, hs.subset hw, hrest⟩

theorem lease_eq_some {lease : Lease} :
    s.lease = some lease ↔ ∃ w older, s.writes = w :: older ∧ lease = ⟨older.length + 1, w.spec⟩ := by
  rcases s with ⟨_ | ⟨w, older⟩, cordons⟩
  · simp [Server.lease]
  · simp [Server.lease, eq_comm]

theorem lease_eq_none : s.lease = none ↔ s.writes = [] := by
  rcases s with ⟨_ | ⟨w, older⟩, cordons⟩ <;> simp [Server.lease]

/-- What the request makes of the Lease, if the server accepts it. -/
def Server.accepts (s : Server ι) : Req → Option LeaseSpec
  | .createLease _ _ spec => if s.lease.isNone then some spec else none
  | .updateLease _ _ lease =>
    if s.lease.any (·.resourceVersion = lease.resourceVersion) then some lease.spec else none
  | _ => none

/-- The Lease changes by the writes the server accepts, and by nothing else. -/
theorem respond_writes (s : Server ι) (caller : Caller ι Clock σ) (r : Req) (c : Arrival) :
    (s.respond caller r c).1.writes =
      ((s.accepts r).map fun spec => ⟨caller.proc, caller.call, caller.arg, spec⟩).toList ++ s.writes := by
  cases r with
  | getLease | createLease =>
    rcases h : s.lease with _ | lease <;> simp [Server.respond, Server.accepts, Server.write, h]
  | updateLease ns name lease =>
    rcases h : s.lease with _ | stored
    · simp [Server.respond, Server.accepts, h]
    · by_cases hv : stored.resourceVersion = lease.resourceVersion <;>
        simp [Server.respond, Server.accepts, Server.write, h, hv]
  | cordon node => rcases h : c.answer (.cordon node) with _ | a <;> simp [Server.respond, Server.accepts, h]
  | _ => rfl

/-- A write that was answered well was accepted. -/
theorem accepts_of_ok (hr : r.writesLease = true) {a : Ans r} (h : (s.respond caller r c).2 = .ok a) :
    ∃ spec, s.accepts r = some spec := by
  cases r with
  | createLease ns name spec =>
    rcases hl : s.lease with _ | stored
    · exact ⟨spec, by simp [Server.accepts, hl]⟩
    · simp [Server.respond, hl] at h
  | updateLease ns name lease =>
    rcases hl : s.lease with _ | stored
    · simp [Server.respond, hl] at h
    · by_cases hv : stored.resourceVersion = lease.resourceVersion
      · exact ⟨lease.spec, by simp [Server.accepts, hl, hv]⟩
      · simp [Server.respond, hl, hv] at h
  | _ => cases hr

theorem writes_suffix (s : Server ι) (caller : Caller ι Clock σ) (r : Req) (c : Arrival) :
    s.writes <:+ (s.respond caller r c).1.writes := by
  rw [respond_writes]
  exact List.suffix_append _ _

end GpuNodeHealth.Replicas
