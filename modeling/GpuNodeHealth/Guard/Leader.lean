import GpuNodeHealth.Guard.Client
import GpuNodeHealth.Guard.Config

/-! Lease-based leader election, for the window of a rolling update in which two
guards overlap. A pass reads the Lease, and creates it, takes it over or renews
it, unless another guard holds it unexpired. A failed request stands down. -/

namespace GpuNodeHealth.Guard

open Cluster Interaction

structure Leader where
  isLeader : Bool := false
  deriving DecidableEq, Repr

/-- Who a guard is to the others: its pod and the host it runs on. -/
def Config.identity (cfg : Config) (hostname : String) : String := s!"{cfg.podName}.{hostname}"

/-- The lease carries no usable renewal, or one that is too long ago. -/
def leaseExpired (spec : LeaseSpec) (now : ℚ) (duration : ℤ) : Bool :=
  match parseTime spec.renewTime with
  | none => true
  | some renewed => now - renewed > duration

/-- The spec a guard writes over the one it read. -/
def renewedSpec (spec : LeaseSpec) (identity : String) (now : ℚ) (duration : ℤ) : LeaseSpec :=
  { (if spec.holderIdentity ≠ some identity then
      { spec with holderIdentity := some identity, acquireTime := some (rfc3339Micro now) }
     else spec) with
    leaseDurationSeconds := some duration
    renewTime := some (rfc3339Micro now) }

theorem renewedSpec_holder (spec : LeaseSpec) (identity : String) (now : ℚ) (duration : ℤ) :
    (renewedSpec spec identity now duration).holderIdentity = some identity := by
  unfold renewedSpec
  split_ifs with h
  · rfl
  · exact not_not.mp h

/-- The guard may write: the lease is its own already, or expired. -/
def mayWrite (spec : LeaseSpec) (identity : String) (now : ℚ) (duration : ℤ) : Bool :=
  spec.holderIdentity = some identity || leaseExpired spec now duration

/-- One round of the election; true means that this guard leads. -/
def acquireOrRenew (cfg : Config) (identity : String) (now : ℚ) : Method Api Exc Leader Bool :=
  tryCatch (do
    match ← getLease cfg.guardNamespace cfg.leaseName with
    | none =>
      createLease cfg.guardNamespace cfg.leaseName identity cfg.leaseDurationSeconds now
      stand true
    | some lease =>
      if !mayWrite lease.spec identity now cfg.leaseDurationSeconds then
        stand false
      else
        send (.updateLease cfg.guardNamespace cfg.leaseName
          { lease with spec := renewedSpec lease.spec identity now cfg.leaseDurationSeconds })
        stand true) fun
    -- a guard that cannot talk to the API server cannot cordon either
    | .k8sError _ => stand false
    | exc => throw exc
where
  stand (isLeader : Bool) : Method Api Exc Leader Bool := do
    modify fun leader => { leader with isLeader }
    return isLeader

/-! ### What a round does -/

/-- The requests of a round. -/
def Req.forLease : Req → Bool
  | .getLease .. | .createLease .. | .updateLease .. => true
  | _ => false

/-- The requests that write the Lease. -/
def Req.writesLease : Req → Bool
  | .createLease .. | .updateLease .. => true
  | _ => false

/-- A round reads the Lease and may then write it; `wrote` is only so if the
write succeeded. -/
def LeaseEvents (cfg : Config) (es fs : List (Event Api)) (wrote : Prop) : Prop :=
  ∃ read, (fs = es ++ [⟨.getLease cfg.guardNamespace cfg.leaseName, read⟩] ∧ ¬wrote) ∨
    ∃ write w, write.writesLease = true ∧
      fs = es ++ [⟨.getLease cfg.guardNamespace cfg.leaseName, read⟩] ++ [⟨write, w⟩] ∧
        (wrote → ∃ a, w = .ok a)

/-- The guard leads only by a write of its own, and remembers what it returned. -/
def LeaseRound (cfg : Config) (l : Leader) (es fs : List (Event Api)) (v : Except Exc Bool) (leader : Leader) :
    Prop :=
  leader.isLeader = v.toOption.getD l.isLeader ∧ LeaseEvents cfg es fs (v = .ok true)

section

variable {σ : Type} {cfg : Config} {identity : String} {now : ℚ} {es : List (Event Api)}
  {G : List (Event Api) → Req → Prop}

theorem LeaseEvents.mono {fs : List (Event Api)} {p q : Prop} (h : LeaseEvents cfg es fs p) (hqp : q → p) :
    LeaseEvents cfg es fs q := by
  obtain ⟨read, ⟨rfl, hp⟩ | ⟨write, w, hw, rfl, hp⟩⟩ := h
  · exact ⟨read, .inl ⟨rfl, fun hq => hp (hqp hq)⟩⟩
  · exact ⟨read, .inr ⟨write, w, hw, rfl, fun hq => hp (hqp hq)⟩⟩

theorem getLease_wp {ns name : String} {s : σ} (hget : G es (.getLease ns name)) :
    (getLease ns name).wp G (fun fs v t => t = s ∧ ∃ read, fs = es ++ [⟨.getLease ns name, read⟩] ∧
      ∀ lease, v = .ok (some lease) → read = .ok lease) s es := by
  unfold getLease
  refine Method.wp_tryCatch_of (Q := fun fs v t => t = s ∧ ∃ read, fs = es ++ [⟨.getLease ns name, read⟩] ∧
    ∀ lease, v = .ok (some lease) → read = .ok lease) ?_ (fun _ _ _ _ h => h) ?_
  · rw [Method.wp_bind]
    refine (wp_send _).mpr ⟨hget, fun v => ?_⟩
    cases v with
    | ok lease => exact ⟨rfl, _, rfl, fun _ h => by cases h; rfl⟩
    | error exc => exact ⟨rfl, _, rfl, fun _ h => by cases h⟩
  · rintro fs e t - ⟨rfl, read, rfl, -⟩
    cases e with
    | k8sError text =>
      simp only
      split_ifs <;> exact ⟨rfl, read, rfl, fun _ h => by cases h⟩
    | _ => exact ⟨rfl, read, rfl, fun _ h => by cases h⟩

theorem acquireOrRenew_wp {l : Leader} (hget : G es (.getLease cfg.guardNamespace cfg.leaseName))
    (hcreate : ∀ read, G (es ++ [⟨.getLease cfg.guardNamespace cfg.leaseName, read⟩])
      (.createLease cfg.guardNamespace cfg.leaseName
        { holderIdentity := some identity
          leaseDurationSeconds := some cfg.leaseDurationSeconds
          acquireTime := some (rfc3339Micro now)
          renewTime := some (rfc3339Micro now) }))
    (hupdate : ∀ lease, mayWrite lease.spec identity now cfg.leaseDurationSeconds = true →
      G (es ++ [⟨.getLease cfg.guardNamespace cfg.leaseName, .ok lease⟩])
        (.updateLease cfg.guardNamespace cfg.leaseName
          { lease with spec := renewedSpec lease.spec identity now cfg.leaseDurationSeconds })) :
    (acquireOrRenew cfg identity now).wp G (LeaseRound cfg l es) l es := by
  unfold acquireOrRenew
  -- once the body is done or failed, all that is left is to remember the outcome
  refine Method.wp_tryCatch_of (Q := LeaseRound cfg l es) ?_ (fun _ _ _ _ h => h) ?_
  · refine Method.wp_bind_of (getLease_wp hget) ?_ ?_
    · rintro fs (_ | lease) t - ⟨rfl, read, rfl, hread⟩
      · refine (Method.wp_bind _ _).mpr ((wp_send _).mpr ⟨hcreate read, fun w => ?_⟩)
        cases w with
        | ok => exact ⟨rfl, read, .inr ⟨_, _, rfl, rfl, fun _ => ⟨_, rfl⟩⟩⟩
        | error => exact ⟨rfl, read, .inr ⟨_, _, rfl, rfl, fun h => (by cases h)⟩⟩
      · obtain rfl := hread lease rfl
        simp only
        split_ifs with hmay
        · exact ⟨rfl, .ok lease, .inl ⟨rfl, fun h => by cases h⟩⟩
        · rw [Bool.not_eq_true', Bool.not_eq_false] at hmay
          refine (Method.wp_bind _ _).mpr ((wp_send _).mpr ⟨hupdate lease hmay, fun w => ?_⟩)
          cases w with
          | ok => exact ⟨rfl, .ok lease, .inr ⟨_, _, rfl, rfl, fun _ => ⟨_, rfl⟩⟩⟩
          | error => exact ⟨rfl, .ok lease, .inr ⟨_, _, rfl, rfl, fun h => (by cases h)⟩⟩
    · rintro fs e t - ⟨rfl, read, rfl, -⟩
      exact ⟨rfl, read, .inl ⟨rfl, fun h => by cases h⟩⟩
  · intro fs e t _ h
    have hevents := h.2.mono (q := False) False.elim
    cases e with
    | k8sError text => exact ⟨rfl, hevents.mono fun h => by cases h⟩
    | _ => exact ⟨h.1, hevents.mono fun h => by cases h⟩

/-- Behind a claim to lead stands a write that succeeded. -/
theorem LeaseEvents.written {fs : List (Event Api)} {p : Prop} (h : LeaseEvents cfg es fs p) (hp : p) :
    ∃ r a, r.writesLease = true ∧ (⟨r, .ok a⟩ : Event Api) ∈ fs := by
  obtain ⟨read, ⟨-, hnot⟩ | ⟨write, w, hw, rfl, hok⟩⟩ := h
  · exact absurd hp hnot
  · obtain ⟨a, rfl⟩ := hok hp
    exact ⟨write, a, hw, List.mem_append_right _ List.mem_cons_self⟩

end

end GpuNodeHealth.Guard
