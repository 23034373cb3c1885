import GpuNodeHealth.Guard.ExporterPass

/-! What an iteration of the loop asks of the cluster, and when. First comes the
election; everything after it is asked only once a write of the Lease succeeded,
and a cordon only while the budget of the guard's own record lasts. -/

namespace GpuNodeHealth.Guard

open Cluster Interaction

/-- Some write of the Lease succeeded. -/
def WroteLease (es : List (Event Api)) : Prop :=
  ∃ r a, r.writesLease = true ∧ (⟨r, .ok a⟩ : Event Api) ∈ es

/-- A cordon is within the budget left at the start of the pass; nothing else costs. -/
def WithinBudget (cfg : Config) (g : GuardObject) (now : ℚ) (es : List (Event Api)) : Req → Prop
  | .cordon _ =>
    (inWindow g.recentCordons now cfg.rateLimitWindowSeconds : ℤ) + cordonsDone es < cfg.maxCordonsPerWindow
  | _ => True

variable {cfg : Config} {identity : String} {now : ℚ} {g : GuardObject} {es fs : List (Event Api)}
  {G : List (Event Api) → Req → Prop}

theorem WroteLease.mono (h : WroteLease es) (hfs : es <+: fs) : WroteLease fs := by
  obtain ⟨r, a, hr, he⟩ := h
  exact ⟨r, a, hr, hfs.subset he⟩

theorem LeaseEvents.cordonsDone {p : Prop} (h : LeaseEvents cfg es fs p) : cordonsDone fs = cordonsDone es := by
  obtain ⟨read, ⟨rfl, -⟩ | ⟨write, w, hw, rfl, -⟩⟩ := h
  · exact cordonsDone_snoc (by simp) read
  · have hwrite : ∀ name, write ≠ .cordon name := by
      rintro name rfl
      cases hw
    exact (cordonsDone_snoc hwrite w).trans (cordonsDone_snoc (by simp) read)

/-- The requests of an iteration, each in its place. -/
theorem iterate_requests (hget : G [] (.getLease cfg.guardNamespace cfg.leaseName))
    (hcreate : ∀ read, G ([] ++ [⟨.getLease cfg.guardNamespace cfg.leaseName, read⟩])
      (.createLease cfg.guardNamespace cfg.leaseName
        { holderIdentity := some identity
          leaseDurationSeconds := some cfg.leaseDurationSeconds
          acquireTime := some (rfc3339Micro now)
          renewTime := some (rfc3339Micro now) }))
    (hupdate : ∀ lease, mayWrite lease.spec identity now cfg.leaseDurationSeconds = true →
      G ([] ++ [⟨.getLease cfg.guardNamespace cfg.leaseName, .ok lease⟩])
        (.updateLease cfg.guardNamespace cfg.leaseName
          { lease with spec := renewedSpec lease.spec identity now cfg.leaseDurationSeconds }))
    (hother : ∀ fs r, WroteLease fs → r.forLease = false → WithinBudget cfg g now fs r → G fs r) :
    (iterate cfg identity now).wp G (fun _ _ _ => True) g [] := by
  refine Method.wp_tryCatch_of (Q := fun _ _ _ => True) ?_ (fun _ _ _ _ h => h) (fun _ _ _ _ h => h)
  refine Method.wp_bind_of (Q := fun fs v g' => g'.recentCordons = g.recentCordons ∧
    Guard.cordonsDone fs = 0 ∧ (v = .ok true → WroteLease fs)) ?_ ?_ (fun _ _ _ _ _ => trivial)
  · rw [Method.wp_on]
    refine Method.wp_post (acquireOrRenew_wp hget hcreate hupdate) ?_
    rintro fs v leader - ⟨-, hevents⟩
    exact ⟨rfl, hevents.cordonsDone, hevents.written⟩
  · rintro fs leads g' - ⟨hrecord, hnone, hwrote⟩
    cases leads with
    | false => trivial
    | true =>
      have hafter : ∀ gs r, fs <+: gs → r.forLease = false → WithinBudget cfg g now gs r → G gs r :=
        fun gs r hgs => hother gs r ((hwrote rfl).mono hgs)
      refine Method.wp_bind_of (Q := fun _ _ _ => True) (Method.wp_post (runNodes_wp ?_ ?_ ?_)
        fun _ _ _ _ _ => trivial) ?_ (fun _ _ _ _ _ => trivial)
      · exact hafter fs _ (List.prefix_refl _) rfl trivial
      · intro nodes dec _ _ gs hgs hlt
        refine hafter gs _ ((List.prefix_append _ _).trans hgs) rfl ?_
        rw [hrecord, hnone] at hlt
        change (_ : ℤ) < _
        omega
      · exact fun nodes dec _ gs ev hgs _ => hafter gs _ ((List.prefix_append _ _).trans hgs) rfl trivial
      · intro gs outcome g'' hgs _
        refine Method.wp_bind_of (Q := fun _ _ _ => True) (Method.wp_post (runExporters_wp ?_)
          fun _ _ _ _ _ => trivial) (fun _ _ _ _ _ => trivial) (fun _ _ _ _ _ => trivial)
        intro hs r hhs hr
        refine hafter hs r (hgs.trans hhs) ?_ ?_
        · cases r <;> first | rfl | cases hr
        · cases r <;> trivial

end GpuNodeHealth.Guard
