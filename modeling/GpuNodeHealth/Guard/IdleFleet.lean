import GpuNodeHealth.Guard.Main

/-! A pass with nothing to guard, against a server that grants it the Lease. All it
leaves on the server is its write of the Lease. -/

namespace GpuNodeHealth.Guard

open Cluster Interaction

variable {S σ : Type} {respond : S → (r : Req) → S × Except Exc (Ans r)} {server server' : S} {cfg : Config}
  {identity : String} {now : ℚ}

theorem send_serve {r : Req} {a : Ans r} (s : σ) (h : respond server r = (server', .ok a)) :
    (send r : Method Api Exc σ (Ans r)).serve respond s server = ((.ok a, s), server') := by
  simp [send, h]

/-- What `getLease` looks for in the text of an error. -/
theorem raised_notFound (r : Req) (detail : String) :
    ∃ text : String, r.raised (.httpError 404 detail) = .k8sError text ∧ "-> 404".toList <:+: text.toList := by
  have hdigits : Nat.toDigits 10 404 = ['4', '0', '4'] := by decide
  refine ⟨_, rfl, (s!"{r.method} {r.path} ").toList, (s!": {clip 400 detail}").toList, ?_⟩
  simp [toString, hdigits]

/-! ### The election -/

section

variable {leader : Leader}

theorem acquireOrRenew_creates {detail : String}
    (hget : respond server (.getLease cfg.guardNamespace cfg.leaseName) = (server, .error (.httpError 404 detail)))
    (hcreate : respond server (.createLease cfg.guardNamespace cfg.leaseName
      { holderIdentity := some identity
        leaseDurationSeconds := some cfg.leaseDurationSeconds
        acquireTime := some (rfc3339Micro now)
        renewTime := some (rfc3339Micro now) }) = (server', .ok ())) :
    (acquireOrRenew cfg identity now).serve respond leader server = ((.ok true, ⟨true⟩), server') := by
  obtain ⟨text, htext, hinfix⟩ := raised_notFound (.getLease cfg.guardNamespace cfg.leaseName) detail
  have hnone : (getLease cfg.guardNamespace cfg.leaseName).serve respond leader server =
      ((.ok none, leader), server) := by
    simp only [getLease, send, Method.serve_tryCatch, Method.serve_bind, Method.serve_request, hget, Method.serve_throw,
      htext, if_pos hinfix, Method.serve_pure]
  simp only [acquireOrRenew, acquireOrRenew.stand, createLease, Method.serve_tryCatch, Method.serve_bind, hnone,
    send_serve leader hcreate, Method.serve_modify, Method.serve_pure]

theorem acquireOrRenew_renews {lease : Lease}
    (hget : respond server (.getLease cfg.guardNamespace cfg.leaseName) = (server, .ok lease))
    (hmay : mayWrite lease.spec identity now cfg.leaseDurationSeconds = true)
    (hput : respond server (.updateLease cfg.guardNamespace cfg.leaseName
      { lease with spec := renewedSpec lease.spec identity now cfg.leaseDurationSeconds }) = (server', .ok ())) :
    (acquireOrRenew cfg identity now).serve respond leader server = ((.ok true, ⟨true⟩), server') := by
  have hsome : (getLease cfg.guardNamespace cfg.leaseName).serve respond leader server =
      ((.ok (some lease), leader), server) := by
    simp only [getLease, Method.serve_tryCatch, Method.serve_bind, send_serve leader hget, Method.serve_pure]
  simp only [acquireOrRenew, acquireOrRenew.stand, Method.serve_tryCatch, Method.serve_bind, hsome, hmay, Bool.not_true,
    Bool.false_eq_true, if_false, send_serve leader hput, Method.serve_modify, Method.serve_pure]

end

/-! ### The rest of the pass -/

/-- There is no node and no exporter. -/
def IdleFleet (respond : S → (r : Req) → S × Except Exc (Ans r)) (server : S) : Prop :=
  (∀ selector, respond server (.listNodes selector) = (server, .ok [])) ∧
    ∀ ns selector, respond server (.listPods ns selector) = (server, .ok [])

theorem runNodes_idle (cfg : Config) (now : ℚ) (g : GuardObject) (h : IdleFleet respond server) :
    ∃ g', (runNodes cfg now).serve respond g server = ((.ok ⟨[], [], 0, 0⟩, g'), server) := by
  have hdecide : decide [] now cfg.policy parseTime g.recentCordons = [] := rfl
  simp only [runNodes, Method.serve_bind, send_serve _ (h.1 _), Method.serve_get, hdecide, runDecisions,
    Method.serve_pure, Method.serve_modify]
  exact ⟨_, rfl⟩

theorem runExporters_idle (cfg : Config) (now : ℚ) (g : GuardObject) (h : IdleFleet respond server) :
    ∃ g', (runExporters cfg now).serve respond g server = ((.ok [], g'), server) := by
  simp only [runExporters, Method.serve_bind, send_serve _ (h.2 _ _), Method.serve_on, evaluate, evaluateLoop,
    Method.serve_pure, Method.serve_modify, runPodDecisions]
  exact ⟨_, rfl⟩

/-- Once the election is won the pass changes nothing more. -/
theorem iterate_idle (h : IdleFleet respond server') {g : GuardObject} {leader : Leader}
    (helection : (acquireOrRenew cfg identity now).serve respond g.leader server = ((.ok true, leader), server')) :
    ((iterate cfg identity now).serve respond g server).2 = server' := by
  obtain ⟨g₁, hnodes⟩ := runNodes_idle cfg now { g with leader } h
  obtain ⟨g₂, hexporters⟩ := runExporters_idle cfg now g₁ h
  simp only [iterate, loopOnce, Method.serve_tryCatch, Method.serve_bind, Method.serve_on, helection, if_true, hnodes,
    hexporters, Method.serve_modify]

end GpuNodeHealth.Guard
