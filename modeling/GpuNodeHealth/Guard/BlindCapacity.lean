import GpuNodeHealth.Guard.Budget

/-! Blind nodes and the capacity floor. A node whose agent reports
GPUHealthDataStale is refused a cordon of its own, but `healthy_capacity` does
not look at that condition: what it counts are the nodes somebody can vouch for
together with the blind ones. -/

namespace GpuNodeHealth.Guard

open Cluster

/-- Ready, schedulable and free of cordon-level conditions, with health data
the agent itself trusts. -/
def Vouched (node : Node) : Prop :=
  Active node "Ready" ∧ schedulable node = true ∧ (∀ t ∈ cordonConditions, ¬Active node t) ∧
    ¬Active node gpuHealthDataStale

instance (node : Node) : Decidable (Vouched node) := inferInstanceAs (Decidable (_ ∧ _ ∧ _ ∧ _))

/-- Looks just as healthy, but the agent says that its data is unreliable. -/
def Blind (node : Node) : Prop :=
  Active node "Ready" ∧ schedulable node = true ∧ (∀ t ∈ cordonConditions, ¬Active node t) ∧
    Active node gpuHealthDataStale

instance (node : Node) : Decidable (Blind node) := inferInstanceAs (Decidable (_ ∧ _ ∧ _ ∧ _))

/-- Every CORDON leaves the floor standing on other nodes that can be vouched for. -/
def FloorVouched (nodes : List Node) (now : ℚ) (cfg : PolicyConfig) (parseTime : TimeParser)
    (recentCordons : List ℚ) : Prop :=
  ∀ before node after d, nodes = before ++ node :: after →
    (decide nodes now cfg parseTime recentCordons)[before.length]? = some d → d.action = .cordon →
      cfg.minHealthyNodes ≤ (before ++ after).countP fun other => Vouched other

/-- No blind node counts toward the capacity, whoever is left out of the count. -/
def CapacityVouched (nodes : List Node) (now : ℚ) (minAgeSeconds : ℤ) (parseTime : TimeParser) : Prop :=
  ∀ exclude, healthyCapacity nodes now minAgeSeconds parseTime exclude =
    nodes.countP fun node => !(node.name.any (· ∈ exclude)) && Vouched node

variable {nodes : List Node} {now : ℚ} {cfg : PolicyConfig} {parseTime : TimeParser}

theorem inCapacity_iff_vouched {node : Node} {minAgeSeconds : ℤ} :
    inCapacity node now minAgeSeconds parseTime = true ↔ Vouched node ∨ Blind node := by
  rw [inCapacity_iff, Vouched, Blind]
  tauto

theorem Vouched.not_blind {node : Node} (h : Vouched node) : ¬Blind node := fun hb => h.2.2.2 hb.2.2.2

/-- The capacity of the fleet is its vouched nodes and its blind ones. -/
theorem healthyCapacity_eq_vouched (nodes : List Node) (minAgeSeconds : ℤ) :
    healthyCapacity nodes now minAgeSeconds parseTime [] =
      nodes.countP (fun node => Vouched node) + nodes.countP fun node => Blind node := by
  induction nodes with
  | nil => rfl
  | cons node nodes ih =>
    have hcount : (if inCapacity node now minAgeSeconds parseTime = true then 1 else 0) =
        (if Vouched node then 1 else 0) + if Blind node then 1 else 0 := by
      by_cases hv : Vouched node
      · simp [inCapacity_iff_vouched, hv, hv.not_blind]
      · simp [inCapacity_iff_vouched, hv]
    simp only [healthyCapacity, List.not_mem_nil, decide_false, Option.any_false, Bool.not_false,
      Bool.true_and] at ih ⊢
    simp only [List.countP_cons, ih, hcount, decide_eq_true_eq]
    omega

theorem capacityVouched_iff {minAgeSeconds : ℤ} :
    CapacityVouched nodes now minAgeSeconds parseTime ↔ ∀ node ∈ nodes, ¬Blind node := by
  constructor
  · intro h
    have hzero : nodes.countP (fun node => Blind node) = 0 := by
      have hall := h []
      rw [healthyCapacity_eq_vouched] at hall
      simpa using hall
    simpa using List.countP_eq_zero.mp hzero
  · intro h exclude
    refine List.countP_congr fun node hnode => ?_
    simp [inCapacity_iff_vouched, h node hnode]

/-- Some node is cordoned exactly when there is a candidate and budget for it. -/
theorem exists_cordon_iff {recentCordons : List ℚ} :
    (∃ d ∈ decide nodes now cfg parseTime recentCordons, d.action = .cordon) ↔
      0 < cfg.maxCordonsPerWindow - inWindow recentCordons now cfg.rateLimitWindowSeconds ∧
        ∃ node ∈ nodes, Eligible nodes now cfg parseTime node ∧ Enforced cfg node := by
  have hcount := @cordons_decideLoop nodes now cfg parseTime
    (cfg.maxCordonsPerWindow - inWindow recentCordons now cfg.rateLimitWindowSeconds) nodes
  have hexists : (∃ d ∈ decide nodes now cfg parseTime recentCordons, d.action = .cordon) ↔
      0 < cordons (decide nodes now cfg parseTime recentCordons) := by
    simp [cordons, List.countP_pos_iff]
  have hcand : (∃ node ∈ nodes, Eligible nodes now cfg parseTime node ∧ Enforced cfg node) ↔
      0 < candidates nodes now cfg parseTime nodes := by
    simp [candidates, List.countP_pos_iff]
  rw [hexists, hcand, decide]
  omega

theorem floorVouched_iff {recentCordons : List ℚ} :
    FloorVouched nodes now cfg parseTime recentCordons ↔
      (cfg.maxCordonsPerWindow ≤ inWindow recentCordons now cfg.rateLimitWindowSeconds ∨
        (∀ node ∈ nodes, ¬(Eligible nodes now cfg parseTime node ∧ Enforced cfg node)) ∨
        cfg.minHealthyNodes + nodes.countP (fun node => Blind node) ≤
          healthyCapacity nodes now cfg.conditionMinAgeSeconds parseTime []) := by
  have hothers : ∀ {before node after}, nodes = before ++ node :: after →
      Eligible nodes now cfg parseTime node →
      (before ++ after).countP (fun other => Vouched other) = nodes.countP fun other => Vouched other := by
    intro before node after hnodes helig
    have hnot : ¬Vouched node := fun hv =>
      Bool.eq_false_iff.mp helig.not_inCapacity (inCapacity_iff_vouched.mpr (.inl hv))
    conv_rhs => rw [hnodes]
    simp [hnot]
  rw [healthyCapacity_eq_vouched]
  constructor
  · intro h
    by_contra hc
    push Not at hc
    obtain ⟨hbudget, ⟨node, hnode, hcand⟩, hfloor⟩ := hc
    obtain ⟨d, hd, hcordon⟩ := (@exists_cordon_iff nodes now cfg parseTime recentCordons).mpr
      ⟨by omega, node, hnode, hcand⟩
    obtain ⟨before, target, after, hnodes, rfl⟩ := mem_decideLoop hd
    have helig := (decideNode_cordon_iff.mp hcordon).1
    have hat := @getElem?_decideLoop nodes now cfg parseTime
      (cfg.maxCordonsPerWindow - inWindow recentCordons now cfg.rateLimitWindowSeconds) before after target
    rw [← hnodes] at hat
    have hmin := h before target after _ hnodes hat hcordon
    rw [hothers hnodes helig] at hmin
    push_cast at hfloor
    omega
  · rintro h before node after d hnodes hat hcordon
    have hmem : d ∈ decide nodes now cfg parseTime recentCordons := List.mem_of_getElem? hat
    obtain ⟨hbudget, cand, hcand, hyes⟩ := exists_cordon_iff.mp ⟨d, hmem, hcordon⟩
    have hturn := @getElem?_decideLoop nodes now cfg parseTime
      (cfg.maxCordonsPerWindow - inWindow recentCordons now cfg.rateLimitWindowSeconds) before after node
    rw [← hnodes] at hturn
    obtain rfl := Option.some.inj (hat.symm.trans hturn)
    rw [hothers hnodes (decideNode_cordon_iff.mp hcordon).1]
    rcases h with h | h | h
    · omega
    · exact absurd hyes (h cand hcand)
    · push_cast at h
      omega

/-- Spare capacity nobody is blind about, exactly on fleets without blind nodes;
the floor under the cordons alone, also with blind nodes that the count can do
without, and where no cordon comes up. -/
theorem spareCapacity_vouched_iff (nodes : List Node) (now : ℚ) (cfg : PolicyConfig) (parseTime : TimeParser)
    (recentCordons : List ℚ) :
    (FloorVouched nodes now cfg parseTime recentCordons ∧
        CapacityVouched nodes now cfg.conditionMinAgeSeconds parseTime ↔ ∀ node ∈ nodes, ¬Blind node) ∧
      (FloorVouched nodes now cfg parseTime recentCordons ↔
        (cfg.maxCordonsPerWindow ≤ inWindow recentCordons now cfg.rateLimitWindowSeconds ∨
          (∀ node ∈ nodes, ¬(Eligible nodes now cfg parseTime node ∧ Enforced cfg node)) ∨
          cfg.minHealthyNodes + nodes.countP (fun node => Blind node) ≤
            healthyCapacity nodes now cfg.conditionMinAgeSeconds parseTime [])) := by
  refine ⟨⟨fun h => capacityVouched_iff.mp h.2, fun h => ⟨?_, capacityVouched_iff.mpr h⟩⟩, floorVouched_iff⟩
  rw [floorVouched_iff]
  have hblind : nodes.countP (fun node => Blind node) = 0 := List.countP_eq_zero.mpr (by simpa using h)
  by_cases hcand : ∃ d ∈ decide nodes now cfg parseTime recentCordons, d.action = .cordon
  · obtain ⟨d, hd, hc⟩ := hcand
    obtain ⟨before, node, after, hnodes, -, helig, -⟩ := mem_decide_cordon hd hc
    have hle : healthyCapacity nodes now cfg.conditionMinAgeSeconds parseTime [nodeName node] ≤
        healthyCapacity nodes now cfg.conditionMinAgeSeconds parseTime [] :=
      List.countP_mono_left fun other _ ho => by simpa using (Bool.and_eq_true_iff.mp ho).2
    have hfloor := helig.capacity
    exact .inr (.inr (by rw [hblind]; push_cast; omega))
  · rw [exists_cordon_iff, not_and_or, not_lt] at hcand
    rcases hcand with hbudget | hnone
    · exact .inl (by omega)
    · exact .inr (.inl fun node hnode hc => hnone ⟨node, hnode, hc⟩)

/-- A sick node, and a Ready one whose agent says that it cannot see. -/
def blindFleet : List Node :=
  [readyNode "gpu-0" [(gpuUnrecoverable, "1970-01-01T00:00:00Z")],
    readyNode "gpu-1" [(gpuHealthDataStale, "1970-01-01T00:00:00Z")]]

theorem blindFleet_cordoned : ¬FloorVouched blindFleet 600 enforceOne Cluster.parseTime [] ∧
    ¬CapacityVouched blindFleet 600 120 Cluster.parseTime ∧
    (decide blindFleet 600 enforceOne Cluster.parseTime []).map (·.action) = [.cordon, .noop] := by
  refine ⟨?_, ?_, by decide +kernel⟩
  · rw [floorVouched_iff]
    decide +kernel
  · rw [capacityVouched_iff]
    decide +kernel

end GpuNodeHealth.Guard
