import GpuNodeHealth.Guard.Budget
import GpuNodeHealth.Guard.Capacity
import GpuNodeHealth.Guard.NodePass
import GpuNodeHealth.RateLimit.Packing

/-! The guard gets round to every node. Against an API server with a fixed set of nodes
that grants what it is asked, a node that every pass finds due can only wait for the rate
limit, and the rate limit only for cordons of other nodes: so it is cordoned before as many
windows have gone by as it takes to cordon the whole fleet. -/

namespace GpuNodeHealth.Guard

open Cluster Interaction RateLimit

/-! ### A pass against a server -/

/-- An API server that lists its fleet and grants every write. -/
def grant (fleet : List Node) : (r : Req) → List Node × Except Exc (Ans r)
  | .listNodes _ => (fleet, .ok fleet)
  | .cordon name => (applyCordons [name] fleet, .ok ())
  | .createLease .. => (fleet, .ok ())
  | .updateLease .. => (fleet, .ok ())
  | .createEvent .. => (fleet, .ok ())
  | .deletePod .. => (fleet, .ok ())
  | .getLease .. => (fleet, .error (.httpError 404 ""))
  | .listPods .. => (fleet, .ok [])
  | .httpGet .. => (fleet, .error (.transport ""))

variable {cfg : Config} {now : ℚ} {g : GuardObject} {fleet : List Node} {decisions : List Decision}

/-- The nodes some decisions cordon. -/
def cordoned (decisions : List Decision) : List String :=
  (decisions.filter (·.action = .cordon)).map (·.node)

theorem applyCordons_nil (fleet : List Node) : applyCordons [] fleet = fleet := by
  simp [applyCordons]

theorem applyCordons_append (names names' : List String) (fleet : List Node) :
    applyCordons names' (applyCordons names fleet) = applyCordons (names ++ names') fleet := by
  simp only [applyCordons, List.map_map, List.mem_append]
  refine List.map_congr_left fun node _ => ?_
  have hsame : nodeName { node with unschedulable := some true } = nodeName node := rfl
  by_cases hname : nodeName node ∈ names
  · simp [hname, hsame]
  · simp [hname]

theorem event_serve (kind name reason message etype : String) :
    (event cfg kind name reason message etype).serve grant g fleet = ((.ok (), g), fleet) := by
  simp [event, emitEvent, tryK8s, send, grant]

theorem runDecision_serve (dec : Decision) : (runDecision cfg now dec).serve grant g fleet =
    ((.ok (cordons [dec]), g.noted now (cordons [dec]) 0), applyCordons (cordoned [dec]) fleet) := by
  unfold runDecision
  by_cases haction : dec.action = .cordon
  · simp [haction, event_serve, tryK8s, send, grant, cordons, cordoned, GuardObject.noted]
  · cases eventReason dec.reason <;>
      simp [haction, event_serve, cordons, cordoned, applyCordons_nil, GuardObject.noted_zero]

theorem cordons_cons (dec : Decision) (rest : List Decision) :
    cordons (dec :: rest) = cordons [dec] + cordons rest := by
  rw [← List.singleton_append, cordons, List.countP_append]
  rfl

theorem cordoned_cons (dec : Decision) (rest : List Decision) :
    cordoned (dec :: rest) = cordoned [dec] ++ cordoned rest := by
  rw [← List.singleton_append, cordoned, List.filter_append, List.map_append]
  rfl

theorem runDecisions_serve (decisions : List Decision) : (runDecisions cfg now decisions).serve grant g fleet =
    ((.ok (cordons decisions), g.noted now (cordons decisions) 0), applyCordons (cordoned decisions) fleet) := by
  induction decisions generalizing g fleet with
  | nil => simp [runDecisions, cordons, cordoned, applyCordons_nil, GuardObject.noted_zero]
  | cons dec rest ih =>
    rw [runDecisions, Method.serve_bind, runDecision_serve]
    simp only [Method.serve_bind, ih, Method.serve_pure, GuardObject.noted_noted, applyCordons_append]
    rw [cordons_cons dec rest, cordoned_cons dec rest]

/-- A pass cordons the nodes it decides to, and notes its clock for each of them. -/
theorem runNodes_serve {decisions : List Decision}
    (h : decide fleet now cfg.policy parseTime g.recentCordons = decisions) : (runNodes cfg now).serve grant g fleet =
      ((.ok ⟨fleet, decisions, healthyCapacity fleet now cfg.conditionMinAgeSeconds parseTime [], cordons decisions⟩,
        (g.noted now (cordons decisions) 0).pruned cfg now), applyCordons (cordoned decisions) fleet) := by
  have hlist : (send (.listNodes cfg.nodeLabelSelector) : Method Api Exc GuardObject (List Node)).serve grant g fleet =
      ((.ok fleet, g), fleet) := by
    simp [send, grant]
  subst h
  unfold runNodes
  rw [Method.serve_bind, hlist]
  change Method.serve grant (runDecisions cfg now (decide fleet now cfg.policy parseTime g.recentCordons) >>= _) g _ = _
  rw [Method.serve_bind, runDecisions_serve]
  rfl

/-! ### What a pass leaves -/

theorem mem_cordoned {dec : Decision} (hdec : dec ∈ decisions) (haction : dec.action = .cordon) :
    dec.node ∈ cordoned decisions :=
  List.mem_map_of_mem (List.mem_filter.mpr ⟨hdec, decide_eq_true haction⟩)

theorem cordons_before (budget : ℤ) (before rest : List Node) :
    cordons (decideLoop fleet now cfg.policy parseTime budget before) ≤
      cordons (decideLoop fleet now cfg.policy parseTime budget (before ++ rest)) := by
  rw [decideLoop_append, cordons, cordons, List.countP_append]
  exact Nat.le_add_right _ _

/-- A node that can be cordoned and is not has met a budget that the pass had spent. -/
theorem budget_spent {recent : List ℚ} {node : Node} (hnode : node ∈ fleet)
    (helig : Eligible fleet now cfg.policy parseTime node) (henf : Enforced cfg.policy node)
    (hleft : nodeName node ∉ cordoned (decide fleet now cfg.policy parseTime recent)) :
    openingBudget now cfg.policy recent ≤ cordons (decide fleet now cfg.policy parseTime recent) := by
  obtain ⟨before, after, hfleet⟩ := List.append_of_mem hnode
  have hloop : decide fleet now cfg.policy parseTime recent =
      decideLoop fleet now cfg.policy parseTime (openingBudget now cfg.policy recent) (before ++ node :: after) :=
    congrArg _ hfleet
  have hat := @getElem?_decideLoop fleet now cfg.policy parseTime (openingBudget now cfg.policy recent) before after
    node
  rw [← hloop] at hat
  have hspent : ¬0 < openingBudget now cfg.policy recent -
      cordons (decideLoop fleet now cfg.policy parseTime (openingBudget now cfg.policy recent) before) := by
    intro hbudget
    have hcordon := mem_cordoned (List.mem_of_getElem? hat) (decideNode_cordon_iff.mpr ⟨helig, hbudget, henf⟩)
    rw [decideNode_node] at hcordon
    exact hleft hcordon
  have hle := @cordons_before cfg now fleet (openingBudget now cfg.policy recent) before (node :: after)
  rw [← hloop] at hle
  omega

/-- Every cordon of a loop is about a node that could take work. -/
theorem cordons_le_schedulable (budget : ℤ) (rest : List Node) {names : List String}
    (hnames : cordoned (decideLoop fleet now cfg.policy parseTime budget rest) ⊆ names) :
    cordons (decideLoop fleet now cfg.policy parseTime budget rest) ≤
      rest.countP fun node => schedulable node = true ∧ nodeName node ∈ names := by
  induction rest generalizing budget with
  | nil => exact Nat.zero_le _
  | cons node rest ih =>
    simp only [decideLoop] at hnames ⊢
    rw [cordoned_cons] at hnames
    have hrest := ih _ fun name hname => hnames (List.mem_append_right _ hname)
    rw [cordons_cons, List.countP_cons, Nat.add_comm]
    refine Nat.add_le_add hrest ?_
    by_cases haction : (decideNode fleet now cfg.policy parseTime budget node).1.action = .cordon
    · have hmem : nodeName node ∈ names := by
        have hname := mem_cordoned (List.mem_singleton_self _) haction
        rw [decideNode_node] at hname
        exact hnames (List.mem_append_left _ hname)
      simp [cordons, haction, hmem, (decideNode_cordon_iff.mp haction).1.schedulable]
    · simp [cordons, haction]

theorem schedulable_applyCordons (names : List String) (fleet : List Node) :
    (applyCordons names fleet).countP schedulable +
      fleet.countP (fun node => schedulable node = true ∧ nodeName node ∈ names) = fleet.countP schedulable := by
  induction fleet with
  | nil => rfl
  | cons node fleet ih =>
    simp only [applyCordons, List.map_cons, List.countP_cons] at ih ⊢
    by_cases hname : nodeName node ∈ names
    · simp [hname, schedulable] at ih ⊢
      omega
    · simp [hname] at ih ⊢
      omega

/-- A pass takes as many nodes out of service as it counts. -/
theorem cordons_add_schedulable (recent : List ℚ) :
    cordons (decide fleet now cfg.policy parseTime recent) +
        (applyCordons (cordoned (decide fleet now cfg.policy parseTime recent)) fleet).countP schedulable ≤
      fleet.countP schedulable := by
  have hcordons := @cordons_le_schedulable cfg now fleet (openingBudget now cfg.policy recent) fleet _
    (List.Subset.refl _)
  have hsplit := schedulable_applyCordons (cordoned (decide fleet now cfg.policy parseTime recent)) fleet
  unfold decide at hsplit ⊢
  unfold openingBudget at hcordons
  omega

/-! ### Rounds -/

/-- Between two passes the nodes may change in any way, but none joins, leaves, moves or comes back into service. -/
def Drift (fleet fleet' : List Node) : Prop :=
  List.Forall₂ (fun a b => nodeName b = nodeName a ∧ (schedulable b = true → schedulable a = true)) fleet fleet'

/-- A node of the name could be cordoned. -/
def Due (cfg : Config) (name : String) (fleet : List Node) (now : ℚ) : Prop :=
  ∃ node ∈ fleet, nodeName node = name ∧ Eligible fleet now cfg.policy parseTime node ∧ Enforced cfg.policy node

/-- A node of the name is in service. -/
def Left (name : String) (fleet : List Node) : Prop := ∃ node ∈ fleet, nodeName node = name ∧ schedulable node = true

/-- Passes of one guard that all find a node due, with their clocks. -/
inductive Rounds (cfg : Config) (name : String) : List ℚ → GuardObject → List Node → Prop where
  | start (fleet : List Node) : Rounds cfg name [] cfg.start fleet
  | pass {clocks : List ℚ} {g : GuardObject} {fleet fleet' : List Node} {now : ℚ} (h : Rounds cfg name clocks g fleet)
      (hdrift : Drift fleet fleet') (hlater : ∀ t ∈ clocks, t ≤ now) (hdue : Due cfg name fleet' now) :
      Rounds cfg name (clocks ++ [now]) ((runNodes cfg now).serve grant g fleet').1.2
        ((runNodes cfg now).serve grant g fleet').2

/-- What a run of rounds keeps, by a record of all its cordons: they are those the guard goes by, there were no more of
them than nodes in service, and while the node is left every pass has found the limit reached. -/
structure Waited (cfg : Config) (name : String) (clocks : List ℚ) (g : GuardObject) (fleet : List Node)
    (record : List ℚ) : Prop where
  past : ∀ t ∈ record, t ∈ clocks
  recent : ∀ now, (∀ t ∈ clocks, t ≤ now) → RateLimit.recent g.recentCordons now (cfg.rateLimitWindowSeconds : ℚ) =
    RateLimit.recent record now (cfg.rateLimitWindowSeconds : ℚ)
  spare : record.length + fleet.countP schedulable ≤ fleet.length
  busy : Left name fleet → ∀ t ∈ clocks, cfg.maxCordonsPerWindow ≤ spent record t (cfg.rateLimitWindowSeconds : ℚ)

variable {name : String} {clocks : List ℚ} {fleet' : List Node} {record : List ℚ}

theorem Drift.countP_le (h : Drift fleet fleet') : fleet'.countP schedulable ≤ fleet.countP schedulable := by
  induction h with
  | nil => exact le_rfl
  | @cons a b fleet fleet' hab _ ih =>
    rw [List.countP_cons, List.countP_cons]
    refine Nat.add_le_add ih ?_
    by_cases hb : schedulable b = true
    · simp [hb, hab.2 hb]
    · simp [hb]

theorem Drift.left (h : Drift fleet fleet') (hleft : Left name fleet') : Left name fleet := by
  induction h with
  | nil => exact hleft
  | @cons a b fleet fleet' hab _ ih =>
    obtain ⟨node, hnode, hname, hschedulable⟩ := hleft
    rcases List.mem_cons.mp hnode with rfl | hnode
    · exact ⟨a, List.mem_cons_self, hab.1 ▸ hname, hab.2 hschedulable⟩
    · obtain ⟨node', hnode', hrest⟩ := ih ⟨node, hnode, hname, hschedulable⟩
      exact ⟨node', List.mem_cons_of_mem a hnode', hrest⟩

theorem left_applyCordons {names : List String} (h : Left name (applyCordons names fleet)) :
    Left name fleet ∧ name ∉ names := by
  obtain ⟨node', hnode', hname, hschedulable⟩ := h
  obtain ⟨node, hnode, rfl⟩ := List.mem_map.mp hnode'
  by_cases hcordoned : nodeName node ∈ names
  · simp [hcordoned, schedulable] at hschedulable
  · rw [if_neg hcordoned] at hname hschedulable
    exact ⟨⟨node, hnode, hname, hschedulable⟩, hname ▸ hcordoned⟩

theorem Waited.pass (h : Waited cfg name clocks g fleet record) (hwindow : 0 < cfg.rateLimitWindowSeconds)
    (hdrift : Drift fleet fleet') (hlater : ∀ t ∈ clocks, t ≤ now) (hdue : Due cfg name fleet' now) :
    ∃ k, Waited cfg name (clocks ++ [now]) ((runNodes cfg now).serve grant g fleet').1.2
      ((runNodes cfg now).serve grant g fleet').2 (record ++ List.replicate k now) := by
  have hwindow' : (0 : ℚ) < cfg.rateLimitWindowSeconds := by exact_mod_cast hwindow
  rw [runNodes_serve rfl]
  dsimp only
  refine ⟨cordons (decide fleet' now cfg.policy parseTime g.recentCordons), ?past, ?recent, ?spare, ?busy⟩
  case past =>
    intro t ht
    rcases List.mem_append.mp ht with ht | ht
    · exact List.mem_append_left _ (h.past t ht)
    · simp [List.eq_of_mem_replicate ht]
  case recent =>
    intro t ht
    have hold : RateLimit.recent g.recentCordons t (cfg.rateLimitWindowSeconds : ℚ) =
        RateLimit.recent record t (cfg.rateLimitWindowSeconds : ℚ) :=
      h.recent t fun s hs => ht s (List.mem_append_left _ hs)
    have hnow : now - cfg.rateLimitWindowSeconds + cfg.rateLimitWindowSeconds ≤ t := by
      simpa using ht now (by simp)
    simp only [GuardObject.pruned, GuardObject.noted]
    rw [recent_filter hnow, recent_append, recent_append, hold]
  case spare =>
    have htaken := @cordons_add_schedulable cfg now fleet' g.recentCordons
    have hlength : (applyCordons (cordoned (decide fleet' now cfg.policy parseTime g.recentCordons)) fleet').length =
        fleet.length := by simp [applyCordons, hdrift.length_eq]
    have hle := hdrift.countP_le
    have hspare := h.spare
    rw [List.length_append, List.length_replicate, hlength]
    omega
  case busy =>
    intro hleft t ht
    obtain ⟨hleft', hname⟩ := left_applyCordons hleft
    have hgrown (t : ℚ) (k : ℕ) : spent record t (cfg.rateLimitWindowSeconds : ℚ) ≤
        spent (record ++ List.replicate k now) t (cfg.rateLimitWindowSeconds : ℚ) := by
      rw [spent_append]
      exact Nat.le_add_right _ _
    rcases List.mem_append.mp ht with ht | ht
    · exact (h.busy (hdrift.left hleft') t ht).trans (Int.ofNat_le.mpr (hgrown t _))
    · obtain rfl := List.mem_singleton.mp ht
      obtain ⟨node, hnode, rfl, helig, henf⟩ := hdue
      have hspent := budget_spent hnode helig henf hname
      have hnow := h.recent t hlater
      have hpast : ∀ s ∈ record, s ≤ t := fun s hs => hlater s (h.past s hs)
      have hnew : spent (List.replicate (cordons (decide fleet' t cfg.policy parseTime g.recentCordons)) t) t
          (cfg.rateLimitWindowSeconds : ℚ) = cordons (decide fleet' t cfg.policy parseTime g.recentCordons) := by
        simp [spent, List.countP_replicate, hwindow']
      rw [spent_append, hnew, spent_eq_recent hpast, ← hnow]
      unfold openingBudget at hspent
      have hwindowed : inWindow g.recentCordons t cfg.policy.rateLimitWindowSeconds =
          RateLimit.recent g.recentCordons t (cfg.rateLimitWindowSeconds : ℚ) := rfl
      rw [hwindowed] at hspent
      have hmax : cfg.policy.maxCordonsPerWindow = cfg.maxCordonsPerWindow := rfl
      omega

/-- A step of the rounds keeps what they keep. -/
theorem Rounds.waited (h : Rounds cfg name clocks g fleet) (hwindow : 0 < cfg.rateLimitWindowSeconds) :
    ∃ record, Waited cfg name clocks g fleet record := by
  induction h with
  | start fleet =>
    refine ⟨[], ⟨fun t ht => absurd ht List.not_mem_nil, fun _ _ => rfl, ?_, fun _ t ht => absurd ht List.not_mem_nil⟩⟩
    simpa using List.countP_le_length
  | pass _ hdrift hlater hdue ih =>
    obtain ⟨record, hwaited⟩ := ih
    obtain ⟨k, hwaited'⟩ := hwaited.pass hwindow hdrift hlater hdue
    exact ⟨_, hwaited'⟩

/-- A node that every pass finds due is cordoned before the rate limit has let as many cordons through as there are
nodes: of the passes that left it, those a window apart are too few to have cordoned the whole fleet. -/
theorem waits_bounded (hwindow : 0 < cfg.rateLimitWindowSeconds) (hrun : Rounds cfg name clocks g fleet)
    (hleft : Left name fleet) {chain : List ℚ} (hchain : chain ⊆ clocks)
    (hapart : chain.Pairwise fun t t' : ℚ => t + cfg.rateLimitWindowSeconds ≤ t') :
    chain.length * cfg.maxCordonsPerWindow < fleet.length := by
  obtain ⟨record, hwaited⟩ := hrun.waited hwindow
  have hpacked : chain.length * cfg.maxCordonsPerWindow.toNat ≤ record.length :=
    length_le_of_spent hapart fun t ht => Int.toNat_le.mpr (hwaited.busy hleft t (hchain ht))
  have hone : 0 < fleet.countP schedulable := by
    obtain ⟨node, hnode, -, hschedulable⟩ := hleft
    exact List.countP_pos_iff.mpr ⟨node, hnode, hschedulable⟩
  have hspare := hwaited.spare
  have hlt : chain.length * cfg.maxCordonsPerWindow.toNat < fleet.length := by omega
  have hle : (chain.length : ℤ) * cfg.maxCordonsPerWindow ≤ chain.length * cfg.maxCordonsPerWindow.toNat :=
    mul_le_mul_of_nonneg_left (Int.self_le_toNat _) (Int.natCast_nonneg _)
  exact hle.trans_lt (by exact_mod_cast hlt)

/-- The second of the sick pair, which has to wait for the first. -/
def waitingNode : Node := readyNode "gpu-1" [(gpuUnrecoverable, "1970-01-01T00:00:00Z")]

/-- The fleet after a pass that cordoned one node of the pair. -/
def halfDrained : List Node := ((runNodes enforcing 600).serve grant enforcing.start sickPair).2

theorem waits_bounded_sickPair : ([600] : List ℚ).length * enforcing.maxCordonsPerWindow < halfDrained.length := by
  have hdue : Due enforcing "gpu-1" sickPair 600 :=
    ⟨waitingNode, by decide +kernel, rfl, by decide +kernel, by decide +kernel⟩
  have hleft : Left "gpu-1" halfDrained := ⟨waitingNode, by decide +kernel, rfl, rfl⟩
  have hdrift : Drift sickPair sickPair := List.forall₂_same.mpr fun _ _ => ⟨rfl, id⟩
  exact waits_bounded (by decide) (.pass (.start sickPair) hdrift (by simp) hdue) hleft (List.Subset.refl _) (by simp)

end GpuNodeHealth.Guard
