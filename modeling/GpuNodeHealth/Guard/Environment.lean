import GpuNodeHealth.Environment.Variables
import GpuNodeHealth.Guard.Capacity
import GpuNodeHealth.Guard.LoopPass
import GpuNodeHealth.Guard.Publishing
import GpuNodeHealth.Interaction.Calls

/-! The settings of the guard as its environment gives them, and what it takes for a
guard to ask for anything. Whatever a run is answered, a node is cordoned only under
the one word for the mode and while enough others could take work, a pod is deleted
only with the switch for it on as well, and there is one Lease that it touches. -/

namespace GpuNodeHealth.Guard

open Cluster Environment Interaction
open Agent (strip)

/-- The mode as it is compared: without blanks around it, in lower case. -/
def modeOf (env : Variables) : String := String.ofList (lower (strip (getenv env "GUARD_MODE" "observe").toList))

def Config.ofEnv (env : Variables) : Config where
  mode := modeOf env
  enforceNodes := listOf env "GUARD_ENFORCE_NODES" ""
  nodeLabelSelector := getenv env "GUARD_NODE_LABEL_SELECTOR" "gpu-health.amd.io/agent=true"
  loopIntervalSeconds := intOf env "GUARD_LOOP_INTERVAL_SECONDS" 30
  conditionMinAgeSeconds := intOf env "GUARD_CONDITION_MIN_AGE_SECONDS" 120
  minHealthyNodes := intOf env "GUARD_MIN_HEALTHY_NODES" 2
  maxCordonsPerWindow := intOf env "GUARD_MAX_CORDONS_PER_WINDOW" 1
  rateLimitWindowSeconds := intOf env "GUARD_RATE_LIMIT_WINDOW_SECONDS" 3600
  exporterSupervisionEnabled := boolOf env "GUARD_EXPORTER_SUPERVISION" false
  exporterNamespace := getenv env "GUARD_EXPORTER_NAMESPACE" "kube-amd-gpu"
  exporterLabelSelector := getenv env "GUARD_EXPORTER_LABEL_SELECTOR" "app.kubernetes.io/name=metrics-exporter"
  exporterPort := intOf env "GUARD_EXPORTER_PORT" 5000
  exporterTimeoutSeconds := intOf env "GUARD_EXPORTER_TIMEOUT_SECONDS" 10
  exporterUnreachableSeconds := intOf env "GUARD_EXPORTER_UNREACHABLE_SECONDS" 900
  exporterDeleteCooldownSeconds := intOf env "GUARD_EXPORTER_DELETE_COOLDOWN_SECONDS" 3600
  guardNamespace := getenv env "GUARD_NAMESPACE" "gpu-node-health"
  podName := getenv env "POD_NAME" "gpu-node-guard"
  leaseName := getenv env "GUARD_LEASE_NAME" "gpu-node-guard"
  leaseDurationSeconds := intOf env "GUARD_LEASE_DURATION_SECONDS" 30

example : Config.ofEnv (fun _ => none) = {} := by decide +kernel

/-! ### What the settings allow -/

/-- The fleet of the settings was listed. -/
def ListedNodes (env : Variables) (es : List (Event Api)) (nodes : List Node) : Prop :=
  (⟨.listNodes (getenv env "GUARD_NODE_LABEL_SELECTOR" "gpu-health.amd.io/agent=true"), .ok nodes⟩ : Event Api) ∈ es

/-- The exporters of the settings were listed. -/
def ListedPods (env : Variables) (es : List (Event Api)) (pods : List Pod) : Prop :=
  (⟨.listPods (getenv env "GUARD_EXPORTER_NAMESPACE" "kube-amd-gpu")
    (getenv env "GUARD_EXPORTER_LABEL_SELECTOR" "app.kubernetes.io/name=metrics-exporter"), .ok pods⟩ : Event Api) ∈ es

/-- The one Lease of the settings. -/
def OwnLease (env : Variables) (ns name : String) : Prop :=
  ns = getenv env "GUARD_NAMESPACE" "gpu-node-health" ∧ name = getenv env "GUARD_LEASE_NAME" "gpu-node-guard"

/-- An Event stands with the object it is about, a node or an exporter that was listed. -/
def OwnEvent (env : Variables) (es : List (Event Api)) (ns : String) (ev : CoreEvent) : Prop :=
  ns = eventNamespace ev.involvedObject ∧
    ((∃ nodes name, ListedNodes env es nodes ∧ name ∈ nodes.map nodeName ∧
      ev.involvedObject = { kind := "Node", name }) ∨
    ∃ pods name, ListedPods env es pods ∧ name ∈ pods.map podName ∧
      ev.involvedObject =
        { kind := "Pod", name, ns := some (getenv env "GUARD_EXPORTER_NAMESPACE" "kube-amd-gpu") })

/-- What the settings have to say for a request to be sent after `es`. -/
def Authorised (env : Variables) (identity : String) (now : ℚ) (es : List (Event Api)) : Req → Prop
  | .getLease ns name => OwnLease env ns name
  | .createLease ns name spec => OwnLease env ns name ∧ spec.holderIdentity = some identity
  | .updateLease ns name lease => OwnLease env ns name ∧ lease.spec.holderIdentity = some identity
  | .listNodes selector => selector = getenv env "GUARD_NODE_LABEL_SELECTOR" "gpu-health.amd.io/agent=true"
  | .cordon name => modeOf env = "enforce" ∧
      (listOf env "GUARD_ENFORCE_NODES" "" = [] ∨ name ∈ listOf env "GUARD_ENFORCE_NODES" "") ∧
      ∃ nodes, ListedNodes env es nodes ∧ name ∈ nodes.map nodeName ∧
        intOf env "GUARD_MIN_HEALTHY_NODES" 2 ≤
          healthyCapacity nodes now (intOf env "GUARD_CONDITION_MIN_AGE_SECONDS" 120) parseTime [name]
  | .createEvent ns ev => OwnEvent env es ns ev
  | .listPods ns selector => ns = getenv env "GUARD_EXPORTER_NAMESPACE" "kube-amd-gpu" ∧
      selector = getenv env "GUARD_EXPORTER_LABEL_SELECTOR" "app.kubernetes.io/name=metrics-exporter"
  | .deletePod ns name => modeOf env = "enforce" ∧ boolOf env "GUARD_EXPORTER_SUPERVISION" false = true ∧
      ns = getenv env "GUARD_EXPORTER_NAMESPACE" "kube-amd-gpu" ∧
      ∃ pods, ListedPods env es pods ∧ name ∈ pods.map podName
  | .httpGet url timeout => timeout = intOf env "GUARD_EXPORTER_TIMEOUT_SECONDS" 10 ∧
      ∃ pods pod ip, ListedPods env es pods ∧ pod ∈ pods ∧ pod.podIP = some ip ∧ url = exporterUrl (.ofEnv env) ip

variable {env : Variables} {cfg : Config} {identity : String} {now : ℚ} {g : GuardObject} {es : List (Event Api)}
  {r : Req} {G : List (Event Api) → Req → Prop}

/-! ### Pods -/

theorem Turned.delete {s t : ExporterSupervisor} {pod : Pod} {outcome : Option Bool} {dec : PodDecision}
    (h : Turned cfg now s pod outcome dec t) (hact : dec.action = .delete) :
    cfg.exporterSupervisionEnabled = true ∧ cfg.mode = "enforce" ∧ dec.pod = podName pod := by
  cases h with
  | cleared => cases hact
  | failed =>
    obtain ⟨henabled, hmode, -⟩ := unreachableDecision_delete hact
    exact ⟨henabled, hmode, (unreachableDecision_fields _).1⟩

theorem Visited.delete {s u : ExporterSupervisor} {outcomes : List (Pod × Option Bool)} {decisions : List PodDecision}
    (h : Visited cfg now s outcomes decisions u) {dec : PodDecision} (hdec : dec ∈ decisions)
    (hact : dec.action = .delete) :
    cfg.exporterSupervisionEnabled = true ∧ cfg.mode = "enforce" ∧ dec.pod ∈ namesOf outcomes := by
  induction h with
  | nil => cases hdec
  | cons turn later ih =>
    rcases List.mem_cons.mp hdec with rfl | hdec
    · obtain ⟨henabled, hmode, hname⟩ := turn.delete hact
      exact ⟨henabled, hmode, hname ▸ List.mem_cons_self⟩
    · obtain ⟨henabled, hmode, hname⟩ := ih hdec
      exact ⟨henabled, hmode, List.mem_cons_of_mem _ hname⟩

theorem runPodDecision_sends (dec : PodDecision)
    (hdelete : dec.action = .delete → G es (.deletePod cfg.exporterNamespace dec.pod))
    (hevent : dec.action = .delete → ∀ fs ev, es <+: fs → ev.involvedObject = involvedObject cfg "Pod" dec.pod →
      G fs (.createEvent (eventNamespace ev.involvedObject) ev)) :
    (runPodDecision cfg dec).wp G (fun _ _ _ => True) g es := by
  unfold runPodDecision
  split_ifs with hact
  · rw [Method.wp_bind, wp_tryK8s]
    refine (wp_send _).mpr ⟨hdelete hact, fun v => ?_⟩
    rcases v with (_ | _ | _ | _) | _
    · trivial
    · trivial
    · trivial
    · trivial
    · refine Method.wp_post (event_wp 0 "Pod" dec.pod "ExporterPodDeleted" dec.message "Warning" ?_)
        fun _ _ _ _ _ => trivial
      exact fun ev => hevent hact _ ev (List.prefix_append _ _)
  · trivial

theorem runPodDecisions_sends (decisions : List PodDecision)
    (hdelete : ∀ dec ∈ decisions, dec.action = .delete → ∀ fs, es <+: fs →
      G fs (.deletePod cfg.exporterNamespace dec.pod))
    (hevent : ∀ dec ∈ decisions, dec.action = .delete → ∀ fs ev, es <+: fs →
      ev.involvedObject = involvedObject cfg "Pod" dec.pod →
        G fs (.createEvent (eventNamespace ev.involvedObject) ev)) :
    (runPodDecisions cfg decisions).wp G (fun _ _ _ => True) g es := by
  induction decisions generalizing g es with
  | nil => trivial
  | cons dec rest ih =>
    rw [runPodDecisions]
    have hfirst := hdelete dec List.mem_cons_self
    refine Method.wp_bind_of (runPodDecision_sends dec (fun hact => hfirst hact es (List.prefix_refl _))
      (hevent dec List.mem_cons_self)) ?_ ?_
    · intro fs _ g' hfs _
      refine ih (fun d hd hact gs hgs => ?_) fun d hd hact gs ev hgs => ?_
      · exact hdelete d (List.mem_cons_of_mem _ hd) hact gs (hfs.trans hgs)
      · exact hevent d (List.mem_cons_of_mem _ hd) hact gs ev (hfs.trans hgs)
    · exact fun _ _ _ _ _ => trivial

/-- An exporter pass asks only for pods it has listed, and deletes them with supervision
on and in the mode for it. -/
theorem runExporters_sends (hlist : G es (.listPods cfg.exporterNamespace cfg.exporterLabelSelector))
    (hget : ∀ pods, ∀ pod ∈ pods, ∀ ip fs, pod.podIP = some ip →
      es ++ [⟨.listPods cfg.exporterNamespace cfg.exporterLabelSelector, .ok pods⟩] <+: fs →
        G fs (.httpGet (exporterUrl cfg ip) cfg.exporterTimeoutSeconds))
    (hdelete : ∀ pods name fs, cfg.exporterSupervisionEnabled = true → cfg.mode = "enforce" →
      es ++ [⟨.listPods cfg.exporterNamespace cfg.exporterLabelSelector, .ok pods⟩] <+: fs →
        name ∈ pods.map podName → G fs (.deletePod cfg.exporterNamespace name))
    (hevent : ∀ pods name fs ev, es ++ [⟨.listPods cfg.exporterNamespace cfg.exporterLabelSelector, .ok pods⟩] <+: fs →
      name ∈ pods.map podName → ev.involvedObject = involvedObject cfg "Pod" name →
        G fs (.createEvent (eventNamespace ev.involvedObject) ev)) :
    (runExporters cfg now).wp G (fun _ _ _ => True) g es := by
  unfold runExporters
  rw [Method.wp_bind]
  refine (wp_send (Req.listPods _ _)).mpr ⟨hlist, fun v => ?_⟩
  cases v with
  | error exc => trivial
  | ok pods =>
    change Method.wp _ _ (_ >>= _) _ _
    rw [Method.wp_bind, Method.wp_on]
    refine Method.wp_post (Method.wp_both (evaluate_wp pods fun fs pod hpod ip hfs hip => ?_)
      (evaluate_visited pods g.supervisor)) fun fs v s hfs hdone => ?_
    · exact hget pods pod hpod ip fs hip hfs
    obtain ⟨-, new, -, hvisited⟩ := hdone
    cases v with
    | error e => trivial
    | ok decisions =>
      obtain ⟨u, hvisited, -⟩ := hvisited decisions rfl
      have hlisted : ∀ dec ∈ decisions, dec.action = .delete → cfg.exporterSupervisionEnabled = true ∧
          cfg.mode = "enforce" ∧ dec.pod ∈ pods.map podName := by
        intro dec hdec hact
        rw [← namesOf_probes pods (new ++ [])]
        exact (hvisited []).delete hdec hact
      refine Method.wp_bind_of (runPodDecisions_sends decisions ?_ ?_) (fun _ _ _ _ _ => trivial)
        fun _ _ _ _ _ => trivial
      · intro dec hdec hact gs hgs
        obtain ⟨henabled, hmode, hname⟩ := hlisted dec hdec hact
        exact hdelete pods dec.pod gs henabled hmode (hfs.trans hgs) hname
      · intro dec hdec hact gs ev hgs hev
        exact hevent pods dec.pod gs ev (hfs.trans hgs) (hlisted dec hdec hact).2.2 hev

/-! ### The iteration -/

theorem runNodes_sends (hlist : G es (.listNodes cfg.nodeLabelSelector))
    (hcordon : ∀ nodes name fs, cfg.mode = "enforce" → (cfg.enforceNodes = [] ∨ name ∈ cfg.enforceNodes) →
      es ++ [⟨.listNodes cfg.nodeLabelSelector, .ok nodes⟩] <+: fs → name ∈ nodes.map nodeName →
        cfg.minHealthyNodes ≤ healthyCapacity nodes now cfg.conditionMinAgeSeconds parseTime [name] →
          G fs (.cordon name))
    (hevent : ∀ nodes name fs ev, es ++ [⟨.listNodes cfg.nodeLabelSelector, .ok nodes⟩] <+: fs →
      name ∈ nodes.map nodeName → ev.involvedObject = involvedObject cfg "Node" name →
        G fs (.createEvent (eventNamespace ev.involvedObject) ev)) :
    (runNodes cfg now).wp G (fun _ _ _ => True) g es := by
  refine Method.wp_post (runNodes_wp hlist ?_ ?_) fun _ _ _ _ _ => trivial
  · intro nodes dec hdec hact fs hfs _
    obtain ⟨before, node, after, rfl, hname, helig, ⟨hmode, hscope⟩, -⟩ := mem_decide_cordon hdec hact
    rw [hname]
    exact hcordon _ _ fs hmode hscope hfs (List.mem_map_of_mem (by simp)) helig.capacity
  · intro nodes dec hdec fs ev hfs hev
    obtain ⟨before, node, after, rfl, rfl⟩ := mem_decideLoop hdec
    rw [(decideNode_spec _ node).1] at hev
    exact hevent _ _ fs ev hfs (List.mem_map_of_mem (by simp)) hev

/-- Whatever the guard found and whatever it is answered, it asks for nothing that its
environment does not allow. -/
theorem iterate_authorised (h : ((iterate (.ofEnv env) identity now).call g).Sends es r) :
    Authorised env identity now es r := by
  refine Program.wp_sends (G := Authorised env identity now) (Q := fun _ _ => True) ?_ h
  change Method.wp (Authorised env identity now) (fun _ _ _ => True) _ g []
  refine Method.wp_tryCatch_of (Q := fun _ _ _ => True) ?_ (fun _ _ _ _ h => h) (fun _ _ _ _ h => h)
  refine Method.wp_bind_of (Q := fun _ _ _ => True) ?_ ?_ fun _ _ _ _ _ => trivial
  · rw [Method.wp_on]
    refine Method.wp_post (acquireOrRenew_wp ⟨rfl, rfl⟩ (fun _ => ⟨⟨rfl, rfl⟩, rfl⟩) fun lease _ => ?_)
      fun _ _ _ _ _ => trivial
    exact ⟨⟨rfl, rfl⟩, renewedSpec_holder ..⟩
  · intro fs leads g' _ _
    cases leads with
    | false => trivial
    | true =>
      refine Method.wp_bind_of (Q := fun _ _ _ => True) (runNodes_sends rfl ?_ ?_) ?_ fun _ _ _ _ _ => trivial
      · intro nodes name gs hmode hscope hgs hname hfloor
        exact ⟨hmode, hscope, nodes, hgs.subset (by simp [Config.ofEnv]), hname, hfloor⟩
      · intro nodes name gs ev hgs hname hev
        exact ⟨rfl, .inl ⟨nodes, name, hgs.subset (by simp [Config.ofEnv]), hname, hev⟩⟩
      · intro gs outcome g'' _ _
        refine Method.wp_bind_of (Q := fun _ _ _ => True) (runExporters_sends ⟨rfl, rfl⟩ ?_ ?_ ?_)
          (fun _ _ _ _ _ => trivial) fun _ _ _ _ _ => trivial
        · intro pods pod hpod ip hs hip hhs
          exact ⟨rfl, pods, pod, ip, hhs.subset (by simp [Config.ofEnv]), hpod, hip, rfl⟩
        · intro pods name hs henabled hmode hhs hname
          exact ⟨hmode, henabled, rfl, pods, hhs.subset (by simp [Config.ofEnv]), hname⟩
        · intro pods name hs ev hhs hname hev
          exact ⟨rfl, .inr ⟨pods, name, hhs.subset (by simp [Config.ofEnv]), hname, hev⟩⟩

/-- The settings of a deployment that enforces: two variables, whatever else is unset. -/
def armed : Variables
  | "GUARD_MODE" => some " Enforce\n"
  | "GUARD_MIN_HEALTHY_NODES" => some "1"
  | _ => none

theorem iterate_authorised_armed : Authorised armed "guard" 600
    ((Call.play (iterate (.ofEnv armed) "guard") quietApi 600 (Config.ofEnv armed).start).events.take 3)
    (.cordon "gpu-0") := by
  have hsends : ((iterate (.ofEnv armed) "guard" 600).call (Config.ofEnv armed).start).Sends
      ((Call.play (iterate (.ofEnv armed) "guard") quietApi 600 (Config.ofEnv armed).start).events.take 3)
      (.cordon "gpu-0") := Program.next_sends (by decide +kernel)
  exact iterate_authorised hsends

end GpuNodeHealth.Guard
