import GpuNodeHealth.Guard.Guardrails
import GpuNodeHealth.Guard.NodePass
import GpuNodeHealth.Interaction.Calls
import GpuNodeHealth.RateLimit.SlidingWindow

/-! Runs of node passes in one guard process. The record of cordons the guard
keeps is a function of its passes so far; forgetting what aged out never changes
a decision, and no window of the length of the rate limit holds more cordons
than the limit. -/

namespace GpuNodeHealth.Guard

open Cluster Interaction RateLimit

/-- A pass of `_run_nodes`, called with its clock. -/
abbrev NodePass := Call Api Exc GuardObject ℚ NodesOutcome

/-- The clocks of all cordons that succeeded so far. -/
def recorded (passes : List NodePass) : List ℚ :=
  passes.flatMap fun pass => List.replicate (cordonsDone pass.events) pass.arg

/-- The record after one more pass; a pass that raised did not prune it. -/
def keptAfter (cfg : Config) (record : List ℚ) (pass : NodePass) : List ℚ :=
  let grown := record ++ List.replicate (cordonsDone pass.events) pass.arg
  match pass.result with
  | .ok _ => grown.filter (pass.arg - cfg.rateLimitWindowSeconds ≤ ·)
  | .error _ => grown

/-- The record the guard is left with after its passes. -/
def kept (cfg : Config) (passes : List NodePass) : List ℚ := passes.foldl (keptAfter cfg) []

variable {cfg : Config} {passes : List NodePass} {g : GuardObject}

theorem kept_snoc (passes : List NodePass) (pass : NodePass) :
    kept cfg (passes ++ [pass]) = keptAfter cfg (kept cfg passes) pass := by
  simp [kept]

/-- One pass, as the record and the pass result tell it. -/
theorem runNodes_kept (now : ℚ) (g : GuardObject) :
    (runNodes cfg now).wp (fun _ _ => True) (fun es v g' =>
      g'.recentCordons = keptAfter cfg g.recentCordons ⟨now, g, es, v⟩ ∧
        (cordonsDone es : ℤ) ≤
          max 0 (cfg.maxCordonsPerWindow - inWindow g.recentCordons now cfg.rateLimitWindowSeconds) ∧
        ∀ outcome, v = .ok outcome →
          outcome.decisions = decide outcome.nodes now cfg.policy parseTime g.recentCordons) g [] := by
  refine Method.wp_post (runNodes_wp trivial (fun _ _ _ _ _ _ _ => trivial) fun _ _ _ _ _ _ _ => trivial) ?_
  rintro es v g' - ⟨k, n, hdone, hk, hv⟩
  obtain rfl : cordonsDone es = k := by simpa [cordonsDone] using hdone
  cases v with
  | error e =>
    obtain ⟨rfl, -⟩ := hv
    exact ⟨rfl, hk, fun _ ho => by cases ho⟩
  | ok outcome =>
    obtain ⟨rfl, -, hdec, -⟩ := hv
    exact ⟨rfl, hk, fun _ ho => by cases ho; exact hdec⟩

theorem recentCordons_eq (hrun : Calls (runNodes cfg) cfg.start passes g) :
    g.recentCordons = kept cfg passes := by
  refine hrun.invariant (P := fun passes g => g.recentCordons = kept cfg passes) rfl fun passes g now hg => ?_
  refine Method.wp_post (runNodes_kept now g) fun es v g' _ h => ?_
  rw [h.1, kept_snoc, hg]

/-! ### Guardrails along a run -/

/-- Every cordon of every run: the guard enforces, and in the fleet it listed in
the same pass the node meets all guardrails, with the record kept so far. -/
theorem cordon_guardrails (hrun : Calls (runNodes cfg) cfg.start passes g) {now : ℚ}
    {es : List (Event Api)} {name : String} (hsend : ((runNodes cfg now).call g).Sends es (.cordon name)) :
    cfg.mode = "enforce" ∧ ∃ nodes, es.head? = some ⟨.listNodes cfg.nodeLabelSelector, .ok nodes⟩ ∧
      (DistinctNames nodes → (∀ node ∈ nodes, DistinctTypes node) →
        ∃ before node after, nodes = before ++ node :: after ∧ nodeName node = name ∧
          Guardrails nodes now cfg.policy parseTime (kept cfg passes)
            (cordons ((decide nodes now cfg.policy parseTime (kept cfg passes)).take before.length)) node) := by
  have hwp : (runNodes cfg now).wp (fun (fs : List (Event Api)) (r : Req) => ∀ name, r = .cordon name → ∃ nodes,
      fs.head? = some ⟨.listNodes cfg.nodeLabelSelector, .ok nodes⟩ ∧
        ∃ dec ∈ decide nodes now cfg.policy parseTime g.recentCordons, dec.action = .cordon ∧ dec.node = name)
      (NodesDone cfg now g []) g [] := by
    refine runNodes_wp (fun _ h => by cases h) ?_ fun _ _ _ _ _ _ _ _ h => by cases h
    rintro nodes dec hdec hact fs ⟨gs, rfl⟩ - name hname
    cases hname
    exact ⟨nodes, rfl, dec, hdec, hact, rfl⟩
  obtain ⟨nodes, hhead, dec, hdec, hact, rfl⟩ := Program.wp_sends hwp hsend name rfl
  obtain ⟨-, -, -, -, -, -, ⟨hmode, -⟩, -⟩ := mem_decide_cordon hdec hact
  refine ⟨hmode, nodes, hhead, fun hd ht => ?_⟩
  rw [← recentCordons_eq hrun]
  exact decide_guardrails hd ht hdec hact

/-- A cluster of the two nodes that accepts every cordon and fails the rest. -/
def twoNodesApi (_ : List (Event Api)) : (r : Req) → Except Exc (Ans r)
  | .listNodes _ => .ok twoNodes
  | .cordon _ => .ok ()
  | _ => .error (.transport "timed out")

theorem cordon_guardrails_twoNodes :
    ∃ before node after, twoNodes = before ++ node :: after ∧ nodeName node = "gpu-0" ∧
      Guardrails twoNodes 600 enforcing.policy parseTime []
        (cordons ((decide twoNodes 600 enforcing.policy parseTime []).take before.length)) node := by
  have hsend : ((runNodes enforcing 600).call enforcing.start).Sends
      [⟨.listNodes enforcing.nodeLabelSelector, .ok twoNodes⟩] (.cordon "gpu-0") :=
    Program.next_sends (by decide +kernel)
  obtain ⟨-, nodes, hhead, h⟩ := cordon_guardrails .nil hsend
  cases hhead
  exact h (by decide +kernel) (by decide +kernel)

/-! ### The rate limit along a run -/

/-- The clocks of all cordons that succeeded in some calls. -/
def cordonClocks {α : Type} (calls : List (Call Api Exc GuardObject ℚ α)) : List ℚ :=
  calls.flatMap fun call => List.replicate (cordonsDone call.events) call.arg

/-- What a call does to the record of cordons, and within which budget. -/
def RecordKept (cfg : Config) (now : ℚ) (g : GuardObject) (es : List (Event Api)) (g' : GuardObject) : Prop :=
  (g'.recentCordons = g.recentCordons ++ List.replicate (cordonsDone es) now ∨
    g'.recentCordons = (g.recentCordons ++ List.replicate (cordonsDone es) now).filter
      (now - (cfg.rateLimitWindowSeconds : ℚ) ≤ ·)) ∧
    (cordonsDone es : ℤ) ≤
      max 0 (cfg.maxCordonsPerWindow - inWindow g.recentCordons now cfg.rateLimitWindowSeconds)

/-- When every call keeps the record, the clocks of all cordons decide like it at
every later clock, and they respect the limit. -/
theorem cordonClocks_limited {α : Type} {m : ℚ → Method Api Exc GuardObject α}
    {calls : List (Call Api Exc GuardObject ℚ α)}
    (hkept : ∀ now g, (m now).wp (fun _ _ => True) (fun es _ g' => RecordKept cfg now g es g') g [])
    (hwindow : 0 < cfg.rateLimitWindowSeconds) (hrun : Calls m cfg.start calls g)
    (hclock : (calls.map (·.arg)).Pairwise (· ≤ ·)) :
    (∀ t, (∀ call ∈ calls, call.arg ≤ t) → inWindow g.recentCordons t cfg.rateLimitWindowSeconds =
        inWindow (cordonClocks calls) t cfg.rateLimitWindowSeconds) ∧
      Limited (cfg.rateLimitWindowSeconds : ℚ) cfg.maxCordonsPerWindow (cordonClocks calls) := by
  revert hclock
  refine hrun.invariant (P := fun calls g => (calls.map (·.arg)).Pairwise (· ≤ ·) →
    (∀ t, (∀ call ∈ calls, call.arg ≤ t) → inWindow g.recentCordons t cfg.rateLimitWindowSeconds =
        inWindow (cordonClocks calls) t cfg.rateLimitWindowSeconds) ∧
      Limited (cfg.rateLimitWindowSeconds : ℚ) cfg.maxCordonsPerWindow (cordonClocks calls))
    (fun _ => ⟨fun _ _ => rfl, limited_nil⟩) fun calls g now ih => ?_
  refine Method.wp_post (hkept now g) fun es v g' _ h => ?_
  obtain ⟨hrecord, hbudget⟩ := h
  intro hclock
  rw [List.map_append, List.map_singleton] at hclock
  obtain ⟨hbefore, -, hlate⟩ := List.pairwise_append.mp hclock
  obtain ⟨hsame, hlimited⟩ := ih hbefore
  have hsame' : ∀ t, now ≤ t → inWindow g.recentCordons t cfg.rateLimitWindowSeconds =
      inWindow (cordonClocks calls) t cfg.rateLimitWindowSeconds := fun t ht =>
    hsame t fun call hc => (hlate _ (List.mem_map_of_mem hc) _ (List.mem_singleton_self _)).trans ht
  obtain ⟨hcounts, hgrown⟩ := hlimited.record (by exact_mod_cast hwindow) hsame' hbudget hrecord
  have hclocks : cordonClocks (calls ++ [⟨now, g, es, v⟩]) =
      cordonClocks calls ++ List.replicate (cordonsDone es) now := by
    simp [cordonClocks]
  rw [hclocks]
  exact ⟨fun t ht => hcounts t (ht _ (List.mem_append_right _ List.mem_cons_self)), hgrown⟩

theorem NodesDone.record {now : ℚ} {fs gs : List (Event Api)} {v : Except Exc NodesOutcome} {g' : GuardObject}
    (h : NodesDone cfg now g fs gs v g') (hnone : cordonsDone fs = 0) : RecordKept cfg now g gs g' := by
  obtain ⟨k, n, hdone, hk, hv⟩ := h
  rw [hnone, Nat.zero_add] at hdone
  rw [← hdone] at hk hv
  cases v with
  | error e =>
    obtain ⟨rfl, -⟩ := hv
    exact ⟨.inl rfl, hk⟩
  | ok outcome =>
    obtain ⟨rfl, -⟩ := hv
    exact ⟨.inr rfl, hk⟩

theorem runNodes_record (now : ℚ) (g : GuardObject) :
    (runNodes cfg now).wp (fun _ _ => True) (fun es _ g' => RecordKept cfg now g es g') g [] :=
  Method.wp_post (runNodes_wp trivial (fun _ _ _ _ _ _ _ => trivial) fun _ _ _ _ _ _ _ => trivial)
    fun _ _ _ _ h => h.record rfl

/-- The full record of a run decides like the kept one, at every later clock,
and it respects the limit. -/
theorem recorded_invariant (hwindow : 0 < cfg.rateLimitWindowSeconds)
    (hrun : Calls (runNodes cfg) cfg.start passes g) (hclock : (passes.map (·.arg)).Pairwise (· ≤ ·)) :
    (∀ t, (∀ pass ∈ passes, pass.arg ≤ t) → inWindow g.recentCordons t cfg.rateLimitWindowSeconds =
        inWindow (recorded passes) t cfg.rateLimitWindowSeconds) ∧
      Limited (cfg.rateLimitWindowSeconds : ℚ) cfg.maxCordonsPerWindow (recorded passes) :=
  cordonClocks_limited runNodes_record hwindow hrun hclock

/-- In every run with a clock that does not go back, each pass decides as if it
had the clocks of all cordons so far, and every half-open window of the length
of the rate limit holds at most the limit of them. -/
theorem recorded_rate_limit (hwindow : 0 < cfg.rateLimitWindowSeconds)
    (hrun : Calls (runNodes cfg) cfg.start passes g) (hclock : (passes.map (·.arg)).Pairwise (· ≤ ·)) :
    (∀ before pass after, passes = before ++ pass :: after →
        (∀ nodes, decide nodes pass.arg cfg.policy parseTime pass.object.recentCordons =
          decide nodes pass.arg cfg.policy parseTime (recorded before)) ∧
        ∀ outcome, pass.result = .ok outcome → outcome.decisions =
          decide outcome.nodes pass.arg cfg.policy parseTime (recorded before)) ∧
      ∀ x : ℚ,
        ((recorded passes).countP (fun t => x ≤ t ∧ t < x + cfg.rateLimitWindowSeconds) : ℤ) ≤
            max 0 cfg.maxCordonsPerWindow ∧
          ((recorded passes).countP (fun t => x < t ∧ t ≤ x + cfg.rateLimitWindowSeconds) : ℤ) ≤
            max 0 cfg.maxCordonsPerWindow := by
  refine ⟨fun before pass after heq => ?_, (recorded_invariant hwindow hrun hclock).2.window_le⟩
  subst heq
  obtain ⟨hbefore, g', hreturns⟩ := hrun.before
  rw [List.map_append, List.map_cons, List.pairwise_append] at hclock
  have hlate : ∀ p ∈ before, p.arg ≤ pass.arg := fun p hp =>
    hclock.2.2 _ (List.mem_map_of_mem hp) _ List.mem_cons_self
  have hsame := (recorded_invariant hwindow hbefore hclock.1).1 pass.arg hlate
  have hdecide : ∀ nodes, decide nodes pass.arg cfg.policy parseTime pass.object.recentCordons =
      decide nodes pass.arg cfg.policy parseTime (recorded before) := by
    intro nodes
    rw [decide, decide]
    simp only [Config.policy] at hsame ⊢
    rw [hsame]
  refine ⟨hdecide, fun outcome hok => ?_⟩
  rw [← hdecide]
  exact (Program.wp_returns (runNodes_kept pass.arg pass.object) hreturns).2.2 outcome hok

/-- The pass that cordons one of the two nodes. -/
def twoNodesPass : NodePass := Call.play (runNodes enforcing) twoNodesApi 600 enforcing.start

theorem recorded_rate_limit_twoNodes :
    (∀ before pass after, [twoNodesPass] = before ++ pass :: after →
        (∀ nodes, decide nodes pass.arg enforcing.policy parseTime pass.object.recentCordons =
          decide nodes pass.arg enforcing.policy parseTime (recorded before)) ∧
        ∀ outcome, pass.result = .ok outcome → outcome.decisions =
          decide outcome.nodes pass.arg enforcing.policy parseTime (recorded before)) ∧
      ∀ x : ℚ,
        ((recorded [twoNodesPass]).countP (fun t => x ≤ t ∧ t < x + enforcing.rateLimitWindowSeconds) : ℤ) ≤
            max 0 enforcing.maxCordonsPerWindow ∧
          ((recorded [twoNodesPass]).countP (fun t => x < t ∧ t ≤ x + enforcing.rateLimitWindowSeconds) : ℤ) ≤
            max 0 enforcing.maxCordonsPerWindow :=
  recorded_rate_limit (by decide) (Calls.nil.play twoNodesApi 600) (by simp)

example : recorded [twoNodesPass] = [600] := by decide +kernel

end GpuNodeHealth.Guard
