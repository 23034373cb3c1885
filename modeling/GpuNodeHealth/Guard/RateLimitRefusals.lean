import GpuNodeHealth.Guard.Budget
import GpuNodeHealth.Guard.NodeRuns
import GpuNodeHealth.Guard.NodeTurns

/-! What a refusal for the rate limit is worth. Its message says that so many
cordons already happened within the window. The budget is spent when a cordon is
decided, but only a PATCH that succeeded makes it happen, so the message is true
of every pass that did not lose one, and of those refused by history alone. -/

namespace GpuNodeHealth.Guard

open Cluster Interaction

/-- The cordons of a record with timestamps in the window that ends at a clock. -/
def inWindowAt (record : List ℚ) (now : ℚ) (windowSeconds : ℤ) : ℕ :=
  record.countP fun ts => now - windowSeconds < ts ∧ ts ≤ now

/-- When the pass refuses a node for the rate limit, the limit has been reached
by cordons that happened, those of the pass included. -/
def RefusalTrue (cfg : Config) (before : List NodePass) (pass : NodePass) (outcome : NodesOutcome) : Prop :=
  (∃ dec ∈ outcome.decisions, dec.reason = .rateLimit) →
    cfg.maxCordonsPerWindow ≤ inWindowAt (recorded (before ++ [pass])) pass.arg cfg.rateLimitWindowSeconds

variable {cfg : Config} {passes : List NodePass} {g : GuardObject}

/-! ### The decisions of a pass -/

/-- A loop refuses for the rate limit exactly when an eligible node comes up
after the candidates before it have spent the budget. -/
theorem exists_rateLimit_iff {nodes : List Node} {now : ℚ} {cfg : PolicyConfig} {parseTime : TimeParser}
    {recentCordons : List ℚ} :
    (∃ dec ∈ decide nodes now cfg parseTime recentCordons, dec.reason = .rateLimit) ↔
      ∃ before node after, nodes = before ++ node :: after ∧ Eligible nodes now cfg parseTime node ∧
        (openingBudget now cfg recentCordons ≤ 0 ∨
          openingBudget now cfg recentCordons ≤ candidates nodes now cfg parseTime before) := by
  have hturn : ∀ before node, (decideNode nodes now cfg parseTime (openingBudget now cfg recentCordons -
      cordons (decideLoop nodes now cfg parseTime (openingBudget now cfg recentCordons) before)) node).1.reason =
        .rateLimit ↔ Eligible nodes now cfg parseTime node ∧ (openingBudget now cfg recentCordons ≤ 0 ∨
          openingBudget now cfg recentCordons ≤ candidates nodes now cfg parseTime before) := by
    intro before node
    have hspent := @cordons_decideLoop nodes now cfg parseTime (openingBudget now cfg recentCordons) before
    rw [decideNode_reason, outcome_settle_iff (by decide), settle_rateLimit_iff]
    refine and_congr_right fun _ => ?_
    omega
  constructor
  · rintro ⟨dec, hdec, hreason⟩
    obtain ⟨before, node, after, hnodes, rfl⟩ := mem_decideLoop hdec
    exact ⟨before, node, after, hnodes, (hturn before node).mp hreason⟩
  · rintro ⟨before, node, after, hnodes, h⟩
    have hat := @getElem?_decideLoop nodes now cfg parseTime (openingBudget now cfg recentCordons) before after node
    rw [← hnodes] at hat
    exact ⟨_, List.mem_of_getElem? hat, (hturn before node).mpr h⟩

theorem candidates_le_of_split {nodes : List Node} {now : ℚ} {cfg : PolicyConfig} {parseTime : TimeParser}
    {before after : List Node} {node : Node} (h : nodes = before ++ node :: after) :
    candidates nodes now cfg parseTime before ≤ candidates nodes now cfg parseTime nodes := by
  have hsub : before.Sublist nodes := by
    rw [h]
    exact List.sublist_append_left _ _
  exact hsub.countP_le

/-! ### The record -/

/-- What the guard keeps are clocks of cordons it recorded. -/
theorem mem_recorded (hrun : Calls (runNodes cfg) cfg.start passes g) :
    ∀ ts ∈ g.recentCordons, ts ∈ recorded passes := by
  refine hrun.invariant (P := fun passes g => ∀ ts ∈ g.recentCordons, ts ∈ recorded passes)
    (fun _ h => by cases h) fun passes g now ih => ?_
  refine Method.wp_post (runNodes_kept now g) fun es v g' _ h ts hts => ?_
  have hgrown : ts ∈ g.recentCordons ++ List.replicate (cordonsDone es) now := by
    rw [h.1] at hts
    cases v with
    | error e => exact hts
    | ok outcome => exact (List.mem_filter.mp hts).1
  have hsnoc : recorded (passes ++ [⟨now, g, es, v⟩]) = recorded passes ++ List.replicate (cordonsDone es) now := by
    simp [recorded]
  rw [hsnoc]
  rcases List.mem_append.mp hgrown with hts | hts
  · exact List.mem_append_left _ (ih ts hts)
  · exact List.mem_append_right _ hts

theorem recorded_arg {ts : ℚ} (h : ts ∈ recorded passes) : ∃ pass ∈ passes, pass.arg = ts := by
  obtain ⟨pass, hp, hts⟩ := List.mem_flatMap.mp h
  exact ⟨pass, hp, (List.eq_of_mem_replicate hts).symm⟩

/-- On a record of the past, a window that ends now is the window of the policy. -/
theorem inWindowAt_eq {record : List ℚ} {now : ℚ} (windowSeconds : ℤ) (h : ∀ ts ∈ record, ts ≤ now) :
    inWindowAt record now windowSeconds = inWindow record now windowSeconds := by
  refine List.countP_congr fun ts hts => ?_
  simp only [decide_eq_true_eq, h ts hts, and_true]
  exact sub_lt_comm

theorem inWindow_eq_zero {record : List ℚ} {now : ℚ} {windowSeconds : ℤ} (h : ∀ ts ∈ record, ts ≤ now)
    (hwindow : windowSeconds ≤ 0) : inWindow record now windowSeconds = 0 := by
  refine List.countP_eq_zero.mpr fun ts hts => ?_
  have hneg : (windowSeconds : ℚ) ≤ 0 := by exact_mod_cast hwindow
  have hpast := h ts hts
  simp only [decide_eq_true_eq, not_lt]
  linarith

/-- A pass of a run decides by the cordons recorded before it. -/
theorem inWindow_recorded (hrun : Calls (runNodes cfg) cfg.start passes g)
    (hclock : (passes.map (·.arg)).Pairwise (· ≤ ·)) {t : ℚ} (ht : ∀ pass ∈ passes, pass.arg ≤ t) :
    inWindow g.recentCordons t cfg.rateLimitWindowSeconds =
      inWindow (recorded passes) t cfg.rateLimitWindowSeconds := by
  have hpast : ∀ ts ∈ recorded passes, ts ≤ t := by
    intro ts hts
    obtain ⟨pass, hp, rfl⟩ := recorded_arg hts
    exact ht pass hp
  by_cases hwindow : 0 < cfg.rateLimitWindowSeconds
  · exact (recorded_invariant hwindow hrun hclock).1 t ht
  · rw [inWindow_eq_zero hpast (not_lt.mp hwindow),
      inWindow_eq_zero (fun ts hts => hpast ts (mem_recorded hrun ts hts)) (not_lt.mp hwindow)]

theorem inWindowAt_recorded_snoc (before : List NodePass) (pass : NodePass) :
    inWindowAt (recorded (before ++ [pass])) pass.arg cfg.rateLimitWindowSeconds =
      inWindowAt (recorded before) pass.arg cfg.rateLimitWindowSeconds +
        if 0 < cfg.rateLimitWindowSeconds then cordonsDone pass.events else 0 := by
  have hsnoc : recorded (before ++ [pass]) = recorded before ++ List.replicate (cordonsDone pass.events) pass.arg := by
    simp [recorded]
  rw [hsnoc, inWindowAt, List.countP_append]
  simp [inWindowAt, List.countP_replicate]

/-! ### The pass -/

/-- A pass with a result sent a PATCH for every cordon it decided. -/
theorem runNodes_cordons {now : ℚ} {es : List (Event Api)} {outcome : NodesOutcome} {g' : GuardObject}
    (hreturns : ((runNodes cfg now).call g).Returns es (.ok outcome, g')) :
    outcome.decisions = decide outcome.nodes now cfg.policy Cluster.parseTime g.recentCordons ∧
      cordonsDone es + cordonsFailed es = cordons outcome.decisions := by
  have hwp : (runNodes cfg now).wp (fun _ _ => True) (NodesDone cfg now g []) g [] :=
    runNodes_wp trivial (fun _ _ _ _ _ _ _ => trivial) fun _ _ _ _ _ _ _ => trivial
  obtain ⟨k, n, -, -, -, hlisted, hdec, -⟩ := Program.wp_returns hwp hreturns
  obtain ⟨gs, rfl, hpass⟩ := Program.wp_returns runNodes_events hreturns outcome.nodes (fleet_listed rfl hlisted)
  rw [← hdec] at hpass
  exact ⟨hdec, hpass.cordons⟩

/-- The budget of a pass, by the cordons that happened before it. -/
theorem openingBudget_recorded (hrun : Calls (runNodes cfg) cfg.start passes g)
    (hclock : (passes.map (·.arg)).Pairwise (· ≤ ·)) {t : ℚ} (ht : ∀ pass ∈ passes, pass.arg ≤ t) :
    openingBudget t cfg.policy g.recentCordons =
      cfg.maxCordonsPerWindow - inWindowAt (recorded passes) t cfg.rateLimitWindowSeconds := by
  have hrecord : ∀ ts ∈ recorded passes, ts ≤ t := by
    intro ts hts
    obtain ⟨p, hp, rfl⟩ := recorded_arg hts
    exact ht p hp
  rw [inWindowAt_eq _ hrecord, ← inWindow_recorded hrun hclock ht]
  rfl

/-- A pass with a result sends a PATCH to as many candidates as the budget allows. -/
theorem runNodes_attempts {now : ℚ} {es : List (Event Api)} {outcome : NodesOutcome} {g' : GuardObject}
    (hreturns : ((runNodes cfg now).call g).Returns es (.ok outcome, g')) :
    (cordonsDone es : ℤ) + cordonsFailed es = min (max 0 (openingBudget now cfg.policy g.recentCordons))
      (candidates outcome.nodes now cfg.policy Cluster.parseTime outcome.nodes) := by
  obtain ⟨hdec, hcordons⟩ := runNodes_cordons hreturns
  have hdecided := @cordons_decideLoop outcome.nodes now cfg.policy Cluster.parseTime
    (openingBudget now cfg.policy g.recentCordons) outcome.nodes
  rw [← hdecided]
  exact_mod_cast hcordons.trans (congrArg cordons hdec)

/-- In every run with a clock that does not go back, a pass tells the truth when
it refuses for the rate limit if and only if the cordons before it had reached
the limit, or no eligible node comes after candidates that spend what is left,
or the window is not empty and every PATCH of the pass succeeded. -/
theorem refusalTrue_iff (hrun : Calls (runNodes cfg) cfg.start passes g)
    (hclock : (passes.map (·.arg)).Pairwise (· ≤ ·)) {before after : List NodePass} {pass : NodePass}
    (hpasses : passes = before ++ pass :: after) {outcome : NodesOutcome} (hok : pass.result = .ok outcome) :
    RefusalTrue cfg before pass outcome ↔
      (cfg.maxCordonsPerWindow ≤ inWindowAt (recorded before) pass.arg cfg.rateLimitWindowSeconds ∨
        (∀ earlier node later, outcome.nodes = earlier ++ node :: later →
          Eligible outcome.nodes pass.arg cfg.policy Cluster.parseTime node →
            (inWindowAt (recorded before) pass.arg cfg.rateLimitWindowSeconds : ℤ) +
              candidates outcome.nodes pass.arg cfg.policy Cluster.parseTime earlier < cfg.maxCordonsPerWindow) ∨
        0 < cfg.rateLimitWindowSeconds ∧ cordonsFailed pass.events = 0) := by
  subst hpasses
  obtain ⟨hbefore, g', hreturns⟩ := hrun.before
  rw [hok] at hreturns
  obtain ⟨hdec, -⟩ := runNodes_cordons hreturns
  rw [List.map_append, List.map_cons, List.pairwise_append] at hclock
  have hpast : ∀ p ∈ before, p.arg ≤ pass.arg := fun p hp =>
    hclock.2.2 _ (List.mem_map_of_mem hp) _ List.mem_cons_self
  have hopening := openingBudget_recorded hbefore hclock.1 hpast
  have hcount := runNodes_attempts hreturns
  rw [hopening] at hcount
  rw [RefusalTrue, hdec, exists_rateLimit_iff, hopening, inWindowAt_recorded_snoc]
  constructor
  · intro htrue
    by_contra hnone
    push Not at hnone
    obtain ⟨hlimit, ⟨earlier, node, later, hnodes, helig, hspent⟩, hlost⟩ := hnone
    have hle := @candidates_le_of_split _ pass.arg cfg.policy Cluster.parseTime _ _ _ hnodes
    have hreached := htrue ⟨earlier, node, later, hnodes, helig, by omega⟩
    split_ifs at hreached with hwindow
    · have hfailed := hlost hwindow
      push_cast at hreached
      omega
    · simp only [Nat.add_zero] at hreached
      omega
  · rintro h ⟨earlier, node, later, hnodes, helig, hspent⟩
    have hle := @candidates_le_of_split _ pass.arg cfg.policy Cluster.parseTime _ _ _ hnodes
    push_cast
    rcases h with h | h | ⟨hwindow, hnone⟩
    · split_ifs <;> omega
    · have hroom := h earlier node later hnodes helig
      split_ifs <;> omega
    · rw [if_pos hwindow]
      omega

/-! ### A cordon that keeps failing -/

/-- A cluster with two sick nodes that refuses every cordon. -/
def unpatchableApi (_ : List (Event Api)) : (r : Req) → Except Exc (Ans r)
  | .listNodes _ => .ok sickPair
  | .cordon _ => .error (.httpError 403 "forbidden")
  | .createEvent .. => .ok ()
  | _ => .error (.transport "timed out")

/-- The pass that fails to cordon the first node and then refuses the second. -/
def lostPass : NodePass := Call.play (runNodes enforcing) unpatchableApi 600 enforcing.start

theorem lostPass_result : ∃ outcome, lostPass.result = .ok outcome ∧
    outcome.decisions.map (·.reason) = [.cordon, .rateLimit, .healthy] := by
  have hreasons : lostPass.result.toOption.map (fun outcome => outcome.decisions.map (·.reason)) =
      some [.cordon, .rateLimit, .healthy] := by decide +kernel
  obtain ⟨outcome, hok, h⟩ := Option.map_eq_some_iff.mp hreasons
  cases hresult : lostPass.result with
  | error e => rw [hresult] at hok; cases hok
  | ok o =>
    rw [hresult] at hok
    cases hok
    exact ⟨outcome, rfl, h⟩

theorem refusalTrue_iff_lostPass : ∃ outcome, lostPass.result = .ok outcome ∧
    (RefusalTrue enforcing [] lostPass outcome ↔
      (enforcing.maxCordonsPerWindow ≤ inWindowAt (recorded []) lostPass.arg enforcing.rateLimitWindowSeconds ∨
        (∀ earlier node later, outcome.nodes = earlier ++ node :: later →
          Eligible outcome.nodes lostPass.arg enforcing.policy Cluster.parseTime node →
            (inWindowAt (recorded []) lostPass.arg enforcing.rateLimitWindowSeconds : ℤ) +
              candidates outcome.nodes lostPass.arg enforcing.policy Cluster.parseTime earlier <
                enforcing.maxCordonsPerWindow) ∨
        0 < enforcing.rateLimitWindowSeconds ∧ cordonsFailed lostPass.events = 0)) := by
  obtain ⟨outcome, hok, -⟩ := lostPass_result
  exact ⟨outcome, hok, @refusalTrue_iff enforcing [lostPass] _ (Calls.nil.play unpatchableApi 600) (by simp) [] []
    lostPass rfl outcome hok⟩

/-- The refusal says that one cordon happened within the hour, and none did. -/
theorem lostPass_refusal_false : ¬∀ (cfg : Config) (passes : List NodePass) (g : GuardObject),
    Calls (runNodes cfg) cfg.start passes g → (passes.map (·.arg)).Pairwise (· ≤ ·) →
      ∀ before pass after outcome, passes = before ++ pass :: after → pass.result = .ok outcome →
        RefusalTrue cfg before pass outcome := by
  intro h
  obtain ⟨outcome, hok, hreasons⟩ := lostPass_result
  have htrue := h enforcing [lostPass] _ (Calls.nil.play unpatchableApi 600) (by simp) [] lostPass [] outcome rfl hok
  have hrefused : ∃ dec ∈ outcome.decisions, dec.reason = .rateLimit :=
    List.mem_map.mp (hreasons ▸ by decide)
  have hnone : inWindowAt (recorded [lostPass]) lostPass.arg enforcing.rateLimitWindowSeconds = 0 := by decide +kernel
  have hreached := htrue hrefused
  rw [List.nil_append, hnone] at hreached
  exact absurd hreached (by decide)

end GpuNodeHealth.Guard
