import GpuNodeHealth.Guard.Capacity
import GpuNodeHealth.Guard.LoopPass
import GpuNodeHealth.Interaction.Calls

/-! What the guard publishes about its passes. The published state is written at
the end of a pass, after the exporters; the cordons happen before them. So the
state is that of the passes as long as no pass that listed the fleet is aborted. -/

namespace GpuNodeHealth.Guard

open Cluster Interaction

/-- An iteration of `run_forever`, called with its clock. -/
abbrev LoopPass := Call Api Exc GuardObject ℚ Unit

/-- The fleet a pass listed. -/
def fleet (es : List (Event Api)) : Option (List Node) :=
  es.findSome? fun
    | ⟨.listNodes _, .ok nodes⟩ => some nodes
    | _ => none

/-- The node stage ran to its end: the exporters came up for a pass. -/
def nodeStageCompleted (es : List (Event Api)) : Bool :=
  es.any fun
    | ⟨.listPods .., _⟩ => true
    | _ => false

/-- The cordons that succeeded since the process started. -/
def cordonsPerformed (passes : List LoopPass) : ℕ := (passes.map fun pass => cordonsDone pass.events).sum

/-- The counter is that of the cordons performed, and what is published about
the nodes is what the last pass found, if its node stage completed. -/
def Published (cfg : Config) (passes : List LoopPass) (g : GuardObject) : Prop :=
  g.state.cordonsTotal = cordonsPerformed passes ∧
    ∀ before pass nodes, passes = before ++ [pass] → fleet pass.events = some nodes →
      nodeStageCompleted pass.events = true →
        g.state.decisions = decide nodes pass.arg cfg.policy parseTime pass.object.recentCordons ∧
          g.state.nodeStates = nodeStates nodes

variable {cfg : Config} {identity : String} {now : ℚ} {g : GuardObject} {es fs : List (Event Api)}

/-- A round of the election lists no fleet. -/
theorem LeaseEvents.fleet {p : Prop} (h : LeaseEvents cfg [] fs p) : fleet fs = none := by
  obtain ⟨read, ⟨rfl, -⟩ | ⟨write, w, hw, rfl, -⟩⟩ := h
  · rfl
  · cases write <;> first | rfl | cases hw

theorem fleet_listed {r : String} {nodes : List Node} (hes : fleet es = none)
    (h : es ++ [⟨.listNodes r, .ok nodes⟩] <+: fs) : fleet fs = some nodes := by
  obtain ⟨gs, rfl⟩ := h
  rw [fleet] at hes
  simp [fleet, List.findSome?_append, hes]

/-- What an iteration publishes: its outcome, unless a failure aborts it. -/
theorem iterate_wp :
    (iterate cfg identity now).wp (fun _ _ => True) (fun fs _ g' =>
      g'.state.cordonsTotal = g.state.cordonsTotal ∧ Aborted fs ∨
      g'.state.cordonsTotal = g.state.cordonsTotal + cordonsDone fs ∧
        ∀ nodes, fleet fs = some nodes →
          g'.state.decisions = decide nodes now cfg.policy parseTime g.recentCordons ∧
            g'.state.nodeStates = nodeStates nodes) g [] := by
  refine Method.wp_tryCatch_of loopOnce_done ?_ ?_
  · intro fs v g' _ h
    cases h with
    | stoodDown election =>
      have hnone : cordonsDone fs = 0 := election.cordonsDone
      exact .inr ⟨by simp [hnone], by simp [election.fleet]⟩
    | evaluated election nodes exporters =>
      obtain ⟨k, n, hdone, -, rfl, hlisted, hdec, -, rfl⟩ := nodes
      obtain ⟨⟨⟨hquiet, -⟩, supervisor, failed, rfl⟩, hreturned⟩ := exporters
      obtain ⟨pods, u, ns, selector, after, rfl, -⟩ := hreturned _ rfl
      refine .inr ⟨?_, fun nodes hnodes => ?_⟩
      · rw [hquiet, hdone, election.cordonsDone]
        simp [GuardObject.supervised, GuardObject.pruned, GuardObject.noted, cordonsDone]
      · rw [fleet_listed election.fleet (hlisted.trans (List.prefix_append _ _))] at hnodes
        cases hnodes
        exact ⟨hdec, rfl⟩
  · intro fs e g' _ h
    cases h with
    | unelected election =>
      have hnone : cordonsDone fs = 0 := election.cordonsDone
      exact .inr ⟨by simp [hnone], by simp [election.fleet]⟩
    | nodesRaised election nodes =>
      obtain ⟨k, n, hdone, -, rfl, haborted | ⟨rfl, exc, rfl⟩⟩ := nodes
      · exact .inl ⟨rfl, haborted⟩
      · -- the fleet could not be listed
        have hfleet := election.fleet
        rw [fleet] at hfleet
        have hnone := hdone.trans election.cordonsDone
        exact .inr ⟨hnone.symm ▸ rfl,
          by simp [fleet, List.findSome?_append, hfleet]⟩
    | exportersRaised election nodes exporters =>
      obtain ⟨k, n, -, -, rfl, -⟩ := nodes
      obtain ⟨⟨⟨-, haborted⟩, supervisor, failed, rfl⟩, -⟩ := exporters
      exact .inl ⟨rfl, haborted _ rfl⟩

/-- In every run in which no failure aborts a pass that cordoned a node or got
through its node stage, what the guard publishes is true of its passes. -/
theorem published_of_not_aborted {passes : List LoopPass} (hrun : Calls (iterate cfg identity) cfg.start passes g)
    (habort : ∀ pass ∈ passes, Aborted pass.events →
      cordonsDone pass.events = 0 ∧ nodeStageCompleted pass.events = false) : Published cfg passes g := by
  revert habort
  refine hrun.invariant (P := fun passes g => (∀ pass ∈ passes, Aborted pass.events →
    cordonsDone pass.events = 0 ∧ nodeStageCompleted pass.events = false) → Published cfg passes g)
    (fun _ => ⟨rfl, fun _ _ _ h => by simp at h⟩) fun passes g now ih => ?_
  refine Method.wp_post (iterate_wp (g := g)) fun fs v g' _ h habort => ?_
  obtain ⟨hbefore, -⟩ := ih fun pass hp => habort pass (by simp [hp])
  rcases h with ⟨htotal, haborted⟩ | ⟨htotal, hnodes⟩
  · obtain ⟨hnone, hincomplete⟩ := habort _ (List.mem_append_right _ List.mem_cons_self) haborted
    refine ⟨by simp [htotal, hbefore, cordonsPerformed, hnone], fun before pass nodes heq _ hcompleted => ?_⟩
    obtain ⟨rfl, hpass⟩ := List.append_inj' heq rfl
    cases hpass
    rw [hincomplete] at hcompleted
    cases hcompleted
  · refine ⟨by simp [htotal, hbefore, cordonsPerformed], fun before pass nodes heq hfleet _ => ?_⟩
    obtain ⟨rfl, hpass⟩ := List.append_inj' heq rfl
    cases hpass
    exact hnodes nodes hfleet

/-! ### A pass that is aborted -/

/-- A cluster of the two nodes without a Lease, whose exporter pods cannot be
listed. -/
def podlessApi (_ : List (Event Api)) : (r : Req) → Except Exc (Ans r)
  | .getLease .. => .error (.httpError 404 "not found")
  | .createLease .. => .ok ()
  | .listNodes _ => .ok twoNodes
  | .cordon _ => .ok ()
  | .createEvent .. => .ok ()
  | _ => .error (.transport "timed out")

/-- The first pass cordons a node, then fails to list the exporter pods: the
cordon never shows. -/
theorem cordon_unpublished : ¬∀ (cfg : Config) (identity : String) (passes : List LoopPass) (g : GuardObject),
    Calls (iterate cfg identity) cfg.start passes g → Published cfg passes g := by
  intro h
  have hrun : Calls (iterate enforcing "guard") enforcing.start [Call.play _ podlessApi 600 _] _ :=
    Calls.nil.play podlessApi 600
  have hcordoned :
      (((iterate enforcing "guard" 600).call enforcing.start).play podlessApi []).1.2.state.cordonsTotal ≠
        cordonsPerformed [Call.play (iterate enforcing "guard") podlessApi 600 enforcing.start] := by decide +kernel
  exact hcordoned (h _ _ _ _ hrun).1

/-- A cluster of the two nodes without a Lease and without exporters. -/
def quietApi (es : List (Event Api)) : (r : Req) → Except Exc (Ans r)
  | .listPods .. => .ok []
  | r => podlessApi es r

theorem published_of_not_aborted_twoNodes :
    Published enforcing [Call.play (iterate enforcing "guard") quietApi 600 enforcing.start]
      (((iterate enforcing "guard" 600).call enforcing.start).play quietApi []).1.2 :=
  published_of_not_aborted (Calls.nil.play quietApi 600) (by decide +kernel)

end GpuNodeHealth.Guard
