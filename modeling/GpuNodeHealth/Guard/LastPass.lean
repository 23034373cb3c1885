import GpuNodeHealth.Guard.Coherence
import GpuNodeHealth.Guard.NodeTurns

/-! What a guard publishes while it leads. It is what one of its passes found, with the
clock of that pass, and the pass has sent every cordon among it. -/

namespace GpuNodeHealth.Guard

open Cluster Interaction

/-- What is published is what the pass found of these nodes, and acted on. -/
structure Reflects (cfg : Config) (pass : LoopPass) (nodes : List Node) (state : State) : Prop where
  listed : fleet pass.events = some nodes
  clock : state.lastLoop = pass.arg
  decisions : state.decisions = decide nodes pass.arg cfg.policy parseTime pass.object.recentCordons
  nodeStates : state.nodeStates = Guard.nodeStates nodes
  sent : ∀ dec ∈ state.decisions, dec.action = .cordon → ∃ v, ⟨.cordon dec.node, v⟩ ∈ pass.events

variable {cfg : Config} {identity : String} {now : ℚ} {g : GuardObject} {es : List (Event Api)} {passes : List LoopPass}
  {decisions : List Decision} {dec : Decision}

/-! ### What is sent -/

theorem TurnEvents.sent {cut : Bool} (h : TurnEvents dec es cut) (hact : dec.action = .cordon) :
    ∃ v, (⟨.cordon dec.node, v⟩ : Event Api) ∈ es := by
  cases h with
  | silent told => exact absurd (.inl hact) told
  | refused act => exact absurd hact act
  | raised => exact ⟨_, List.mem_singleton_self _⟩
  | acted => exact ⟨_, List.mem_cons_self⟩

/-- A node stage that came to its end has sent every cordon it decided. -/
theorem PassEvents.sent (h : PassEvents decisions es false) (hdec : dec ∈ decisions) (hact : dec.action = .cordon) :
    ∃ v, (⟨.cordon dec.node, v⟩ : Event Api) ∈ es := by
  generalize hcut : false = cut at h
  induction h with
  | nil => cases hdec
  | cons turn _ ih =>
    rcases List.mem_cons.mp hdec with rfl | hrest
    · obtain ⟨v, hv⟩ := turn.sent hact
      exact ⟨v, List.mem_append_left _ hv⟩
    · obtain ⟨v, hv⟩ := ih hrest hcut
      exact ⟨v, List.mem_append_right _ hv⟩
  | cut => cases hcut

/-- Every cordon of a node stage has been sent. -/
def OutcomeSent (fs : List (Event Api)) (v : Except Exc NodesOutcome) (_ : GuardObject) : Prop :=
  ∀ outcome, v = .ok outcome → ∀ dec ∈ outcome.decisions, dec.action = .cordon →
    ∃ w, (⟨.cordon dec.node, w⟩ : Event Api) ∈ fs

theorem runNodes_sent : (runNodes cfg now).wp (fun _ _ => True) OutcomeSent g es := by
  rw [runNodes, Method.wp_bind]
  refine (wp_send (Req.listNodes _)).mpr ⟨trivial, fun v => ?_⟩
  cases v with
  | error exc => exact fun _ h => by cases h
  | ok nodes =>
    change Method.wp (fun _ _ => True) _
      (runDecisions cfg now (decide nodes now cfg.policy parseTime g.recentCordons) >>= _) g _
    refine Method.wp_bind_of (runDecisions_events _) ?_ ?_
    · rintro _ c g' - ⟨gs, rfl, hgs⟩ outcome houtcome dec hdec hact
      cases houtcome
      obtain ⟨v, hv⟩ := hgs.sent hdec hact
      exact ⟨v, List.mem_append_right _ hv⟩
    · exact fun _ _ _ _ _ _ h => by cases h

theorem loopOnce_sent : (loopOnce cfg identity now).wp (fun _ _ => True) (fun fs v g' => v = .ok () →
    g'.state.isLeader = true → ∀ dec ∈ g'.state.decisions, dec.action = .cordon →
      ∃ w, (⟨.cordon dec.node, w⟩ : Event Api) ∈ fs) g [] := by
  refine Method.wp_bind_of (Q := fun _ _ _ => True) ?_ ?_ ?_
  · rw [Method.wp_on]
    exact Method.wp_post (acquireOrRenew_wp trivial (fun _ => trivial) fun _ _ => trivial) fun _ _ _ _ _ => trivial
  · intro fs leads g' _ _
    cases leads with
    | false => exact fun _ hleads => by cases hleads
    | true =>
      refine Method.wp_bind_of runNodes_sent ?_ ?_
      · intro gs outcome g'' _ hnodes
        refine Method.wp_bind_of (runExporters_wp fun _ _ _ _ => trivial) ?_ ?_
        · intro hs exporters g''' hhs _ _ _ dec hdec hact
          obtain ⟨w, hw⟩ := hnodes outcome rfl dec hdec hact
          exact ⟨w, hhs.subset hw⟩
        · exact fun _ _ _ _ _ h => by cases h
      · exact fun _ _ _ _ _ h => by cases h
  · exact fun _ _ _ _ _ h => by cases h

/-! ### What is published -/

/-- An iteration publishes what it found, stands down, or leaves what is published alone. -/
theorem iterate_publishes : (iterate cfg identity now).wp (fun _ _ => True) (fun fs v g' =>
    g'.state.isLeader = true →
      (∃ nodes, Reflects cfg ⟨now, g, fs, v⟩ nodes g'.state) ∨
        ∃ loopErrors eventErrors, g'.state = { g.state with loopErrors, eventErrors }) g [] := by
  refine Method.wp_tryCatch_of (Method.wp_and loopOnce_wp loopOnce_sent) ?_ ?_
  · rintro fs u g' - ⟨⟨-, hstate⟩ | ⟨-, hclock, nodes, pods, -, -, -, before, after, hfleet, -, hdec, -, hstates, -⟩,
      hsent⟩ hleads
    · rw [hstate] at hleads
      cases hleads
    · exact .inl ⟨nodes, hfleet, hclock, hdec, hstates, hsent rfl hleads⟩
  · rintro fs e g' - ⟨⟨errors, hstate⟩, -⟩ -
    exact .inr ⟨g'.state.loopErrors + 1, errors, by simp [hstate]⟩

/-- In every run, what a leading guard publishes is what a pass found and acted on. -/
theorem run_leads (hrun : Calls (iterate cfg identity) cfg.start passes g) (hleads : g.state.isLeader = true) :
    ∃ pass ∈ passes, ∃ nodes, Reflects cfg pass nodes g.state := by
  revert hleads
  refine hrun.invariant (P := fun passes g => g.state.isLeader = true →
    ∃ pass ∈ passes, ∃ nodes, Reflects cfg pass nodes g.state) (fun h => by cases h) fun passes g now ih => ?_
  refine Method.wp_post iterate_publishes fun fs v g' _ h hleads => ?_
  rcases h hleads with ⟨nodes, hreflects⟩ | ⟨loopErrors, eventErrors, hstate⟩
  · exact ⟨_, List.mem_append_right _ (List.mem_singleton_self _), nodes, hreflects⟩
  · rw [hstate] at hleads ⊢
    obtain ⟨pass, hpass, nodes, hreflects⟩ := ih hleads
    exact ⟨pass, List.mem_append_left _ hpass, nodes, hreflects.listed, hreflects.clock, hreflects.decisions,
      hreflects.nodeStates, hreflects.sent⟩

end GpuNodeHealth.Guard
