import GpuNodeHealth.Guard.LoopRequests
import GpuNodeHealth.Guard.Supervision

/-! One pass of the loop, stage by stage: the election, the nodes, the exporters. Any
of them may raise, and then the pass is over with what the stages so far have done;
what it found is published only when it gets through all of them. -/

namespace GpuNodeHealth.Guard

open Cluster Interaction

/-- What an exporter pass leaves behind. Its decisions are those of the supervisor on
the pods it listed. -/
def ExportersDone (cfg : Config) (now : ℚ) (g : GuardObject) (es fs : List (Event Api))
    (v : Except Exc (List PodDecision)) (g' : GuardObject) : Prop :=
  Supervised g es fs v g' ∧ ∀ decisions, v = .ok decisions → ∃ pods u ns selector after,
    fs = es ++ ⟨.listPods ns selector, .ok pods⟩ :: after ∧ Visited cfg now g.supervisor (probes pods after) decisions u

/-- How a pass ends, by the stage it gets to. -/
inductive LoopDone (cfg : Config) (now : ℚ) (g : GuardObject) :
    List (Event Api) → Except Exc Unit → GuardObject → Prop where
  | unelected {p : Prop} {fs : List (Event Api)} {leader : Leader} {e : Exc} (election : LeaseEvents cfg [] fs p) :
    LoopDone cfg now g fs (.error e) { g with leader }
  | stoodDown {p : Prop} {fs : List (Event Api)} {leader : Leader} (election : LeaseEvents cfg [] fs p) :
    LoopDone cfg now g fs (.ok ()) { g with leader, state := { g.state with isLeader := false, lastLoop := now } }
  | nodesRaised {p : Prop} {fs gs : List (Event Api)} {leader : Leader} {e : Exc} {g' : GuardObject}
    (election : LeaseEvents cfg [] fs p) (nodes : NodesDone cfg now { g with leader } fs gs (.error e) g') :
    LoopDone cfg now g gs (.error e) g'
  | exportersRaised {p : Prop} {fs gs hs : List (Event Api)} {leader : Leader} {outcome : NodesOutcome} {e : Exc}
    {g' g'' : GuardObject} (election : LeaseEvents cfg [] fs p)
    (nodes : NodesDone cfg now { g with leader } fs gs (.ok outcome) g')
    (exporters : ExportersDone cfg now g' gs hs (.error e) g'') : LoopDone cfg now g hs (.error e) g''
  | evaluated {p : Prop} {fs gs hs : List (Event Api)} {leader : Leader} {outcome : NodesOutcome}
    {exporterDecisions : List PodDecision} {g' g'' : GuardObject} (election : LeaseEvents cfg [] fs p)
    (nodes : NodesDone cfg now { g with leader } fs gs (.ok outcome) g')
    (exporters : ExportersDone cfg now g' gs hs (.ok exporterDecisions) g'') :
    LoopDone cfg now g hs (.ok ()) { g'' with state := { g''.state with
      isLeader := true
      lastLoop := now
      nodesWatched := outcome.nodes.length
      healthyCapacity := outcome.capacity
      decisions := outcome.decisions
      exporterDecisions
      nodeStates := nodeStates outcome.nodes
      cordonsTotal := g''.state.cordonsTotal + outcome.cordoned } }

variable {cfg : Config} {identity : String} {now : ℚ} {g : GuardObject} {es : List (Event Api)}

theorem runExporters_done :
    (runExporters cfg now).wp (fun _ _ => True) (ExportersDone cfg now g es) g es := by
  refine Method.wp_and (runExporters_wp fun _ _ _ _ => trivial) ?_
  unfold runExporters
  rw [Method.wp_bind]
  refine (wp_send (Req.listPods _ _)).mpr ⟨trivial, fun v => ?_⟩
  cases v with
  | error exc => exact fun _ h => by cases h
  | ok pods =>
    change Method.wp _ _ (_ >>= _) _ _
    rw [Method.wp_bind, Method.wp_on]
    refine Method.wp_post (evaluate_visited pods g.supervisor) fun fs v s _ hvisited => ?_
    obtain ⟨new, rfl, hvisited⟩ := hvisited
    cases v with
    | error e => exact fun _ h => by cases h
    | ok decisions =>
      obtain ⟨u, hvisited, -⟩ := hvisited decisions rfl
      refine Method.wp_bind_of (runPodDecisions_wp decisions fun _ _ _ _ => trivial) ?_ ?_
      · rintro gs _ g' ⟨more, rfl⟩ - decisions' h
        cases h
        exact ⟨pods, u, cfg.exporterNamespace, cfg.exporterLabelSelector, new ++ more, by simp, hvisited more⟩
      · exact fun _ _ _ _ _ _ h => by cases h

theorem loopOnce_done : (loopOnce cfg identity now).wp (fun _ _ => True) (LoopDone cfg now g) g [] := by
  refine Method.wp_bind_of (Q := fun fs _ g' => ∃ leader p, g' = { g with leader } ∧ LeaseEvents cfg [] fs p) ?_ ?_ ?_
  · rw [Method.wp_on]
    refine Method.wp_post (acquireOrRenew_wp trivial (fun _ => trivial) fun _ _ => trivial) ?_
    exact fun fs v leader _ h => ⟨leader, _, rfl, h.2⟩
  · rintro fs leads _ - ⟨leader, p, rfl, helection⟩
    cases leads with
    | false => exact .stoodDown helection
    | true =>
      refine Method.wp_bind_of (runNodes_wp trivial (fun _ _ _ _ _ _ _ => trivial) fun _ _ _ _ _ _ _ => trivial) ?_ ?_
      · intro gs outcome g' _ hnodes
        refine Method.wp_bind_of runExporters_done ?_ ?_
        · exact fun hs decisions g'' _ hexporters => .evaluated helection hnodes hexporters
        · exact fun hs e g'' _ hexporters => .exportersRaised helection hnodes hexporters
      · exact fun gs e g' _ hnodes => .nodesRaised helection hnodes
  · rintro fs e _ - ⟨leader, p, rfl, helection⟩
    exact .unelected helection

end GpuNodeHealth.Guard
