import GpuNodeHealth.Guard.Publishing

/-! Whether the published clock is that of what is published. An evaluation
publishes its outcome with its clock; a pass that stands down publishes nothing
but its own clock, and one that raises nothing at all. So the clock is that of
the latest pass that returned, and the outcome that of the latest evaluation. -/

namespace GpuNodeHealth.Guard

open Cluster Interaction

/-- A call of `loop_once`, with its clock. -/
abbrev LoopCall := Call Api Exc GuardObject ℚ Unit

namespace LoopCall

def returned (call : LoopCall) : Bool := call.result.isOk

/-- The call completed an evaluation: it listed the fleet, and did not raise. -/
def evaluated (call : LoopCall) : Bool := call.returned && (fleet call.events).isSome

/-- What is published of the nodes and the exporters is the outcome of the call. -/
def Produced (cfg : Config) (call : LoopCall) (published : State) : Prop :=
  ∃ nodes pods u ns selector before after, fleet call.events = some nodes ∧
    call.events = before ++ ⟨.listPods ns selector, .ok pods⟩ :: after ∧
      published.decisions = decide nodes call.arg cfg.policy parseTime call.object.recentCordons ∧
        published.healthyCapacity = healthyCapacity nodes call.arg cfg.conditionMinAgeSeconds parseTime [] ∧
          published.nodeStates = nodeStates nodes ∧
            Visited cfg call.arg call.object.supervisor (probes pods after) published.exporterDecisions u

end LoopCall

/-- The latest call that returned, and the latest that completed an evaluation. -/
def lastReturned (calls : List LoopCall) : Option LoopCall := (calls.filter LoopCall.returned).getLast?

def lastEvaluated (calls : List LoopCall) : Option LoopCall := (calls.filter LoopCall.evaluated).getLast?

def clockOfCall (call : Option LoopCall) : ℚ := (call.map (·.arg)).getD 0

/-- What is published is the outcome of the latest evaluation. -/
def Outcome (cfg : Config) (calls : List LoopCall) (published : State) : Prop :=
  match lastEvaluated calls with
  | some call => call.Produced cfg published
  | none => published.decisions = [] ∧ published.healthyCapacity = 0 ∧ published.nodeStates = [] ∧
    published.exporterDecisions = []

/-- And so is the clock. -/
def Coherent (cfg : Config) (calls : List LoopCall) (published : State) : Prop :=
  published.lastLoop = clockOfCall (lastEvaluated calls) ∧ Outcome cfg calls published

variable {cfg : Config} {identity : String} {now : ℚ} {g : GuardObject} {es : List (Event Api)} {calls : List LoopCall}
  {call : LoopCall}

/-- What a call of `loop_once` does to what is published. -/
theorem loopOnce_wp : (loopOnce cfg identity now).wp (fun _ _ => True) (fun fs v g' => match v with
    | .error _ => ∃ errors, g'.state = { g.state with eventErrors := errors }
    | .ok _ =>
      (fleet fs = none ∧ g'.state = { g.state with isLeader := false, lastLoop := now }) ∨
        (fleet fs).isSome = true ∧ g'.state.lastLoop = now ∧
          LoopCall.Produced cfg ⟨now, g, fs, .ok ()⟩ g'.state) g [] := by
  refine Method.wp_post loopOnce_done fun fs v g' _ h => ?_
  cases h with
  | unelected => exact ⟨_, rfl⟩
  | stoodDown election => exact .inl ⟨election.fleet, rfl⟩
  | nodesRaised election nodes =>
    obtain ⟨k, n, -, -, rfl, -⟩ := nodes
    exact ⟨_, rfl⟩
  | exportersRaised election nodes exporters =>
    obtain ⟨k, n, -, -, rfl, -⟩ := nodes
    obtain ⟨⟨-, supervisor, failed, rfl⟩, -⟩ := exporters
    exact ⟨_, rfl⟩
  | @evaluated _ _ gs _ _ outcome _ _ _ election nodes exporters =>
    obtain ⟨k, n, -, -, rfl, hlisted, hdec, hcapacity, -⟩ := nodes
    obtain ⟨⟨-, supervisor, failed, rfl⟩, hreturned⟩ := exporters
    obtain ⟨pods, u, ns, selector, after, rfl, hvisited⟩ := hreturned _ rfl
    have hnodes : fleet (gs ++ ⟨.listPods ns selector, .ok pods⟩ :: after) = some outcome.nodes :=
      fleet_listed election.fleet (hlisted.trans (List.prefix_append _ _))
    exact .inr ⟨by rw [hnodes]; rfl, rfl, outcome.nodes, pods, u, ns, selector, gs, after, hnodes, rfl, hdec,
      hcapacity, rfl, hvisited⟩

/-! ### Runs -/

theorem getLast?_filter_snoc {α : Type*} (p : α → Bool) (l : List α) (a : α) :
    ((l ++ [a]).filter p).getLast? = if p a then some a else (l.filter p).getLast? := by
  rw [List.filter_append]
  cases h : p a with
  | true => rw [List.filter_cons_of_pos h, List.filter_nil, List.getLast?_concat, if_pos rfl]
  | false => rw [List.filter_cons_of_neg (by simp [h]), List.filter_nil, List.append_nil, if_neg (by simp)]

theorem lastReturned_snoc (calls : List LoopCall) (call : LoopCall) :
    lastReturned (calls ++ [call]) = if call.returned then some call else lastReturned calls :=
  getLast?_filter_snoc _ _ _

theorem lastEvaluated_snoc (calls : List LoopCall) (call : LoopCall) :
    lastEvaluated (calls ++ [call]) = if call.evaluated then some call else lastEvaluated calls :=
  getLast?_filter_snoc _ _ _

/-- The published clock is that of the latest call that returned, the outcome that
of the latest evaluation. -/
theorem run_published (hrun : Calls (loopOnce cfg identity) cfg.start calls g) :
    g.state.lastLoop = clockOfCall (lastReturned calls) ∧ Outcome cfg calls g.state := by
  refine hrun.invariant (P := fun calls g => g.state.lastLoop = clockOfCall (lastReturned calls) ∧
    Outcome cfg calls g.state) ⟨rfl, rfl, rfl, rfl, rfl⟩ fun calls g now ih => ?_
  refine Method.wp_post loopOnce_wp fun fs v g' _ h => ?_
  obtain ⟨hclock, houtcome⟩ := ih
  rw [Outcome, lastReturned_snoc, lastEvaluated_snoc]
  cases v with
  | error e =>
    obtain ⟨errors, hstate⟩ := h
    rw [hstate]
    exact ⟨hclock, houtcome⟩
  | ok u =>
    refine ⟨?_, ?_⟩
    · rcases h with ⟨-, hstate⟩ | ⟨-, hlast, -⟩
      · rw [hstate]
        rfl
      · exact hlast
    · rcases h with ⟨hfleet, hstate⟩ | ⟨hfleet, -, hproduced⟩
      · have hnot : LoopCall.evaluated ⟨now, g, fs, .ok u⟩ = false := by
          rw [LoopCall.evaluated, hfleet]
          rfl
        rw [hnot, hstate]
        exact houtcome
      · have hevaluated : LoopCall.evaluated ⟨now, g, fs, .ok u⟩ = true := by
          rw [LoopCall.evaluated, hfleet]
          rfl
        rw [hevaluated]
        exact hproduced

/-- A latest call that completed an evaluation is the latest evaluation. -/
theorem lastEvaluated_of_lastReturned (hlast : lastReturned calls = some call) (hcall : call.evaluated = true) :
    lastEvaluated calls = some call := by
  obtain ⟨before, hbefore⟩ := List.getLast?_eq_some_iff.mp hlast
  have hboth : calls.filter LoopCall.evaluated = (calls.filter LoopCall.returned).filter LoopCall.evaluated := by
    rw [List.filter_filter]
    refine List.filter_congr fun c _ => ?_
    simp only [LoopCall.evaluated]
    cases c.returned <;> simp
  rw [lastEvaluated, hboth, hbefore, getLast?_filter_snoc, if_pos hcall]

theorem lastEvaluated_none (hlast : lastReturned calls = none) : lastEvaluated calls = none := by
  rw [lastReturned, List.getLast?_eq_none_iff, List.filter_eq_nil_iff] at hlast
  rw [lastEvaluated, List.getLast?_eq_none_iff, List.filter_eq_nil_iff]
  intro c hc hevaluated
  exact hlast c hc (Bool.and_eq_true_iff.mp hevaluated).1

/-- What is published is coherent iff the latest call that returned, if it stood
down, did so at the clock of the latest evaluation. -/
theorem coherent_iff (hrun : Calls (loopOnce cfg identity) cfg.start calls g) : Coherent cfg calls g.state ↔
    ∀ call ∈ lastReturned calls, call.evaluated = false → call.arg = clockOfCall (lastEvaluated calls) := by
  obtain ⟨hclock, houtcome⟩ := run_published hrun
  rw [Coherent, hclock, and_iff_left houtcome]
  cases hlast : lastReturned calls with
  | none => simp [lastEvaluated_none hlast]
  | some call =>
    cases hcall : call.evaluated with
    | false => simp [clockOfCall, hcall]
    | true => simp [lastEvaluated_of_lastReturned hlast hcall, hcall]

/-- The first pass evaluates the two nodes. -/
def evaluatingCall : LoopCall := Call.play (loopOnce enforcing "guard") quietApi 600 enforcing.start

theorem coherent_evaluated :
    Coherent enforcing [evaluatingCall]
      (((loopOnce enforcing "guard" 600).call enforcing.start).play quietApi []).1.2.state :=
  (coherent_iff (Calls.nil.play quietApi 600)).mpr (by decide +kernel)

/-- A cluster whose Lease another guard has just renewed. -/
def takenApi (_ : List (Event Api)) : (r : Req) → Except Exc (Ans r)
  | .getLease .. => .ok ⟨1, { holderIdentity := some "other", renewTime := some (rfc3339Micro 625) }⟩
  | _ => .error (.transport "timed out")

/-- The second pass stands down and has its clock published with the outcome of
the first. -/
theorem stood_down_incoherent : ¬∀ (cfg : Config) (identity : String) (calls : List LoopCall) (g : GuardObject),
    Calls (loopOnce cfg identity) cfg.start calls g → Coherent cfg calls g.state := by
  intro h
  have hrun := ((@Calls.nil _ _ _ _ _ (loopOnce enforcing "guard") enforcing.start).play quietApi 600).play takenApi 630
  have hclock := (run_published hrun).1.symm.trans (h _ _ _ _ hrun).1
  exact absurd hclock (by decide +kernel)

end GpuNodeHealth.Guard
