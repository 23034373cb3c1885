import GpuNodeHealth.Agent.Collector
import GpuNodeHealth.Agent.Transitions

/-! Which evaluation a heartbeat vouches for. The publisher stamps whatever
conditions the collector has with the present time, and the collector has those
of the last pass that did not raise, however many have raised since. -/

namespace GpuNodeHealth.Agent

open Cluster Interaction

/-- The collector and the publisher, and the Node in the cluster. -/
structure Process where
  collector : Collector := {}
  world : World

inductive ProcessStep where
  | collect (pass : Pass)
  | publish (now : ℚ) (applied : Bool) (answer : Except Exc Unit)

/-- The publish call at this moment, with the conditions the collector has. -/
def Process.publication (p : Process) (now : ℚ) (applied : Bool) (answer : Except Exc Unit) : Publication :=
  ⟨now, p.collector.detail, applied, answer⟩

def Process.step (cfg : Config) (p : Process) : ProcessStep → Process
  | .collect pass => { p with collector := p.collector.collectOnce cfg pass }
  | .publish now applied answer => { p with world := p.world.publish (p.publication now applied answer) }

def Process.run (cfg : Config) (p : Process) (steps : List ProcessStep) : Process := steps.foldl (Process.step cfg) p

/-- The collection passes of a run. -/
def passesOf (steps : List ProcessStep) : List Pass :=
  steps.filterMap fun
    | .collect pass => some pass
    | .publish .. => none

/-- The conditions say what was evaluated, with a heartbeat at the given time. -/
def Vouches (conditions : List NodeCondition) (evaluated : ConditionName → ConditionInfo) (now : ℚ) : Prop :=
  conditions.map (fun c => (c.type, c.status, c.reason, c.message, c.lastHeartbeatTime)) =
    allConditions.map fun name => (some name.type, some (evaluated name).status, some (evaluated name).reason,
      some (String.ofList ((evaluated name).message.toList.take 1024)), some (rfc3339 now))

/-- Whatever a publish after the run sends comes from its most recent pass. -/
def FromLatest (cfg : Config) (p : Process) (steps : List ProcessStep) (now : ℚ) (applied : Bool)
    (answer : Except Exc Unit) : Prop :=
  ∀ conditions, (p.run cfg steps).world.patch ((p.run cfg steps).publication now applied answer) = some conditions →
    ∃ before pass after collected evaluator, steps = before ++ .collect pass :: after ∧ passesOf after = [] ∧
      (p.run cfg before).collector.attempt cfg pass = .ok (collected, evaluator) ∧
        Vouches conditions collected.conditionDetail now

variable {cfg : Config} {p : Process} {steps : List ProcessStep}

theorem run_snoc (step : ProcessStep) : p.run cfg (steps ++ [step]) = (p.run cfg steps).step cfg step := by
  simp [Process.run]

theorem passesOf_append (steps steps' : List ProcessStep) :
    passesOf (steps ++ steps') = passesOf steps ++ passesOf steps' :=
  List.filterMap_append

@[simp] theorem passesOf_publish (now : ℚ) (applied : Bool) (answer : Except Exc Unit) :
    passesOf (steps ++ [.publish now applied answer]) = passesOf steps := by
  simp [passesOf]

theorem forall_passesOf_collect {P : Pass → Prop} (pass : Pass) :
    (∀ q ∈ passesOf (steps ++ [.collect pass]), P q) ↔ (∀ q ∈ passesOf steps, P q) ∧ P pass := by
  rw [passesOf_append, List.forall_mem_append]
  exact and_congr_right fun _ => List.forall_mem_singleton

/-- The collector has what the last pass that did not raise collected. -/
theorem run_collected (hp : p.collector.collected = none) (steps : List ProcessStep) :
    ((p.run cfg steps).collector.collected = none ∧ ∀ pass ∈ passesOf steps, pass.raises cfg = true) ∨
      ∃ before pass after collected evaluator, steps = before ++ .collect pass :: after ∧
        (∀ pass' ∈ passesOf after, pass'.raises cfg = true) ∧
          (p.run cfg before).collector.attempt cfg pass = .ok (collected, evaluator) ∧
            (p.run cfg steps).collector.collected = some collected := by
  induction steps using List.reverseRecOn with
  | nil => exact .inl ⟨hp, by simp [passesOf]⟩
  | append_singleton steps step ih =>
    rw [run_snoc]
    cases step with
    | publish now applied answer =>
      rcases ih with ⟨hnone, hall⟩ | ⟨before, pass, after, collected, evaluator, rfl, hafter, hok, hsome⟩
      · exact .inl ⟨hnone, by simpa using hall⟩
      · exact .inr ⟨before, pass, after ++ [.publish now applied answer], collected, evaluator, by simp,
          by simpa using hafter, hok, hsome⟩
    | collect pass =>
      cases hattempt : (p.run cfg steps).collector.attempt cfg pass with
      | ok result =>
        refine .inr ⟨steps, pass, [], result.1, result.2, rfl, by simp [passesOf], hattempt, ?_⟩
        simp [Process.step, Collector.collectOnce, hattempt]
      | error e =>
        have hraises := attempt_error_iff.mp ⟨e, hattempt⟩
        have hkept : ((p.run cfg steps).step cfg (.collect pass)).collector.collected =
            (p.run cfg steps).collector.collected := by
          simp [Process.step, Collector.collectOnce, hattempt]
        rw [hkept]
        rcases ih with ⟨hnone, hall⟩ | ⟨before, pass', after, collected, evaluator, rfl, hafter, hok, hsome⟩
        · exact .inl ⟨hnone, (forall_passesOf_collect pass).mpr ⟨hall, hraises⟩⟩
        · exact .inr ⟨before, pass', after ++ [.collect pass], collected, evaluator, by simp,
            (forall_passesOf_collect pass).mpr ⟨hafter, hraises⟩, hok, hsome⟩

/-- What a publish sends, by what the collector has. -/
theorem patch_collected (p : Process) (now : ℚ) (applied : Bool) (answer : Except Exc Unit) :
    match p.collector.collected with
    | none => p.world.patch (p.publication now applied answer) = none
    | some collected => ∃ conditions, p.world.patch (p.publication now applied answer) = some conditions ∧
        Vouches conditions collected.conditionDetail now := by
  cases hc : p.collector.collected with
  | none =>
    have hdetail : ∀ name, (p.publication now applied answer).detail name = none := by
      simp [Process.publication, Collector.detail, hc]
    simp only [World.patch, World.runPublish, publish]
    rw [if_pos (by simp [hdetail])]
    rfl
  | some collected =>
    have hdetail : ∀ name, (p.publication now applied answer).detail name = some (collected.conditionDetail name) := by
      simp [Process.publication, Collector.detail, hc]
    have hpatch := congrArg Prod.snd (runPublish_eq p.world (p.publication now applied answer))
    simp only [observeAll_patch allConditions_nodup, hdetail, Option.map_some, List.filterMap_eq_map'] at hpatch
    cases hsent : p.world.patch (p.publication now applied answer) with
    | none =>
      rw [hsent] at hpatch
      cases hpatch
    | some conditions =>
      refine ⟨conditions, rfl, ?_⟩
      rw [hsent, Option.getD_some] at hpatch
      rw [hpatch]
      rfl

/-- A publish sends nothing but what its most recent pass evaluated iff that pass
did not raise, or all of them have. -/
theorem fromLatest_iff (hp : p.collector.collected = none) (steps : List ProcessStep) (now : ℚ) (applied : Bool)
    (answer : Except Exc Unit) : FromLatest cfg p steps now applied answer ↔
      (∀ pass ∈ (passesOf steps).getLast?, pass.raises cfg = false) ∨
        ∀ pass ∈ passesOf steps, pass.raises cfg = true := by
  have hpatch := patch_collected (p.run cfg steps) now applied answer
  rcases run_collected hp steps with ⟨hnone, hall⟩ |
    ⟨before, pass, after, collected, evaluator, hsplit, hafter, hok, hsome⟩
  · rw [hnone] at hpatch
    exact ⟨fun _ => .inr hall, fun _ conditions h => by simp [hpatch] at h⟩
  · rw [hsome] at hpatch
    obtain ⟨conditions, hsent, hvouches⟩ := hpatch
    have hpasses : passesOf steps = passesOf before ++ pass :: passesOf after := by
      rw [hsplit, passesOf_append]
      rfl
    constructor
    · intro h
      obtain ⟨before', pass', after', collected', evaluator', hsplit', hlast, hok', -⟩ := h conditions hsent
      refine .inl fun q hq => ?_
      have hpasses' : passesOf steps = passesOf before' ++ [pass'] := by
        rw [hsplit', passesOf_append, ← hlast]
        rfl
      rw [hpasses', List.getLast?_concat] at hq
      obtain rfl := Option.some.inj hq
      exact raises_of_ok hok'
    · intro h conditions' hsent'
      obtain rfl : conditions = conditions' := Option.some.inj (hsent.symm.trans hsent')
      refine ⟨before, pass, after, collected, evaluator, hsplit, ?_, hok, hvouches⟩
      -- a later pass raised, and then so did the last one
      by_contra hne
      obtain ⟨last, hlast⟩ := Option.isSome_iff_exists.mp (List.getLast?_isSome.mpr hne)
      have hmem : last ∈ passesOf after := List.mem_of_getLast? hlast
      rcases h with h | h
      · have hq := h last (by rw [hpasses, List.getLast?_append, List.getLast?_cons, hlast]; rfl)
        rw [hafter last hmem] at hq
        cases hq
      · have hq := h pass (by simp [hpasses])
        rw [raises_of_ok hok] at hq
        cases hq

/-- A pass in which everything is quiet. -/
def quietPass (now : ℚ) : Pass := ⟨now, .ok {}, .ok {}, .ok {}, .ok {}⟩

/-- A pass in which the probe of the exporter raises. -/
def raisingPass (now : ℚ) : Pass := { quietPass now with exporter := .error (.other "cannot convert float infinity") }

theorem fromLatest_quiet : FromLatest {} { world := { node := {} } } [.collect (quietPass 0)] 15 true (.ok ()) :=
  (fromLatest_iff rfl _ _ _ _).mpr (.inl (by decide))

/-- The pass at 15 raises, and at 30 the conditions of the one at 0 go out anew. -/
theorem stale_heartbeat : ¬∀ (cfg : Config) (p : Process) (steps : List ProcessStep) (now : ℚ) (applied : Bool)
    (answer : Except Exc Unit), p.collector.collected = none → FromLatest cfg p steps now applied answer := by
  intro h
  obtain ⟨before, pass, after, collected, evaluator, hsplit, hlast, hok, -⟩ :=
    h {} { world := { node := {} } } [.collect (quietPass 0), .collect (raisingPass 15)] 30 true (.ok ()) rfl _ rfl
  have hpasses : passesOf before ++ pass :: passesOf after = [quietPass 0, raisingPass 15] := by
    rw [show pass :: passesOf after = passesOf (.collect pass :: after) from rfl, ← passesOf_append, ← hsplit]
    rfl
  obtain rfl : pass = raisingPass 15 := by
    rw [hlast] at hpasses
    simpa using congrArg List.getLast? hpasses
  have hquiet := raises_of_ok hok
  cases hquiet

end GpuNodeHealth.Agent
