import GpuNodeHealth.Agent.Evaluator

/-! A collection pass: ask every enabled signal source, evaluate, and keep the
result as the agent's state. Any of the sources may raise. The pass then counts
an error and leaves the previous state in place. -/

namespace GpuNodeHealth.Agent

/-- Which signal sources are on. -/
structure Config where
  kernlogEnabled : Bool := true
  dstateEnabled : Bool := true
  exporterEnabled : Bool := true
  patchCountersEnabled : Bool := true

structure PatchSignal where
  present : Bool := false
  counters : List (String × ℤ) := []

/-- A pass: its clock and what each source returns or raises when asked. -/
structure Pass where
  now : ℚ
  kernlog : Except Exc KernlogSignal
  dstate : Except Exc DStateSignal
  exporter : Except Exc ExporterSignal
  patch : Except Exc PatchSignal

/-- What a pass collects. -/
structure Collected where
  collectedAt : ℚ
  kernlog : KernlogSignal
  dstate : DStateSignal
  exporter : ExporterSignal
  patch : PatchSignal
  conditionDetail : ConditionName → ConditionInfo

/-- The collector: its evaluator, the state of the last pass that did not raise,
and how many did. -/
structure Collector where
  evaluator : ConditionEvaluator := {}
  collected : Option Collected := none
  collectErrors : ℕ := 0

/-- A source that is off is not asked, and reports nothing. -/
def ask {α : Type} (on : Bool) (nothing : α) (answer : Except Exc α) : Except Exc α :=
  if on then answer else pure nothing

/-- The body of the `try` of `collect_once`. -/
def Collector.attempt (cfg : Config) (collector : Collector) (pass : Pass) :
    Except Exc (Collected × ConditionEvaluator) := do
  let kernlog ← ask cfg.kernlogEnabled {} pass.kernlog
  let dstate ← ask cfg.dstateEnabled {} pass.dstate
  let exporter ← ask cfg.exporterEnabled {} pass.exporter
  let patch ← ask cfg.patchCountersEnabled {} pass.patch
  let (conditionDetail, evaluator) := collector.evaluator.evaluate { now := pass.now, kernlog, dstate, exporter }
  return ({ collectedAt := pass.now, kernlog, dstate, exporter, patch, conditionDetail }, evaluator)

def Collector.collectOnce (cfg : Config) (collector : Collector) (pass : Pass) : Collector :=
  match collector.attempt cfg pass with
  | .ok (collected, evaluator) => { collector with evaluator, collected := some collected }
  | .error _ => { collector with collectErrors := collector.collectErrors + 1 }

/-- The conditions the state has, for the publisher. -/
def Collector.detail (collector : Collector) : Detail := fun name =>
  collector.collected.map (·.conditionDetail name)

/-- Some source that is on raises. -/
def Pass.raises (cfg : Config) (pass : Pass) : Bool :=
  (ask cfg.kernlogEnabled {} pass.kernlog matches .error _) ||
    (ask cfg.dstateEnabled {} pass.dstate matches .error _) ||
      (ask cfg.exporterEnabled {} pass.exporter matches .error _) ||
        (ask cfg.patchCountersEnabled {} pass.patch matches .error _)

theorem attempt_error_iff {cfg : Config} {collector : Collector} {pass : Pass} :
    (∃ e, collector.attempt cfg pass = .error e) ↔ pass.raises cfg = true := by
  unfold Collector.attempt Pass.raises
  generalize ask cfg.kernlogEnabled _ pass.kernlog = kernlog
  generalize ask cfg.dstateEnabled _ pass.dstate = dstate
  generalize ask cfg.exporterEnabled _ pass.exporter = exporter
  generalize ask cfg.patchCountersEnabled _ pass.patch = patch
  rcases kernlog with _ | _ <;> rcases dstate with _ | _ <;> rcases exporter with _ | _ <;>
    rcases patch with _ | _ <;> simp [bind, Except.bind, pure, Except.pure]

theorem raises_of_ok {cfg : Config} {collector : Collector} {pass : Pass} {result : Collected × ConditionEvaluator}
    (h : collector.attempt cfg pass = .ok result) : pass.raises cfg = false := by
  by_contra hraises
  obtain ⟨e, he⟩ := attempt_error_iff.mpr (eq_true_of_ne_false hraises)
  cases h.symm.trans he

end GpuNodeHealth.Agent
