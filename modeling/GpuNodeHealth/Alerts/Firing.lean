import GpuNodeHealth.Alerts.Queries
import GpuNodeHealth.Window.Sightings
import Mathlib.Algebra.Order.Ring.Rat

/-! Alerting rules. A rule is evaluated again and again; for every element of its vector
the time is kept since when the evaluations have found it, and after so long a time the
alert with the labels of the element fires. -/

namespace GpuNodeHealth.Alerts

open Metrics (Label Sample)
open Window (Scan sightings streak)

/-- A rule, whose expression may ask for the time of the evaluation. -/
structure AlertRule (β : Type*) where
  alert : String
  expr : ℚ → Query β
  hold : ℚ := 0

/-- An evaluation: its time, and the samples the store has. -/
abbrev Evaluation (β : Type*) := ℚ × List (Sample β)

variable {β : Type*} [Max β] [NatCast β] {r : AlertRule β} {evaluations : List (Evaluation β)} {labels : List Label}

/-- What an evaluation of the rule finds. -/
def AlertRule.scan (r : AlertRule β) (e : Evaluation β) : Scan (List Label) ℚ := (e.1, (r.expr e.1).found e.2)

/-- Since when an alert has been pending or firing. -/
def AlertRule.activeSince (r : AlertRule β) (evaluations : List (Evaluation β)) : List Label → Option ℚ :=
  sightings (evaluations.map r.scan)

/-- The alert fires at the last of the evaluations. -/
def AlertRule.Fires (r : AlertRule β) (evaluations : List (Evaluation β)) (labels : List Label) : Prop :=
  ∃ last ∈ evaluations.getLast?, ∃ since ∈ r.activeSince evaluations labels, r.hold ≤ last.1 - since

instance (r : AlertRule β) (evaluations : List (Evaluation β)) (labels : List Label) :
    Decidable (r.Fires evaluations labels) :=
  decidable_of_iff (evaluations.getLast?.any fun last =>
    (r.activeSince evaluations labels).any fun since => r.hold ≤ last.1 - since) (by
      simp [AlertRule.Fires, Option.any_eq_true])

/-- An alert fires exactly if all evaluations since a time so far back found it. -/
theorem AlertRule.fires_iff (hclock : evaluations.Pairwise fun e e' => e.1 ≤ e'.1) : r.Fires evaluations labels ↔
    ∃ before first rest last, evaluations = before ++ first :: rest ∧ (first :: rest).getLast? = some last ∧
      (∀ e ∈ first :: rest, labels ∈ (r.expr e.1).found e.2) ∧ r.hold ≤ last.1 - first.1 := by
  unfold AlertRule.Fires AlertRule.activeSince
  rw [Window.sightings_eq]
  constructor
  · rintro ⟨last, hlast, since, hsince, hhold⟩
    obtain ⟨⟨before, hscans⟩, hsees⟩ := Window.streak_spec (evaluations.map r.scan) labels
    obtain ⟨front, recent, rfl, -, hrecent⟩ := List.map_eq_append_iff.mp hscans
    rw [← hrecent] at hsees hsince
    cases recent with
    | nil => cases hsince
    | cons first rest =>
      obtain rfl : first.1 = since := Option.some.inj hsince
      refine ⟨front, first, rest, last, rfl, ?_, fun e he => hsees _ (List.mem_map_of_mem he), hhold⟩
      rwa [List.getLast?_append_of_ne_nil _ (List.cons_ne_nil _ _)] at hlast
  · rintro ⟨before, first, rest, last, rfl, hlast, hfound, hhold⟩
    have hsees : ∀ scan ∈ (first :: rest).map r.scan, labels ∈ scan.2 := List.forall_mem_map.mpr hfound
    rw [List.getLast?_append_of_ne_nil _ (List.cons_ne_nil _ _), List.map_append, Window.streak_append hsees]
    cases hstreak : Window.streak (before.map r.scan) labels with
    | nil => exact ⟨last, hlast, first.1, rfl, hhold⟩
    | cons scan more =>
      -- the streak began even earlier
      obtain ⟨⟨front, hscans⟩, -⟩ := Window.streak_spec (before.map r.scan) labels
      have hmem : scan ∈ before.map r.scan := by
        rw [hscans, hstreak]
        simp
      obtain ⟨e, he, rfl⟩ := List.mem_map.mp hmem
      have hle : e.1 ≤ first.1 := (List.pairwise_append.mp hclock).2.2 e he first List.mem_cons_self
      exact ⟨last, hlast, e.1, rfl, hhold.trans (sub_le_sub_left hle _)⟩

/-- The same of evaluations that come of something else, where what the rule looks for is told by a predicate. -/
theorem AlertRule.fires_map {α : Type*} {views : List α} {evaluation : α → Evaluation β} {p : α → Prop}
    (hclock : views.Pairwise fun v v' => (evaluation v).1 ≤ (evaluation v').1)
    (hfound : ∀ v ∈ views, (labels ∈ (r.expr (evaluation v).1).found (evaluation v).2 ↔ p v)) :
    r.Fires (views.map evaluation) labels ↔
      ∃ before first rest last, views = before ++ first :: rest ∧ (first :: rest).getLast? = some last ∧
        (∀ v ∈ first :: rest, p v) ∧ r.hold ≤ (evaluation last).1 - (evaluation first).1 := by
  rw [AlertRule.fires_iff (List.pairwise_map.mpr hclock)]
  constructor
  · rintro ⟨_, _, _, last, hviews, hlast, hfinds, hhold⟩
    obtain ⟨before, later, rfl, rfl, hlater⟩ := List.map_eq_append_iff.mp hviews
    obtain ⟨first, rest, rfl, rfl, rfl⟩ := List.map_eq_cons_iff.mp hlater
    rw [← List.map_cons, List.getLast?_map, Option.map_eq_some_iff] at hlast
    obtain ⟨last, hlast, rfl⟩ := hlast
    rw [← List.map_cons, List.forall_mem_map] at hfinds
    exact ⟨before, first, rest, last, rfl, hlast,
      fun v hv => (hfound v (List.mem_append_right _ hv)).mp (hfinds v hv), hhold⟩
  · rintro ⟨before, first, rest, last, rfl, hlast, hp, hhold⟩
    refine ⟨before.map evaluation, evaluation first, rest.map evaluation, evaluation last, by simp, ?_, ?_, hhold⟩
    · rw [← List.map_cons, List.getLast?_map, hlast]
      rfl
    · rw [← List.map_cons, List.forall_mem_map]
      exact fun v hv => (hfound v (List.mem_append_right _ hv)).mpr (hp v hv)

end GpuNodeHealth.Alerts
