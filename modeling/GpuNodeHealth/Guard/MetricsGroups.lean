import GpuNodeHealth.Guard.MetricsRoundTrip
import GpuNodeHealth.Metrics.Groups

/-! Families in groups. The guard writes two families in one loop over the nodes, and two
in one over the exporters, so from the second on their lines alternate. -/

namespace GpuNodeHealth.Guard

open Metrics

variable {state : State}

theorem metrics_names (state : State) : (metrics state).map Metric.name =
    stateNames ++ state.nodeStates.flatMap (fun _ => nodeStateNames) ++ state.decisions.map (fun _ => "decision") ++
      state.exporterDecisions.flatMap fun _ => exporterNames := by
  simp only [metrics, List.map_append, List.map_flatMap, List.map_map]
  rfl

/-- Of an entity none or one, its families are written once at most. -/
theorem flatMap_names_sublist {α : Type*} {xs : List α} {names : List String} (h : xs.length ≤ 1) :
    (xs.flatMap fun _ => names).Sublist names := by
  match xs, h with
  | [], _ => exact List.nil_sublist names
  | [_], _ => exact (List.flatMap_singleton _ _).symm ▸ List.Sublist.refl names

/-- Of two, they are written twice. -/
theorem sublist_flatMap_names {α : Type*} {xs : List α} {names : List String} (h : 1 < xs.length) :
    (names ++ names).Sublist (xs.flatMap fun _ => names) := by
  match xs, h with
  | _ :: _ :: xs, _ =>
    rw [List.flatMap_cons, List.flatMap_cons, ← List.append_assoc]
    exact List.sublist_append_left _ _

/-- Two families of one loop stand together only if the loop is over one entity at most. -/
theorem length_le_of_grouped {α : Type*} {xs : List α} {names all : List String} {first second : String}
    (h : Grouped all) (hall : (xs.flatMap fun _ => names).Sublist all)
    (htwice : [first, second, first].Sublist (names ++ names)) (hne : second ≠ first) : xs.length ≤ 1 := by
  by_contra hmany
  have hsub : (names ++ names).Sublist all := (sublist_flatMap_names (not_le.mp hmany)).trans hall
  exact hne (h first second (htwice.trans hsub))

/-- At most one node and one exporter, and any number of decisions. -/
theorem grouped_names {n : ℕ} :
    Grouped (stateNames ++ nodeStateNames ++ List.replicate n "decision" ++ exporterNames) := by
  have hstretched : Stretched (stateNames ++ nodeStateNames ++ ["decision"] ++ exporterNames)
      (stateNames ++ nodeStateNames ++ List.replicate (n + 1) "decision" ++ exporterNames) :=
    ((Stretched.refl _).append (Stretched.replicate "decision" n)).append (.refl _)
  refine Grouped.sublist (hstretched.grouped_iff.mpr (grouped_of_nodup names_nodup)) ?_
  refine ((List.Sublist.refl _).append ?_).append (List.Sublist.refl _)
  exact (List.replicate_sublist_replicate "decision").mpr n.le_succ

/-- The lines of every family stand together exactly if there are at most one node and at
most one exporter. -/
theorem render_grouped_iff (state : State) :
    Grouped (families (render state)) ↔ state.nodeStates.length ≤ 1 ∧ state.exporterDecisions.length ≤ 1 := by
  have hread : ∀ v : Number, v.Exact → some v.str = some v.str := fun _ _ => rfl
  have hnames : (reads Number.str state).map (fun p => p.1.full) = ((metrics state).map Metric.name).map fullName := by
    rw [reads, List.map_map, List.map_map]
    rfl
  rw [render_eq, ← reads_fst Number.str, grouped_text_iff (reads_entries hread state) (reads_ne_nil _ state), hnames,
    grouped_map_iff fun _ _ => fullName_inj, metrics_names]
  constructor
  · intro h
    constructor
    · have htwice : ["node_unschedulable", "node_ready", "node_unschedulable"].Sublist
          (nodeStateNames ++ nodeStateNames) := by decide
      refine length_le_of_grouped h ?_ htwice (by decide)
      exact (List.sublist_append_right _ _).trans
        ((List.sublist_append_left _ _).trans (List.sublist_append_left _ _))
    · have htwice : ["exporter_decision", "exporter_unreachable_seconds", "exporter_decision"].Sublist
          (exporterNames ++ exporterNames) := by decide
      exact length_le_of_grouped h (List.sublist_append_right _ _) htwice (by decide)
  · rintro ⟨hnodes, hexporters⟩
    have hdecisions : state.decisions.map (fun _ => "decision") = List.replicate state.decisions.length "decision" :=
      List.map_const'
    rw [hdecisions]
    refine Grouped.sublist (grouped_names (n := state.decisions.length)) ?_
    exact (((List.Sublist.refl _).append (flatMap_names_sublist hnodes)).append (List.Sublist.refl _)).append
      (flatMap_names_sublist hexporters)

end GpuNodeHealth.Guard
