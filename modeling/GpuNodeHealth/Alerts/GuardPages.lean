import GpuNodeHealth.Alerts.Rules
import GpuNodeHealth.Alerts.Scraping

/-! The pages of the guards in the store. No label of theirs is in the way of the target's,
so a rule that goes by their labels goes by what `metric` was called with. -/

namespace GpuNodeHealth.Alerts

open Agent (Double float?)
open Guard (State fullName metrics render)
open Metrics (Label Line Metric Number Sample)

/-- A guard that is scraped. -/
structure GuardTarget where
  host : String
  pod : String
  state : State

def GuardTarget.labels (t : GuardTarget) : List Label :=
  [("job".toList, "gpu-node-guard".toList), ("instance".toList, t.host.toList), ("pod".toList, t.pod.toList)]

def GuardTarget.target (t : GuardTarget) : Target := ⟨t.labels, render t.state⟩

/-- The store, with samples of other jobs. -/
def guardStore (guards : List GuardTarget) (others : List (Sample Double)) : List (Sample Double) :=
  store (guards.map GuardTarget.target) ++ others

/-- No sample is one of a guard. -/
def Foreign (others : List (Sample Double)) : Prop := ∀ s ∈ others, ∀ name, s.name ≠ fullName name

variable {guards : List GuardTarget} {others : List (Sample Double)} {t : GuardTarget} {m : Metric} {name : String}
  {matchers : List Matcher}

/-- The labels a sample of the page has in the store. -/
def GuardTarget.stored (t : GuardTarget) (labels : List Label) : List Label := t.labels ++ externalLabels ++ labels

/-! ### Labels -/

theorem labels_keys (t : GuardTarget) : t.labels.map Prod.fst = targetKeys := rfl

/-- The names of the labels of a call are in nobody's way. -/
def Apart (m : Metric) : Prop := ∀ label ∈ m.labelSet, label.1 ∉ targetKeys

theorem apart_of_keys {ms : List Metric} (keys : List (List String))
    (h : ms.map (fun m => m.labels.map Prod.fst) = keys) (hkeys : ∀ ks ∈ keys, ∀ key ∈ ks, key.toList ∉ targetKeys) :
    ∀ m ∈ ms, Apart m := by
  intro m hm label hlabel
  obtain ⟨l, hl, rfl⟩ := List.mem_map.mp hlabel
  have hks : m.labels.map Prod.fst ∈ keys := h ▸ List.mem_map_of_mem hm
  exact hkeys _ hks l.1 (List.mem_map_of_mem hl)

theorem metrics_apart (state : State) : ∀ m ∈ metrics state, Apart m := by
  simp only [metrics, List.forall_mem_append]
  refine ⟨⟨⟨?_, ?_⟩, ?_⟩, ?_⟩
  · exact apart_of_keys (List.replicate 10 []) rfl (by decide)
  · refine fun m hm => ?_
    obtain ⟨st, -, hm⟩ := List.mem_flatMap.mp hm
    exact apart_of_keys [["node"], ["node"]] rfl (by decide) m hm
  · refine List.forall_mem_map.mpr fun dec _ => ?_
    exact apart_of_keys [["node", "action", "reason", "level", "condition"]] rfl (by decide) _
      (List.mem_singleton.mpr rfl)
  · refine fun m hm => ?_
    obtain ⟨dec, -, hm⟩ := List.mem_flatMap.mp hm
    exact apart_of_keys [["exporter_pod", "node", "action", "reason"], ["exporter_pod", "node"]] rfl (by decide) m hm

/-! ### Samples -/

/-- The sample of a call, as the store has it. -/
def GuardTarget.sample (t : GuardTarget) (m : Metric) : Sample Double where
  name := fullName m.name
  labels := t.stored m.labelSet
  value := m.value.toDouble

theorem scrape_guard (t : GuardTarget) : scrape t.target = (metrics t.state).map t.sample ++ [up t.labels 1] := by
  have hsamples : (Metrics.readLines [] (Guard.reads Number.toDouble t.state)).filterMap Line.sample? =
      (metrics t.state).map fun m => m.sample (fullName m.name) m.value.toDouble := by
    rw [Metrics.samples_readLines, Guard.reads, List.map_map]
    rfl
  have hread : Metrics.parse float? t.target.page = _ := Guard.parse_render (fun _ => Number.float?_str) t.state
  rw [scrape_page hread, hsamples, List.map_map]
  refine congrArg (· ++ _) (List.map_congr_left fun m hm => ?_)
  have hattach : attach t.labels m.labelSet = t.stored m.labelSet := attach_eq (metrics_apart t.state m hm)
  rw [GuardTarget.sample, ← hattach]
  rfl

theorem guardStore_single (t : GuardTarget) :
    guardStore [t] [] = (metrics t.state).map t.sample ++ [up t.labels 1] := by
  rw [guardStore, List.append_nil, List.map_cons, List.map_nil, store, List.flatMap_singleton, scrape_guard]

theorem up_foreign : "up".toList ≠ fullName name := by
  intro h
  have hhead : "up".toList.head? = "gpuguard".toList.head? := by
    rw [← List.head?_append_of_ne_nil _ (by decide : "gpuguard".toList ≠ [])]
    exact congrArg List.head? h
  exact absurd hhead (by decide)

/-- Of a family of the guard the store has what `metric` was called with. -/
theorem mem_series (hothers : Foreign others) {e : Element Double} :
    e ∈ (Query.select (fullName name) matchers).eval (guardStore guards others) ↔
      ∃ t ∈ guards, ∃ m ∈ metrics t.state, m.name = name ∧
        (∀ matcher ∈ matchers, matcher.accepts (t.stored m.labelSet) = true) ∧
          e = ⟨t.stored m.labelSet, m.value.toDouble⟩ := by
  rw [guardStore, @mem_select_store _ _ _ (fun t => (metrics t.state).map t.sample) _ _ _ _ (fun t _ => scrape_guard t)
    up_foreign fun s hs => hothers s hs name]
  refine exists_congr fun t => and_congr_right fun _ => ?_
  constructor
  · rintro ⟨s, hs, hname, haccepts, rfl⟩
    obtain ⟨m, hm, rfl⟩ := List.mem_map.mp hs
    exact ⟨m, hm, Guard.fullName_inj hname, haccepts, rfl⟩
  · rintro ⟨m, hm, rfl, haccepts, rfl⟩
    exact ⟨_, List.mem_map_of_mem hm, rfl, haccepts, rfl⟩

/-- The labels of the page are found behind those of the target. -/
theorem valueOf_stored {labels : List Label} {key : List Char} (h : key ∉ "cluster".toList :: targetKeys) :
    valueOf (t.stored labels) key = valueOf labels key := by
  rw [List.mem_cons, not_or] at h
  rw [GuardTarget.stored, List.append_assoc, valueOf_append (labels_keys t ▸ h.2)]
  refine valueOf_append ?_
  exact fun hmem => h.1 (List.mem_singleton.mp hmem)

end GpuNodeHealth.Alerts
