import GpuNodeHealth.Agent.MetricsRoundTrip
import GpuNodeHealth.Alerts.Values

/-! How the pages get into the store. The scraper adds the labels of the target to every
sample, and renames a label of the page that is in the way; the samples that it pushes
have the labels of the cluster as well. -/

namespace GpuNodeHealth.Alerts

open Agent (Double float?)
open Metrics (Label Line Metric Number Sample parse)

/-- A target: its labels, and the text it answers with. -/
structure Target where
  labels : List Label
  page : List Char

/-- The names of the labels that the scrape configuration gives the guard and the agents. -/
def targetKeys : List (List Char) := ["job".toList, "instance".toList, "pod".toList]

/-- `external_labels` -/
def externalLabels : List Label := [("cluster".toList, "wx-ms-w7900d".toList)]

/-- A label of the page, next to those of the target. -/
def renamed (target : List Label) (label : Label) : Label :=
  if label.1 ∈ target.map Prod.fst then ("exported_".toList ++ label.1, label.2) else label

def attach (target labels : List Label) : List Label := target ++ externalLabels ++ labels.map (renamed target)

/-- Whether a scrape succeeded is a sample as well. -/
def up (target : List Label) (value : ℚ) : Sample Double where
  name := "up".toList
  labels := target ++ externalLabels
  value := .finite value

def scrape (t : Target) : List (Sample Double) :=
  match parse float? t.page with
  | some lines => (lines.filterMap Line.sample?).map (fun s => { s with labels := attach t.labels s.labels }) ++
      [up t.labels 1]
  | none => [up t.labels 0]

/-- What the store has of some targets. -/
def store (targets : List Target) : List (Sample Double) := targets.flatMap scrape

variable {target labels : List Label} {key : List Char}

theorem renamed_of_notMem {label : Label} (h : label.1 ∉ target.map Prod.fst) : renamed target label = label := if_neg h

/-- Labels that are in nobody's way stay as they are. -/
theorem attach_eq (h : ∀ label ∈ labels, label.1 ∉ target.map Prod.fst) :
    attach target labels = target ++ externalLabels ++ labels := by
  rw [attach, List.map_congr_left fun label hlabel => renamed_of_notMem (h label hlabel), List.map_id']

theorem scrape_page {t : Target} {lines : List (Line Double)} (h : parse float? t.page = some lines) : scrape t =
    (lines.filterMap Line.sample?).map (fun s => { s with labels := attach t.labels s.labels }) ++ [up t.labels 1] := by
  rw [scrape, h]

theorem valueOf_append (h : key ∉ target.map Prod.fst) : valueOf (target ++ labels) key = valueOf labels key := by
  induction target with
  | nil => rfl
  | cons label target ih =>
    rw [List.map_cons, List.mem_cons, not_or] at h
    have hother : (key == label.1) = false := beq_false_of_ne h.1
    rw [← ih h.2, List.cons_append, valueOf, valueOf, List.lookup_cons, hother]

/-- Of targets whose pages are read, a family of the pages has the samples of the pages. -/
theorem mem_select_store {α : Type*} {targets : List α} {target : α → Target} {samples : α → List (Sample Double)}
    {others : List (Sample Double)} {name : List Char} {matchers : List Matcher} {e : Element Double}
    (hscrape : ∀ t ∈ targets, scrape (target t) = samples t ++ [up (target t).labels 1]) (hup : "up".toList ≠ name)
    (hothers : ∀ s ∈ others, s.name ≠ name) :
    e ∈ (Query.select name matchers).eval (store (targets.map target) ++ others) ↔
      ∃ t ∈ targets, ∃ s ∈ samples t, s.name = name ∧ (∀ m ∈ matchers, m.accepts s.labels = true) ∧
        e = ⟨s.labels, s.value⟩ := by
  rw [mem_select]
  constructor
  · rintro ⟨s, hs, hname, haccepts, rfl⟩
    rcases List.mem_append.mp hs with hs | hs
    · obtain ⟨_, htarget, hs⟩ := List.mem_flatMap.mp hs
      obtain ⟨t, ht, rfl⟩ := List.mem_map.mp htarget
      rw [hscrape t ht] at hs
      rcases List.mem_append.mp hs with hs | hs
      · exact ⟨t, ht, s, hs, hname, haccepts, rfl⟩
      · rw [List.mem_singleton.mp hs] at hname
        exact absurd hname hup
    · exact absurd hname (hothers s hs)
  · rintro ⟨t, ht, s, hs, hname, haccepts, rfl⟩
    have hscraped : s ∈ scrape (target t) := by
      rw [hscrape t ht]
      exact List.mem_append_left _ hs
    have hstored : s ∈ store (targets.map target) :=
      List.mem_flatMap.mpr ⟨target t, List.mem_map_of_mem ht, hscraped⟩
    exact ⟨s, List.mem_append_left _ hstored, hname, haccepts, rfl⟩

end GpuNodeHealth.Alerts
