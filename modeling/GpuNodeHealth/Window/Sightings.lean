import Mathlib.Data.List.DropRight
import Mathlib.Tactic.Common

/-! A map of first sightings. Every scan keeps the entry of a key it sees, makes
one for a key that has none, and drops the entries of all other keys. So the entry
of a key is the time of the first scan of its streak: of the scans up to now that
saw the key without a break. -/

namespace GpuNodeHealth.Window

variable {κ τ : Type*} [DecidableEq κ]

/-- A scan: its time and the keys it sees. -/
abbrev Scan (κ τ : Type*) := τ × List κ

def sight (since : κ → Option τ) (scan : Scan κ τ) : κ → Option τ := fun key =>
  if key ∈ scan.2 then some ((since key).getD scan.1) else none

def sightings (scans : List (Scan κ τ)) : κ → Option τ := scans.foldl sight fun _ => none

/-- The latest scans that all saw the key. -/
def streak (scans : List (Scan κ τ)) (key : κ) : List (Scan κ τ) := scans.rtakeWhile (key ∈ ·.2)

variable {scans before later : List (Scan κ τ)} {scan : Scan κ τ} {key : κ}

theorem streak_snoc_of_mem (h : key ∈ scan.2) : streak (scans ++ [scan]) key = streak scans key ++ [scan] :=
  List.rtakeWhile_concat_pos _ _ _ (decide_eq_true h)

theorem streak_snoc_of_notMem (h : key ∉ scan.2) : streak (scans ++ [scan]) key = [] :=
  List.rtakeWhile_concat_neg _ _ _ (by simpa using h)

theorem sightings_snoc : sightings (scans ++ [scan]) = sight (sightings scans) scan := by
  simp [sightings, List.foldl_append]

/-- The entry of a key is the time its streak began. -/
theorem sightings_eq (scans : List (Scan κ τ)) (key : κ) :
    sightings scans key = (streak scans key).head?.map Prod.fst := by
  induction scans using List.reverseRecOn with
  | nil => rfl
  | append_singleton scans scan ih =>
    rw [sightings_snoc, sight]
    by_cases h : key ∈ scan.2
    · rw [if_pos h, streak_snoc_of_mem h, ih, List.head?_append]
      cases (streak scans key).head? <;> rfl
    · rw [if_neg h, streak_snoc_of_notMem h]
      rfl

/-- What lies before a scan without the key is forgotten. -/
theorem streak_of_notMem (h : key ∉ scan.2) : streak (before ++ scan :: later) key = streak later key := by
  induction later using List.reverseRecOn with
  | nil => exact streak_snoc_of_notMem h
  | append_singleton later last ih =>
    rw [← List.cons_append, ← List.append_assoc]
    by_cases hlast : key ∈ last.2
    · rw [streak_snoc_of_mem hlast, streak_snoc_of_mem hlast, ih]
    · rw [streak_snoc_of_notMem hlast, streak_snoc_of_notMem hlast]

/-- Scans that all see the key prolong its streak. -/
theorem streak_append (h : ∀ scan ∈ later, key ∈ scan.2) :
    streak (before ++ later) key = streak before key ++ later := by
  induction later using List.reverseRecOn with
  | nil => simp
  | append_singleton later last ih =>
    have hlast : key ∈ last.2 := h last (by simp)
    rw [← List.append_assoc, streak_snoc_of_mem hlast, ih fun scan hscan => h scan (List.mem_append_left _ hscan),
      List.append_assoc]

/-- A streak is at the end of the scans, and sees the key. -/
theorem streak_spec (scans : List (Scan κ τ)) (key : κ) :
    (∃ before, scans = before ++ streak scans key) ∧ ∀ scan ∈ streak scans key, key ∈ scan.2 := by
  refine ⟨⟨_, (List.rdropWhile_append_rtakeWhile ..).symm⟩, fun scan hscan => ?_⟩
  have hsees := List.mem_rtakeWhile_imp (p := fun s : Scan κ τ => decide (key ∈ s.2)) hscan
  exact of_decide_eq_true hsees

end GpuNodeHealth.Window
