import Mathlib.Algebra.BigOperators.Intervals
import Mathlib.Algebra.Order.Group.Basic
import Mathlib.Algebra.Order.BigOperators.Group.Finset

/-! Growth over a sliding window. Samples of a quantity come in with their
times, and a queue keeps those that are at most a window old, and always the
newest. Its front is then the oldest sample of the complete history that is
still inside the window, and what the quantity grew by since then is the sum of
its increments inside the window. -/

namespace GpuNodeHealth.Window

section Queue

variable {α σ : Type*} [AddCommGroup α] [LinearOrder α]

/-- Drop samples from the front while they are too old and not the last one. -/
def evict (now window : α) : List (α × σ) → List (α × σ)
  | s :: t :: rest => if window < now - s.1 then evict now window (t :: rest) else s :: t :: rest
  | samples => samples

/-- A sample comes in at the back, and the front is cleared up to its time. -/
def push (window : α) (queue : List (α × σ)) (s : α × σ) : List (α × σ) := evict s.1 window (queue ++ [s])

/-- The queue once the sample number `k` has come in. -/
def queued (window : α) (sample : ℕ → α × σ) : ℕ → List (α × σ)
  | 0 => push window [] (sample 0)
  | k + 1 => push window (queued window sample k) (sample (k + 1))

variable {window now : α} {sample : ℕ → α × σ}

/-- What is evicted depends on the times alone. -/
theorem evict_map {τ : Type*} (f : σ → τ) (samples : List (α × σ)) :
    evict now window (samples.map (Prod.map id f)) = (evict now window samples).map (Prod.map id f) := by
  induction samples with
  | nil => rfl
  | cons s samples ih =>
    cases samples with
    | nil => rfl
    | cons t rest =>
      simp only [List.map_cons, evict, Prod.map_fst, id_eq] at ih ⊢
      split_ifs
      · exact ih
      · rfl

theorem evict_subset (samples : List (α × σ)) : evict now window samples ⊆ samples := by
  induction samples with
  | nil => exact List.Subset.refl _
  | cons s samples ih =>
    cases samples with
    | nil => exact List.Subset.refl _
    | cons t rest =>
      rw [evict]
      split_ifs
      · exact List.subset_cons_of_subset _ ih
      · exact List.Subset.refl _

/-- A sample inside the window stays. -/
theorem mem_evict {samples : List (α × σ)} {s : α × σ} (hs : s ∈ samples) (hinside : now - s.1 ≤ window) :
    s ∈ evict now window samples := by
  induction samples with
  | nil => cases hs
  | cons a samples ih =>
    cases samples with
    | nil => exact hs
    | cons t rest =>
      rw [evict]
      split_ifs with hold
      · rcases List.mem_cons.mp hs with rfl | hs
        · exact absurd hinside (not_le.mpr hold)
        · exact ih hs
      · exact hs

theorem evict_sublist (samples : List (α × σ)) : (evict now window samples).Sublist samples := by
  induction samples with
  | nil => exact List.Sublist.refl _
  | cons a samples ih =>
    cases samples with
    | nil => exact List.Sublist.refl _
    | cons t rest =>
      rw [evict]
      split_ifs
      · exact ih.cons a
      · exact List.Sublist.refl _

/-- The front of the queue is the newest sample, or an older one inside the window. -/
theorem push_head (queue : List (α × σ)) (s : α × σ) :
    ∃ b, (push window queue s).head? = some b ∧ (b = s ∨ b ∈ queue ∧ s.1 - b.1 ≤ window) := by
  unfold push
  induction queue with
  | nil => exact ⟨s, rfl, .inl rfl⟩
  | cons a queue ih =>
    cases hqueue : queue ++ [s] with
    | nil => simp at hqueue
    | cons t rest =>
      rw [List.cons_append, hqueue, evict]
      split_ifs with hold
      · rw [hqueue] at ih
        obtain ⟨b, hb, hcase⟩ := ih
        exact ⟨b, hb, hcase.imp_right fun h => ⟨List.mem_cons_of_mem _ h.1, h.2⟩⟩
      · exact ⟨a, rfl, .inr ⟨List.mem_cons_self, not_lt.mp hold⟩⟩

/-- What is evicted of a run of samples is a run that is too old. -/
theorem evict_range' (n j : ℕ) : ∃ i ≤ n, evict now window ((List.range' j (n + 1)).map sample) =
      (List.range' (j + i) (n - i + 1)).map sample ∧ (∀ l < i, window < now - (sample (j + l)).1) ∧
      (i < n → now - (sample (j + i)).1 ≤ window) := by
  induction n generalizing j with
  | zero => exact ⟨0, le_rfl, rfl, by simp, by simp⟩
  | succ n ih =>
    rw [List.range'_succ, List.range'_succ, List.map_cons, List.map_cons, evict]
    split_ifs with hold
    · obtain ⟨i, hi, heq, hout, hin⟩ := ih (j + 1)
      rw [List.range'_succ, List.map_cons] at heq
      refine ⟨i + 1, by omega, ?_, ?_, ?_⟩
      · rw [heq]
        congr 2 <;> omega
      · intro l hl
        cases l with
        | zero => exact hold
        | succ l => simpa [Nat.add_assoc, Nat.add_comm 1] using hout l (by omega)
      · intro hlt
        simpa [Nat.add_assoc, Nat.add_comm 1] using hin (by omega)
    · exact ⟨0, by omega, rfl, by simp, fun _ => not_lt.mp hold⟩

variable [IsOrderedAddMonoid α]

/-- The front of the queue is the oldest sample inside the window. -/
theorem queued_front (hwindow : 0 ≤ window) (hclock : Monotone fun i => (sample i).1) (k : ℕ) :
    ∃ j ≤ k, queued window sample k = (List.range' j (k - j + 1)).map sample ∧
      ∀ i ≤ k, (sample k).1 - (sample i).1 ≤ window ↔ j ≤ i := by
  induction k with
  | zero =>
    refine ⟨0, le_rfl, rfl, fun i hi => ?_⟩
    obtain rfl := Nat.le_zero.mp hi
    simpa using hwindow
  | succ k ih =>
    obtain ⟨j, hj, hqueue, hinside⟩ := ih
    have hlast : (List.range' j (k - j + 1)).map sample ++ [sample (k + 1)] =
        (List.range' j (k + 1 - j + 1)).map sample := by
      have hgrown : List.range' j (k + 1 - j + 1) = List.range' j (k - j + 1) ++ [k + 1] := by
        rw [show k + 1 - j = k - j + 1 by omega, List.range'_concat (n := k - j + 1)]
        congr 2
        omega
      rw [hgrown, List.map_append, List.map_singleton]
    obtain ⟨i, hi, heq, hout, hin⟩ := @evict_range' α σ _ _ window (sample (k + 1)).1 sample (k + 1 - j) j
    refine ⟨j + i, by omega, ?_, fun l hl => ⟨fun hle => ?_, fun hle => ?_⟩⟩
    · rw [queued, push, hqueue, hlast, heq]
      congr 2
      omega
    · -- what was outside before is outside now, and the rest was evicted just now
      by_contra hlt
      rcases lt_or_ge l j with hlj | hjl
      · have hbefore := mt (hinside l (by omega)).mp (by omega)
        have hlater : (sample k).1 - (sample l).1 ≤ (sample (k + 1)).1 - (sample l).1 :=
          sub_le_sub_right (hclock (Nat.le_succ k)) _
        exact hbefore (hlater.trans hle)
      · have hold := hout (l - j) (by omega)
        rw [Nat.add_sub_cancel' hjl] at hold
        exact absurd hle (not_le.mpr hold)
    · have hyounger : (sample (k + 1)).1 - (sample l).1 ≤ (sample (k + 1)).1 - (sample (j + i)).1 :=
        sub_le_sub_left (hclock hle) _
      refine hyounger.trans ?_
      rcases hi.lt_or_eq with hlt | rfl
      · exact hin hlt
      · rw [show j + (k + 1 - j) = k + 1 by omega, sub_self]
        exact hwindow

end Queue

section Growth

variable {β : Type*} [AddCommGroup β] [LinearOrder β] [IsOrderedAddMonoid β] {c : ℕ → β} {j k : ℕ}

/-- Growth is at most the sum of the increments on the way. -/
theorem growth_le (c : ℕ → β) (hjk : j ≤ k) :
    max 0 (c k - c j) ≤ ∑ i ∈ Finset.Ico j k, max 0 (c (i + 1) - c i) := by
  refine max_le (Finset.sum_nonneg fun _ _ => le_max_left _ _) ?_
  rw [← Finset.sum_Ico_sub c hjk]
  exact Finset.sum_le_sum fun _ _ => le_max_right _ _

/-- Of a quantity that never shrinks it is that sum. -/
theorem growth_eq (hc : Monotone c) (hjk : j ≤ k) :
    max 0 (c k - c j) = ∑ i ∈ Finset.Ico j k, (c (i + 1) - c i) := by
  rw [max_eq_right (sub_nonneg.mpr (hc hjk)), Finset.sum_Ico_sub c hjk]

end Growth

end GpuNodeHealth.Window
