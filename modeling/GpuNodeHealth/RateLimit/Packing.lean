import GpuNodeHealth.RateLimit.SlidingWindow

/-! What a rate limit lets through. Of a log that is used up at some times, each a window
or more after the one before, no entry is counted at two of them: so the log holds at least
the limit for each of these times. -/

namespace GpuNodeHealth.RateLimit

variable {α : Type*} [AddCommGroup α] [LinearOrder α]

/-- The times of a log in the window that ends at a time. -/
def spent (log : List α) (now window : α) : ℕ := log.countP fun t => now - window < t ∧ t ≤ now

variable {window now : α} {log : List α}

theorem spent_append (log log' : List α) (now window : α) :
    spent (log ++ log') now window = spent log now window + spent log' now window :=
  List.countP_append

variable [IsOrderedAddMonoid α]

/-- Of what came before, whatever is recent is spent. -/
theorem spent_eq_recent (h : ∀ t ∈ log, t ≤ now) : spent log now window = recent log now window := by
  refine List.countP_congr fun t ht => ?_
  simp only [decide_eq_true_eq, h t ht, and_true]
  exact sub_lt_comm

/-- What a later window counts is not counted by an earlier one. -/
theorem spent_filter {t : α} (h : t + window ≤ now) : spent (log.filter (t < ·)) now window = spent log now window := by
  rw [spent, spent, List.countP_filter]
  refine List.countP_congr fun s _ => ?_
  simp only [Bool.and_eq_true, decide_eq_true_eq, and_iff_left_iff_imp]
  rintro ⟨hs, -⟩
  exact lt_of_le_of_lt (le_sub_iff_add_le.mpr h) hs

theorem length_le_of_spent {n : ℕ} {times : List α} (htimes : times.Pairwise fun t t' => t + window ≤ t')
    (hspent : ∀ t ∈ times, n ≤ spent log t window) : times.length * n ≤ log.length := by
  induction times generalizing log with
  | nil => simp
  | cons t times ih =>
    obtain ⟨hlater, hrest⟩ := List.pairwise_cons.mp htimes
    have hfirst := hspent t List.mem_cons_self
    have hfiltered : times.length * n ≤ (log.filter (t < ·)).length := ih hrest fun t' ht' => by
      rw [spent_filter (hlater t' ht')]
      exact hspent t' (List.mem_cons_of_mem _ ht')
    have hsplit : log.length = log.countP (t < ·) + log.countP fun s => ¬decide (t < s) :=
      List.length_eq_countP_add_countP _
    have hbefore : spent log t window ≤ log.countP fun s => ¬decide (t < s) :=
      List.countP_mono_left fun s _ hs => by simpa using (of_decide_eq_true hs).2
    rw [← List.countP_eq_length_filter] at hfiltered
    rw [List.length_cons, Nat.succ_mul]
    omega

end GpuNodeHealth.RateLimit
