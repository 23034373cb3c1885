import Mathlib.Algebra.Order.Group.Basic
import Mathlib.Data.List.Induction

/-! Rate limiting over a sliding window. A log grows at its end, and a time is
admitted while fewer than the limit of those before it are recent, that is less
than a window old. Then no window whatsoever holds more than the limit, wherever
it starts; and a log can forget what has aged out without deciding otherwise. -/

namespace GpuNodeHealth.RateLimit

variable {α : Type*} [AddCommGroup α] [LinearOrder α]

/-- How many times of the log are less than the window old. -/
def recent (log : List α) (now window : α) : ℕ := log.countP fun t => now - t < window

/-- Each time came in while fewer than `limit` of those before it were recent. -/
def Limited (window : α) (limit : ℤ) (log : List α) : Prop :=
  ∀ before t after, log = before ++ t :: after → (recent before t window : ℤ) < limit

variable {window : α} {limit : ℤ} {log : List α}

theorem recent_append (log log' : List α) (now window : α) :
    recent (log ++ log') now window = recent log now window + recent log' now window :=
  List.countP_append

theorem limited_nil : Limited window limit ([] : List α) := by
  intro before t after h
  simp at h

theorem limited_snoc {t : α} :
    Limited window limit (log ++ [t]) ↔ Limited window limit log ∧ (recent log t window : ℤ) < limit := by
  constructor
  · intro h
    exact ⟨fun before s after hlog => h before s (after ++ [t]) (by simp [hlog]), h log t [] rfl⟩
  · rintro ⟨hlog, ht⟩ before s after heq
    rcases List.eq_nil_or_concat after with rfl | ⟨after', s', rfl⟩
    · obtain ⟨rfl, hs⟩ := List.append_inj' heq rfl
      cases hs
      exact ht
    · rw [List.concat_eq_append, ← List.cons_append, ← List.append_assoc] at heq
      exact hlog before s after' (List.append_inj' heq rfl).1

/-- Times any two of which are less than a window apart are at most `limit`. -/
theorem Limited.countP_le (h : Limited window limit log) {p : α → Bool}
    (hp : ∀ a b, p a = true → p b = true → b - a < window) : (log.countP p : ℤ) ≤ max 0 limit := by
  induction log using List.reverseRecOn with
  | nil => simp
  | append_singleton log t ih =>
    obtain ⟨hlog, ht⟩ := limited_snoc.mp h
    rw [List.countP_append]
    by_cases hpt : p t = true
    · -- everything `p` admits before `t` was recent at `t`
      have hle : log.countP p ≤ recent log t window :=
        List.countP_mono_left fun a _ ha => decide_eq_true (hp a t ha hpt)
      simp only [List.countP_singleton, hpt, if_true]
      omega
    · simpa [hpt] using ih hlog

/-- Several times at once may come in when as many are still to spare. -/
theorem Limited.append_replicate (h : Limited window limit log) (hwindow : 0 < window) {k : ℕ} {t : α}
    (hk : (k : ℤ) ≤ max 0 (limit - recent log t window)) :
    Limited window limit (log ++ List.replicate k t) := by
  induction k with
  | zero => simpa using h
  | succ k ih =>
    rw [List.replicate_succ', ← List.append_assoc, limited_snoc, recent_append]
    have hrecent : recent (List.replicate k t) t window = k := by
      simp [recent, List.countP_replicate, hwindow]
    refine ⟨ih ?_, ?_⟩ <;> omega

variable [IsOrderedAddMonoid α]

/-- No half-open window, closed on the left or on the right, holds more than the
limit. -/
theorem Limited.window_le (h : Limited window limit log) (x : α) :
    (log.countP (fun t => x ≤ t ∧ t < x + window) : ℤ) ≤ max 0 limit ∧
      (log.countP (fun t => x < t ∧ t ≤ x + window) : ℤ) ≤ max 0 limit := by
  constructor
  · refine h.countP_le fun a b ha hb => ?_
    simp only [decide_eq_true_eq] at ha hb
    exact sub_lt_iff_lt_add'.mpr (hb.2.trans_le (by gcongr; exact ha.1))
  · refine h.countP_le fun a b ha hb => ?_
    simp only [decide_eq_true_eq] at ha hb
    exact sub_lt_iff_lt_add'.mpr (hb.2.trans_lt (by gcongr; exact ha.1))

/-- What has aged out of the window by `cutoff + window` is not missed later. -/
theorem recent_filter {cutoff now : α} (hnow : cutoff + window ≤ now) (log : List α) :
    recent (log.filter (cutoff ≤ ·)) now window = recent log now window := by
  rw [recent, recent, List.countP_filter]
  refine List.countP_congr fun t _ => ?_
  simp only [Bool.and_eq_true, decide_eq_true_eq, and_iff_left_iff_imp]
  intro ht
  by_contra hlt
  have hle : cutoff + window < t + window := hnow.trans_lt (sub_lt_iff_lt_add'.mp ht)
  exact hlt (lt_of_add_lt_add_right hle).le

/-- A log grows by what was still to spare, and a record of it that is as good from
now on grows with it, pruned of what has aged out or not. -/
theorem Limited.record (h : Limited window limit log) (hwindow : 0 < window) {record record' : List α} {now : α}
    {k : ℕ} (hsame : ∀ t, now ≤ t → recent record t window = recent log t window)
    (hk : (k : ℤ) ≤ max 0 (limit - recent record now window))
    (hkept : record' = record ++ List.replicate k now ∨
      record' = (record ++ List.replicate k now).filter (now - window ≤ ·)) :
    (∀ t, now ≤ t → recent record' t window = recent (log ++ List.replicate k now) t window) ∧
      Limited window limit (log ++ List.replicate k now) := by
  refine ⟨fun t ht => ?_, h.append_replicate hwindow (hsame now le_rfl ▸ hk)⟩
  have hgrown : recent record' t window = recent (record ++ List.replicate k now) t window := by
    rcases hkept with rfl | rfl
    · rfl
    · exact recent_filter (by simpa using ht) _
  rw [hgrown, recent_append, recent_append, hsame t ht]

end GpuNodeHealth.RateLimit
