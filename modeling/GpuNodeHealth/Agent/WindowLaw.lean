import GpuNodeHealth.Agent.Evaluator
import Mathlib.Data.Int.ConditionallyCompleteOrder

/-! What the conditions of the kernel log say about the history of the counters.
The samples the evaluator keeps make it compute what a scan of all samples would:
an increment between two calls counts as long as the earlier of the two is inside
the window. So one that comes after a gap longer than the window never counts. -/

namespace GpuNodeHealth.Agent

/-- A fresh evaluator. -/
def ConditionEvaluator.new (window : ℚ) (text : String) (recurrence : ℤ) : ConditionEvaluator where
  windowSeconds := window
  windowText := text
  engineTimeoutRecurrence := recurrence

/-- The evaluator after so many calls. -/
def ConditionEvaluator.after (evaluator : ConditionEvaluator) (calls : ℕ → Evaluation) : ℕ → ConditionEvaluator
  | 0 => evaluator
  | k + 1 => ((evaluator.after calls k).evaluate (calls k)).2

/-- What the call number `k` returns. -/
def ConditionEvaluator.verdict (evaluator : ConditionEvaluator) (calls : ℕ → Evaluation) (k : ℕ) :
    ConditionName → ConditionInfo :=
  ((evaluator.after calls k).evaluate (calls k)).1

def counter (calls : ℕ → Evaluation) (r : Rule) (i : ℕ) : ℤ := (calls i).kernlog.counts r

/-- By how much the call after the call number `i` found some counters grown. -/
def increment (calls : ℕ → Evaluation) (rules : List Rule) (i : ℕ) : ℤ :=
  (rules.map fun r => max 0 (counter calls r (i + 1) - counter calls r i)).sum

/-- The calls before the call number `k` that are inside its window. -/
def insideWindow (calls : ℕ → Evaluation) (window : ℚ) (k : ℕ) : Finset ℕ :=
  (Finset.range k).filter fun i => (calls k).now - (calls i).now ≤ window

variable {window : ℚ} {text : String} {recurrence : ℤ} {calls : ℕ → Evaluation} {rules : List Rule} {j k : ℕ}

theorem after_settings (k : ℕ) :
    ((ConditionEvaluator.new window text recurrence).after calls k).windowSeconds = window ∧
      ((ConditionEvaluator.new window text recurrence).after calls k).engineTimeoutRecurrence = recurrence := by
  induction k with
  | zero => exact ⟨rfl, rfl⟩
  | succ k ih => exact ih

/-- The sample a call takes. -/
def sample (calls : ℕ → Evaluation) (i : ℕ) : ℚ × (Rule → ℤ) := ((calls i).now, (calls i).kernlog.counts)

theorem after_history (k : ℕ) : ((ConditionEvaluator.new window text recurrence).after calls (k + 1)).history =
    Window.queued window (sample calls) k := by
  induction k with
  | zero => rfl
  | succ k ih =>
    rw [ConditionEvaluator.after, ConditionEvaluator.evaluate, ih, (after_settings (k + 1)).1]
    rfl

/-- Every condition of the log goes by the growth since the oldest sample inside
the window. -/
theorem verdict_baseline (hwindow : 0 ≤ window) (hclock : Monotone fun i => (calls i).now) (k : ℕ) :
    ∃ j ≤ k, insideWindow calls window k = Finset.Ico j k ∧
      (((ConditionEvaluator.new window text recurrence).verdict calls k .gpuUnrecoverable).active = true ↔
        0 < hits (calls k).kernlog.counts (calls j).kernlog.counts fatalHangRules) ∧
      (((ConditionEvaluator.new window text recurrence).verdict calls k .gpuEngineTimeout).active = true ↔
        recurrence ≤ hits (calls k).kernlog.counts (calls j).kernlog.counts engineRules) := by
  obtain ⟨j, hj, hqueue, hinside⟩ := @Window.queued_front _ _ _ _ window (sample calls) _ hwindow hclock k
  have hfront : ((ConditionEvaluator.new window text recurrence).after calls (k + 1)).history.head? =
      some (sample calls j) := by
    rw [after_history, hqueue, List.range'_succ]
    rfl
  have hrecurrence := (@after_settings window text recurrence calls k).2
  rw [ConditionEvaluator.after, ConditionEvaluator.evaluate] at hfront
  simp only [ConditionEvaluator.verdict, ConditionEvaluator.evaluate, unrecoverable, engineTimeout, hfront,
    hrecurrence, decide_eq_true_eq]
  refine ⟨j, hj, ?_, .rfl, .rfl⟩
  ext i
  simp only [insideWindow, Finset.mem_filter, Finset.mem_range, Finset.mem_Ico]
  constructor
  · rintro ⟨hik, hin⟩
    exact ⟨(hinside i hik.le).mp hin, hik⟩
  · rintro ⟨hji, hik⟩
    exact ⟨hik, (hinside i hik.le).mpr hji⟩

/-! ### Growth and increments -/

theorem hits_le (hjk : j ≤ k) : hits (calls k).kernlog.counts (calls j).kernlog.counts rules ≤
    ∑ i ∈ Finset.Ico j k, increment calls rules i := by
  induction rules with
  | nil => simp [hits, increment]
  | cons r rest ih =>
    have hr := Window.growth_le (counter calls r) hjk
    simp only [hits, increment, List.map_cons, List.sum_cons, Finset.sum_add_distrib] at ih ⊢
    exact add_le_add hr ih

theorem hits_eq (hcounters : ∀ r, Monotone (counter calls r)) (hjk : j ≤ k) :
    hits (calls k).kernlog.counts (calls j).kernlog.counts rules =
      ∑ i ∈ Finset.Ico j k, increment calls rules i := by
  induction rules with
  | nil => simp [hits, increment]
  | cons r rest ih =>
    have hr := Window.growth_eq (hcounters r) hjk
    have hpos : ∀ i, counter calls r (i + 1) - counter calls r i =
        max 0 (counter calls r (i + 1) - counter calls r i) := fun i =>
      (max_eq_right (sub_nonneg.mpr (hcounters r (Nat.le_succ i)))).symm
    simp only [hits, increment, List.map_cons, List.sum_cons, Finset.sum_add_distrib] at ih ⊢
    rw [ih, ← Finset.sum_congr rfl fun i _ => hpos i, ← hr]
    rfl

theorem increment_nonneg (i : ℕ) : 0 ≤ increment calls rules i := by
  refine List.sum_nonneg fun x hx => ?_
  obtain ⟨r, -, rfl⟩ := List.mem_map.mp hx
  exact le_max_left _ _

theorem increment_pos {i : ℕ} :
    0 < increment calls rules i ↔ ∃ r ∈ rules, counter calls r i < counter calls r (i + 1) := by
  induction rules with
  | nil => simp [increment]
  | cons r rest ih =>
    have hrest := @increment_nonneg calls rest i
    simp only [increment, List.map_cons, List.sum_cons, List.mem_cons, exists_eq_or_imp] at ih hrest ⊢
    rw [← ih]
    omega

theorem sum_increment_pos {s : Finset ℕ} : 0 < ∑ i ∈ s, increment calls rules i ↔
    ∃ i ∈ s, ∃ r ∈ rules, counter calls r i < counter calls r (i + 1) := by
  rw [Finset.sum_pos_iff_of_nonneg fun i _ => increment_nonneg i]
  exact exists_congr fun i => and_congr_right fun _ => increment_pos

theorem unrecoverable_iff (hwindow : 0 ≤ window) (hclock : Monotone fun i => (calls i).now)
    (hcounters : ∀ r, Monotone (counter calls r)) (k : ℕ) :
    ((ConditionEvaluator.new window text recurrence).verdict calls k .gpuUnrecoverable).active = true ↔
      ∃ i ∈ insideWindow calls window k, ∃ r ∈ fatalHangRules, counter calls r i < counter calls r (i + 1) := by
  obtain ⟨j, hj, hinside, hfatal, -⟩ := @verdict_baseline window text recurrence calls hwindow hclock k
  rw [hfatal, hinside, hits_eq hcounters hj, sum_increment_pos]

/-- The sliding window, for a clock that does not go back. With counters that do
not go back either the conditions are exactly those of a scan of all calls; in
any case nothing but increments inside the window makes them active. -/
theorem sliding_window_law (hwindow : 0 ≤ window) (hclock : Monotone fun i => (calls i).now) (k : ℕ) :
    ((∀ r, Monotone (counter calls r)) →
      (((ConditionEvaluator.new window text recurrence).verdict calls k .gpuUnrecoverable).active = true ↔
        ∃ i ∈ insideWindow calls window k, ∃ r ∈ fatalHangRules, counter calls r i < counter calls r (i + 1)) ∧
      (((ConditionEvaluator.new window text recurrence).verdict calls k .gpuEngineTimeout).active = true ↔
        recurrence ≤ ∑ i ∈ insideWindow calls window k, increment calls engineRules i)) ∧
    (((ConditionEvaluator.new window text recurrence).verdict calls k .gpuUnrecoverable).active = true →
      ∃ i ∈ insideWindow calls window k, ∃ r ∈ fatalHangRules, counter calls r i < counter calls r (i + 1)) ∧
    (((ConditionEvaluator.new window text recurrence).verdict calls k .gpuEngineTimeout).active = true →
      recurrence ≤ ∑ i ∈ insideWindow calls window k, increment calls engineRules i) := by
  obtain ⟨j, hj, hinside, hfatal, hengine⟩ := @verdict_baseline window text recurrence calls hwindow hclock k
  refine ⟨fun hcounters => ⟨unrecoverable_iff hwindow hclock hcounters k, ?_⟩, ?_⟩
  · rw [hengine, hinside, hits_eq hcounters hj]
  · rw [hfatal, hengine, hinside]
    refine ⟨fun hactive => ?_, fun hactive => hactive.trans (hits_le hj)⟩
    exact sum_increment_pos.mp (hactive.trans_le (hits_le hj))

/-- A call every `gap` seconds, each of which finds one more GPU reset. -/
def resets (gap : ℚ) (i : ℕ) : Evaluation :=
  { now := gap * i, kernlog := { counts := fun r => if r = .gpuResetBegin then i else 0 } }

theorem resets_clock {gap : ℚ} (hgap : 0 ≤ gap) : Monotone fun i => (resets gap i).now := by
  intro i j hij
  exact mul_le_mul_of_nonneg_left (by exact_mod_cast hij) hgap

theorem resets_counters {gap : ℚ} (r : Rule) : Monotone (counter (resets gap) r) := by
  intro i j hij
  by_cases hr : r = .gpuResetBegin
  · simpa [counter, resets, hr] using hij
  · simp [counter, resets, hr]

theorem sliding_window_law_minutely :
    ((ConditionEvaluator.new 900 "900" 2).verdict (resets 60) 2 .gpuUnrecoverable).active = true :=
  ((sliding_window_law (by norm_num) (resets_clock (by norm_num)) 2).1 resets_counters).1.mpr
    (by decide +kernel)

/-! ### Gaps longer than the window -/

/-- A fatal event found by the call after the call number `k` is reported, by
that call and by one whose window holds it, iff the gap between the two calls is
at most the window. -/
theorem increment_reported_iff (hwindow : 0 ≤ window) (hclock : Monotone fun i => (calls i).now)
    (hcounters : ∀ r, Monotone (counter calls r)) (k : ℕ) :
    ((∃ r ∈ fatalHangRules, counter calls r k < counter calls r (k + 1)) →
      ((ConditionEvaluator.new window text recurrence).verdict calls (k + 1) .gpuUnrecoverable).active = true ∧
        ∃ m, k ∈ insideWindow calls window m ∧
          ((ConditionEvaluator.new window text recurrence).verdict calls m .gpuUnrecoverable).active = true) ↔
      ((∃ r ∈ fatalHangRules, counter calls r k < counter calls r (k + 1)) →
        (calls (k + 1)).now - (calls k).now ≤ window) := by
  refine forall_congr' fun hfound => ?_
  rw [unrecoverable_iff hwindow hclock hcounters]
  constructor
  · rintro ⟨⟨i, hi, -⟩, -⟩
    obtain ⟨hik, hin⟩ := Finset.mem_filter.mp hi
    have hlater : (calls i).now ≤ (calls k).now := hclock (Nat.lt_succ_iff.mp (Finset.mem_range.mp hik))
    exact (sub_le_sub_left hlater _).trans hin
  · intro hgap
    have hinside : k ∈ insideWindow calls window (k + 1) :=
      Finset.mem_filter.mpr ⟨Finset.self_mem_range_succ k, hgap⟩
    exact ⟨⟨k, hinside, hfound⟩, k + 1, hinside,
      (unrecoverable_iff hwindow hclock hcounters (k + 1)).mpr ⟨k, hinside, hfound⟩⟩

theorem increment_reported_minutely :
    ((ConditionEvaluator.new 900 "900" 2).verdict (resets 60) 1 .gpuUnrecoverable).active = true ∧
      ∃ m, 0 ∈ insideWindow (resets 60) 900 m ∧
        ((ConditionEvaluator.new 900 "900" 2).verdict (resets 60) m .gpuUnrecoverable).active = true :=
  (increment_reported_iff (by norm_num) (resets_clock (by norm_num)) resets_counters 0).mpr
    (fun _ => by decide +kernel) (by decide +kernel)

/-- With calls further apart than the window no reset is ever reported. -/
theorem increment_swallowed : ¬∀ (window : ℚ) (text : String) (recurrence : ℤ) (calls : ℕ → Evaluation),
    0 ≤ window → (Monotone fun i => (calls i).now) → (∀ r, Monotone (counter calls r)) → ∀ k,
      (∃ r ∈ fatalHangRules, counter calls r k < counter calls r (k + 1)) →
        ((ConditionEvaluator.new window text recurrence).verdict calls (k + 1) .gpuUnrecoverable).active = true := by
  intro h
  have hactive := h 900 "900" 2 (resets 1000) (by norm_num) (resets_clock (by norm_num)) resets_counters 0
    (by decide +kernel)
  exact absurd hactive (by decide +kernel)

end GpuNodeHealth.Agent
