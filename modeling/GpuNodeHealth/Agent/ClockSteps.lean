import GpuNodeHealth.Agent.WindowLaw
import GpuNodeHealth.Window.ClockSteps

/-! An event under a clock that may step. The agent passes the wall clock, which goes
back when the node's time is corrected. A sample from before such a step is ahead of
the clock, and until the clock has caught up with it and a window has passed, neither
it nor any sample behind it is evicted: an event they are the baseline of stays. -/

namespace GpuNodeHealth.Agent

variable {window : ℚ} {text : String} {recurrence : ℤ} {calls : ℕ → Evaluation} {m n : ℕ}

/-- From one call to a later one no fatal counter increased, the clock did not step
back, and it advanced by more than the window. -/
structure Settled (calls : ℕ → Evaluation) (window : ℚ) (m n : ℕ) : Prop where
  later : m < n
  quiet : ∀ r ∈ fatalHangRules, counter calls r n = counter calls r m
  clock : MonotoneOn (fun i => (calls i).now) (Set.Icc m n)
  passed : window < (calls n).now - (calls m).now

theorem hits_pos {counts baseline : Rule → ℤ} {rules : List Rule} :
    0 < hits counts baseline rules ↔ ∃ r ∈ rules, baseline r < counts r := by
  induction rules with
  | nil => simp [hits]
  | cons r rest ih =>
    have hrest : 0 ≤ hits counts baseline rest := by
      refine List.sum_nonneg fun x hx => ?_
      obtain ⟨r, -, rfl⟩ := List.mem_map.mp hx
      exact le_max_left _ _
    simp only [hits, List.map_cons, List.sum_cons, List.mem_cons, exists_eq_or_imp] at ih hrest ⊢
    rw [← ih]
    omega

/-- What an evaluator holds after the call number `k`. -/
def held (window : ℚ) (calls : ℕ → Evaluation) (k : ℕ) : List (ℚ × (Rule → ℤ)) :=
  Window.queued window (sample calls) k

theorem held_head (k : ℕ) : ∃ s, (held window calls k).head? = some s := by
  cases k with
  | zero => exact ⟨sample calls 0, rfl⟩
  | succ k =>
    rw [held, Window.queued_succ]
    cases (Window.queued window (sample calls) k).dropWhile _ with
    | nil => exact ⟨_, rfl⟩
    | cons s rest => exact ⟨s, rfl⟩

/-- A fatal event shows when the oldest sample held has less of it. -/
theorem active_iff :
    ((ConditionEvaluator.new window text recurrence).verdict calls n .gpuUnrecoverable).active = true ↔
      ∃ s, (held window calls n).head? = some s ∧ ∃ r ∈ fatalHangRules, s.2 r < counter calls r n := by
  obtain ⟨s, hs⟩ := @held_head window calls n
  have hhistory : ((ConditionEvaluator.new window text recurrence).after calls (n + 1)).history.head? = some s := by
    rw [after_history]
    exact hs
  rw [ConditionEvaluator.after, ConditionEvaluator.evaluate] at hhistory
  simp only [ConditionEvaluator.verdict, ConditionEvaluator.evaluate, unrecoverable, hhistory, decide_eq_true_eq]
  rw [hits_pos, hs]
  simp only [Option.some.injEq, exists_eq_left']
  rfl

/-- The counters of the samples held, from the oldest on. -/
theorem held_pairwise (hcounters : ∀ r, Monotone (counter calls r)) (k : ℕ) :
    (held window calls k).Pairwise fun s t => ∀ r, s.2 r ≤ t.2 r := by
  refine List.Pairwise.sublist (Window.queued_suffix k).sublist (List.pairwise_map.mpr ?_)
  exact List.pairwise_lt_range.imp fun hij r => hcounters r hij.le

/-- The samples since, without the one of the call itself. -/
def between (calls : ℕ → Evaluation) (m n : ℕ) : List (ℚ × (Rule → ℤ)) :=
  (List.range' (m + 1) (n - (m + 1))).map (sample calls)

theorem Settled.held_eq (h : Settled calls window m n) : held window calls n =
    (held window calls m ++ between calls m n).dropWhile (Window.old window (calls n).now) ++ [sample calls n] :=
  Window.queued_since h.later h.clock

/-- The samples since have the fatal counters of the call itself. -/
theorem Settled.between_quiet (h : Settled calls window m n) (hcounters : ∀ r, Monotone (counter calls r))
    {s : ℚ × (Rule → ℤ)} (hs : s ∈ between calls m n ++ [sample calls n]) :
    ¬∃ r ∈ fatalHangRules, s.2 r < counter calls r n := by
  rintro ⟨r, hr, hlt⟩
  have hsince : ∃ i, m ≤ i ∧ sample calls i = s := by
    rcases List.mem_append.mp hs with hs | hs
    · obtain ⟨i, hi, heq⟩ := List.mem_map.mp hs
      exact ⟨i, by rw [List.mem_range'_1] at hi; omega, heq⟩
    · exact ⟨n, h.later.le, (List.mem_singleton.mp hs).symm⟩
  obtain ⟨i, hi, rfl⟩ := hsince
  exact absurd (hcounters r hi) (not_le.mpr (h.quiet r hr ▸ hlt))

/-- An event is over exactly if every sample that still has less of it is too old. -/
theorem Settled.inactive_iff (h : Settled calls window m n) (hcounters : ∀ r, Monotone (counter calls r)) :
    ((ConditionEvaluator.new window text recurrence).verdict calls n .gpuUnrecoverable).active = false ↔
      ∀ s ∈ held window calls m, (∃ r ∈ fatalHangRules, s.2 r < counter calls r m) →
        window < (calls n).now - s.1 := by
  have hfatal : ∀ s : ℚ × (Rule → ℤ), (∃ r ∈ fatalHangRules, s.2 r < counter calls r n) ↔
      ∃ r ∈ fatalHangRules, s.2 r < counter calls r m := fun s =>
    exists_congr fun r => and_congr_right fun hr => by rw [h.quiet r hr]
  -- a sample before one that has less of an event has less of it too
  have hbefore : (held window calls m).Pairwise fun s t =>
      (∃ r ∈ fatalHangRules, t.2 r < counter calls r n) → ∃ r ∈ fatalHangRules, s.2 r < counter calls r n :=
    (held_pairwise hcounters m).imp fun hle ⟨r, hr, hlt⟩ => ⟨r, hr, (hle r).trans_lt hlt⟩
  rw [← Bool.not_eq_true, active_iff, h.held_eq,
    Window.head_dropWhile_bad_iff hbefore fun s hs => h.between_quiet hcounters hs]
  constructor
  · intro hnone s hs hless
    refine by_contra fun hyoung => hnone ⟨s, hs, ?_, (hfatal s).mpr hless⟩
    exact fun hold => hyoung (of_decide_eq_true hold)
  · rintro hall ⟨s, hs, hyoung, hless⟩
    exact hyoung (decide_eq_true (hall s hs ((hfatal s).mp hless)))

/-- The samples up to a call are evicted exactly if every one still held is too old. -/
theorem Settled.evicted_iff (h : Settled calls window m n) :
    held window calls n <:+ (List.range' (m + 1) (n - m)).map (sample calls) ↔
      ∀ s ∈ held window calls m, window < (calls n).now - s.1 := by
  have hsince : (List.range' (m + 1) (n - m)).map (sample calls) = between calls m n ++ [sample calls n] := by
    have hn := h.later
    rw [between, show n - m = n - (m + 1) + 1 by omega, List.range'_concat (n := n - (m + 1)), List.map_append,
      List.map_singleton]
    congr 3
    omega
  rw [h.held_eq, hsince, Window.dropWhile_append_suffix_iff]
  simp only [Window.old, decide_eq_true_eq]

/-- Once a window has passed since a call, without a step back and without another fatal
event, the condition is inactive and the samples up to that call are evicted exactly if
every sample that call held is too old; for the condition alone it is enough, and takes,
that those from before an event are. -/
theorem event_unpinned_iff (hcounters : ∀ r, Monotone (counter calls r)) (h : Settled calls window m n) :
    (((ConditionEvaluator.new window text recurrence).verdict calls n .gpuUnrecoverable).active = false ∧
        ((ConditionEvaluator.new window text recurrence).after calls (n + 1)).history <:+
          (List.range' (m + 1) (n - m)).map (sample calls) ↔
      ∀ s ∈ ((ConditionEvaluator.new window text recurrence).after calls (m + 1)).history,
        window < (calls n).now - s.1) ∧
    (((ConditionEvaluator.new window text recurrence).verdict calls n .gpuUnrecoverable).active = false ↔
      ∀ s ∈ ((ConditionEvaluator.new window text recurrence).after calls (m + 1)).history,
        (∃ r ∈ fatalHangRules, s.2 r < counter calls r m) → window < (calls n).now - s.1) := by
  rw [after_history, after_history]
  refine ⟨⟨fun hboth => h.evicted_iff.mp hboth.2, fun hold => ?_⟩, h.inactive_iff hcounters⟩
  exact ⟨(h.inactive_iff hcounters).mpr fun s hs _ => hold s hs, h.evicted_iff.mpr hold⟩

/-! ### A clock that is set back -/

/-- The clock is set back from 10000 to 100, and meanwhile a GPU is reset. -/
def setBack (i : ℕ) : Evaluation where
  now := match i with
    | 0 => 10000
    | 1 => 100
    | 2 => 1001
    | _ => 10901
  kernlog := { counts := fun r => if r = .gpuResetBegin then min i 1 else 0 }

theorem setBack_counters (r : Rule) : Monotone (counter setBack r) := by
  intro i j hij
  by_cases hr : r = .gpuResetBegin
  · simp only [counter, setBack, hr, if_true]
    omega
  · simp [counter, setBack, hr]

theorem setBack_settled {n : ℕ} (hlater : 2 ≤ n) (hn : n ≤ 3) : Settled setBack 900 1 n := by
  have hcases : n = 2 ∨ n = 3 := by omega
  refine ⟨by omega, ?_, ?_, ?_⟩
  · rcases hcases with rfl | rfl <;> decide
  · rintro i ⟨hi, hin⟩ j ⟨hj, hjn⟩ hij
    have hi' : i = 1 ∨ i = 2 ∨ i = 3 := by omega
    have hj' : j = 1 ∨ j = 2 ∨ j = 3 := by omega
    rcases hi' with rfl | rfl | rfl <;> rcases hj' with rfl | rfl | rfl <;>
      first | omega | (simp only [setBack]; norm_num)
  · rcases hcases with rfl | rfl <;> simp only [setBack] <;> norm_num

theorem event_unpinned_caught_up :
    ((ConditionEvaluator.new 900 "900" 2).verdict setBack 3 .gpuUnrecoverable).active = false :=
  ((event_unpinned_iff setBack_counters (setBack_settled (by decide) le_rfl)).1.mpr (by decide +kernel)).1

/-- Before it has caught up the reset stays, and the sample from before it. -/
theorem event_pinned : Settled setBack 900 1 2 ∧ (∀ r, Monotone (counter setBack r)) ∧
    ((ConditionEvaluator.new 900 "900" 2).verdict setBack 2 .gpuUnrecoverable).active = true ∧
    ¬((ConditionEvaluator.new 900 "900" 2).after setBack 3).history <:+ (List.range' 2 1).map (sample setBack) := by
  refine ⟨setBack_settled le_rfl (by decide), setBack_counters, by decide +kernel, fun hsuffix => ?_⟩
  have hlength := hsuffix.length_le
  revert hlength
  decide +kernel

end GpuNodeHealth.Agent
