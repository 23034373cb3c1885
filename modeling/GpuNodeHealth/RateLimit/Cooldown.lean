import Mathlib.Algebra.Order.Group.Basic
import Mathlib.Logic.Function.Basic

/-! A cooldown for each key. Entries come in with their times, and for each key
the time of the last one is remembered; an entry is admitted when that is a gap
ago. Then any two entries of one key are a gap apart. -/

namespace GpuNodeHealth.RateLimit

variable {α κ : Type*} [LinearOrder α] {gap now : α} {log : List (α × κ)} {last : κ → Option α} {k : κ}

/-- Of two entries of one key the later is at least the gap after the earlier. -/
def Apart [Add α] (gap : α) (log : List (α × κ)) : Prop := log.Pairwise fun a b => a.2 = b.2 → a.1 + gap ≤ b.1

/-- No entry is later than the time remembered for its key. -/
def Covers (last : κ → Option α) (log : List (α × κ)) : Prop := ∀ a ∈ log, ∃ t, last a.2 = some t ∧ a.1 ≤ t

theorem Apart.snoc [AddCommGroup α] [IsOrderedAddMonoid α] (h : Apart gap log) (hlast : Covers last log)
    (hdue : ∀ t ∈ last k, gap ≤ now - t) : Apart gap (log ++ [(now, k)]) := by
  refine List.pairwise_append.mpr ⟨h, List.pairwise_singleton _ _, fun a ha b hb hkey => ?_⟩
  obtain rfl := List.mem_singleton.mp hb
  obtain ⟨t, ht, hat⟩ := hlast a ha
  have hgap := hdue t ((congrArg last hkey).symm.trans ht)
  calc a.1 + gap ≤ t + gap := add_le_add_left hat gap
    _ ≤ t + (now - t) := add_le_add_right hgap t
    _ = now := add_sub_cancel t now

theorem Covers.snoc [DecidableEq κ] (hlast : Covers last log) (hpast : ∀ a ∈ log, a.1 ≤ now) :
    Covers (Function.update last k (some now)) (log ++ [(now, k)]) := by
  intro a ha
  rcases List.mem_append.mp ha with ha | ha
  · by_cases hkey : a.2 = k
    · exact ⟨now, by rw [hkey, Function.update_self], hpast a ha⟩
    · rw [Function.update_of_ne hkey]
      exact hlast a ha
  · obtain rfl := List.mem_singleton.mp ha
    exact ⟨now, Function.update_self _ _ _, le_rfl⟩

end GpuNodeHealth.RateLimit
