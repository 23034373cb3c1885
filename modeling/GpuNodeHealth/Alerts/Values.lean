import GpuNodeHealth.Alerts.Queries
import GpuNodeHealth.Metrics.Doubles

/-! Doubles as the values of samples. No comparison holds of a NaN, and the largest of
some values is a NaN only if all of them are. -/

namespace GpuNodeHealth.Alerts

open Agent (Double)

/-- `x > c` -/
def above (c : ℚ) : Double → Bool
  | .finite q => c < q
  | .infinity negative => !negative
  | .nan => false

/-- `x < c` -/
def below (c : ℚ) : Double → Bool
  | .finite q => q < c
  | .infinity negative => negative
  | .nan => false

/-- `x == c` -/
def equals (c : ℚ) : Double → Bool
  | .finite q => q = c
  | _ => false

def larger : Double → Double → Double
  | .nan, y => y
  | x, .nan => x
  | .infinity true, y => y
  | x, .infinity true => x
  | .infinity false, _ => .infinity false
  | _, .infinity false => .infinity false
  | .finite p, .finite q => .finite (max p q)

instance : Max Double := ⟨larger⟩

instance : NatCast Double := ⟨fun n => .round n⟩

/-- `time() - x` -/
def ago (now : ℚ) : Double → Double
  | .finite q => .round (now - q)
  | .infinity negative => .infinity !negative
  | .nan => .nan

theorem rising_above (c : ℚ) : Rising (above c) := by
  intro x y
  show above c (larger x y) = _
  cases x with
  | nan => rfl
  | infinity negative =>
    cases negative with
    | true => cases y <;> rfl
    | false =>
      cases y with
      | nan => rfl
      | infinity negative => cases negative <;> rfl
      | finite q => rfl
  | finite p =>
    cases y with
    | nan => simp [larger, above]
    | infinity negative => cases negative <;> simp [larger, above]
    | finite q => simp [larger, above]

instance : Std.MaxEqOr Double where
  max_eq_or x y := by
    show larger x y = x ∨ larger x y = y
    cases x with
    | nan => exact .inr rfl
    | infinity negative => cases negative <;> cases y with
      | nan => exact .inl rfl
      | infinity negative => cases negative <;> simp [larger]
      | finite q => simp [larger]
    | finite p => cases y with
      | nan => exact .inl rfl
      | infinity negative => cases negative <;> simp [larger]
      | finite q => exact (max_choice p q).imp (congrArg Double.finite) (congrArg Double.finite)

theorem above_count (n : ℕ) : above 0 (.round n) = decide (0 < n) := by
  cases n with
  | zero => decide
  | succ n =>
    have hle : (0 : ℚ) + 1 ≤ (n + 1 : ℕ) := by
      push_cast
      linarith [(Nat.cast_nonneg n : (0 : ℚ) ≤ n)]
    rcases Metrics.round_above le_rfl (by norm_num) hle with hround | ⟨y, hround, hy⟩
    · rw [hround]
      exact (decide_eq_true n.succ_pos).symm
    · rw [hround]
      exact (decide_eq_true hy).trans (decide_eq_true n.succ_pos).symm

/-- What is so much longer ago is found. -/
theorem above_ago {now c q : ℚ} (hc : 0 ≤ c) (hsmall : c < 2 ^ 50) (h : c + 1 ≤ now - q) :
    above c (ago now (.finite q)) = true := by
  rw [ago]
  rcases Metrics.round_above hc hsmall h with hround | ⟨y, hround, hy⟩
  · rw [hround]
    rfl
  · rw [hround]
    exact decide_eq_true hy

end GpuNodeHealth.Alerts
