import GpuNodeHealth.Agent.Floats
import Mathlib.Tactic.Positivity
import Mathlib.Tactic.Ring
import Mathlib.Tactic.NormNum
import Mathlib.Tactic.Linarith
import Mathlib.Tactic.FieldSimp

/-! The doubles among the rationals: what rounding gives is one, and rounds to itself.
Every double is a multiple of the smallest positive one. -/

namespace GpuNodeHealth.Metrics

open Agent (Double)
open Guard (roundHalfEven)

/-! ### Rounding to an integer -/

variable {x : ℚ} {n : ℤ}

theorem roundHalfEven_intCast (n : ℤ) : roundHalfEven n = n := by
  rw [roundHalfEven, Int.floor_intCast, sub_self, if_pos (by norm_num)]

theorem roundHalfEven_le (h : x < n) : roundHalfEven x ≤ n := by
  have hfloor : ⌊x⌋ < n := Int.floor_lt.mpr h
  unfold roundHalfEven
  split_ifs <;> omega

theorem roundHalfEven_nonneg (h : 0 ≤ x) : 0 ≤ roundHalfEven x := by
  have hfloor : 0 ≤ ⌊x⌋ := Int.floor_nonneg.mpr h
  unfold roundHalfEven
  split_ifs <;> omega

/-! ### Rounding to a double -/

/-- A value that a double has. -/
def Exact : Double → Prop
  | .finite q => Double.round q = .finite q
  | .infinity _ => True
  | .nan => True

/-- The exponent of the unit in the last place. -/
def lastPlace (x : ℚ) : ℤ := max (Int.log 2 |x|) (-1022) - 52

@[simp] theorem lastPlace_neg (x : ℚ) : lastPlace (-x) = lastPlace x := by rw [lastPlace, abs_neg, lastPlace]

theorem round_zero : Double.round 0 = .finite 0 := if_pos rfl

theorem round_eq (h : x ≠ 0) : Double.round x =
    let size := roundHalfEven (|x| / 2 ^ lastPlace x) * (2 : ℚ) ^ lastPlace x
    if 2 ^ 1024 ≤ size then .infinity (x < 0) else .finite (if x < 0 then -size else size) :=
  if_neg h

theorem sign_abs (x : ℚ) : (if x < 0 then -|x| else |x|) = x := by
  split_ifs with hneg
  · rw [abs_of_neg hneg, neg_neg]
  · exact abs_of_nonneg (not_lt.mp hneg)

/-- A multiple of its unit in the last place rounds to itself. -/
theorem round_multiple (h : |x| = n * 2 ^ lastPlace x) (hlt : |x| < 2 ^ 1024) : Double.round x = .finite x := by
  by_cases hzero : x = 0
  · rw [hzero, round_zero]
  · have hunit : (2 : ℚ) ^ lastPlace x ≠ 0 := zpow_ne_zero _ two_ne_zero
    have hcount : |x| / 2 ^ lastPlace x = n := by rw [h, mul_div_cancel_right₀ _ hunit]
    rw [round_eq hzero]
    dsimp only
    rw [hcount, roundHalfEven_intCast, ← h, if_neg (not_le.mpr hlt), sign_abs]

/-- What rounding gives is a multiple of a unit, of at most so many. -/
theorem round_count (x : ℚ) : 0 ≤ roundHalfEven (|x| / 2 ^ lastPlace x) ∧
    roundHalfEven (|x| / 2 ^ lastPlace x) ≤ 2 ^ 53 := by
  have hunit : (0 : ℚ) < 2 ^ lastPlace x := zpow_pos two_pos _
  refine ⟨roundHalfEven_nonneg (div_nonneg (abs_nonneg x) hunit.le), roundHalfEven_le ?_⟩
  have hlog : |x| < (2 : ℚ) ^ (Int.log 2 |x| + 1) := by
    exact_mod_cast Int.lt_zpow_succ_log_self one_lt_two |x|
  have htop : (2 : ℚ) ^ (Int.log 2 |x| + 1) ≤ 2 ^ 53 * 2 ^ lastPlace x := by
    rw [← zpow_natCast, ← zpow_add₀ two_ne_zero]
    refine zpow_le_zpow_right₀ one_le_two ?_
    unfold lastPlace
    push_cast
    omega
  rw [div_lt_iff₀ hunit]
  push_cast
  exact hlog.trans_le htop

/-- Such a multiple is a multiple of its own unit in the last place. -/
theorem multiple_lastPlace {count exponent : ℤ} (hexponent : -1022 - 52 ≤ exponent) (hpos : 0 < count)
    (hle : count ≤ 2 ^ 53) : ∃ n : ℤ, (count : ℚ) * 2 ^ exponent = n * 2 ^ lastPlace (count * 2 ^ exponent) := by
  have hsize : (0 : ℚ) < count * 2 ^ exponent := mul_pos (by exact_mod_cast hpos) (zpow_pos two_pos _)
  have htop : (2 : ℚ) ^ 53 * 2 ^ exponent = 2 ^ (exponent + 53) := by
    rw [← zpow_natCast, ← zpow_add₀ two_ne_zero, add_comm]
    rfl
  rw [lastPlace, abs_of_pos hsize]
  rcases hle.lt_or_eq with hlt | rfl
  · have hlog : Int.log 2 ((count : ℚ) * 2 ^ exponent) < exponent + 53 := by
      rw [← Int.lt_zpow_iff_log_lt one_lt_two hsize]
      push_cast
      rw [← htop]
      have hcount : (count : ℚ) < 2 ^ 53 := by exact_mod_cast hlt
      exact mul_lt_mul_of_pos_right hcount (zpow_pos two_pos _)
    obtain ⟨k, hk⟩ : ∃ k : ℕ, exponent = max (Int.log 2 ((count : ℚ) * 2 ^ exponent)) (-1022) - 52 + k :=
      ⟨(exponent - (max (Int.log 2 ((count : ℚ) * 2 ^ exponent)) (-1022) - 52)).toNat, by omega⟩
    refine ⟨count * 2 ^ k, ?_⟩
    nth_rewrite 1 [hk]
    rw [zpow_add₀ two_ne_zero, zpow_natCast]
    push_cast
    ring
  · have hpower : ((2 ^ 53 : ℤ) : ℚ) * 2 ^ exponent = 2 ^ (exponent + 53) := by exact_mod_cast htop
    have hlog : Int.log 2 ((2 : ℚ) ^ (exponent + 53)) = exponent + 53 := by
      exact_mod_cast Int.log_zpow (R := ℚ) one_lt_two (exponent + 53)
    rw [hpower, hlog, max_eq_left (by omega)]
    have hunits : ((2 ^ 52 : ℤ) : ℚ) = 2 ^ (52 : ℤ) := by norm_num
    refine ⟨2 ^ 52, ?_⟩
    rw [hunits, ← zpow_add₀ two_ne_zero]
    congr 1
    ring

/-- So is every integer of at most 53 bits. -/
theorem round_int (h : |n| ≤ 2 ^ 53) : Double.round n = .finite n := by
  rcases eq_or_ne n 0 with rfl | hne
  · exact round_zero
  have habs : |(n : ℚ)| = (|n| : ℤ) * 2 ^ (0 : ℤ) := by simp
  obtain ⟨k, hk⟩ := @multiple_lastPlace |n| 0 (by omega) (abs_pos.mpr hne) h
  refine round_multiple (n := k) ?_ ?_
  · rwa [← habs, lastPlace, abs_abs] at hk
  · have hle : |(n : ℚ)| ≤ 2 ^ 53 := by exact_mod_cast h
    exact hle.trans_lt (pow_lt_pow_right₀ one_lt_two (by omega))

/-- What is so far above a small number is rounded to what is above it. -/
theorem round_above {c : ℚ} (hc : 0 ≤ c) (hsmall : c < 2 ^ 50) (h : c + 1 ≤ x) :
    Double.round x = .infinity false ∨ ∃ y, Double.round x = .finite y ∧ c < y := by
  have hone : 1 ≤ x := by linarith
  have hpos : 0 < x := by linarith
  have hunit : (0 : ℚ) < 2 ^ lastPlace x := zpow_pos two_pos _
  have hlog : 0 ≤ Int.log 2 x := by
    rw [← Int.zpow_le_iff_le_log one_lt_two hpos]
    simpa using hone
  -- the unit in the last place is a small part of the number
  have hplace : 2 ^ 52 * (2 : ℚ) ^ lastPlace x ≤ x := by
    have hle : (2 : ℚ) ^ Int.log 2 x ≤ x := by exact_mod_cast Int.zpow_log_le_self one_lt_two hpos
    refine le_trans (le_of_eq ?_) hle
    rw [lastPlace, abs_of_pos hpos, max_eq_left (by omega), ← zpow_natCast, ← zpow_add₀ two_ne_zero]
    congr 1
    push_cast
    ring
  have hcount : x / 2 ^ lastPlace x - 1 < roundHalfEven (x / 2 ^ lastPlace x) := by
    have hfloor : ⌊x / 2 ^ lastPlace x⌋ ≤ roundHalfEven (x / 2 ^ lastPlace x) := by
      unfold roundHalfEven
      split_ifs <;> omega
    have hcast : ((⌊x / 2 ^ lastPlace x⌋ : ℤ) : ℚ) ≤ roundHalfEven (x / 2 ^ lastPlace x) := by exact_mod_cast hfloor
    linarith [Int.lt_floor_add_one (x / 2 ^ lastPlace x)]
  have hsize : x - 2 ^ lastPlace x < roundHalfEven (x / 2 ^ lastPlace x) * 2 ^ lastPlace x := by
    have hmul := mul_lt_mul_of_pos_right hcount hunit
    rwa [sub_mul, one_mul, div_mul_cancel₀ _ hunit.ne'] at hmul
  have hbelow : c < x - 2 ^ lastPlace x := by linarith
  rw [round_eq hpos.ne']
  simp only [abs_of_pos hpos, not_lt.mpr hpos.le, if_false]
  split_ifs with hbig
  · exact .inl (by simp)
  · exact .inr ⟨_, rfl, hbelow.trans hsize⟩

/-- What is not large is rounded by less than one. -/
theorem round_within (hnonneg : 0 ≤ x) (hsmall : x < 2 ^ 50) : ∃ y, Double.round x = .finite y ∧ y ≤ x + 1 := by
  rcases hnonneg.eq_or_lt with rfl | hpos
  · exact ⟨0, round_zero, by norm_num⟩
  have hunit : (0 : ℚ) < 2 ^ lastPlace x := zpow_pos two_pos _
  have hlog : Int.log 2 x ≤ 52 := by
    have hlt : x < (2 : ℚ) ^ (52 + 1 : ℤ) := hsmall.trans_le (by norm_num)
    have hlog : Int.log 2 x < 52 + 1 := (Int.lt_zpow_iff_log_lt one_lt_two hpos).mp hlt
    omega
  have hplace : (2 : ℚ) ^ lastPlace x ≤ 1 := by
    refine zpow_le_one_of_nonpos₀ one_le_two ?_
    rw [lastPlace, abs_of_pos hpos]
    omega
  have hcount : (roundHalfEven (x / 2 ^ lastPlace x) : ℚ) ≤ x / 2 ^ lastPlace x + 1 := by
    have hfloor : roundHalfEven (x / 2 ^ lastPlace x) ≤ ⌊x / 2 ^ lastPlace x⌋ + 1 := by
      unfold roundHalfEven
      split_ifs <;> omega
    have hcast : (roundHalfEven (x / 2 ^ lastPlace x) : ℚ) ≤ (⌊x / 2 ^ lastPlace x⌋ : ℤ) + 1 := by exact_mod_cast hfloor
    linarith [Int.floor_le (x / 2 ^ lastPlace x)]
  have hsize : roundHalfEven (x / 2 ^ lastPlace x) * (2 : ℚ) ^ lastPlace x ≤ x + 1 := by
    have hmul := mul_le_mul_of_nonneg_right hcount hunit.le
    rw [add_mul, one_mul, div_mul_cancel₀ _ hunit.ne'] at hmul
    linarith
  rw [round_eq hpos.ne']
  simp only [abs_of_pos hpos, not_lt.mpr hpos.le, if_false]
  have hfits : ¬(2 : ℚ) ^ 1024 ≤ roundHalfEven (x / 2 ^ lastPlace x) * 2 ^ lastPlace x := by
    have hroom : (2 : ℚ) ^ 50 + 1 < 2 ^ 51 := by norm_num
    have htop : (2 : ℚ) ^ 51 ≤ 2 ^ 1024 := pow_le_pow_right₀ one_le_two (by omega)
    have hlt : x + 1 < 2 ^ 50 + 1 := by linarith
    exact not_le.mpr (hsize.trans_lt ((hlt.trans hroom).trans_le htop))
  rw [if_neg hfits]
  exact ⟨_, rfl, hsize⟩

/-- What rounding gives is a double. -/
theorem exact_round (x : ℚ) : Exact (Double.round x) := by
  by_cases hzero : x = 0
  · rw [hzero, round_zero]
    exact round_zero
  obtain ⟨hnonneg, hle⟩ := round_count x
  rw [round_eq hzero]
  dsimp only
  generalize roundHalfEven (|x| / 2 ^ lastPlace x) = count at hnonneg hle
  split_ifs with hbig hneg
  · trivial
  all_goals
    rcases hnonneg.eq_or_lt with rfl | hpos
    · simp only [Int.cast_zero, zero_mul, neg_zero]
      exact round_zero
    have hexponent : -1022 - 52 ≤ lastPlace x := by
      unfold lastPlace
      omega
    obtain ⟨n, hn⟩ := multiple_lastPlace hexponent hpos hle
    have hsize : (0 : ℚ) < count * 2 ^ lastPlace x := mul_pos (by exact_mod_cast hpos) (zpow_pos two_pos _)
    refine round_multiple (n := n) ?_ ?_
  · rw [abs_neg, abs_of_pos hsize, lastPlace_neg]
    exact hn
  · rw [abs_neg, abs_of_pos hsize]
    exact not_le.mp hbig
  · rw [abs_of_pos hsize]
    exact hn
  · rw [abs_of_pos hsize]
    exact not_le.mp hbig

/-- Rounding is symmetric. -/
theorem round_neg {y : ℚ} (h : Double.round x = .finite y) : Double.round (-x) = .finite (-y) := by
  rcases lt_trichotomy x 0 with hx | rfl | hx
  · rw [round_eq hx.ne] at h
    rw [round_eq (neg_ne_zero.mpr hx.ne)]
    simp only [lastPlace_neg, abs_neg, hx, not_lt.mpr (neg_nonneg.mpr hx.le), if_true, if_false] at h ⊢
    split_ifs at h ⊢ with hbig
    rw [← Double.finite.inj h, neg_neg]
  · rw [round_zero] at h
    rw [neg_zero, round_zero, ← Double.finite.inj h, neg_zero]
  · rw [round_eq hx.ne'] at h
    rw [round_eq (neg_ne_zero.mpr hx.ne')]
    simp only [lastPlace_neg, abs_neg, neg_neg_iff_pos.mpr hx, not_lt.mpr hx.le, if_true, if_false] at h ⊢
    split_ifs at h ⊢ with hbig
    rw [← Double.finite.inj h]

/-- A positive double is so many times the smallest one. -/
theorem exact_multiple (hpos : 0 < x) (h : Exact (.finite x)) :
    ∃ count : ℕ, 0 < count ∧ x = count * 2 ^ (-1074 : ℤ) := by
  have hround : Double.round x = .finite x := h
  obtain ⟨hnonneg, -⟩ := round_count x
  rw [round_eq hpos.ne'] at hround
  simp only [not_lt.mpr hpos.le, if_false] at hround
  generalize roundHalfEven (|x| / 2 ^ lastPlace x) = count at hnonneg hround
  split_ifs at hround
  have hsize := Double.finite.inj hround
  obtain ⟨count, rfl⟩ := Int.eq_ofNat_of_zero_le hnonneg
  obtain ⟨k, hk⟩ : ∃ k : ℕ, lastPlace x = k + -1074 := ⟨(lastPlace x + 1074).toNat, by unfold lastPlace; omega⟩
  have hx : x = (count * 2 ^ k : ℕ) * 2 ^ (-1074 : ℤ) := by
    rw [hk, zpow_add₀ two_ne_zero, zpow_natCast, Int.cast_natCast, ← mul_assoc] at hsize
    rw [Nat.cast_mul, Nat.cast_pow, Nat.cast_two]
    exact hsize.symm
  refine ⟨count * 2 ^ k, Nat.pos_of_ne_zero fun hzero => ?_, hx⟩
  rw [hzero, Nat.cast_zero, zero_mul] at hx
  exact hpos.ne' hx

end GpuNodeHealth.Metrics
