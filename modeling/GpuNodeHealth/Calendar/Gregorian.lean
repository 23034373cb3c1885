import Mathlib.Data.Int.Basic
import Mathlib.Data.List.Basic
import Mathlib.Tactic.IntervalCases

/-! The proleptic Gregorian calendar: a date as a year, month and day, and the
same date as an ordinal, day 1 being 1 January of year 1. The conversion to a
date splits the ordinal into 400-, 100-, 4- and 1-year cycles; converting back
gives the ordinal again. -/

namespace GpuNodeHealth.Calendar

def isLeap (year : ℤ) : Bool := year % 4 = 0 ∧ (year % 100 ≠ 0 ∨ year % 400 = 0)

/-- Days of the year before the month starts, months counted from 1. -/
def daysBeforeMonth (leap : Bool) (month : ℕ) : ℕ :=
  [0, 0, 31, 59, 90, 120, 151, 181, 212, 243, 273, 304, 334].getD month 365 +
    if leap ∧ 2 < month then 1 else 0

def daysInMonth (leap : Bool) (month : ℕ) : ℕ :=
  if month = 2 ∧ leap then 29 else [0, 31, 28, 31, 30, 31, 30, 31, 31, 30, 31, 30, 31].getD month 0

def daysBeforeYear (year : ℤ) : ℤ :=
  (year - 1) * 365 + (year - 1) / 4 - (year - 1) / 100 + (year - 1) / 400

def toOrdinal (year : ℤ) (month day : ℕ) : ℤ :=
  daysBeforeYear year + daysBeforeMonth (isLeap year) month + day

/-- The year an ordinal falls in, and how many days of the year precede it. -/
def yearOfOrdinal (n : ℤ) : ℤ × ℤ :=
  let n := n - 1
  let n400 := n / 146097
  let r400 := n % 146097
  let n100 := r400 / 36524
  let r100 := r400 % 36524
  let n4 := r100 / 1461
  let r4 := r100 % 1461
  let n1 := r4 / 365
  let r1 := r4 % 365
  let year := n400 * 400 + n100 * 100 + n4 * 4 + n1 + 1
  -- the last day of a 4- or 400-year cycle overflows into a fifth year
  if n1 = 4 ∨ n100 = 4 then (year - 1, 365) else (year, r1)

/-- The month a day of the year falls in. -/
def monthOf (leap : Bool) (day : ℕ) : ℕ :=
  (List.range' 1 11).findIdx (fun m => day < daysBeforeMonth leap (m + 1)) + 1

def ofOrdinal (n : ℤ) : ℤ × ℕ × ℕ :=
  let (year, day) := yearOfOrdinal n
  let month := monthOf (isLeap year) day.toNat
  (year, month, day.toNat - daysBeforeMonth (isLeap year) month + 1)

section Cycles

variable {a b c d : ℤ} (hb : 0 ≤ b ∧ b ≤ 3) (hc : 0 ≤ c ∧ c ≤ 24) (hd : 0 ≤ d ∧ d ≤ 3)

include hb hc hd

/-- Days before a year given by its place in the 400-, 100-, 4- and 1-year cycles. -/
theorem daysBeforeYear_cycles :
    daysBeforeYear (a * 400 + b * 100 + c * 4 + d + 1) = 146097 * a + 36524 * b + 1461 * c + 365 * d := by
  have h4 : (a * 400 + b * 100 + c * 4 + d) / 4 = 100 * a + 25 * b + c := by omega
  have h100 : (a * 400 + b * 100 + c * 4 + d) / 100 = 4 * a + b := by omega
  have h400 : (a * 400 + b * 100 + c * 4 + d) / 400 = a := by omega
  simp only [daysBeforeYear, add_sub_cancel_right, h4, h100, h400]
  omega

theorem isLeap_cycles :
    isLeap (a * 400 + b * 100 + c * 4 + d + 1) = true ↔ d = 3 ∧ (c ≠ 24 ∨ b = 3) := by
  simp only [isLeap, decide_eq_true_eq]
  omega

end Cycles

theorem yearOfOrdinal_spec (n : ℤ) :
    daysBeforeYear (yearOfOrdinal n).1 + (yearOfOrdinal n).2 + 1 = n ∧
      0 ≤ (yearOfOrdinal n).2 ∧
      (yearOfOrdinal n).2 < if isLeap (yearOfOrdinal n).1 then 366 else 365 := by
  by_cases h : (n - 1) % 146097 % 36524 % 1461 / 365 = 4 ∨ (n - 1) % 146097 / 36524 = 4
  · simp only [yearOfOrdinal, if_pos h]
    generalize ha : (n - 1) / 146097 = a
    generalize hb : (n - 1) % 146097 / 36524 = b at h
    generalize hc : (n - 1) % 146097 % 36524 / 1461 = c
    generalize hd : (n - 1) % 146097 % 36524 % 1461 / 365 = d at h
    -- the overflowing day belongs to the last year of its cycle, which is a leap year
    obtain ⟨b', c', hy, hb', hc', hl'⟩ : ∃ b' c' : ℤ,
        a * 400 + b * 100 + c * 4 + d + 1 - 1 = a * 400 + b' * 100 + c' * 4 + 3 + 1 ∧
        (0 ≤ b' ∧ b' ≤ 3) ∧ (0 ≤ c' ∧ c' ≤ 24) ∧ (c' ≠ 24 ∨ b' = 3) := by
      by_cases h4 : b = 4
      · exact ⟨3, 24, by omega, by omega, by omega, by omega⟩
      · exact ⟨b, c, by omega, by omega, by omega, by omega⟩
    have hl := (isLeap_cycles (a := a) hb' hc' (d := 3) (by omega)).mpr ⟨rfl, hl'⟩
    rw [hy, daysBeforeYear_cycles hb' hc' (by omega), if_pos hl]
    omega
  · simp only [yearOfOrdinal, if_neg h]
    have hl := isLeap_cycles (a := (n - 1) / 146097) (b := (n - 1) % 146097 / 36524)
      (c := (n - 1) % 146097 % 36524 / 1461) (d := (n - 1) % 146097 % 36524 % 1461 / 365)
      (by omega) (by omega) (by omega)
    rw [daysBeforeYear_cycles (by omega) (by omega) (by omega)]
    split_ifs with hs
    · omega
    · have hs' := hl.not.mp hs
      omega

theorem monthOf_spec (leap : Bool) (day : ℕ) (h : day < if leap then 366 else 365) :
    daysBeforeMonth leap (monthOf leap day) ≤ day ∧
      day < daysBeforeMonth leap (monthOf leap day) + daysInMonth leap (monthOf leap day) ∧
      1 ≤ monthOf leap day ∧ monthOf leap day ≤ 12 := by
  have hall : ∀ leap : Bool, ∀ day : Fin 366, (day : ℕ) < (if leap then 366 else 365) →
      daysBeforeMonth leap (monthOf leap day) ≤ day ∧
        day < daysBeforeMonth leap (monthOf leap day) + daysInMonth leap (monthOf leap day) ∧
        1 ≤ monthOf leap day ∧ monthOf leap day ≤ 12 := by decide +kernel
  exact hall leap ⟨day, by split_ifs at h <;> omega⟩ h

/-- Converting an ordinal to a date and back is the identity. -/
theorem toOrdinal_ofOrdinal (n : ℤ) :
    toOrdinal (ofOrdinal n).1 (ofOrdinal n).2.1 (ofOrdinal n).2.2 = n := by
  obtain ⟨hn, h0, hlt⟩ := yearOfOrdinal_spec n
  obtain ⟨hm, -⟩ := monthOf_spec (isLeap (yearOfOrdinal n).1) (yearOfOrdinal n).2.toNat
    (by split_ifs at hlt ⊢ <;> omega)
  simp only [toOrdinal, ofOrdinal]
  omega

/-- The date of an ordinal is a day of the calendar. -/
theorem ofOrdinal_valid (n : ℤ) :
    1 ≤ (ofOrdinal n).2.1 ∧ (ofOrdinal n).2.1 ≤ 12 ∧ 1 ≤ (ofOrdinal n).2.2 ∧
      (ofOrdinal n).2.2 ≤ daysInMonth (isLeap (ofOrdinal n).1) (ofOrdinal n).2.1 := by
  obtain ⟨-, h0, hlt⟩ := yearOfOrdinal_spec n
  obtain ⟨hm, hd, h1, h12⟩ := monthOf_spec (isLeap (yearOfOrdinal n).1) (yearOfOrdinal n).2.toNat
    (by split_ifs at hlt ⊢ <;> omega)
  simp only [ofOrdinal]
  omega

end GpuNodeHealth.Calendar
