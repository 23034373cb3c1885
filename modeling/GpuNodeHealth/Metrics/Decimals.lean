import GpuNodeHealth.Metrics.Doubles
import GpuNodeHealth.Text.Search
import Mathlib.Data.List.DropRight

/-! Decimal notation as Python writes it, of the decimal with the fewest digits that
rounds to a double; of several such decimals it is the nearest one. -/

namespace GpuNodeHealth.Metrics

open Agent (Double float? number? digits? exponent? signed decimal)
open Guard (roundHalfEven)
open Text

/-! ### Printing -/

/-- So many times a power of ten. -/
structure Decimal where
  count : ℕ
  exponent : ℤ
  deriving DecidableEq, Repr

def Decimal.value (d : Decimal) : ℚ := d.count * 10 ^ d.exponent

/-- The decimals with so many digits next to a positive number, the nearer one first. -/
def neighbours (x : ℚ) (places : ℕ) : List Decimal :=
  let exponent := Int.log 10 x + 1 - places
  let scaled := x / 10 ^ exponent
  let nearest := (roundHalfEven scaled).toNat
  [⟨nearest, exponent⟩, ⟨2 * ⌊scaled⌋.toNat + 1 - nearest, exponent⟩]

/-- A double is a multiple of the power -1074 of two, so there are enough of these. -/
def candidates (x : ℚ) : List Decimal :=
  (List.range (Int.log 10 x + 1075).toNat).flatMap fun places => neighbours x (places + 1)

/-- The shortest decimal that rounds to a positive double. -/
def shortest (x : ℚ) : Decimal := ((candidates x).find? fun d => Double.round d.value = .finite x).getD ⟨0, 0⟩

/-- The exponent of a number in scientific notation, with two digits at least. -/
def powerText (p : ℤ) : List Char :=
  let digits := Nat.toDigits 10 p.natAbs
  (if p < 0 then '-' else '+') :: (List.replicate (2 - digits.length) '0' ++ digits)

/-- A number, by its digits and the place of the point among them. -/
def layout (digits : List Char) (point : ℤ) : List Char :=
  if -4 < point ∧ point ≤ 16 then
    if point ≤ 0 then '0' :: '.' :: (List.replicate (-point).toNat '0' ++ digits)
    else if digits.length ≤ point then digits ++ (List.replicate (point - digits.length).toNat '0' ++ ['.', '0'])
    else digits.take point.toNat ++ '.' :: digits.drop point.toNat
  else digits.take 1 ++ ((if digits.length ≤ 1 then [] else '.' :: digits.drop 1) ++ 'e' :: powerText (point - 1))

def Decimal.text (d : Decimal) : List Char :=
  layout ((Nat.toDigits 10 d.count).rdropWhile (· = '0')) ((Nat.toDigits 10 d.count).length + d.exponent)

/-! ### The digits -/

variable {c : Char} {text whole fraction power rest : List Char} {x : ℚ} {point : ℤ}

/-- A text of the ten digits. -/
def Digits (text : List Char) : Prop := ∀ c ∈ text, c.isDigit = true

theorem Digits.append (h : Digits whole) (h' : Digits fraction) : Digits (whole ++ fraction) :=
  fun c hc => (List.mem_append.mp hc).elim (h c) (h' c)

theorem Digits.mono (h : Digits text) (hsub : rest ⊆ text) : Digits rest := fun c hc => h c (hsub hc)

theorem digits_replicate (n : ℕ) : Digits (List.replicate n '0') := by
  intro c hc
  rw [List.eq_of_mem_replicate hc]
  rfl

theorem digits_toDigits (n : ℕ) : Digits (Nat.toDigits 10 n) := fun _ hc =>
  Nat.isDigit_of_mem_toDigits (by decide) le_rfl hc

theorem isDigit_range (h : c.isDigit = true) : 48 ≤ c.toNat ∧ c.toNat ≤ 57 := by
  simp only [Char.isDigit, Bool.and_eq_true, decide_eq_true_eq, UInt32.le_iff_toNat_le] at h
  exact h

theorem isDecimal_digit (h : c.isDigit = true) : Pattern.isDecimal c = true := by
  obtain ⟨hlow, hhigh⟩ := isDigit_range h
  refine List.any_eq_true.mpr ⟨0x30, by decide, ?_⟩
  simp only [Bool.and_eq_true, decide_eq_true_eq]
  omega

theorem Digits.ne (h : Digits text) (hc : c.isDigit = false) : c ∉ text := fun hmem => by
  rw [h c hmem] at hc
  cases hc

theorem decimal_digits (h : Digits text) : decimal text = Nat.ofDigitChars 10 text 0 := by
  rw [Nat.ofDigitChars_eq_foldl]
  refine List.foldl_ext _ _ 0 fun n c hc => ?_
  obtain ⟨hlow, hhigh⟩ := isDigit_range (h c hc)
  have hzero : (Pattern.decimalZeros.find? fun z => z ≤ c.toNat && c.toNat < z + 10) = some 0x30 := by
    rw [Pattern.decimalZeros, List.find?_cons_of_pos]
    simp only [Bool.and_eq_true, decide_eq_true_eq]
    omega
  dsimp only
  rw [hzero]
  rfl

theorem decimal_append (h : Digits whole) (h' : Digits fraction) :
    decimal (whole ++ fraction) = decimal whole * 10 ^ fraction.length + decimal fraction := by
  rw [decimal_digits (h.append h'), Nat.ofDigitChars_append, Nat.ofDigitChars_eq_ofDigitChars_zero,
    decimal_digits h, decimal_digits h', Nat.mul_comm]

theorem decimal_zeros (n : ℕ) : decimal (List.replicate n '0') = 0 := by
  rw [decimal_digits (digits_replicate n), Nat.ofDigitChars_replicate_zero, Nat.mul_zero]

theorem decimal_lead (n : ℕ) (h : Digits text) : decimal (List.replicate n '0' ++ text) = decimal text := by
  rw [decimal_append (digits_replicate n) h, decimal_zeros, Nat.zero_mul, Nat.zero_add]

theorem decimal_trail (n : ℕ) (h : Digits text) : decimal (text ++ List.replicate n '0') = decimal text * 10 ^ n := by
  rw [decimal_append h (digits_replicate n), decimal_zeros, List.length_replicate, Nat.add_zero]

theorem decimal_toDigits (n : ℕ) : decimal (Nat.toDigits 10 n) = n := by
  rw [decimal_digits (digits_toDigits n), Nat.ofDigitChars_ten_toDigits]

/-! ### Reading -/

theorem digits?_digits (h : Digits text) : digits? text = some text := by
  unfold digits?
  split_ifs with hnil
  · rw [hnil]
  · have hgroups : text.splitOn '_' = [text] := List.splitOn_eq_singleton (h.ne rfl)
    dsimp only
    rw [hgroups, if_pos]
    · simp
    · simpa [hnil] using fun c hc => isDecimal_digit (h c hc)

/-- A number with or without a point, with or without an exponent. -/
theorem number?_written {tail : List Char} (hwhole : Digits whole) (hfraction : Digits fraction) (hne : whole ≠ [])
    (htail : tail = '.' :: fraction ∨ tail = [] ∧ fraction = []) (hpower : power = [] ∨ power.head? = some 'e') :
    number? (whole ++ tail ++ power) =
      (exponent? power).map fun (p : ℤ) => (decimal (whole ++ fraction) : ℚ) * 10 ^ (p - fraction.length) := by
  have hletter : ∀ c : Char, c.isDigit = true → c ≠ 'e' ∧ c ≠ 'E' ∧ c ≠ '.' := by
    rintro c hc
    refine ⟨?_, ?_, ?_⟩ <;> rintro rfl <;> cases hc
  have hmantissa : ∀ c ∈ whole ++ tail, (c ≠ 'e' && c ≠ 'E') = true := by
    intro c hc
    have hdigit : c = '.' ∨ c.isDigit = true := by
      rcases List.mem_append.mp hc with hc | hc
      · exact .inr (hwhole c hc)
      · rcases htail with rfl | ⟨rfl, -⟩
        · exact (List.mem_cons.mp hc).imp_right (hfraction c)
        · cases hc
    rcases hdigit with rfl | hdigit
    · decide
    · simp [hletter c hdigit]
  have hstop : ∀ c, power.head? = some c → (c ≠ 'e' && c ≠ 'E') = false := by
    rintro c hc
    rcases hpower with rfl | hpower
    · cases hc
    · rw [hpower] at hc
      obtain rfl := Option.some.inj hc
      rfl
  have hpoint : ∀ c ∈ whole, decide (c ≠ '.') = true := fun c hc => by simp [hletter c (hwhole c hc)]
  have hdot : ∀ c, tail.head? = some c → decide (c ≠ '.') = false := by
    rintro c hc
    rcases htail with rfl | ⟨rfl, -⟩
    · obtain rfl := Option.some.inj hc
      rfl
    · cases hc
  have hdrop : tail.drop 1 = fraction := by
    rcases htail with rfl | ⟨rfl, rfl⟩ <;> rfl
  unfold number?
  rw [span_written hmantissa hstop]
  dsimp only
  rw [span_written hpoint hdot]
  dsimp only
  rw [hdrop, digits?_digits hwhole, digits?_digits hfraction]
  simp only [Option.bind_eq_bind, Option.bind_some, hne, ne_eq, List.append_eq_nil_iff, false_and, not_false_eq_true,
    guard_true, Option.pure_def]
  cases exponent? power <;> rfl

theorem exponent?_powerText (p : ℤ) : exponent? ('e' :: powerText p) = some p := by
  rw [exponent?, powerText]
  dsimp only
  generalize hdigits : Nat.toDigits 10 p.natAbs = digits
  have hzeros := (digits_replicate (2 - digits.length)).append (hdigits ▸ digits_toDigits p.natAbs)
  have hvalue : decimal (List.replicate (2 - digits.length) '0' ++ digits) = p.natAbs := by
    rw [decimal_lead _ (hdigits ▸ digits_toDigits p.natAbs), ← hdigits, decimal_toDigits]
  have hne : List.replicate (2 - digits.length) '0' ++ digits ≠ [] :=
    List.append_ne_nil_of_right_ne_nil _ (hdigits ▸ Nat.toDigits_ne_nil)
  generalize List.replicate (2 - digits.length) '0' ++ digits = text at hzeros hvalue hne
  by_cases hp : p < 0
  · simp only [hp, if_true, signed, digits?_digits hzeros, hne, ne_eq, not_false_eq_true, guard_true,
      Option.bind_eq_bind, Option.bind_some, Option.pure_def, hvalue]
    congr 1
    omega
  · simp only [hp, if_false, signed, digits?_digits hzeros, hne, ne_eq, not_false_eq_true, guard_true,
      Option.bind_eq_bind, Option.bind_some, Option.pure_def, hvalue]
    simp only [Bool.false_eq_true, if_false]
    congr 1
    omega

/-- A number is read as it is laid out. -/
theorem number?_layout {digits : List Char} (h : Digits digits) (hne : digits ≠ []) (point : ℤ) :
    number? (layout digits point) = some ((decimal digits : ℚ) * 10 ^ (point - digits.length)) := by
  have hlength : 0 < digits.length := List.length_pos_iff.mpr hne
  unfold layout
  by_cases hfixed : -4 < point ∧ point ≤ 16
  · rw [if_pos hfixed]
    split_ifs with hbefore hbehind
    · -- the digits follow the point
      have hfraction := (digits_replicate (-point).toNat).append h
      have hread := number?_written (digits_replicate 1) hfraction (by simp) (.inl rfl) (.inl rfl)
      have hpower : 0 - ((List.replicate (-point).toNat '0' ++ digits).length : ℤ) = point - digits.length := by
        rw [List.length_append, List.length_replicate]
        omega
      rw [List.append_nil, decimal_lead 1 hfraction, decimal_lead _ h] at hread
      exact hread.trans (congrArg (fun p : ℤ => some ((decimal digits : ℚ) * 10 ^ p)) hpower)
    · -- the point follows the digits
      obtain ⟨k, hk⟩ : ∃ k : ℕ, point = digits.length + k := ⟨(point - digits.length).toNat, by omega⟩
      have hwhole := h.append (digits_replicate k)
      have hread := number?_written hwhole (digits_replicate 1) (by simp [hne]) (.inl rfl) (.inl rfl)
      rw [List.append_nil, List.append_assoc, List.append_assoc, ← List.replicate_add, decimal_trail _ h] at hread
      rw [hk, add_sub_cancel_left, Int.toNat_natCast]
      refine hread.trans ?_
      show some (((decimal digits * 10 ^ (k + 1) : ℕ) : ℚ) * 10 ^ (0 - (1 : ℕ) : ℤ)) = _
      push_cast
      rw [mul_assoc, ← zpow_natCast, ← zpow_add₀ (by norm_num)]
      congr 3
      push_cast
      ring
    · -- the point is among the digits
      have hwhole : digits.take point.toNat ≠ [] := by
        rw [ne_eq, List.take_eq_nil_iff, not_or]
        exact ⟨by omega, hne⟩
      have hread := number?_written (h.mono (List.take_subset _ _)) (h.mono (List.drop_subset point.toNat digits))
        hwhole (.inl rfl) (.inl rfl)
      have hpower : 0 - ((digits.length - point.toNat : ℕ) : ℤ) = point - digits.length := by omega
      rw [List.append_nil, List.take_append_drop, List.length_drop] at hread
      exact hread.trans (congrArg (fun p : ℤ => some ((decimal digits : ℚ) * 10 ^ p)) hpower)
  · -- one digit is in front of the point
    rw [if_neg hfixed]
    have htail : (if digits.length ≤ 1 then [] else '.' :: digits.drop 1) = '.' :: digits.drop 1 ∨
        (if digits.length ≤ 1 then [] else '.' :: digits.drop 1) = [] ∧ digits.drop 1 = [] := by
      by_cases hone : digits.length ≤ 1
      · exact .inr ⟨if_pos hone, List.drop_eq_nil_of_le hone⟩
      · exact .inl (if_neg hone)
    have hexponent : 'e' :: powerText (point - 1) = [] ∨ ('e' :: powerText (point - 1)).head? = some 'e' := .inr rfl
    have hread := number?_written (h.mono (List.take_subset 1 _)) (h.mono (List.drop_subset 1 digits)) (by simp [hne])
      htail hexponent
    have hpower : point - 1 - ((digits.length - 1 : ℕ) : ℤ) = point - digits.length := by omega
    rw [List.take_append_drop, exponent?_powerText, List.append_assoc, List.length_drop] at hread
    exact hread.trans (congrArg (fun p : ℤ => some ((decimal digits : ℚ) * 10 ^ p)) hpower)

/-- The digits without the zeros behind them. -/
theorem toDigits_stripped (n : ℕ) : ∃ zeros : ℕ,
    Nat.toDigits 10 n = (Nat.toDigits 10 n).rdropWhile (· = '0') ++ List.replicate zeros '0' := by
  have hzeros := List.eq_replicate_of_mem (a := '0') (l := (Nat.toDigits 10 n).rtakeWhile (· = '0')) fun c hc => by
    simpa using List.mem_rtakeWhile_imp hc
  exact ⟨_, by rw [← hzeros, List.rdropWhile_append_rtakeWhile]⟩

theorem Decimal.digits_kept {d : Decimal} (hpos : 0 < d.count) :
    Digits ((Nat.toDigits 10 d.count).rdropWhile (· = '0')) ∧ (Nat.toDigits 10 d.count).rdropWhile (· = '0') ≠ [] := by
  obtain ⟨zeros, hzeros⟩ := toDigits_stripped d.count
  refine ⟨(digits_toDigits _).mono (List.rdropWhile_prefix _ _).subset, fun hnil => ?_⟩
  have hvalue := decimal_toDigits d.count
  rw [hzeros, hnil, List.nil_append, decimal_zeros] at hvalue
  omega

/-- A decimal is read as its value. -/
theorem Decimal.number?_text {d : Decimal} (hpos : 0 < d.count) : number? d.text = some d.value := by
  obtain ⟨zeros, hzeros⟩ := toDigits_stripped d.count
  obtain ⟨hdigits, hne⟩ := digits_kept hpos
  have hvalue := decimal_toDigits d.count
  have hlength := congrArg List.length hzeros
  rw [text]
  generalize (Nat.toDigits 10 d.count).rdropWhile (· = '0') = digits at hzeros hlength hdigits hne
  rw [hzeros, decimal_trail zeros hdigits] at hvalue
  rw [List.length_append, List.length_replicate] at hlength
  have hpower : (Nat.toDigits 10 d.count).length + d.exponent - (digits.length : ℤ) = zeros + d.exponent := by omega
  rw [number?_layout hdigits hne, hpower, value, zpow_add₀ (by norm_num), zpow_natCast, ← mul_assoc, ← hvalue]
  push_cast
  rfl

/-! ### The shortest decimal -/

theorem round_pos {y : ℚ} (hpos : 0 < x) (h : Double.round y = .finite x) : y ≠ 0 := by
  rintro rfl
  rw [round_zero] at h
  exact hpos.ne (Double.finite.inj h)

/-- A power of a half is a multiple of the power of a tenth. -/
theorem half_tenth (n : ℕ) : ∃ k : ℕ, 0 < k ∧ (2 : ℚ) ^ (-n : ℤ) = k * 10 ^ (-n : ℤ) := by
  refine ⟨5 ^ n, Nat.pow_pos (by decide), ?_⟩
  rw [Nat.cast_pow, show (10 : ℚ) = 5 * 2 by norm_num, mul_zpow, ← mul_assoc, ← zpow_natCast,
    Nat.cast_ofNat, ← zpow_add₀ (by norm_num), add_neg_cancel, zpow_zero, one_mul]

/-- With enough digits a double is written as it is. -/
theorem exact_candidate (hpos : 0 < x) (h : Exact (.finite x)) : ∃ d ∈ candidates x, d.value = x := by
  obtain ⟨count, hcount, hx⟩ := exact_multiple hpos h
  obtain ⟨power, hpow, hhalf⟩ := half_tenth 1074
  have hscaled : x = (count * power : ℕ) * 10 ^ (-1074 : ℤ) := by
    rw [hx, Nat.cast_mul, mul_assoc]
    exact congrArg _ hhalf
  have htiny : (10 : ℚ) ^ (-1074 : ℤ) ≤ x := by
    rw [hscaled]
    refine le_mul_of_one_le_left (zpow_nonneg (by norm_num) _) ?_
    exact_mod_cast Nat.mul_pos hcount hpow
  have hlog : -1074 ≤ Int.log 10 x := (Int.zpow_le_iff_le_log (by decide) hpos).mp (by exact_mod_cast htiny)
  obtain ⟨n, hn⟩ : ∃ n : ℕ, Int.log 10 x + 1075 = n + 1 := ⟨(Int.log 10 x + 1074).toNat, by omega⟩
  have hexponent : Int.log 10 x + 1 - ((n + 1 : ℕ) : ℤ) = -1074 := by omega
  have hunit : (10 : ℚ) ^ (-1074 : ℤ) ≠ 0 := zpow_ne_zero _ (by norm_num)
  refine ⟨⟨count * power, -1074⟩, List.mem_flatMap.mpr ⟨n, List.mem_range.mpr (by omega), ?_⟩, hscaled.symm⟩
  have hnearest : roundHalfEven (x / 10 ^ (-1074 : ℤ)) = (count * power : ℕ) := by
    nth_rewrite 1 [hscaled]
    rw [mul_div_cancel_right₀ _ hunit]
    exact_mod_cast roundHalfEven_intCast _
  rw [neighbours, hexponent, hnearest, Int.toNat_natCast]
  exact List.mem_cons_self

theorem shortest_spec (hpos : 0 < x) (h : Exact (.finite x)) :
    Double.round (shortest x).value = .finite x ∧ 0 < (shortest x).count := by
  obtain ⟨d, hd, hvalue⟩ := exact_candidate hpos h
  have hround : Double.round d.value = .finite x := by rw [hvalue]; exact h
  have hfound : Double.round (shortest x).value = .finite x := by
    rw [shortest]
    cases hfind : (candidates x).find? fun d => Double.round d.value = .finite x with
    | none => exact absurd (decide_eq_true hround) (List.find?_eq_none.mp hfind d hd)
    | some d' =>
      have hread := List.find?_some hfind
      exact of_decide_eq_true hread
  refine ⟨hfound, Nat.pos_of_ne_zero fun hzero => round_pos hpos hfound ?_⟩
  rw [Decimal.value, hzero, Nat.cast_zero, zero_mul]

/-- A text starts with a digit. -/
def startsWithDigit (text : List Char) : Bool := text.head?.any Char.isDigit

theorem layout_starts {digits : List Char} (h : Digits digits) (hne : digits ≠ []) (point : ℤ) :
    startsWithDigit (layout digits point) = true := by
  obtain ⟨c, rest, rfl⟩ := List.exists_cons_of_ne_nil hne
  have hc : c.isDigit = true := h c List.mem_cons_self
  unfold layout startsWithDigit
  split_ifs with hfixed hbefore hbehind
  · rfl
  · exact hc
  · obtain ⟨n, hn⟩ : ∃ n, point.toNat = n + 1 := ⟨point.toNat - 1, by omega⟩
    rw [hn]
    exact hc
  · exact hc
  · exact hc

/-- In front of a digit stands no sign. -/
theorem signed_digit (h : startsWithDigit text = true) : signed text = (false, text) := by
  unfold signed
  split
  · cases h
  · cases h
  · rfl

theorem toLower_digit (h : c.isDigit = true) : c.toLower = c := by
  obtain ⟨hlow, hhigh⟩ := isDigit_range h
  delta Char.toLower
  refine dif_neg ?_
  rintro ⟨hupper, -⟩
  have hle : 65 ≤ c.toNat := hupper
  omega

theorem word_digit {word : List Char} (h : startsWithDigit text = true) (hword : startsWithDigit word = false) :
    text.map Char.toLower ≠ word := by
  cases text with
  | nil => cases h
  | cons c rest =>
    have hc : c.isDigit = true := h
    rintro rfl
    rw [startsWithDigit, List.map_cons, List.head?_cons, toLower_digit hc] at hword
    exact Bool.false_ne_true (hword.symm.trans hc)

/-- A number after its sign, if it has one. -/
theorem float?_number (h : startsWithDigit text = true) (hread : number? text = some x) :
    float? text = some (.round x) ∧ float? ('-' :: text) = some (.round (-x)) := by
  have hword : ∀ word, startsWithDigit word = false → text.map Char.toLower ≠ word := fun word => word_digit h
  constructor
  · unfold float?
    rw [signed_digit h]
    dsimp only
    rw [if_neg (not_or.mpr ⟨hword _ (by decide), hword _ (by decide)⟩), if_neg (hword _ (by decide)), hread]
    rfl
  · unfold float?
    rw [show signed ('-' :: text) = (true, text) from rfl]
    dsimp only
    rw [if_neg (not_or.mpr ⟨hword _ (by decide), hword _ (by decide)⟩), if_neg (hword _ (by decide)), hread]
    rfl

theorem Decimal.text_starts {d : Decimal} (hpos : 0 < d.count) : startsWithDigit d.text = true :=
  layout_starts (digits_kept hpos).1 (digits_kept hpos).2 _

/-! ### The characters of a number -/

def numeralChar (c : Char) : Bool := c.isDigit || c ∈ ['-', '+', '.', 'e', 'i', 'n', 'f', 'a']

theorem Digits.numeral (h : Digits text) : ∀ c ∈ text, numeralChar c = true := fun c hc => by
  rw [numeralChar, h c hc, Bool.true_or]

theorem numeral_append (h : ∀ c ∈ text, numeralChar c = true) (hrest : ∀ c ∈ rest, numeralChar c = true) :
    ∀ c ∈ text ++ rest, numeralChar c = true := fun c hc => (List.mem_append.mp hc).elim (h c) (hrest c)

theorem numeral_cons (hc : numeralChar c = true) (h : ∀ c ∈ text, numeralChar c = true) :
    ∀ c' ∈ c :: text, numeralChar c' = true := List.forall_mem_cons.mpr ⟨hc, h⟩

theorem powerText_numeral (p : ℤ) : ∀ c ∈ powerText p, numeralChar c = true := by
  refine numeral_cons ?_ ((digits_replicate _).append (digits_toDigits _)).numeral
  split_ifs <;> rfl

theorem layout_numeral {digits : List Char} (h : Digits digits) (point : ℤ) :
    ∀ c ∈ layout digits point, numeralChar c = true := by
  unfold layout
  split_ifs
  · exact numeral_cons rfl (numeral_cons rfl ((digits_replicate _).append h).numeral)
  · exact numeral_append h.numeral (numeral_append (digits_replicate _).numeral (by decide))
  · exact numeral_append (h.mono (List.take_subset _ _)).numeral
      (numeral_cons rfl (h.mono (List.drop_subset _ _)).numeral)
  · exact numeral_append (h.mono (List.take_subset _ _)).numeral
      (numeral_append (List.forall_mem_nil _) (numeral_cons rfl (powerText_numeral _)))
  · exact numeral_append (h.mono (List.take_subset _ _)).numeral
      (numeral_append (numeral_cons rfl (h.mono (List.drop_subset _ _)).numeral)
        (numeral_cons rfl (powerText_numeral _)))

theorem Decimal.text_numeral (d : Decimal) : ∀ c ∈ d.text, numeralChar c = true :=
  layout_numeral ((digits_toDigits _).mono (List.rdropWhile_prefix _ _).subset) _

end GpuNodeHealth.Metrics
