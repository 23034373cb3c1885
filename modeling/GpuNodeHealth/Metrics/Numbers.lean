import GpuNodeHealth.Metrics.Decimals

/-! Numbers as Python prints them, and what their texts stand for. A zero is printed
without a sign. -/

namespace GpuNodeHealth.Metrics

open Agent (Double float? number? signed decimal)

/-- `repr` of a float -/
def repr : Double → List Char
  | .finite q =>
    if q = 0 then "0.0".toList
    else if q < 0 then '-' :: (shortest (-q)).text
    else (shortest q).text
  | .infinity negative => if negative then "-inf".toList else "inf".toList
  | .nan => "nan".toList

/-- A number of Python. -/
inductive Number where
  | int (n : ℤ)
  | float (x : Double)
  deriving DecidableEq, Repr

/-- `str` of a number -/
def Number.str : Number → List Char
  | int n => (toString n).toList
  | float x => repr x

example : (Number.float (.round (121 / 10))).str = "12.1".toList := by decide +kernel
example : (Number.float (.round (10 ^ 23))).str = "1e+23".toList := by decide +kernel
example : (Number.float (.round (-1 / 100000))).str = "-1e-05".toList := by decide +kernel

/-! ### Reading a number back -/

variable {c : Char} {text : List Char} {x : ℚ}

theorem exact_neg (h : Exact (.finite x)) : Exact (.finite (-x)) := round_neg h

/-- What is printed of a double reads as it. -/
theorem float?_repr {x : Double} (h : Exact x) : float? (repr x) = some x := by
  cases x with
  | finite q =>
    rw [repr]
    split_ifs with hzero hneg
    · rw [hzero]
      decide +kernel
    · obtain ⟨hround, hcount⟩ := shortest_spec (neg_pos.mpr hneg) (exact_neg h)
      rw [(float?_number (Decimal.text_starts hcount) (Decimal.number?_text hcount)).2, round_neg hround, neg_neg]
    · have hpos : 0 < q := lt_of_le_of_ne (not_lt.mp hneg) (Ne.symm hzero)
      obtain ⟨hround, hcount⟩ := shortest_spec hpos h
      rw [(float?_number (Decimal.text_starts hcount) (Decimal.number?_text hcount)).1, hround]
  | infinity negative => cases negative <;> decide +kernel
  | nan => decide +kernel

/-- An integer in decimal notation. -/
def integer? (text : List Char) : Option ℤ :=
  let (negative, digits) := signed text
  if !digits.isEmpty && digits.all Char.isDigit then some (if negative then -decimal digits else decimal digits)
  else none

/-- The number a text stands for: an integer if it has nothing but digits, else a float. -/
def Number.read (text : List Char) : Option Number :=
  match integer? text with
  | some n => some (.int n)
  | none => (float? text).map .float

/-- A float of Python is a double. -/
def Number.Exact : Number → Prop
  | int _ => True
  | float x => Metrics.Exact x

/-- The texts of negative integers have a sign. -/
theorem str_int (n : ℤ) : (Number.int n).str =
    if n < 0 then '-' :: Nat.toDigits 10 n.natAbs else Nat.toDigits 10 n.natAbs := by
  cases n with
  | ofNat k =>
    show (Nat.repr k).toList = _
    rw [Nat.toList_repr, if_neg (by simp)]
    rfl
  | negSucc k =>
    show ("-" ++ Nat.repr (k + 1)).toList = _
    rw [String.toList_append, Nat.toList_repr, if_pos (Int.negSucc_lt_zero k)]
    rfl

theorem toDigits_starts (n : ℕ) : startsWithDigit (Nat.toDigits 10 n) = true := by
  obtain ⟨c, rest, hcons⟩ := List.exists_cons_of_ne_nil (Nat.toDigits_ne_nil (n := n) (b := 10))
  rw [hcons]
  exact digits_toDigits n c (hcons ▸ List.mem_cons_self)

theorem integer?_int (n : ℤ) : integer? (Number.int n).str = some n := by
  have hread : ∀ k, (!(Nat.toDigits 10 k).isEmpty && (Nat.toDigits 10 k).all Char.isDigit) = true := fun k => by
    rw [Bool.and_eq_true, List.all_eq_true]
    exact ⟨by simp, digits_toDigits k⟩
  rw [str_int]
  unfold integer?
  split_ifs with hneg
  · rw [show signed ('-' :: Nat.toDigits 10 n.natAbs) = (true, Nat.toDigits 10 n.natAbs) from rfl]
    dsimp only
    rw [if_pos (hread _), if_pos rfl, decimal_toDigits]
    congr 1
    omega
  · rw [signed_digit (toDigits_starts _)]
    dsimp only
    rw [if_pos (hread _), if_neg Bool.false_ne_true, decimal_toDigits]
    congr 1
    omega

theorem integer?_other (hc : c ∈ text) (hdigit : c.isDigit = false) (hsign : c ≠ '-' ∧ c ≠ '+') :
    integer? text = none := by
  have hbody : c ∈ (signed text).2 := by
    unfold signed
    split
    · exact (List.mem_cons.mp hc).resolve_left hsign.1
    · exact (List.mem_cons.mp hc).resolve_left hsign.2
    · exact hc
  unfold integer?
  refine if_neg fun hall => ?_
  rw [Bool.and_eq_true, List.all_eq_true] at hall
  exact Text.class_not_mem hall.2 hdigit hbody

theorem layout_point (digits : List Char) (point : ℤ) : ∃ c ∈ layout digits point, c = '.' ∨ c = 'e' := by
  unfold layout
  split_ifs
  · exact ⟨'.', by simp, .inl rfl⟩
  · exact ⟨'.', by simp, .inl rfl⟩
  · exact ⟨'.', by simp, .inl rfl⟩
  · exact ⟨'e', by simp, .inr rfl⟩
  · exact ⟨'e', by simp, .inr rfl⟩

/-- A float is printed with something that no integer has. -/
theorem repr_float (x : Double) : ∃ c ∈ repr x, c = '.' ∨ c = 'e' ∨ c = 'n' := by
  cases x with
  | finite q =>
    rw [repr]
    split_ifs
    · exact ⟨'.', by decide, .inl rfl⟩
    · obtain ⟨c, hc, heq⟩ := layout_point _ _
      exact ⟨c, List.mem_cons_of_mem _ hc, heq.imp_right .inl⟩
    · obtain ⟨c, hc, heq⟩ := layout_point _ _
      exact ⟨c, hc, heq.imp_right .inl⟩
  | infinity negative => exact ⟨'n', by cases negative <;> decide, .inr (.inr rfl)⟩
  | nan => exact ⟨'n', by decide, .inr (.inr rfl)⟩

/-- A number is read back as it was printed. -/
theorem Number.read_str {v : Number} (h : v.Exact) : read v.str = some v := by
  cases v with
  | int n => rw [read, integer?_int]
  | float x =>
    obtain ⟨c, hc, heq⟩ := repr_float x
    have hnone : integer? (repr x) = none := by
      refine integer?_other hc ?_ ?_
      · rcases heq with rfl | rfl | rfl <;> rfl
      · rcases heq with rfl | rfl | rfl <;> decide
    rw [str, read, hnone]
    exact congrArg (Option.map Number.float) (float?_repr h)

/-- As a double, an integer beyond the 53 bits of one is rounded. -/
def Number.toDouble : Number → Double
  | int n => .round n
  | float x => x

theorem Number.float?_str {v : Number} (h : v.Exact) : float? v.str = some v.toDouble := by
  cases v with
  | float x => exact float?_repr h
  | int n =>
    have hplain := number?_written (digits_toDigits n.natAbs) (List.forall_mem_nil _) Nat.toDigits_ne_nil
      (.inr ⟨rfl, rfl⟩) (.inl rfl)
    have hread : number? (Nat.toDigits 10 n.natAbs) = some (n.natAbs : ℚ) := by
      rw [List.append_nil, List.append_nil, decimal_toDigits] at hplain
      refine hplain.trans ?_
      show some ((n.natAbs : ℚ) * 10 ^ (0 - 0 : ℤ)) = _
      rw [sub_self, zpow_zero, mul_one]
    obtain ⟨hpositive, hnegative⟩ := float?_number (toDigits_starts n.natAbs) hread
    rw [str_int, toDouble]
    split_ifs with hneg
    · have habs : (n : ℚ) = -(n.natAbs : ℚ) := by
        rw [← Int.cast_natCast, ← Int.cast_neg]
        congr 1
        omega
      rw [hnegative, habs]
    · have habs : (n : ℚ) = (n.natAbs : ℚ) := by
        rw [← Int.cast_natCast]
        congr 1
        omega
      rw [hpositive, habs]

theorem Number.str_ne_nil (v : Number) : v.str ≠ [] := by
  cases v with
  | int n =>
    rw [str_int]
    split_ifs
    · exact List.cons_ne_nil _ _
    · exact Nat.toDigits_ne_nil
  | float x =>
    obtain ⟨c, hc, -⟩ := repr_float x
    exact List.ne_nil_of_mem hc

theorem Number.str_numeral (v : Number) : ∀ c ∈ v.str, numeralChar c = true := by
  cases v with
  | int n =>
    rw [str_int]
    split_ifs
    · exact numeral_cons rfl (digits_toDigits _).numeral
    · exact (digits_toDigits _).numeral
  | float x =>
    rw [str]
    cases x with
    | finite q =>
      rw [repr]
      split_ifs
      · decide
      · exact numeral_cons rfl (Decimal.text_numeral _)
      · exact Decimal.text_numeral _
    | infinity negative => cases negative <;> decide
    | nan => decide

end GpuNodeHealth.Metrics
