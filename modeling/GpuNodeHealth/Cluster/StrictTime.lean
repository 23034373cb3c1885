import GpuNodeHealth.Cluster.Time

/-! Which texts `parse_time` takes for a time. It is meant for UTC stamps as the API
server writes them; it cuts its text at the first point and adds a Z where it finds
none, so that it also takes stamps that lack the Z or say, behind the point, that
they are not in UTC. -/

namespace GpuNodeHealth.Cluster

open Calendar

/-! ### Stamps -/

def pad4 (n : ℕ) : List Char := [digit (n / 1000), digit (n / 100), digit (n / 10), digit n]

/-- A time of day on a day of the calendar, in a year of four digits. -/
structure StructTime.Civil (tm : StructTime) : Prop where
  year : 1 ≤ tm.year ∧ tm.year < 10000
  month : 1 ≤ tm.month ∧ tm.month ≤ 12
  day : 1 ≤ tm.day ∧ tm.day ≤ daysInMonth (isLeap tm.year) tm.month
  clock : tm.hour < 24 ∧ tm.minute < 60 ∧ tm.second < 60

/-- `YYYY-MM-DDThh:mm:ss` -/
def civil (tm : StructTime) : List Char :=
  pad4 tm.year.toNat ++ '-' :: (pad2 tm.month ++ '-' :: (pad2 tm.day ++ 'T' :: (pad2 tm.hour ++ ':' ::
    (pad2 tm.minute ++ ':' :: pad2 tm.second))))

/-- A fraction of a second: nothing, or a point and digits. -/
def IsFraction (fraction : List Char) : Prop :=
  fraction = [] ∨ ∃ digits, digits ≠ [] ∧ (∀ c ∈ digits, '0' ≤ c ∧ c ≤ '9') ∧ fraction = '.' :: digits

/-- An RFC 3339 stamp in UTC, and the epoch second it names. -/
def Stamps (s : String) (n : ℤ) : Prop :=
  ∃ tm fraction, tm.Civil ∧ IsFraction fraction ∧ s.toList = civil tm ++ fraction ++ ['Z'] ∧ n = timegm tm

/-- The fields of a time, written loosely: with any digits, and one where there need
not be two. -/
structure Core (core : List Char) (tm : StructTime) : Prop where
  split : ∃ y m d t h min sec, core = y ++ '-' :: (m ++ '-' :: (d ++ t :: (h ++ ':' :: (min ++ ':' :: sec)))) ∧
    t ∈ ['T', 't'] ∧ (yearField y).map Int.ofNat = some tm.year ∧ monthField m = some tm.month ∧
    dayField d = some tm.day ∧ hourField h = some tm.hour ∧ minuteField min = some tm.minute ∧
    secondField sec = some tm.second
  valid : 1 ≤ tm.year ∧ tm.day ≤ daysInMonth (isLeap tm.year) tm.month

/-- The text starts with a loosely written time, with or without a Z; whatever
follows, if anything does, follows a point. -/
def Loose (s : String) (tm : StructTime) : Prop :=
  ∃ core z rest, s.toList = core ++ z ++ rest ∧ Core core tm ∧ (z = [] ∨ z = ['Z']) ∧
    (rest = [] ∨ ∃ tail, rest = '.' :: tail)

variable {s : String} {tm : StructTime} {text core field rest seps : List Char} {n : ℕ}

/-! ### What the fields consist of -/

theorem digitIn_some {lo hi : ℕ} {c : Char} (hhi : hi ≤ 9) (h : digitIn lo hi c = some n) : decimal c ≠ none := by
  unfold digitIn at h
  split_ifs at h with hc
  intro hnone
  have hzero := List.findSome?_eq_none_iff.mp hnone 0x30 (by simp [decimalZeros])
  rw [if_pos ⟨by omega, by omega⟩] at hzero
  cases hzero

/-- A digit, or the blank that may stand for one. -/
def Digitlike (c : Char) : Prop := decimal c ≠ none ∨ c = ' '

theorem digitlike_not_separator {c : Char} (h : Digitlike c) : c ∉ separators := by
  have hseps : separators.all (fun c => decide (decimal c = none ∧ c ≠ ' ')) = true := by decide +kernel
  intro hc
  obtain ⟨hdecimal, hblank⟩ := of_decide_eq_true (List.all_eq_true.mp hseps c hc)
  exact h.elim (fun h => h hdecimal) hblank

theorem yearField_digitlike (h : yearField field = some n) : ∀ c ∈ field, Digitlike c := by
  unfold yearField at h
  split at h
  · simp only [Option.bind_eq_bind, Option.bind_eq_some_iff] at h
    obtain ⟨a, ha, b, hb, c, hc, d, hd, -⟩ := h
    simp [Digitlike, ha, hb, hc, hd]
  · cases h

section

-- Splitting a match on character literals would run through all characters, where a
-- statement about them can be decided; the alternatives are told apart by hand.
set_option linter.auxLemma false

theorem monthField_other {a : Char} {tail : List Char} (h1 : a ≠ '1') (h0 : a ≠ '0') :
    monthField (a :: tail) = match tail with | [] => digitIn 1 9 a | _ => none := by
  delta monthField monthField.match_1
  rcases tail with _ | ⟨c, _ | ⟨d, rest⟩⟩ <;>
  exact (dif_neg h1).trans (dif_neg h0)

theorem dayField_other {a : Char} {tail : List Char} (h3 : a ≠ '3') (h0 : a ≠ '0') (hblank : a ≠ ' ') :
    dayField (a :: tail) = match tail with
      | [] => digitIn 1 9 a
      | [c] => do return 10 * (← digitIn 1 2 a) + (← decimal c)
      | _ => none := by
  delta dayField dayField.match_1
  rcases tail with _ | ⟨c, _ | ⟨d, rest⟩⟩ <;>
  exact (dif_neg h3).trans ((dif_neg h0).trans (dif_neg hblank))

theorem hourField_other {a : Char} {tail : List Char} (h2 : a ≠ '2') :
    hourField (a :: tail) = match tail with
      | [] => decimal a
      | [c] => do return 10 * (← digitIn 0 1 a) + (← decimal c)
      | _ => none := by
  delta hourField hourField.match_1
  rcases tail with _ | ⟨c, _ | ⟨d, rest⟩⟩ <;>
  exact dif_neg h2

end

/-- An alternative that starts with a character of its own has one more, at most. -/
theorem Digitlike.alternative {f : List Char → Option ℕ} {a : Char} {tail : List Char} (ha : Digitlike a)
    (hpair : ∀ c, f [a, c] = some n → Digitlike c) (hlong : ∀ c d rest, f (a :: c :: d :: rest) = none)
    (h : f (a :: tail) = some n) : ∀ c ∈ a :: tail, Digitlike c := by
  rcases tail with _ | ⟨c, _ | ⟨d, rest⟩⟩
  · simp [ha]
  · simp [ha, hpair c h]
  · rw [hlong] at h
    cases h

theorem monthField_digitlike (h : monthField field = some n) : ∀ c ∈ field, Digitlike c := by
  have hdigits : decimal '0' ≠ none ∧ decimal '1' ≠ none :=
    ⟨digitIn_some le_rfl (rfl : digitIn 0 9 '0' = some 0), digitIn_some le_rfl (rfl : digitIn 0 9 '1' = some 1)⟩
  rcases field with _ | ⟨a, tail⟩
  · cases h
  by_cases h1 : a = '1'
  · subst h1
    refine .alternative (.inl hdigits.2) (fun c hc => ?_) (fun _ _ _ => rfl) h
    obtain ⟨k, hk, -⟩ := Option.bind_eq_some_iff.mp hc
    exact .inl (digitIn_some (by omega) hk)
  by_cases h0 : a = '0'
  · subst h0
    exact .alternative (.inl hdigits.1) (fun c hc => .inl (digitIn_some (c := c) (by omega) hc)) (fun _ _ _ => rfl) h
  rw [monthField_other h1 h0] at h
  rcases tail with _ | ⟨c, rest⟩
  · simp [Digitlike, digitIn_some (c := a) (by omega) h]
  · cases h

theorem dayField_digitlike (h : dayField field = some n) : ∀ c ∈ field, Digitlike c := by
  have hdigits : decimal '0' ≠ none ∧ decimal '3' ≠ none :=
    ⟨digitIn_some le_rfl (rfl : digitIn 0 9 '0' = some 0), digitIn_some le_rfl (rfl : digitIn 0 9 '3' = some 3)⟩
  rcases field with _ | ⟨a, tail⟩
  · cases h
  by_cases h3 : a = '3'
  · subst h3
    refine .alternative (.inl hdigits.2) (fun c hc => ?_) (fun _ _ _ => rfl) h
    obtain ⟨k, hk, -⟩ := Option.bind_eq_some_iff.mp hc
    exact .inl (digitIn_some (by omega) hk)
  by_cases h0 : a = '0'
  · subst h0
    exact .alternative (.inl hdigits.1) (fun c hc => .inl (digitIn_some (c := c) (by omega) hc)) (fun _ _ _ => rfl) h
  by_cases hblank : a = ' '
  · subst hblank
    exact .alternative (.inr rfl) (fun c hc => .inl (digitIn_some (c := c) (by omega) hc)) (fun _ _ _ => rfl) h
  rw [dayField_other h3 h0 hblank] at h
  rcases tail with _ | ⟨c, _ | ⟨d, rest⟩⟩
  · simp [Digitlike, digitIn_some (c := a) (by omega) h]
  · simp only [Option.bind_eq_bind, Option.bind_eq_some_iff] at h
    obtain ⟨k, hk, k', hk', -⟩ := h
    simp [Digitlike, digitIn_some (by omega) hk, hk']
  · cases h

theorem hourField_digitlike (h : hourField field = some n) : ∀ c ∈ field, Digitlike c := by
  have hdigits : decimal '2' ≠ none := digitIn_some le_rfl (rfl : digitIn 0 9 '2' = some 2)
  rcases field with _ | ⟨a, tail⟩
  · cases h
  by_cases h2 : a = '2'
  · subst h2
    refine .alternative (.inl hdigits) (fun c hc => ?_) (fun _ _ _ => rfl) h
    obtain ⟨k, hk, -⟩ := Option.bind_eq_some_iff.mp hc
    exact .inl (digitIn_some (by omega) hk)
  rw [hourField_other h2] at h
  rcases tail with _ | ⟨c, _ | ⟨d, rest⟩⟩
  · simp [Digitlike, show decimal a = some n from h]
  · simp only [Option.bind_eq_bind, Option.bind_eq_some_iff] at h
    obtain ⟨k, hk, k', hk', -⟩ := h
    simp [Digitlike, digitIn_some (by omega) hk, hk']
  · cases h

theorem minuteField_digitlike (h : minuteField field = some n) : ∀ c ∈ field, Digitlike c := by
  unfold minuteField at h
  split at h
  · simp only [Option.bind_eq_bind, Option.bind_eq_some_iff] at h
    obtain ⟨k, hk, k', hk', -⟩ := h
    simp [Digitlike, digitIn_some (by omega) hk, hk']
  · simp [Digitlike, h]
  · cases h

theorem secondField_digitlike (h : secondField field = some n) : ∀ c ∈ field, Digitlike c := by
  have hdigits : decimal '6' ≠ none := digitIn_some le_rfl (rfl : digitIn 0 9 '6' = some 6)
  unfold secondField at h
  split at h
  · simp only [Option.bind_eq_bind, Option.bind_eq_some_iff] at h
    obtain ⟨k, hk, -⟩ := h
    simp [Digitlike, hdigits, digitIn_some (by omega) hk]
  · exact minuteField_digitlike h

/-! ### What is accepted -/

theorem upTo_eq_some (h : upTo seps text = some (field, rest)) : ∃ sep ∈ seps, text = field ++ sep :: rest := by
  unfold upTo at h
  split at h
  · cases h
  · rename_i sep tail hdrop
    obtain ⟨rfl, rfl⟩ := Prod.mk.inj (Option.some.inj h)
    refine ⟨sep, ?_, ?_⟩
    · have hsep := List.head?_dropWhile_not (fun c => decide (c ∉ seps)) text
      rw [hdrop] at hsep
      simpa using hsep
    · rw [← hdrop, List.takeWhile_append_dropWhile]

/-- A field reaches up to the next separator. -/
theorem upTo_field {sep : Char} (hfield : ∀ c ∈ field, Digitlike c) (hseps : seps ⊆ separators) (hsep : sep ∈ seps) :
    upTo seps (field ++ sep :: rest) = some (field, rest) :=
  upTo_append (fun c hc hmem => digitlike_not_separator (hfield c hc) (hseps hmem)) hsep

theorem core_of_strptime (h : strptime text = some tm) :
    ∃ core z, text = core ++ [z] ∧ z ∈ ['Z', 'z'] ∧ Core core tm := by
  unfold strptime at h
  obtain ⟨⟨y, t₁⟩, h₁, h⟩ := Option.bind_eq_some_iff.mp h
  obtain ⟨⟨m, t₂⟩, h₂, h⟩ := Option.bind_eq_some_iff.mp h
  obtain ⟨⟨d, t₃⟩, h₃, h⟩ := Option.bind_eq_some_iff.mp h
  obtain ⟨⟨hour, t₄⟩, h₄, h⟩ := Option.bind_eq_some_iff.mp h
  obtain ⟨⟨min, t₅⟩, h₅, h⟩ := Option.bind_eq_some_iff.mp h
  obtain ⟨⟨sec, t₆⟩, h₆, h⟩ := Option.bind_eq_some_iff.mp h
  obtain ⟨_, hend, h⟩ := Option.bind_eq_some_iff.mp h
  obtain ⟨ny, hyear, h⟩ := Option.bind_eq_some_iff.mp h
  obtain ⟨nm, hmonth, h⟩ := Option.bind_eq_some_iff.mp h
  obtain ⟨nd, hday, h⟩ := Option.bind_eq_some_iff.mp h
  obtain ⟨nh, hhour, h⟩ := Option.bind_eq_some_iff.mp h
  obtain ⟨nmin, hmin, h⟩ := Option.bind_eq_some_iff.mp h
  obtain ⟨ns, hsec, h⟩ := Option.bind_eq_some_iff.mp h
  obtain ⟨_, hvalid, h⟩ := Option.bind_eq_some_iff.mp h
  obtain rfl := Option.some.inj h
  obtain ⟨_, hs₁, rfl⟩ := upTo_eq_some h₁
  obtain ⟨_, hs₂, rfl⟩ := upTo_eq_some h₂
  obtain ⟨t, ht, rfl⟩ := upTo_eq_some h₃
  obtain ⟨_, hs₄, rfl⟩ := upTo_eq_some h₄
  obtain ⟨_, hs₅, rfl⟩ := upTo_eq_some h₅
  obtain ⟨z, hz, rfl⟩ := upTo_eq_some h₆
  obtain rfl := List.mem_singleton.mp hs₁
  obtain rfl := List.mem_singleton.mp hs₂
  obtain rfl := List.mem_singleton.mp hs₄
  obtain rfl := List.mem_singleton.mp hs₅
  obtain rfl := (Option.guard_eq_some' _).mp hend
  refine ⟨_, z, ?_, hz, ⟨y, m, d, t, hour, min, sec, rfl, ht, ?_, hmonth, hday, hhour, hmin, hsec⟩,
    (Option.guard_eq_some' _).mp hvalid⟩
  · simp
  · rw [hyear]
    rfl

theorem Core.strptime {z : Char} (h : Core core tm) (hz : z ∈ ['Z', 'z']) : strptime (core ++ [z]) = some tm := by
  obtain ⟨⟨y, m, d, t, hour, min, sec, rfl, ht, hyear, hmonth, hday, hhour, hmin, hsec⟩, hvalid⟩ := h
  obtain ⟨ny, hyear, hny⟩ := Option.map_eq_some_iff.mp hyear
  have hshape : y ++ '-' :: (m ++ '-' :: (d ++ t :: (hour ++ ':' :: (min ++ ':' :: sec)))) ++ [z] =
      y ++ '-' :: (m ++ '-' :: (d ++ t :: (hour ++ ':' :: (min ++ ':' :: (sec ++ z :: []))))) := by simp
  rw [hshape]
  unfold Cluster.strptime
  rw [upTo_field (yearField_digitlike hyear) (by decide) List.mem_cons_self]
  dsimp only [Option.bind_eq_bind, Option.bind_some]
  rw [upTo_field (monthField_digitlike hmonth) (by decide) List.mem_cons_self]
  dsimp only [Option.bind_some]
  rw [upTo_field (dayField_digitlike hday) (by decide) ht]
  dsimp only [Option.bind_some]
  rw [upTo_field (hourField_digitlike hhour) (by decide) List.mem_cons_self]
  dsimp only [Option.bind_some]
  rw [upTo_field (minuteField_digitlike hmin) (by decide) List.mem_cons_self]
  dsimp only [Option.bind_some]
  rw [upTo_field (secondField_digitlike hsec) (by decide) hz]
  simp only [Option.bind_some, guard, if_pos, hyear, hmonth, hday, hhour, hmin, hsec]
  obtain ⟨year, month, day, hh, mm, ss⟩ := tm
  obtain rfl : (ny : ℤ) = year := hny
  rw [if_pos hvalid]
  rfl

/-- `strptime` takes the loosely written times with a Z after them. -/
theorem strptime_eq_some : strptime text = some tm ↔ ∃ core z, text = core ++ [z] ∧ z ∈ ['Z', 'z'] ∧ Core core tm := by
  constructor
  · exact core_of_strptime
  · rintro ⟨core, z, rfl, hz, hcore⟩
    exact hcore.strptime hz

/-- A loosely written time holds neither a point nor a Z. -/
theorem Core.chars (h : Core core tm) : core ≠ [] ∧ ∀ c ∈ core, c ≠ '.' ∧ c ≠ 'Z' := by
  obtain ⟨y, m, d, t, hour, min, sec, rfl, ht, hyear, hmonth, hday, hhour, hmin, hsec⟩ := h.split
  obtain ⟨ny, hyear, -⟩ := Option.map_eq_some_iff.mp hyear
  have hfield : ∀ {field : List Char}, (∀ c ∈ field, Digitlike c) → ∀ c ∈ field, c ≠ '.' ∧ c ≠ 'Z' := by
    intro field hfield c hc
    have hnot := digitlike_not_separator (hfield c hc)
    exact ⟨fun heq => hnot (by simp [heq, separators]), fun heq => hnot (by simp [heq, separators])⟩
  have ht : t ≠ '.' ∧ t ≠ 'Z' := by
    simp only [List.mem_cons, List.not_mem_nil, or_false] at ht
    rcases ht with rfl | rfl <;> decide
  have hdash : '-' ≠ '.' ∧ '-' ≠ 'Z' := by decide
  have hcolon : ':' ≠ '.' ∧ ':' ≠ 'Z' := by decide
  refine ⟨by simp, fun c hc => ?_⟩
  simp only [List.mem_append, List.mem_cons] at hc
  rcases hc with hc | rfl | hc | rfl | hc | rfl | hc | rfl | hc | rfl | hc
  · exact hfield (yearField_digitlike hyear) c hc
  · exact hdash
  · exact hfield (monthField_digitlike hmonth) c hc
  · exact hdash
  · exact hfield (dayField_digitlike hday) c hc
  · exact ht
  · exact hfield (hourField_digitlike hhour) c hc
  · exact hcolon
  · exact hfield (minuteField_digitlike hmin) c hc
  · exact hcolon
  · exact hfield (secondField_digitlike hsec) c hc

theorem head_dropWhile (text : List Char) : text.dropWhile (· ≠ '.') = [] ∨
    ∃ tail, text.dropWhile (· ≠ '.') = '.' :: tail := by
  cases hdrop : text.dropWhile (· ≠ '.') with
  | nil => exact .inl rfl
  | cons c tail =>
    have hc := List.head?_dropWhile_not (fun c => decide (c ≠ '.')) text
    rw [hdrop] at hc
    exact .inr ⟨tail, by simpa using hc⟩

/-- The cut at the first point leaves the time, and the Z if there is one. -/
theorem Core.takeWhile {z : List Char} (h : Core core tm) (hz : z = [] ∨ z = ['Z'])
    (hrest : rest = [] ∨ ∃ tail, rest = '.' :: tail) : (core ++ z ++ rest).takeWhile (· ≠ '.') = core ++ z := by
  have hall : ∀ c ∈ core ++ z, decide (c ≠ '.') = true := by
    intro c hc
    rw [decide_eq_true_eq]
    rcases List.mem_append.mp hc with hc | hc
    · exact (h.chars.2 c hc).1
    · rcases hz with rfl | rfl
      · cases hc
      · rw [List.mem_singleton.mp hc]
        decide
  rw [List.takeWhile_append_of_pos hall]
  rcases hrest with rfl | ⟨tail, rfl⟩
  · simp
  · simp

/-- `parse_time` reads the texts that start with a loosely written time. -/
theorem parseTime_eq_some {epoch : ℤ} :
    parseTime (some s) = some epoch ↔ ∃ tm, Loose s tm ∧ epoch = timegm tm := by
  have hcut : s.toList.takeWhile (· ≠ '.') ++ s.toList.dropWhile (· ≠ '.') = s.toList := List.takeWhile_append_dropWhile
  constructor
  · intro h
    simp only [parseTime] at h
    split_ifs at h with hempty hz
    · obtain ⟨tm, htm, rfl⟩ := Option.map_eq_some_iff.mp h
      obtain ⟨core, z, hhead, -, hcore⟩ := strptime_eq_some.mp htm
      rw [hhead, List.getLast?_concat, Option.some.injEq] at hz
      subst hz
      refine ⟨tm, ⟨core, ['Z'], _, ?_, hcore, .inr rfl, head_dropWhile s.toList⟩, rfl⟩
      rw [← hhead, hcut]
    · obtain ⟨tm, htm, rfl⟩ := Option.map_eq_some_iff.mp h
      obtain ⟨core, z, hhead, -, hcore⟩ := strptime_eq_some.mp htm
      obtain ⟨rfl, -⟩ := List.append_inj' hhead rfl
      refine ⟨tm, ⟨_, [], _, ?_, hcore, .inl rfl, head_dropWhile s.toList⟩, rfl⟩
      rw [List.append_nil, hcut]
  · rintro ⟨tm, ⟨core, z, rest, hs, hcore, hz, hrest⟩, rfl⟩
    obtain ⟨hne, hchars⟩ := hcore.chars
    have hempty : s ≠ "" := by
      rintro rfl
      simp [hne] at hs
    have hplain : core.getLast? ≠ some 'Z' := fun hlast => (hchars _ (List.mem_of_getLast? hlast)).2 rfl
    have hparse : strptime (core ++ ['Z']) = some tm :=
      strptime_eq_some.mpr ⟨core, 'Z', rfl, List.mem_cons_self, hcore⟩
    simp only [parseTime, if_neg hempty, hs, hcore.takeWhile hz hrest]
    rcases hz with rfl | rfl
    · rw [List.append_nil, if_neg hplain, hparse]
      rfl
    · rw [if_pos List.getLast?_concat, hparse]
      rfl

/-! ### Against stamps -/

theorem decimal_digit (n : ℕ) : decimal (digit n) = some (n % 10) := by
  have hdigits : ∀ d < 10, decimal (Char.ofNat (48 + d)) = some d := by decide +kernel
  exact hdigits (n % 10) (Nat.mod_lt _ (by omega))

theorem yearField_pad4 {n : ℕ} (h : n < 10000) : yearField (pad4 n) = some n := by
  simp only [yearField, pad4, decimal_digit, Option.bind_eq_bind, Option.bind_some, Option.pure_def,
    Option.some.injEq]
  omega

/-- A stamp is one of the loosely written times. -/
theorem StructTime.Civil.loosely (h : tm.Civil) : Core (civil tm) tm := by
  obtain ⟨⟨hpos, hyear⟩, ⟨hmonth, hmonth'⟩, ⟨hday, hday'⟩, hhour, hmin, hsec⟩ := h
  obtain ⟨n, hn⟩ := Int.eq_ofNat_of_zero_le (show 0 ≤ tm.year by omega)
  have hdays : ∀ leap, ∀ m : Fin 13, daysInMonth leap m < 32 := by decide
  obtain ⟨fmonth, fday, fhour, fmin, -⟩ := pad2_fields
  refine ⟨⟨_, _, _, 'T', _, _, _, rfl, List.mem_cons_self, ?_, fmonth ⟨tm.month, by omega⟩ hmonth,
    fday ⟨tm.day, hday'.trans_lt (hdays _ ⟨tm.month, by omega⟩)⟩ hday, fhour ⟨tm.hour, hhour⟩,
    (fmin ⟨tm.minute, hmin⟩).1, (fmin ⟨tm.second, hsec⟩).2⟩, hpos, hday'⟩
  rw [yearField_pad4 (by omega)]
  exact congrArg some (Int.toNat_of_nonneg (by omega))

theorem Stamps.loose {epoch : ℤ} (h : Stamps s epoch) : ∃ tm, Loose s tm ∧ epoch = timegm tm := by
  obtain ⟨tm, fraction, hcivil, hfraction, hs, hepoch⟩ := h
  refine ⟨tm, ?_, hepoch⟩
  rcases hfraction with rfl | ⟨digits, -, -, rfl⟩
  · exact ⟨civil tm, ['Z'], [], by simp [hs], hcivil.loosely, .inr rfl, .inl rfl⟩
  · exact ⟨civil tm, [], '.' :: (digits ++ ['Z']), by simp [hs], hcivil.loosely, .inl rfl, .inr ⟨_, rfl⟩⟩

/-- `parse_time` takes a text for the time it stamps, and for none if it stamps none,
exactly if the text does not start with a loosely written time without being a stamp. -/
theorem parseTime_exact_iff (s : String) : (∀ epoch, parseTime (some s) = some epoch ↔ Stamps s epoch) ↔
    ¬((∃ tm, Loose s tm) ∧ ∀ epoch, ¬Stamps s epoch) := by
  constructor
  · rintro hlaw ⟨⟨tm, hloose⟩, hnone⟩
    exact hnone _ ((hlaw _).mp (parseTime_eq_some.mpr ⟨tm, hloose, rfl⟩))
  · intro hcond epoch
    constructor
    · intro h
      obtain ⟨tm, hloose, -⟩ := parseTime_eq_some.mp h
      obtain ⟨epoch', hstamps⟩ := not_forall_not.mp fun hnone => hcond ⟨⟨tm, hloose⟩, hnone⟩
      have hread := parseTime_eq_some.mpr hstamps.loose
      rw [h, Option.some.injEq] at hread
      exact hread ▸ hstamps
    · intro hstamps
      exact parseTime_eq_some.mpr hstamps.loose

/-- Ten o'clock two hours east of Greenwich is taken for ten o'clock UTC. -/
theorem parseTime_offset : ¬∀ s epoch, parseTime (some s) = some epoch ↔ Stamps s epoch := by
  intro h
  have hread : parseTime (some "2026-09-17T10:00:00.5+02:00") = some 1789639200 := by decide +kernel
  obtain ⟨tm, fraction, -, -, hs, -⟩ := (h _ _).mp hread
  have hlast := congrArg List.getLast? hs
  rw [List.getLast?_concat] at hlast
  exact absurd hlast (by decide)

end GpuNodeHealth.Cluster
