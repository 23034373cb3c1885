import GpuNodeHealth.Calendar.Gregorian
import Mathlib.Data.Rat.Floor

/-! Timestamps on the wire. `rfc3339` and `rfc3339_micro` render an epoch time
through `gmtime` and `strftime`; `parse_time` reads both back through `strptime`
and `timegm`, and answers nothing for anything else. The clock is a rational
number of seconds. The library's `strptime` is reproduced with its leniency:
one-digit fields, any Unicode decimal digit where the pattern says `\d`, and
separators in either case. -/

namespace GpuNodeHealth.Cluster

open Calendar

/-- The fields of `struct_time` that are used. -/
structure StructTime where
  year : ℤ
  month : ℕ
  day : ℕ
  hour : ℕ
  minute : ℕ
  second : ℕ
  deriving DecidableEq, Repr

/-- The ordinal of 1 January 1970. -/
def epochOrdinal : ℤ := 719163

def gmtime (ts : ℚ) : StructTime :=
  let seconds := ⌊ts⌋ % 86400
  let (year, month, day) := ofOrdinal (⌊ts⌋ / 86400 + epochOrdinal)
  ⟨year, month, day, (seconds / 3600).toNat, (seconds / 60 % 60).toNat, (seconds % 60).toNat⟩

def timegm (tm : StructTime) : ℤ :=
  let days := toOrdinal tm.year tm.month 1 - epochOrdinal + tm.day - 1
  ((days * 24 + tm.hour) * 60 + tm.minute) * 60 + tm.second

theorem timegm_gmtime (ts : ℚ) : timegm (gmtime ts) = ⌊ts⌋ := by
  have h := toOrdinal_ofOrdinal (⌊ts⌋ / 86400 + epochOrdinal)
  simp only [timegm, gmtime]
  generalize ofOrdinal (⌊ts⌋ / 86400 + epochOrdinal) = date at h ⊢
  obtain ⟨year, month, day⟩ := date
  simp only [toOrdinal] at h ⊢
  push_cast at h ⊢
  omega

/-! ### Rendering -/

def digit (n : ℕ) : Char := Char.ofNat (48 + n % 10)

def pad2 (n : ℕ) : List Char := [digit (n / 10), digit n]

/-- `time.strftime("%Y-%m-%dT%H:%M:%S", tm)`; the year is not padded. -/
def strftime (tm : StructTime) : List Char :=
  (toString tm.year).toList ++ '-' :: pad2 tm.month ++ '-' :: pad2 tm.day ++
    'T' :: pad2 tm.hour ++ ':' :: pad2 tm.minute ++ ':' :: pad2 tm.second

def rfc3339 (ts : ℚ) : String := String.ofList (strftime (gmtime ts) ++ ['Z'])

def rfc3339Micro (ts : ℚ) : String := String.ofList (strftime (gmtime ts) ++ ".000000Z".toList)

/-! ### Parsing -/

/-- The zero of every run of ten decimal digits in Unicode 15. -/
def decimalZeros : List ℕ :=
  [0x30, 0x660, 0x6f0, 0x7c0, 0x966, 0x9e6, 0xa66, 0xae6, 0xb66, 0xbe6, 0xc66, 0xce6, 0xd66, 0xde6,
    0xe50, 0xed0, 0xf20, 0x1040, 0x1090, 0x17e0, 0x1810, 0x1946, 0x19d0, 0x1a80, 0x1a90, 0x1b50,
    0x1bb0, 0x1c40, 0x1c50, 0xa620, 0xa8d0, 0xa900, 0xa9d0, 0xa9f0, 0xaa50, 0xabf0, 0xff10, 0x104a0,
    0x10d30, 0x11066, 0x110f0, 0x11136, 0x111d0, 0x112f0, 0x11450, 0x114d0, 0x11650, 0x116c0,
    0x11730, 0x118e0, 0x11950, 0x11c50, 0x11d50, 0x11da0, 0x11f50, 0x16a60, 0x16ac0, 0x16b50,
    0x1d7ce, 0x1d7d8, 0x1d7e2, 0x1d7ec, 0x1d7f6, 0x1e140, 0x1e2f0, 0x1e4f0, 0x1e950, 0x1fbf0]

/-- `\d` and its value. -/
def decimal (c : Char) : Option ℕ :=
  decimalZeros.findSome? fun z => if z ≤ c.toNat ∧ c.toNat < z + 10 then some (c.toNat - z) else none

/-- A character class `[lo-hi]` of ASCII digits and its value. -/
def digitIn (lo hi : ℕ) (c : Char) : Option ℕ :=
  if 48 + lo ≤ c.toNat ∧ c.toNat ≤ 48 + hi then some (c.toNat - 48) else none

/-- `\d\d\d\d` -/
def yearField : List Char → Option ℕ
  | [a, b, c, d] => do
    return 1000 * (← decimal a) + 100 * (← decimal b) + 10 * (← decimal c) + (← decimal d)
  | _ => none

/-- `1[0-2]|0[1-9]|[1-9]` -/
def monthField : List Char → Option ℕ
  | ['1', c] => do return 10 + (← digitIn 0 2 c)
  | ['0', c] => digitIn 1 9 c
  | [c] => digitIn 1 9 c
  | _ => none

/-- `3[0-1]|[1-2]\d|0[1-9]|[1-9]| [1-9]` -/
def dayField : List Char → Option ℕ
  | ['3', c] => do return 30 + (← digitIn 0 1 c)
  | ['0', c] => digitIn 1 9 c
  | [' ', c] => digitIn 1 9 c
  | [a, c] => do return 10 * (← digitIn 1 2 a) + (← decimal c)
  | [c] => digitIn 1 9 c
  | _ => none

/-- `2[0-3]|[0-1]\d|\d` -/
def hourField : List Char → Option ℕ
  | ['2', c] => do return 20 + (← digitIn 0 3 c)
  | [a, c] => do return 10 * (← digitIn 0 1 a) + (← decimal c)
  | [c] => decimal c
  | _ => none

/-- `[0-5]\d|\d` -/
def minuteField : List Char → Option ℕ
  | [a, c] => do return 10 * (← digitIn 0 5 a) + (← decimal c)
  | [c] => decimal c
  | _ => none

/-- `6[0-1]|[0-5]\d|\d` -/
def secondField : List Char → Option ℕ
  | ['6', c] => do return 60 + (← digitIn 0 1 c)
  | cs => minuteField cs

/-- The text up to a separator, and the text after it. No field pattern matches
a separator, so the regular expression cannot match a field any further. -/
def upTo (separators : List Char) (s : List Char) : Option (List Char × List Char) :=
  match s.dropWhile (· ∉ separators) with
  | [] => none
  | _ :: rest => some (s.takeWhile (· ∉ separators), rest)

/-- `time.strptime(s, "%Y-%m-%dT%H:%M:%SZ")`; nothing where it raises. -/
def strptime (s : List Char) : Option StructTime := do
  let (y, s) ← upTo ['-'] s
  let (m, s) ← upTo ['-'] s
  let (d, s) ← upTo ['T', 't'] s
  let (h, s) ← upTo [':'] s
  let (min, s) ← upTo [':'] s
  let (sec, s) ← upTo ['Z', 'z'] s
  guard (s = [])
  let tm := ⟨← yearField y, ← monthField m, ← dayField d, ← hourField h, ← minuteField min, ← secondField sec⟩
  guard (1 ≤ tm.year ∧ tm.day ≤ daysInMonth (isLeap tm.year) tm.month)
  return tm

/-- `parse_time`: the epoch second of a timestamp, fractions dropped. -/
def parseTime (value : Option String) : Option ℤ :=
  match value with
  | none => none
  | some value =>
    if value = "" then none else
    let head := value.toList.takeWhile (· ≠ '.')
    let head := if head.getLast? = some 'Z' then head else head ++ ['Z']
    (strptime head).map timegm

/-- The stamp of a clock reading is read back as its whole second. -/
def ReadsBack (stamp : ℚ → String) (t : ℚ) : Prop := parseTime (some (stamp t)) = some ⌊t⌋

instance (stamp : ℚ → String) (t : ℚ) : Decidable (ReadsBack stamp t) :=
  inferInstanceAs (Decidable (_ = _))

example : parseTime (some "2026-09-17T10:00:00.123456Z") = some 1789639200 := by decide +kernel
example : parseTime (some "2026-09-17T10:00:00+00:00") = none := by decide +kernel

/-! ### Reading a stamp back -/

/-- A broken-down time with a four-digit year. -/
structure StructTime.Plain (tm : StructTime) : Prop where
  year : 1000 ≤ tm.year ∧ tm.year < 10000
  month : 1 ≤ tm.month ∧ tm.month ≤ 12
  day : 1 ≤ tm.day ∧ tm.day ≤ daysInMonth (isLeap tm.year) tm.month
  clock : tm.hour < 24 ∧ tm.minute < 60 ∧ tm.second < 60

theorem gmtime_plain {t : ℚ} (h : 1000 ≤ (gmtime t).year ∧ (gmtime t).year < 10000) :
    (gmtime t).Plain := by
  obtain ⟨h1, h2, h3, h4⟩ := ofOrdinal_valid (⌊t⌋ / 86400 + epochOrdinal)
  exact ⟨h, ⟨h1, h2⟩, ⟨h3, h4⟩, by simp only [gmtime]; omega⟩

theorem upTo_append {separators field rest : List Char} {sep : Char}
    (hf : ∀ c ∈ field, c ∉ separators) (hs : sep ∈ separators) :
    upTo separators (field ++ sep :: rest) = some (field, rest) := by
  have hp : ∀ c ∈ field, decide (c ∉ separators) = true := fun c hc => by simpa using hf c hc
  have hsep : decide (sep ∉ separators) = false := by simpa using hs
  simp only [upTo, List.dropWhile_append_of_pos hp, List.takeWhile_append_of_pos hp,
    List.dropWhile_cons, List.takeWhile_cons, hsep]
  simp

theorem toDigits_four {n : ℕ} (h : 1000 ≤ n) (h' : n < 10000) :
    Nat.toDigits 10 n = [Nat.digitChar (n / 1000), Nat.digitChar (n / 100 % 10),
      Nat.digitChar (n / 10 % 10), Nat.digitChar (n % 10)] := by
  have hstep : ∀ m, 10 ≤ m → Nat.toDigits 10 m = Nat.toDigits 10 (m / 10) ++ [Nat.digitChar (m % 10)] := by
    intro m hm
    rw [← Nat.toDigits_of_lt_base (b := 10) (by omega : m % 10 < 10),
      Nat.toDigits_append_toDigits (by omega) (by omega) (by omega)]
    congr 1
    omega
  rw [hstep n (by omega), hstep (n / 10) (by omega), hstep (n / 10 / 10) (by omega),
    Nat.toDigits_of_lt_base (by omega)]
  simp only [Nat.div_div_eq_div_mul]
  rfl

theorem decimal_digitChar : ∀ d < 10, decimal (Nat.digitChar d) = some d ∧
    Nat.digitChar d ∉ ['-', '.'] := by decide +kernel

/-- The text of a four-digit year is read back by the year field, and holds
neither of the characters that end it. -/
theorem yearField_toString {y : ℤ} (h : 1000 ≤ y ∧ y < 10000) :
    (yearField (toString y).toList).map Int.ofNat = some y ∧
      ∀ c ∈ (toString y).toList, c ∉ ['-', '.'] := by
  obtain ⟨n, rfl⟩ := Int.eq_ofNat_of_zero_le (by omega : 0 ≤ y)
  rw [show toString (n : ℤ) = String.ofList (Nat.toDigits 10 n) from rfl, String.toList_ofList,
    toDigits_four (by omega) (by omega)]
  have h3 := decimal_digitChar (n / 1000) (by omega)
  have h2 := decimal_digitChar (n / 100 % 10) (by omega)
  have h1 := decimal_digitChar (n / 10 % 10) (by omega)
  have h0 := decimal_digitChar (n % 10) (by omega)
  constructor
  · simp only [yearField, h3.1, h2.1, h1.1, h0.1, Option.bind_eq_bind, Option.bind_some,
      Option.pure_def, Option.map_some]
    congr 1
    exact congrArg Int.ofNat (by omega)
  · intro c hc
    simp only [List.mem_cons, List.not_mem_nil, or_false] at hc
    rcases hc with rfl | rfl | rfl | rfl
    exacts [h3.2, h2.2, h1.2, h0.2]

/-- The characters that end a field, in either case. -/
def separators : List Char := ['-', 'T', 't', ':', 'Z', 'z', '.']

/-- Two-digit fields are read back, and hold no separator. -/
theorem pad2_fields :
    (∀ m : Fin 13, 0 < m.val → monthField (pad2 m) = some m.val) ∧
    (∀ d : Fin 32, 0 < d.val → dayField (pad2 d) = some d.val) ∧
    (∀ h : Fin 24, hourField (pad2 h) = some h.val) ∧
    (∀ m : Fin 60, minuteField (pad2 m) = some m.val ∧ secondField (pad2 m) = some m.val) ∧
    ∀ n : Fin 60, (pad2 n).all (· ∉ separators) = true := by decide +kernel

/-- A text whose fields hold no separator splits at the separators. -/
theorem strptime_split {y m d h min sec : List Char} (hy : ∀ c ∈ y, c ∉ ['-'])
    (hm : ∀ c ∈ m, c ∉ ['-']) (hd : ∀ c ∈ d, c ∉ ['T', 't']) (hh : ∀ c ∈ h, c ∉ [':'])
    (hmin : ∀ c ∈ min, c ∉ [':']) (hsec : ∀ c ∈ sec, c ∉ ['Z', 'z']) :
    strptime (y ++ '-' :: (m ++ '-' :: (d ++ 'T' :: (h ++ ':' :: (min ++ ':' :: (sec ++ ['Z'])))))) = (do
      let tm := ⟨← yearField y, ← monthField m, ← dayField d, ← hourField h, ← minuteField min,
        ← secondField sec⟩
      guard (1 ≤ tm.year ∧ tm.day ≤ daysInMonth (isLeap tm.year) tm.month)
      return tm) := by
  unfold strptime
  rw [upTo_append hy List.mem_cons_self]
  dsimp only [Option.bind_eq_bind, Option.bind_some]
  rw [upTo_append hm List.mem_cons_self]
  dsimp only [Option.bind_some]
  rw [upTo_append hd List.mem_cons_self]
  dsimp only [Option.bind_some]
  rw [upTo_append hh List.mem_cons_self]
  dsimp only [Option.bind_some]
  rw [upTo_append hmin List.mem_cons_self]
  dsimp only [Option.bind_some]
  rw [upTo_append hsec List.mem_cons_self]
  rfl

theorem pad2_avoids {n : ℕ} (hn : n < 60) {seps : List Char} (hs : seps.all (· ∈ separators) = true) :
    ∀ c ∈ pad2 n, c ∉ seps := by
  intro c hc hmem
  have hpad := List.all_eq_true.mp (pad2_fields.2.2.2.2 ⟨n, hn⟩) c hc
  have hsep := List.all_eq_true.mp hs c hmem
  simp only [decide_eq_true_eq] at hpad hsep
  exact hpad hsep

/-- `strptime` inverts `strftime` on four-digit years. -/
theorem strptime_strftime {tm : StructTime} (h : tm.Plain) :
    strptime (strftime tm ++ ['Z']) = some tm := by
  obtain ⟨year, month, day, hour, minute, second⟩ := tm
  obtain ⟨hy, hm, hd, hh, hmin, hs⟩ := h
  simp only at hy hm hd hh hmin hs
  have hd31 : day < 32 := by
    have hle : ∀ leap, ∀ m : Fin 13, daysInMonth leap m < 32 := by decide
    exact lt_of_le_of_lt hd.2 (hle _ ⟨month, by omega⟩)
  obtain ⟨hyear, hysep⟩ := yearField_toString hy
  obtain ⟨y, hy', hyy⟩ := Option.map_eq_some_iff.mp hyear
  obtain ⟨fm, fd, fh, fmin, -⟩ := pad2_fields
  have pm : monthField (pad2 month) = some month := fm ⟨month, by omega⟩ hm.1
  have pd : dayField (pad2 day) = some day := fd ⟨day, hd31⟩ hd.1
  have ph : hourField (pad2 hour) = some hour := fh ⟨hour, hh⟩
  have pmin : minuteField (pad2 minute) = some minute := (fmin ⟨minute, hmin⟩).1
  have ps : secondField (pad2 second) = some second := (fmin ⟨second, hs⟩).2
  simp only [strftime, List.append_assoc, List.cons_append]
  rw [strptime_split (fun c hc => by have := hysep c hc; simp_all)
    (pad2_avoids (by omega) (by decide)) (pad2_avoids (by omega) (by decide))
    (pad2_avoids (by omega) (by decide)) (pad2_avoids (by omega) (by decide))
    (pad2_avoids (by omega) (by decide))]
  rw [hy', pm, pd, ph, pmin, ps]
  have hyc : (y : ℤ) = year := hyy
  have hvalid : (1 : ℤ) ≤ year ∧ day ≤ daysInMonth (isLeap year) month := ⟨by omega, hd.2⟩
  simp only [Option.bind_eq_bind, Option.bind_some, hyc, guard, if_pos hvalid]
  rfl

/-- No fraction separator occurs before the fraction of a stamp. -/
theorem strftime_no_dot {tm : StructTime} (h : tm.Plain) : ∀ c ∈ strftime tm, (c ≠ '.') := by
  have hd : tm.day < 60 := by
    have hle : ∀ leap, ∀ m : Fin 13, daysInMonth leap m < 32 := by decide
    exact (lt_of_le_of_lt h.day.2 (hle _ ⟨tm.month, by have := h.month; omega⟩)).trans (by decide)
  have hpad : ∀ n, n < 60 → ∀ c ∈ pad2 n, c ≠ '.' := fun n hn c hc =>
    List.ne_of_not_mem_cons (@pad2_avoids n hn ['.'] (by decide) c hc)
  obtain ⟨hh, hmin, hs⟩ := h.clock
  intro c hc
  simp only [strftime, List.append_assoc, List.cons_append, List.mem_append, List.mem_cons] at hc
  rcases hc with hc | rfl | hc | rfl | hc | rfl | hc | rfl | hc | rfl | hc
  · have := (yearField_toString h.year).2 c hc
    simp_all
  all_goals first
    | decide
    | exact hpad _ (by have := h.month; omega) c hc

theorem takeWhile_strftime {tm : StructTime} (h : tm.Plain) (rest : List Char) :
    (strftime tm ++ rest).takeWhile (· ≠ '.') = strftime tm ++ rest.takeWhile (· ≠ '.') :=
  List.takeWhile_append_of_pos fun c hc => by simpa using strftime_no_dot h c hc

theorem strftime_last {tm : StructTime} (h : tm.Plain) : (strftime tm).getLast? ≠ some 'Z' := by
  have hz := @pad2_avoids tm.second h.clock.2.2 ['Z'] (by decide) (digit tm.second) (by simp [pad2])
  simpa [strftime, pad2] using hz

/-- Both stamps of a clock reading in years 1000 to 9999 are read back. -/
theorem readsBack {t : ℚ} (h : 1000 ≤ (gmtime t).year ∧ (gmtime t).year < 10000) :
    ReadsBack rfc3339 t ∧ ReadsBack rfc3339Micro t := by
  have hp := gmtime_plain h
  have hne : ∀ l : List Char, l ≠ [] → String.ofList l ≠ "" := fun l hl he => hl (by simpa using he)
  have hparse := (congrArg (Option.map timegm) (strptime_strftime hp)).trans
    (congrArg some (timegm_gmtime t))
  constructor
  · unfold ReadsBack parseTime rfc3339
    simp only [String.toList_ofList, takeWhile_strftime hp]
    rw [if_neg (hne _ (by simp)), if_pos (by simp)]
    exact hparse
  · unfold ReadsBack parseTime rfc3339Micro
    simp only [String.toList_ofList, takeWhile_strftime hp]
    rw [if_neg (hne _ (by simp [strftime]))]
    have hdot : ".000000Z".toList.takeWhile (· ≠ '.') = [] := by decide
    rw [hdot, List.append_nil, if_neg (strftime_last hp)]
    exact hparse

end GpuNodeHealth.Cluster
