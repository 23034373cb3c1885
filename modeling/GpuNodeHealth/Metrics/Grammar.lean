import GpuNodeHealth.Metrics.Format

/-! The text exposition format from the side of those who write it: blanks and tabs
between the tokens, a label set or none, a comma behind the last label, a timestamp.
However a sample is written, it is read as what it says. -/

namespace GpuNodeHealth.Metrics

open Text

/-! ### Escapes -/

variable {c d : Char} {name text : List Char} {p : Char → Bool}

/-- `replace`, of a single character -/
def replaceChar (old : Char) (new text : List Char) : List Char := text.flatMap fun c => if c = old then new else [c]

/-- `_esc` -/
def esc (value : List Char) : List Char :=
  replaceChar '\n' ['\\', 'n'] (replaceChar '"' ['\\', '"'] (replaceChar '\\' ['\\', '\\'] value))

/-- What becomes of a character. -/
def escaped (c : Char) : List Char :=
  if c = '\\' then ['\\', '\\'] else if c = '"' then ['\\', '"'] else if c = '\n' then ['\\', 'n'] else [c]

/-- The three replacements come to one, character by character. -/
theorem esc_eq (value : List Char) : esc value = value.flatMap escaped := by
  unfold esc replaceChar
  rw [List.flatMap_assoc, List.flatMap_assoc]
  refine List.flatMap_congr fun c _ => ?_
  by_cases hbackslash : c = '\\'
  · subst hbackslash
    rfl
  · by_cases hquote : c = '"'
    · subst hquote
      rfl
    · simp [escaped, hbackslash, hquote]

theorem esc_newline (value : List Char) : '\n' ∉ esc value := by
  rw [esc_eq, List.mem_flatMap]
  rintro ⟨c, -, hc⟩
  unfold escaped at hc
  split_ifs at hc with hbackslash hquote hnewline
  · revert hc
    decide
  · revert hc
    decide
  · revert hc
    decide
  · exact hnewline (List.mem_singleton.mp hc).symm

/-- An escaped value is read up to its quote. -/
theorem labelValue_esc (value rest : List Char) : labelValue (esc value ++ '"' :: rest) = some (value, rest) := by
  rw [esc_eq]
  induction value with
  | nil => rfl
  | cons c value ih =>
    rw [List.flatMap_cons, List.append_assoc]
    by_cases hbackslash : c = '\\'
    · subst hbackslash
      simp [escaped, labelValue, ih]
    by_cases hquote : c = '"'
    · subst hquote
      simp [escaped, labelValue, ih]
    by_cases hnewline : c = '\n'
    · subst hnewline
      simp [escaped, labelValue, ih]
    simp [escaped, hbackslash, hquote, hnewline, labelValue, ih]

/-! ### Tokens -/

theorem keyChar_start (h : keyStart c = true) : keyChar c = true := by
  rw [keyChar, h, Bool.true_or]

theorem nameChar_start (h : nameStart c = true) : nameChar c = true := by
  rw [nameStart, Bool.or_eq_true] at h
  rw [nameChar, Bool.or_eq_true]
  exact h.imp_left keyChar_start

theorem isName_iff : isName name = true ↔ name.head?.any nameStart = true ∧ ∀ c ∈ name, nameChar c = true := by
  rw [isName, Bool.and_eq_true, List.all_eq_true]

theorem isKey_iff : isKey name = true ↔ name.head?.any keyStart = true ∧ ∀ c ∈ name, keyChar c = true := by
  rw [isKey, Bool.and_eq_true, List.all_eq_true]

theorem cons_of_head {text : List Char} (h : text.head?.any p = true) : ∃ c rest, text = c :: rest ∧ p c = true := by
  cases text with
  | nil => cases h
  | cons c rest => exact ⟨c, rest, rfl, h⟩

theorem isName_cons (h : isName name = true) : ∃ c rest, name = c :: rest ∧ nameStart c = true :=
  cons_of_head (isName_iff.mp h).1

theorem isKey_cons (h : isKey name = true) : ∃ c rest, name = c :: rest ∧ keyStart c = true :=
  cons_of_head (isKey_iff.mp h).1

theorem isName_chars (h : isName name = true) : ∀ c ∈ name, nameChar c = true := (isName_iff.mp h).2

theorem isKey_chars (h : isKey name = true) : ∀ c ∈ name, keyChar c = true := (isKey_iff.mp h).2

/-- A class without blanks. -/
theorem class_blank (h : p c = true) (hspace : p ' ' = false) (htab : p '\t' = false) : isBlank c = false := by
  rw [isBlank, Bool.or_eq_false_iff]
  exact ⟨decide_eq_false (class_ne h hspace), decide_eq_false (class_ne h htab)⟩

/-- A class with neither blanks nor `d`. -/
theorem class_stop (hspace : p ' ' = false) (htab : p '\t' = false) (hd : p d = false) (h : isBlank c = true ∨ c = d) :
    p c = false := by
  rcases h with hblank | rfl
  · by_contra hc
    rw [class_blank (Bool.not_eq_false _ ▸ hc) hspace htab] at hblank
    cases hblank
  · exact hd

/-- Blanks and tabs between tokens. -/
structure Blanks where
  chars : List Char
  blank : ∀ c ∈ chars, c = ' ' ∨ c = '\t'

namespace Blanks

variable (blanks : Blanks)

theorem isBlank : ∀ c ∈ blanks.chars, isBlank c = true := by
  intro c hc
  rcases blanks.blank c hc with rfl | rfl <;> rfl

theorem brace : '}' ∉ blanks.chars := by
  intro hbrace
  rcases blanks.blank _ hbrace with h | h <;> cases h

theorem skip_append (text : List Char) : skip (blanks.chars ++ text) = skip text :=
  List.dropWhile_append_of_pos blanks.isBlank

theorem skip_self : skip blanks.chars = [] := by
  simpa [skip] using blanks.skip_append []

/-- What follows a token: blanks, or what stands behind them. -/
theorem head_append {rest : List Char} (h : (blanks.chars ++ d :: rest).head? = some c) :
    Metrics.isBlank c = true ∨ c = d := by
  cases hchars : blanks.chars with
  | nil =>
    rw [hchars] at h
    exact .inr (Option.some.inj h).symm
  | cons c' chars =>
    rw [hchars] at h
    exact .inl (blanks.isBlank c (by rw [hchars, ← Option.some.inj h]; exact List.mem_cons_self))

end Blanks

def noBlanks : Blanks := ⟨[], nofun⟩

def oneBlank : Blanks := ⟨[' '], by simp⟩

/-- A printing character of ASCII in front of the braces. -/
def WordChar (c : Char) : Prop := 0x21 ≤ c.toNat ∧ c.toNat ≤ 0x7a

instance (c : Char) : Decidable (WordChar c) := inferInstanceAs (Decidable (_ ∧ _))

def Word (text : List Char) : Prop := text ≠ [] ∧ ∀ c ∈ text, WordChar c

theorem wordChar_digit (h : c.isDigit = true) : WordChar c := by
  simp only [Char.isDigit, Bool.and_eq_true, decide_eq_true_eq, UInt32.le_iff_toNat_le] at h
  exact ⟨h.1.trans' (by decide), h.2.trans (by decide)⟩

theorem wordChar_name (h : nameChar c = true) : WordChar c := by
  simp only [nameChar, keyChar, keyStart, Bool.or_eq_true, Bool.and_eq_true, decide_eq_true_eq, Char.le_def,
    UInt32.le_iff_toNat_le] at h
  rcases h with (((h | h) | rfl) | h) | rfl
  · exact ⟨h.1.trans' (by decide), h.2.trans (by decide)⟩
  · exact ⟨h.1.trans' (by decide), h.2.trans (by decide)⟩
  · decide
  · exact ⟨h.1.trans' (by decide), h.2.trans (by decide)⟩
  · decide

theorem skip_cons (h : isBlank c = false) : skip (c :: text) = c :: text :=
  List.dropWhile_cons_of_neg (by rw [h]; exact Bool.false_ne_true)

theorem skip_named (h : isName name = true) (rest : List Char) : skip (name ++ rest) = name ++ rest := by
  obtain ⟨c, name, rfl, hstart⟩ := isName_cons h
  exact skip_cons (class_blank (nameChar_start hstart) rfl rfl)

theorem WordChar.blank (h : WordChar c) : isBlank c = false :=
  class_blank (p := fun c => decide (WordChar c)) (decide_eq_true h) rfl rfl

theorem Word.skip_append (h : Word text) (rest : List Char) :
    skip (text ++ rest) = text ++ rest ∧ (text ++ rest).head? ≠ some '{' := by
  obtain ⟨hne, hplain⟩ := h
  obtain ⟨c, text, rfl⟩ := List.exists_cons_of_ne_nil hne
  have hc := hplain c List.mem_cons_self
  refine ⟨skip_cons hc.blank, ?_⟩
  rintro ⟨⟩
  exact absurd hc (by decide)

theorem Word.token_append {rest : List Char} (h : Word text) (hrest : ∀ c, rest.head? = some c → isBlank c = true) :
    token (text ++ rest) = (text, rest) := by
  refine span_written (fun c hc => ?_) fun c hc => ?_
  · rw [(h.2 c hc).blank]
    rfl
  · rw [hrest c hc]
    rfl

/-! ### Label sets -/

structure LabelSyntax where
  lead : Blanks
  name : List Char
  named : isKey name = true
  gap : Blanks
  gap' : Blanks
  value : List Char
  trail : Blanks

structure LabelSet where
  gap : Blanks
  labels : List LabelSyntax
  comma : Bool
  behind : comma = true → labels ≠ []
  back : Blanks

namespace LabelSyntax

variable (label : LabelSyntax)

def pair : Label := (label.name, label.value)

/-- The label without what leads it. -/
def core : List Char :=
  label.name ++ (label.gap.chars ++ '=' :: (label.gap'.chars ++ '"' :: (esc label.value ++ '"' :: label.trail.chars)))

def render : List Char := label.lead.chars ++ label.core

theorem length_render : 1 ≤ label.render.length := by
  obtain ⟨c, name, hname, -⟩ := isKey_cons label.named
  rw [render, core, hname, List.length_append, List.length_append, List.length_cons]
  omega

theorem skip_render (rest : List Char) : skip (label.render ++ rest) = label.core ++ rest ∧
    (label.core ++ rest).head? ≠ some '}' := by
  obtain ⟨c, name, hname, hstart⟩ := isKey_cons label.named
  have hc : keyChar c = true := keyChar_start hstart
  rw [render, List.append_assoc, label.lead.skip_append, core, hname]
  refine ⟨skip_cons (class_blank hc rfl rfl), ?_⟩
  rintro ⟨⟩
  cases hc

/-- A label is read, up to the blanks behind it. -/
theorem label?_core (rest : List Char) :
    label? (label.core ++ rest) = some (label.pair, label.trail.chars ++ rest) := by
  have htext : label.core ++ rest = label.name ++ (label.gap.chars ++ '=' :: (label.gap'.chars ++
      '"' :: (esc label.value ++ '"' :: (label.trail.chars ++ rest)))) := by
    simp [core]
  have hstop : ∀ text c, (label.gap.chars ++ '=' :: text).head? = some c → keyChar c = false :=
    fun _ _ hc => class_stop rfl rfl rfl (label.gap.head_append hc)
  have hequals : ∀ text, skip ('=' :: text) = '=' :: text := fun text => rfl
  have hquote : ∀ text, skip ('"' :: text) = '"' :: text := fun text => rfl
  unfold label?
  rw [htext, span_written (isKey_chars label.named) (hstop _)]
  dsimp only
  rw [label.gap.skip_append, hequals, List.tail_cons, label.gap'.skip_append, hquote, List.tail_cons, labelValue_esc,
    label.named]
  rfl

end LabelSyntax

namespace LabelSet

variable (set : LabelSet)

def pairs : List Label := set.labels.map LabelSyntax.pair

/-- What is between the braces. -/
def inside : List Char :=
  [','].intercalate (set.labels.map LabelSyntax.render) ++ (if set.comma then [','] else []) ++ set.back.chars

end LabelSet

theorem labels?_brace (back : Blanks) (rest : List Char) (fuel : ℕ) :
    labels? (fuel + 1) (back.chars ++ '}' :: rest) = some ([], rest) := by
  rw [labels?, back.skip_append]
  rfl

theorem labels?_last (label : LabelSyntax) (back : Blanks) (rest : List Char) (fuel : ℕ) :
    labels? (fuel + 1) (label.render ++ (back.chars ++ '}' :: rest)) = some ([label.pair], rest) := by
  obtain ⟨hskip, hbrace⟩ := label.skip_render (back.chars ++ '}' :: rest)
  have hbehind : skip (label.trail.chars ++ (back.chars ++ '}' :: rest)) = '}' :: rest := by
    rw [label.trail.skip_append, back.skip_append]
    rfl
  rw [labels?]
  dsimp only
  rw [hskip, if_neg hbrace, label.label?_core]
  simp only [Option.bind_eq_bind, Option.bind_some, hbehind, List.head?_cons, List.tail_cons, if_true]

theorem labels?_comma (label : LabelSyntax) (text : List Char) (fuel : ℕ) :
    labels? (fuel + 1) (label.render ++ ',' :: text) =
      (labels? fuel text).map fun (labels, rest) => (label.pair :: labels, rest) := by
  obtain ⟨hskip, hbrace⟩ := label.skip_render (',' :: text)
  have hbehind : skip (label.trail.chars ++ ',' :: text) = ',' :: text := label.trail.skip_append _
  rw [labels?]
  dsimp only
  rw [hskip, if_neg hbrace, label.label?_core]
  simp only [Option.bind_eq_bind, Option.bind_some, hbehind, List.head?_cons, List.tail_cons]
  cases labels? fuel text <;> rfl

/-- The labels of a set come back. -/
theorem labels?_inside (set : LabelSet) (rest : List Char) {fuel : ℕ} (hfuel : set.labels.length < fuel) :
    labels? fuel (set.inside ++ '}' :: rest) = some (set.pairs, rest) := by
  obtain ⟨gap, labels, comma, behind, back⟩ := set
  show labels? fuel ([','].intercalate (labels.map LabelSyntax.render) ++ (if comma then [','] else []) ++
    back.chars ++ '}' :: rest) = some (labels.map LabelSyntax.pair, rest)
  rw [List.append_assoc, List.append_assoc]
  replace hfuel : labels.length < fuel := hfuel
  induction labels generalizing fuel with
  | nil =>
    obtain ⟨fuel, rfl⟩ := Nat.exists_eq_add_one_of_ne_zero (Nat.ne_of_gt hfuel)
    have hcomma : comma = false := Bool.eq_false_iff.mpr fun h => behind h rfl
    rw [hcomma]
    exact labels?_brace back rest fuel
  | cons label labels ih =>
    obtain ⟨fuel, rfl⟩ := Nat.exists_eq_add_one_of_ne_zero (Nat.ne_of_gt (Nat.zero_lt_of_lt hfuel))
    replace hfuel := Nat.lt_of_succ_lt_succ hfuel
    cases labels with
    | nil =>
      obtain ⟨fuel, rfl⟩ := Nat.exists_eq_add_one_of_ne_zero (Nat.ne_of_gt hfuel)
      rw [List.map_singleton, List.intercalate_singleton]
      cases comma with
      | false => exact labels?_last label back rest _
      | true =>
        show labels? _ (label.render ++ ',' :: (back.chars ++ '}' :: rest)) = _
        rw [labels?_comma, labels?_brace]
        rfl
    | cons label' labels =>
      rw [List.map_cons, List.map_cons, List.intercalate_cons_cons, List.append_assoc, List.append_assoc,
        List.singleton_append, labels?_comma, ← List.map_cons, ih (fun _ => List.cons_ne_nil _ _) hfuel]
      rfl

theorem LabelSet.length_inside (set : LabelSet) : set.labels.length ≤ set.inside.length := by
  suffices hlength : ∀ labels : List LabelSyntax,
      labels.length ≤ ([','].intercalate (labels.map LabelSyntax.render)).length by
    have hlabels := hlength set.labels
    rw [inside, List.length_append, List.length_append]
    omega
  intro labels
  induction labels with
  | nil => exact le_rfl
  | cons label labels ih =>
    have hlabel := label.length_render
    cases labels with
    | nil => simpa using hlabel
    | cons label' labels =>
      rw [List.map_cons, List.map_cons, List.intercalate_cons_cons, List.length_append, List.length_append,
        List.length_cons, ← List.map_cons]
      omega

/-! ### Samples -/

structure Timestamp where
  gap : Blanks
  apart : gap.chars ≠ []
  chars : List Char
  number : isTimestamp chars = true

theorem Timestamp.word (stamp : Timestamp) : Word stamp.chars := by
  have hnumber := stamp.number
  simp only [isTimestamp, Bool.and_eq_true, Bool.not_eq_true', List.isEmpty_eq_false_iff, List.all_eq_true] at hnumber
  obtain ⟨hne, hdigits⟩ := hnumber
  split_ifs at hne hdigits with hsign
  · obtain ⟨c, chars, hchars⟩ : ∃ c chars, stamp.chars = c :: chars := by
      cases h : stamp.chars with
      | nil => simp [h] at hne
      | cons c chars => exact ⟨c, chars, rfl⟩
    rw [hchars] at hsign hdigits ⊢
    refine ⟨List.cons_ne_nil _ _, List.forall_mem_cons.mpr ⟨?_, fun c hc => wordChar_digit (hdigits c hc)⟩⟩
    rcases hsign with hsign | hsign
    · rw [Option.some.inj hsign]
      decide
    · rw [Option.some.inj hsign]
      decide
  · exact ⟨hne, fun c hc => wordChar_digit (hdigits c hc)⟩

/-- What a text means is up to the parameter. -/
structure SampleSyntax {β : Type*} (readValue : List Char → Option β) where
  lead : Blanks
  name : List Char
  named : isName name = true
  set : Option LabelSet
  gap : Blanks
  apart : set = none → gap.chars ≠ []
  value : List Char
  number : β
  valued : readValue value = some number
  timestamp : Option Timestamp
  trail : Blanks

namespace SampleSyntax

variable {β : Type*} {readValue : List Char → Option β} (s : SampleSyntax readValue)

/-- What follows the value. -/
def rest : List Char :=
  match s.timestamp with
  | some stamp => stamp.gap.chars ++ (stamp.chars ++ s.trail.chars)
  | none => s.trail.chars

/-- What follows the name and the label set. -/
def tail : List Char := s.gap.chars ++ (s.value ++ s.rest)

def render : List Char :=
  s.lead.chars ++ (s.name ++
    match s.set with
    | some set => set.gap.chars ++ '{' :: (set.inside ++ '}' :: s.tail)
    | none => s.tail)

/-- The label set, empty where there is none. -/
def inside : List Char := (s.set.map LabelSet.inside).getD []

/-- What the sample says. -/
def sample : Sample β where
  name := s.name
  labels := (s.set.map LabelSet.pairs).getD []
  value := s.number
  timestamp := s.timestamp.map (·.chars)

theorem rest_head (h : s.rest.head? = some c) : isBlank c = true := by
  unfold rest at h
  split at h
  · next stamp _ =>
    rw [List.head?_append_of_ne_nil _ stamp.apart] at h
    exact stamp.gap.isBlank c (List.mem_of_head? h)
  · exact s.trail.isBlank c (List.mem_of_head? h)

/-- What follows the name and the labels is read as the end of the sample. -/
theorem sampleEnd_tail (hvalue : Word s.value) (labels : List Label) :
    sampleEnd readValue s.name labels s.tail = some { s.sample with labels } := by
  have hword : token (skip s.tail) = (s.value, s.rest) := by
    rw [tail, s.gap.skip_append, (hvalue.skip_append s.rest).1]
    exact hvalue.token_append fun c hc => s.rest_head hc
  have hend : ∀ blanks : Blanks, skip blanks.chars = [] := Blanks.skip_self
  have hnil : token [] = ([], []) := rfl
  unfold sampleEnd
  rw [hword]
  dsimp only
  cases hstamp : s.timestamp with
  | none =>
    have hrest : s.rest = s.trail.chars := by rw [rest, hstamp]
    rw [hrest, hend, hnil]
    dsimp only
    rw [if_neg (by simp [hvalue.1, skip]), if_pos rfl, s.valued, sample, hstamp]
    rfl
  | some stamp =>
    have hrest : s.rest = stamp.gap.chars ++ (stamp.chars ++ s.trail.chars) := by rw [rest, hstamp]
    have htoken := stamp.word.token_append fun c hc => s.trail.isBlank c (List.mem_of_head? hc)
    rw [hrest, stamp.gap.skip_append, (stamp.word.skip_append _).1, htoken]
    dsimp only
    rw [if_neg (by simp [hvalue.1, hend]), if_neg stamp.word.1, if_pos stamp.number, s.valued, sample, hstamp]
    rfl

theorem name_head (rest : List Char) : skip (s.name ++ rest) = s.name ++ rest ∧ s.name ++ rest ≠ [] ∧
    (s.name ++ rest).head? ≠ some '#' := by
  obtain ⟨c, name, hname, hstart⟩ := isName_cons s.named
  have hc : nameChar c = true := nameChar_start hstart
  refine ⟨skip_named s.named rest, ?_⟩
  rw [hname]
  refine ⟨List.cons_ne_nil _ _, ?_⟩
  rintro ⟨⟩
  cases hc

/-- A sample is read as what it says. -/
theorem line?_render (hvalue : Word s.value) : line? readValue s.render = some (.sample s.sample) := by
  -- what follows the name
  obtain ⟨behind, hbehind, hstop, hsample⟩ : ∃ behind, s.render = s.lead.chars ++ (s.name ++ behind) ∧
      (∀ c, behind.head? = some c → nameChar c = false) ∧
      (if (skip behind).head? = some '{' then
        (labels? (skip behind).length (skip behind).tail).bind fun p => sampleEnd readValue s.name p.1 p.2
      else sampleEnd readValue s.name [] (skip behind)) = some s.sample := by
    refine ⟨_, rfl, ?_⟩
    cases hset : s.set with
    | none =>
      refine ⟨fun c hc => ?_, ?_⟩
      · rw [tail, List.head?_append_of_ne_nil _ (s.apart hset)] at hc
        exact class_stop (d := ' ') rfl rfl rfl (.inl (s.gap.isBlank c (List.mem_of_head? hc)))
      · have hskip : skip s.tail = s.value ++ s.rest := by
          rw [tail, s.gap.skip_append, (hvalue.skip_append s.rest).1]
        have hend := s.sampleEnd_tail hvalue []
        rw [sampleEnd, tail, s.gap.skip_append] at hend
        dsimp only
        rw [hskip, if_neg (hvalue.skip_append s.rest).2, sampleEnd, hend, sample, hset]
        rfl
    | some set =>
      refine ⟨fun c hc => class_stop rfl rfl rfl (set.gap.head_append hc), ?_⟩
      have hskip : skip (set.gap.chars ++ '{' :: (set.inside ++ '}' :: s.tail)) =
          '{' :: (set.inside ++ '}' :: s.tail) := set.gap.skip_append _
      have hfuel : set.labels.length < ('{' :: (set.inside ++ '}' :: s.tail)).length := by
        have hlength := set.length_inside
        rw [List.length_cons, List.length_append]
        omega
      dsimp only
      rw [hskip, List.head?_cons, if_pos rfl, List.tail_cons, labels?_inside set _ hfuel, Option.bind_some,
        s.sampleEnd_tail hvalue, sample, hset]
      rfl
  obtain ⟨hskip, hnil, hhash⟩ := s.name_head behind
  unfold line?
  rw [hbehind, s.lead.skip_append, hskip]
  dsimp only
  rw [if_neg hnil, if_neg hhash, sample?, span_written (isName_chars s.named) hstop]
  dsimp only
  rw [if_pos s.named, hsample]
  rfl

end SampleSyntax

/-! ### Without blanks -/

/-- A label as `metric` writes it. -/
def renderLabel (label : Label) : List Char := label.1 ++ '=' :: '"' :: (esc label.2 ++ ['"'])

def LabelSyntax.tight (label : Label) (named : isKey label.1 = true) : LabelSyntax :=
  ⟨noBlanks, label.1, named, noBlanks, noBlanks, label.2, noBlanks⟩

def LabelSet.tight (labels : List Label) (named : ∀ label ∈ labels, isKey label.1 = true) : LabelSet :=
  ⟨noBlanks, labels.pmap LabelSyntax.tight named, false, nofun, noBlanks⟩

theorem LabelSyntax.render_tight (label : Label) (named : isKey label.1 = true) :
    (LabelSyntax.tight label named).render = renderLabel label := by
  simp [render, core, tight, renderLabel, noBlanks]

theorem LabelSet.inside_tight (labels : List Label) (named : ∀ label ∈ labels, isKey label.1 = true) :
    (LabelSet.tight labels named).inside = [','].intercalate (labels.map renderLabel) := by
  have hlabels : (labels.pmap LabelSyntax.tight named).map LabelSyntax.render = labels.map renderLabel := by
    rw [List.map_pmap]
    simp only [LabelSyntax.render_tight, List.pmap_eq_map]
  rw [inside, tight, hlabels]
  simp [noBlanks]

theorem LabelSet.pairs_tight (labels : List Label) (named : ∀ label ∈ labels, isKey label.1 = true) :
    (LabelSet.tight labels named).pairs = labels := by
  have hpair : ∀ label h, (LabelSyntax.tight label h).pair = label := fun _ _ => rfl
  rw [pairs, tight, List.map_pmap]
  simp only [hpair, List.pmap_eq_map, List.map_id']

theorem intercalate_render_eq_nil {labels : List Label} : [','].intercalate (labels.map renderLabel) = [] ↔
    labels = [] := by
  cases labels with
  | nil => simp
  | cons label labels => cases labels <;> simp [renderLabel]

end GpuNodeHealth.Metrics
