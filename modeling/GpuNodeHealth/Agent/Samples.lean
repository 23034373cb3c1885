import GpuNodeHealth.Agent.Exporter
import GpuNodeHealth.Metrics.Grammar

/-! The two regular expressions and `float` on texts whose parts are known: what they
make of a name, of a label set and of what stands behind it. -/

namespace GpuNodeHealth.Agent

open Metrics (cons_of_head isName isName_iff nameChar nameChar_start nameStart)
open Text

variable {c : Char} {text name gap inside tail labels value rest : List Char}

/-! ### The value -/

/-- Behind a label set: something between, a value, and what follows it. -/
theorem sampleTail_written (hgap : ∀ c ∈ gap, Pattern.isSpace c = true) (hne : value ≠ [])
    (hvalue : ∀ c ∈ value, Pattern.isSpace c = false) (hrest : ∀ c, rest.head? = some c → Pattern.isSpace c = true) :
    sampleTail (gap ++ (value ++ rest)) =
      if gap ≠ [] ∧ rest.all Pattern.isSpace = true then some value else none := by
  have hstart : (value ++ rest).takeWhile Pattern.isSpace = [] ∧
      (value ++ rest).dropWhile Pattern.isSpace = value ++ rest := by
    cases value with
    | nil => exact absurd rfl hne
    | cons c value => simp [hvalue c]
  have hstop : rest.takeWhile (!Pattern.isSpace ·) = [] ∧ rest.dropWhile (!Pattern.isSpace ·) = rest := by
    cases rest with
    | nil => exact ⟨rfl, rfl⟩
    | cons c rest => simp [hrest c rfl]
  have hnot : ∀ c ∈ value, (!Pattern.isSpace c) = true := by simpa using hvalue
  unfold sampleTail
  dsimp only
  rw [List.takeWhile_append_of_pos hgap, List.dropWhile_append_of_pos hgap, hstart.1, hstart.2,
    List.takeWhile_append_of_pos hnot, List.dropWhile_append_of_pos hnot, hstop.1, hstop.2, List.append_nil,
    List.append_nil]
  simp [hne]

/-- A value leaves nothing aside but blanks. -/
theorem sampleTail_mem (h : sampleTail text = some value) (hc : c ∈ text) (hspace : Pattern.isSpace c = false) :
    c ∈ value := by
  unfold sampleTail at h
  dsimp only at h
  split_ifs at h with hall
  obtain rfl := Option.some.inj h
  rw [← List.takeWhile_append_dropWhile (p := Pattern.isSpace) (l := text), List.mem_append] at hc
  rcases hc with hc | hc
  · rw [List.mem_takeWhile_imp hc] at hspace
    cases hspace
  · rw [← List.takeWhile_append_dropWhile (p := (!Pattern.isSpace ·)) (l := text.dropWhile Pattern.isSpace),
      List.mem_append] at hc
    rcases hc with hc | hc
    · exact hc
    · rw [List.all_eq_true.mp hall.2.2 c hc] at hspace
      cases hspace

/-! ### The label set -/

theorem labelsValue_plain (h : '}' ∉ text) : labelsValue text = none := by
  induction text with
  | nil => rfl
  | cons c text ih =>
    obtain ⟨hc, htext⟩ := List.ne_and_not_mem_of_not_mem_cons h
    rw [labelsValue, ih htext, ite_self]
    exact if_neg (Ne.symm hc)

/-- A label set reaches up to the last brace if a value follows it. -/
theorem labelsValue_written (hinside : '\n' ∉ inside) (htail : '}' ∉ tail) (hvalue : sampleTail tail = some value) :
    labelsValue (inside ++ '}' :: tail) = some (inside, value) := by
  induction inside with
  | nil => simp [labelsValue, labelsValue_plain htail, hvalue]
  | cons c inside ih =>
    obtain ⟨hc, hinside⟩ := List.ne_and_not_mem_of_not_mem_cons hinside
    rw [List.cons_append, labelsValue, if_neg (Ne.symm hc), ih hinside]

/-- Else a brace further in may end it, and the last one is then part of the value. -/
theorem labelsValue_elsewhere (htail : '}' ∉ tail) (hnone : sampleTail tail = none)
    (h : labelsValue (inside ++ '}' :: tail) = some (labels, value)) : '}' ∈ value := by
  induction inside generalizing labels with
  | nil => simp [labelsValue, labelsValue_plain htail, hnone] at h
  | cons c inside ih =>
    rw [List.cons_append, labelsValue] at h
    cases hrest : if c = '\n' then none else labelsValue (inside ++ '}' :: tail) with
    | some found =>
      obtain ⟨labels', value'⟩ := found
      rw [hrest] at h
      obtain ⟨-, rfl⟩ := Prod.mk.inj (Option.some.inj h)
      split_ifs at hrest
      exact ih hrest
    | none =>
      rw [hrest] at h
      dsimp only at h
      split_ifs at h
      obtain ⟨value', hvalue', heq⟩ := Option.map_eq_some_iff.mp h
      obtain ⟨-, rfl⟩ := Prod.mk.inj heq
      exact sampleTail_mem hvalue' (by simp) rfl

/-! ### The line -/

theorem sample?_head (h : ∀ c, text.head? = some c → nameStart c = false) : sample? text = none := by
  cases text with
  | nil => rfl
  | cons c text => simp [sample?, h c rfl]

/-- A name ends at a brace, if there is one where it ends. -/
theorem sample?_named (hnamed : isName name = true) (hc : nameChar c = false) : sample? (name ++ c :: rest) =
    if c = '{' then (labelsValue rest).map fun (labels, value) => ⟨name, labels, value⟩ else none := by
  obtain ⟨hstart, hname⟩ := isName_iff.mp hnamed
  have hhead : (name ++ c :: rest).head?.any nameStart = true := by
    obtain ⟨c, name, rfl, hc⟩ := cons_of_head hstart
    exact hc
  rw [sample?, if_pos hhead, List.dropWhile_append_of_pos hname, List.takeWhile_append_of_pos hname,
    List.dropWhile_cons_of_neg (by simp [hc]), List.takeWhile_cons_of_neg (by simp [hc]), List.append_nil]
  split
  · next h => rw [if_pos (List.cons.inj h).1, (List.cons.inj h).2]
  · next h => exact (if_neg fun hbrace => h rest (congrArg (· :: rest) hbrace)).symm

/-! ### Numbers -/

theorem digits?_brace (h : '}' ∈ text) : digits? text = none := by
  rw [digits?, if_neg (List.ne_nil_of_mem h)]
  dsimp only
  refine if_neg fun hall => ?_
  have hsplit : ['_'].intercalate (text.splitOn '_') = text := List.intercalate_splitOn '_'
  rw [← hsplit] at h
  rcases mem_intercalate h with hc | ⟨group, hgroup, hc⟩
  · cases hc
  · have hdigits := List.all_eq_true.mp hall group hgroup
    rw [Bool.and_eq_true, List.all_eq_true] at hdigits
    cases hdigits.2 _ hc

theorem signed_brace (h : '}' ∈ text) : '}' ∈ (signed text).2 := by
  unfold signed
  split <;> simp_all

theorem exponent?_brace (h : '}' ∈ text.tail) : exponent? text = none := by
  cases text with
  | nil => cases h
  | cons c text =>
    have hdigits := digits?_brace (signed_brace (List.tail_cons ▸ h))
    simp only [exponent?, hdigits, bind, Option.bind]

theorem span_brace {p : Char → Bool} (hp : p '}' = true) (h : '}' ∈ text) :
    '}' ∈ (text.span p).1 ∨ '}' ∈ (text.span p).2.tail := by
  rw [List.span_eq_takeWhile_dropWhile]
  induction text with
  | nil => cases h
  | cons c text ih =>
    by_cases hc : p c = true
    · rw [List.takeWhile_cons_of_pos hc, List.dropWhile_cons_of_pos hc]
      rcases List.mem_cons.mp h with rfl | h
      · exact .inl List.mem_cons_self
      · exact (ih h).imp_left (List.mem_cons_of_mem c)
    · rw [List.dropWhile_cons_of_neg hc]
      rcases List.mem_cons.mp h with rfl | h
      · exact absurd hp hc
      · exact .inr h

theorem number?_brace (h : '}' ∈ text) : number? text = none := by
  unfold number?
  dsimp only
  rcases span_brace (p := fun c => c ≠ 'e' && c ≠ 'E') rfl h with hmantissa | hpower
  · rcases span_brace (p := (· ≠ '.')) rfl hmantissa with hwhole | hfraction
    · simp only [digits?_brace hwhole, bind, Option.bind]
    · rw [List.drop_one, digits?_brace hfraction]
      cases digits? _ <;> rfl
  · rw [exponent?_brace hpower]
    simp

/-- A text with a brace is no number. -/
theorem float?_brace (h : '}' ∈ text) : float? text = none := by
  have hbody := signed_brace h
  have hword : '}' ∈ (signed text).2.map Char.toLower := List.mem_map.mpr ⟨'}', hbody, rfl⟩
  have hne : ∀ word, '}' ∉ word → (signed text).2.map Char.toLower ≠ word := fun word hout heq => hout (heq ▸ hword)
  unfold float?
  dsimp only
  rw [if_neg, if_neg (hne _ (by decide)), number?_brace hbody]
  · rfl
  · exact not_or.mpr ⟨hne _ (by decide), hne _ (by decide)⟩

/-! ### The shape of a sample -/

/-- The one shape that `_SAMPLE` takes: a name, a label set right behind it, something
between that and the value, and nothing but blanks behind the value. -/
structure Written (line name inside value : List Char) : Prop where
  shape : ∃ gap trail, line = name ++ '{' :: (inside ++ '}' :: (gap ++ (value ++ trail))) ∧ gap ≠ [] ∧
    (∀ c ∈ gap, Pattern.isSpace c = true) ∧ ∀ c ∈ trail, Pattern.isSpace c = true
  named : isName name = true
  inside : '\n' ∉ inside
  value : value ≠ [] ∧ ∀ c ∈ value, Pattern.isSpace c = false

theorem Written.ne_nil {line : List Char} (h : Written line name inside value) : line ≠ [] := by
  obtain ⟨⟨gap, trail, rfl, -⟩, -⟩ := h
  simp

theorem sampleTail_shape (h : sampleTail text = some value) :
    (∃ gap trail, text = gap ++ (value ++ trail) ∧ gap ≠ [] ∧ (∀ c ∈ gap, Pattern.isSpace c = true) ∧
      ∀ c ∈ trail, Pattern.isSpace c = true) ∧ value ≠ [] ∧ ∀ c ∈ value, Pattern.isSpace c = false := by
  unfold sampleTail at h
  dsimp only at h
  split_ifs at h with hall
  obtain rfl := Option.some.inj h
  obtain ⟨hgap, hvalue, htrail⟩ := hall
  refine ⟨⟨_, _, ?_, hgap, fun c hc => List.mem_takeWhile_imp hc, List.all_eq_true.mp htrail⟩, hvalue, fun c hc => ?_⟩
  · rw [List.takeWhile_append_dropWhile, List.takeWhile_append_dropWhile]
  · simpa using List.mem_takeWhile_imp hc

theorem labelsValue_shape (h : labelsValue text = some (inside, value)) :
    '\n' ∉ inside ∧ ∃ tail, text = inside ++ '}' :: tail ∧ sampleTail tail = some value := by
  induction text generalizing inside with
  | nil => cases h
  | cons c text ih =>
    rw [labelsValue] at h
    cases hrest : if c = '\n' then none else labelsValue text with
    | some found =>
      obtain ⟨inside', value'⟩ := found
      rw [hrest] at h
      obtain ⟨rfl, rfl⟩ := Prod.mk.inj (Option.some.inj h)
      split_ifs at hrest with hc
      obtain ⟨hinside, tail, rfl, htail⟩ := ih hrest
      exact ⟨by simp [hinside, Ne.symm hc], tail, rfl, htail⟩
    | none =>
      rw [hrest] at h
      dsimp only at h
      split_ifs at h with hc
      obtain ⟨value', hvalue, heq⟩ := Option.map_eq_some_iff.mp h
      obtain ⟨rfl, rfl⟩ := Prod.mk.inj heq
      exact ⟨List.not_mem_nil, text, by rw [hc]; rfl, hvalue⟩

/-- What is taken for a sample is written as one. -/
theorem sample?_shape {line : List Char} {sample : Sample} (h : sample? line = some sample) :
    Written line sample.name sample.labels sample.value := by
  unfold sample? at h
  split_ifs at h with hstart
  split at h
  · next rest hrest =>
    obtain ⟨⟨inside, value⟩, hfound, rfl⟩ := Option.map_eq_some_iff.mp h
    obtain ⟨hinside, tail, rfl, htail⟩ := labelsValue_shape hfound
    obtain ⟨⟨gap, trail, rfl, hgap⟩, hvalue⟩ := sampleTail_shape htail
    have hline := List.takeWhile_append_dropWhile (p := nameChar) (l := line)
    rw [hrest] at hline
    refine ⟨⟨gap, trail, hline.symm, hgap⟩, isName_iff.mpr ⟨?_, fun c hc => List.mem_takeWhile_imp hc⟩, hinside, hvalue⟩
    obtain ⟨c, line, rfl, hc⟩ := cons_of_head hstart
    rw [List.takeWhile_cons_of_pos (nameChar_start hc)]
    exact hc
  · cases h

/-- And the other way round, if the value has no brace. -/
theorem Written.sample? {line : List Char} (h : Written line name inside value) (hbrace : '}' ∉ value) :
    sample? line = some ⟨name, inside, value⟩ := by
  obtain ⟨⟨gap, trail, rfl, hne, hgap, htrail⟩, hnamed, hinside, hvalue⟩ := h
  have hspace : ∀ {blanks : List Char}, (∀ c ∈ blanks, Pattern.isSpace c = true) → '}' ∉ blanks :=
    fun hblanks hmem => absurd (hblanks _ hmem) (by decide)
  have htail : sampleTail (gap ++ (value ++ trail)) = some value := by
    rw [sampleTail_written hgap hvalue.1 hvalue.2 fun c hc => htrail c (List.mem_of_head? hc)]
    exact if_pos ⟨hne, List.all_eq_true.mpr htrail⟩
  rw [sample?_named hnamed rfl, if_pos rfl, labelsValue_written hinside ?_ htail]
  · rfl
  · simp [hspace hgap, hspace htrail, hbrace]

end GpuNodeHealth.Agent
