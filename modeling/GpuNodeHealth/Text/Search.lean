import Mathlib.Data.List.DropRight
import Mathlib.Data.List.Infix
import Mathlib.Data.List.TakeDrop

/-! Cutting a text where something first or last stands in it, as `str` does. A word with
a character of its own is looked for piece by piece, where the text is cut at that
character. -/

namespace GpuNodeHealth.Text

/-- Texts are equal if they compare as equal. -/
instance lawfulText : LawfulBEq (List Char) := inferInstance

variable {text rest word segment tail : List Char} {d : Char}

/-- The part of a text up to a character of its own. -/
theorem span_written {p : Char → Bool} (h : ∀ c ∈ text, p c = true) (hrest : ∀ c, rest.head? = some c → p c = false) :
    (text ++ rest).span p = (text, rest) := by
  have hstop : rest.takeWhile p = [] ∧ rest.dropWhile p = rest := by
    cases rest with
    | nil => exact ⟨rfl, rfl⟩
    | cons c rest => simp [hrest c rfl]
  rw [List.span_eq_takeWhile_dropWhile, List.takeWhile_append_of_pos h, List.dropWhile_append_of_pos h, hstop.1,
    hstop.2, List.append_nil]

/-! ### Classes of characters -/

theorem class_ne {p : Char → Bool} {c : Char} (h : p c = true) (hd : p d = false) : c ≠ d := by
  rintro rfl
  exact Bool.false_ne_true (hd.symm.trans h)

theorem class_not_mem {p : Char → Bool} (h : ∀ c ∈ text, p c = true) (hd : p d = false) : d ∉ text :=
  fun hmem => class_ne (h d hmem) hd rfl

/-! ### Joining -/

theorem mem_intercalate {c x : Char} {ls : List (List Char)} (h : c ∈ [x].intercalate ls) :
    c = x ∨ ∃ l ∈ ls, c ∈ l := by
  induction ls with
  | nil => simp at h
  | cons l ls ih =>
    cases ls with
    | nil => exact .inr ⟨l, List.mem_cons_self, by simpa using h⟩
    | cons l' ls =>
      rw [List.intercalate_cons_cons, List.mem_append, List.mem_append, List.mem_singleton] at h
      rcases h with (h | h) | h
      · exact .inr ⟨l, List.mem_cons_self, h⟩
      · exact .inl h
      · exact (ih h).imp_right fun ⟨l, hl, hc⟩ => ⟨l, List.mem_cons_of_mem _ hl, hc⟩

theorem mem_intercalate_of_mem {c x : Char} {l : List Char} {ls : List (List Char)} (hl : l ∈ ls) (hc : c ∈ l) :
    c ∈ [x].intercalate ls := by
  induction ls with
  | nil => cases hl
  | cons l' ls ih =>
    cases ls with
    | nil =>
      obtain rfl := List.mem_singleton.mp hl
      simpa using hc
    | cons l'' ls =>
      rw [List.intercalate_cons_cons]
      rcases List.mem_cons.mp hl with rfl | hl
      · exact List.mem_append_left _ (List.mem_append_left _ hc)
      · exact List.mem_append_right _ (ih hl)

/-! ### The last one -/

/-- `str.rpartition`, of one character; what is in front and what is behind. -/
def rpartition (d : Char) (text : List Char) : List Char × List Char :=
  ((text.rdropWhile (· ≠ d)).dropLast, text.rtakeWhile (· ≠ d))

theorem rpartition_written (h : d ∉ rest) (text : List Char) : rpartition d (text ++ d :: rest) = (text, rest) := by
  have hspan : (rest.reverse ++ d :: text.reverse).span (· ≠ d) = (rest.reverse, d :: text.reverse) := by
    refine span_written (fun c hc => decide_eq_true ?_) ?_
    · exact fun heq => h (heq ▸ List.mem_reverse.mp hc)
    · rintro _ ⟨⟩
      exact decide_eq_false (not_not.mpr rfl)
  have hreverse : (text ++ d :: rest).reverse = rest.reverse ++ d :: text.reverse := by simp
  rw [List.span_eq_takeWhile_dropWhile, Prod.mk.injEq] at hspan
  rw [rpartition, List.rdropWhile, List.rtakeWhile, hreverse, hspan.1, hspan.2]
  simp

/-! ### Words -/

/-- What is behind the first place of a word, if it is in the text. -/
def after? (word : List Char) : List Char → Option (List Char)
  | [] => if word = [] then some [] else none
  | c :: text => if word <+: c :: text then some ((c :: text).drop word.length) else after? word text

theorem after?_none (h : d ∈ word) (htext : d ∉ text) : after? word text = none := by
  induction text with
  | nil => exact if_neg (List.ne_nil_of_mem h)
  | cons c text ih =>
    rw [after?, if_neg fun hword => htext (hword.mem h), ih fun hmem => htext (List.mem_cons_of_mem _ hmem)]

/-- A word without a `d` that ends a text ends it behind its last `d`. -/
theorem suffix_behind_iff (h : d ∉ word) : word <:+ text ++ d :: rest ↔ word <:+ rest := by
  have hbehind : d :: rest <:+ text ++ d :: rest := List.suffix_append _ _
  constructor
  · intro hword
    rcases Nat.lt_or_ge rest.length word.length with hlength | hlength
    · exact absurd ((List.suffix_of_suffix_length_le hbehind hword hlength).mem List.mem_cons_self) h
    · exact List.suffix_of_suffix_length_le hword ((List.suffix_cons d rest).trans hbehind) hlength
  · exact fun hword => (hword.trans (List.suffix_cons d rest)).trans hbehind

/-- Up to its first `d` a text is what another one is. -/
theorem segment_prefix_iff (hword : d ∉ word) (hsegment : d ∉ segment) :
    word ++ d :: tail <+: segment ++ d :: rest ↔ word = segment ∧ tail <+: rest := by
  induction word generalizing segment with
  | nil =>
    cases segment with
    | nil => simp [List.cons_prefix_cons]
    | cons c segment =>
      have hc : d ≠ c := fun heq => hsegment (heq ▸ List.mem_cons_self)
      simp [List.cons_prefix_cons, hc]
  | cons c word ih =>
    cases segment with
    | nil =>
      have hc : c ≠ d := fun heq => hword (heq ▸ List.mem_cons_self)
      simp [List.cons_prefix_cons, hc]
    | cons c' segment =>
      rw [List.cons_append, List.cons_append, List.cons_prefix_cons, List.cons.injEq, and_assoc,
        ih (fun hmem => hword (List.mem_cons_of_mem _ hmem)) fun hmem => hsegment (List.mem_cons_of_mem _ hmem)]

/-- A word with a `d` of its own begins in the piece up to the first `d` of the text, or
is behind it. -/
theorem after?_segment (hword : d ∉ word) (hsegment : d ∉ segment) : after? (word ++ d :: tail) (segment ++ d :: rest) =
    if word <:+ segment ∧ tail <+: rest then some (rest.drop tail.length) else after? (word ++ d :: tail) rest := by
  induction segment with
  | nil =>
    have hiff := @segment_prefix_iff rest word [] tail d hword List.not_mem_nil
    rw [List.nil_append] at hiff ⊢
    rw [after?]
    by_cases h : word = [] ∧ tail <+: rest
    · rw [if_pos (hiff.mpr h), if_pos (h.imp_left List.suffix_nil.mpr), h.1, List.nil_append, List.length_cons,
        List.drop_succ_cons]
    · rw [if_neg (hiff.not.mpr h), if_neg fun hsuffix => h (hsuffix.imp_left List.suffix_nil.mp)]
  | cons c segment ih =>
    have hiff := @segment_prefix_iff rest word (c :: segment) tail d hword hsegment
    rw [List.cons_append] at hiff ⊢
    rw [after?]
    by_cases h : word = c :: segment ∧ tail <+: rest
    · obtain ⟨rfl, htail⟩ := h
      rw [if_pos (hiff.mpr ⟨rfl, htail⟩), if_pos ⟨List.suffix_refl _, htail⟩, ← List.cons_append,
        List.length_append, List.drop_length_add_append, List.length_cons, List.drop_succ_cons]
    · have hlater : word <:+ c :: segment ∧ tail <+: rest ↔ word <:+ segment ∧ tail <+: rest := by
        rw [List.suffix_cons_iff]
        tauto
      rw [if_neg (hiff.not.mpr h), ih fun hmem => hsegment (List.mem_cons_of_mem _ hmem), if_congr hlater rfl rfl]

end GpuNodeHealth.Text
