import GpuNodeHealth.Metrics.Registry
import GpuNodeHealth.Text.Splitlines

/-! Looking for labels in the text of a series with string operations. Where the values
are plain, what is found is what is there. -/

namespace GpuNodeHealth.Metrics

open Text

variable {text value full word front : List Char} {labels : List Label} {ls : List (Char × Label)} {p : Char × Label}

/-! ### Plain values -/

/-- A letter, a digit, or what may stand between them in a name. -/
def plainChar (c : Char) : Bool := c.isAlphanum || c ∈ ['-', '.', '/']

def Plain (text : List Char) : Prop := ∀ c ∈ text, plainChar c = true

instance (text : List Char) : Decidable (Plain text) := inferInstanceAs (Decidable (∀ c ∈ text, plainChar c = true))

theorem Plain.not_mem (h : Plain text) {c : Char} (hc : plainChar c = false) : c ∉ text :=
  class_not_mem h hc

theorem esc_plain (h : Plain value) : esc value = value := by
  have hsame : ∀ c ∈ value, escaped c = [c] := by
    intro c hc
    have hother : ∀ c', plainChar c' = false → c ≠ c' := fun c' => class_ne (h c hc)
    simp [escaped, hother '\\' rfl, hother '"' rfl, hother '\n' rfl]
  rw [esc_eq, List.flatMap_congr hsame, List.flatMap_singleton']

/-! ### Labels with what separates them -/

/-- The labels of a series, each with what stands in front of it. -/
def led : List Label → List (Char × Label)
  | [] => []
  | l :: ls => ('{', l) :: ls.map (',', ·)

def ledLabel (p : Char × Label) : List Char := p.1 :: renderLabel p.2

theorem intercalate_led (label : Label) (labels : List Label) :
    [','].intercalate ((label :: labels).map renderLabel) =
      renderLabel label ++ (labels.map (',', ·)).flatMap ledLabel := by
  induction labels generalizing label with
  | nil => simp
  | cons label' labels ih =>
    rw [List.map_cons, List.map_cons, List.intercalate_cons_cons, ← List.map_cons, ih, List.map_cons,
      List.flatMap_cons, ledLabel, List.append_assoc, List.singleton_append, List.cons_append]

/-- What stands in front of the value in the line of a sample. -/
def series (full : List Char) (labels : List Label) : List Char :=
  if labels = [] then full else full ++ ((led labels).flatMap ledLabel ++ ['}'])

theorem series_eq (h : labels ≠ []) (full : List Char) :
    series full labels = full ++ ((led labels).flatMap ledLabel ++ ['}']) := if_neg h

theorem series_brace (h : labels ≠ []) (full : List Char) : ∃ rest, series full labels = full ++ '{' :: rest := by
  obtain ⟨label, labels, rfl⟩ := List.exists_cons_of_ne_nil h
  exact ⟨_, series_eq h full⟩

theorem sampleLine_series (full : List Char) (labels : List Label) (value : List Char) :
    sampleLine full labels value = series full labels ++ ' ' :: value := by
  cases labels with
  | nil => rfl
  | cons label labels =>
    have hne : renderLabel label ++ (labels.map (',', ·)).flatMap ledLabel ≠ [] := by simp [renderLabel]
    rw [sampleLine, series, intercalate_led, if_neg hne, if_neg (List.cons_ne_nil _ _), led, List.flatMap_cons,
      ledLabel]
    simp

/-- A label with a name and a plain value. -/
structure Led (p : Char × Label) : Prop where
  apart : p.1 = '{' ∨ p.1 = ','
  named : isKey p.2.1 = true
  plain : Plain p.2.2

theorem Led.separator (h : Led p) : keyChar p.1 = false ∧ p.1 ≠ '=' ∧ p.1 ≠ '"' := by
  rcases h.apart with hp | hp
  · rw [hp]
    decide
  · rw [hp]
    decide

theorem Led.key (h : Led p) : ∀ c ∈ p.2.1, keyChar c = true := isKey_chars h.named

/-- The text of a label, cut where its value begins. -/
theorem ledLabel_append (h : Led p) (front rest : List Char) :
    front ++ (ledLabel p ++ rest) = (front ++ p.1 :: p.2.1) ++ '=' :: '"' :: (p.2.2 ++ '"' :: rest) := by
  rw [ledLabel, renderLabel, esc_plain h.plain]
  simp

/-- The value that is found behind a word is that of the first label whose name ends in
the word. -/
theorem after?_value (h : ∀ p ∈ ls, Led p) (hword : ∀ c ∈ word, keyChar c = true) (hfront : '=' ∉ front) :
    (after? (word ++ ['=']) (front ++ (ls.flatMap ledLabel ++ ['}']))).map (fun rest => (rest.splitOn '"')[1]?) =
      (ls.find? fun p => word <:+ p.2.1).map fun p => some p.2.2 := by
  have hequals := class_not_mem (d := '=') hword rfl
  induction ls generalizing front with
  | nil =>
    have htext : '=' ∉ front ++ ['}'] := by simp [hfront]
    rw [List.flatMap_nil, List.nil_append, after?_none (List.mem_append_right _ List.mem_cons_self) htext]
    rfl
  | cons p ls ih =>
    obtain ⟨hp, hls⟩ := List.forall_mem_cons.mp h
    have hsegment : '=' ∉ front ++ p.1 :: p.2.1 := by
      simp [hfront, hp.separator.2.1.symm, class_not_mem (d := '=') hp.key rfl]
    have hvalue : '=' ∉ '"' :: (p.2.2 ++ ['"']) := by simp [hp.plain.not_mem (c := '=') rfl]
    rw [List.flatMap_cons, List.append_assoc, ledLabel_append hp, after?_segment hequals hsegment,
      if_congr (and_iff_left List.nil_prefix) rfl rfl,
      if_congr (suffix_behind_iff (class_not_mem hword hp.separator.1)) rfl rfl]
    split_ifs with hsuffix
    · have hquoted : ('"' :: (p.2.2 ++ '"' :: (ls.flatMap ledLabel ++ ['}']))).splitOn '"' =
          [] :: p.2.2 :: (ls.flatMap ledLabel ++ ['}']).splitOn '"' := by
        have hfirst := List.splitOn_append_cons_self_of_not_mem (a := '"') List.not_mem_nil
          (p.2.2 ++ '"' :: (ls.flatMap ledLabel ++ ['}']))
        rwa [List.nil_append, List.splitOn_append_cons_self_of_not_mem (hp.plain.not_mem rfl)] at hfirst
      rw [List.find?_cons_of_pos (by simpa using hsuffix), List.length_nil, List.drop_zero, Option.map_some,
        Option.map_some, hquoted]
      rfl
    · rw [List.find?_cons_of_neg (by simpa using hsuffix), ← ih hls hvalue]
      simp

/-- A value in quotes is found behind a word if a label has it whose name ends in the word. -/
theorem after?_quoted (h : ∀ p ∈ ls, Led p) (hword : ∀ c ∈ word, keyChar c = true) (hvalue : '"' ∉ value)
    (hfront : '"' ∉ front) :
    (after? (word ++ '=' :: '"' :: (value ++ ['"'])) (front ++ (ls.flatMap ledLabel ++ ['}']))).isSome ↔
      ∃ p ∈ ls, word <:+ p.2.1 ∧ p.2.2 = value := by
  have hequals := class_not_mem (d := '=') hword rfl
  have hpattern : '"' ∉ word ++ ['='] := by simp [class_not_mem (d := '"') hword rfl]
  have hsplit : word ++ '=' :: '"' :: (value ++ ['"']) = word ++ ['='] ++ '"' :: (value ++ ['"']) := by simp
  rw [hsplit]
  induction ls generalizing front with
  | nil =>
    have htext : '"' ∉ front ++ ['}'] := by simp [hfront]
    rw [List.flatMap_nil, List.nil_append, after?_none (by simp) htext]
    simp
  | cons p ls ih =>
    obtain ⟨hp, hls⟩ := List.forall_mem_cons.mp h
    have hsegment : '"' ∉ front ++ p.1 :: p.2.1 ++ ['='] := by
      simp [hfront, hp.separator.2.2.symm, class_not_mem (d := '"') hp.key rfl]
    have hquote : '"' ∉ p.2.2 := hp.plain.not_mem rfl
    have htext : front ++ ((p :: ls).flatMap ledLabel ++ ['}']) =
        front ++ p.1 :: p.2.1 ++ ['='] ++ '"' :: (p.2.2 ++ '"' :: (ls.flatMap ledLabel ++ ['}'])) := by
      rw [List.flatMap_cons, List.append_assoc (ledLabel p), ledLabel_append hp]
      simp
    -- the word ends at the name of the label, and the value is all between the quotes
    have hhere : word ++ ['='] <:+ front ++ p.1 :: p.2.1 ++ ['='] ∧
        value ++ ['"'] <+: p.2.2 ++ '"' :: (ls.flatMap ledLabel ++ ['}']) ↔ word <:+ p.2.1 ∧ p.2.2 = value := by
      rw [List.suffix_append_self_iff, suffix_behind_iff (class_not_mem hword hp.separator.1),
        segment_prefix_iff hvalue hquote, and_iff_left List.nil_prefix, eq_comm (a := value)]
    have hinside : ¬(word ++ ['='] <:+ p.2.2) := fun hsuffix =>
      hp.plain.not_mem (c := '=') rfl (hsuffix.mem (by simp))
    rw [htext, after?_segment hpattern hsegment, List.exists_mem_cons_iff, if_congr hhere rfl rfl]
    split_ifs with hfound
    · simp [hfound]
    · rw [after?_segment hpattern hquote, if_neg (fun hboth => hinside hboth.1), or_iff_right hfound]
      exact ih hls List.not_mem_nil

/-! ### Lines -/

/-- A character that is seen. -/
def Graphic (c : Char) : Prop := 0x21 ≤ c.toNat ∧ c.toNat ≤ 0x7e

instance (c : Char) : Decidable (Graphic c) := inferInstanceAs (Decidable (_ ∧ _))

theorem graphic_alpha {c : Char} (h : c.isAlphanum = true) : Graphic c := by
  delta Char.isAlphanum Char.isAlpha Char.isUpper Char.isLower Char.isDigit at h
  simp only [Bool.or_eq_true, Bool.and_eq_true, decide_eq_true_eq, UInt32.le_iff_toNat_le] at h
  rcases h with (h | h) | h
  · exact ⟨h.1.trans' (by decide), h.2.trans (by decide)⟩
  · exact ⟨h.1.trans' (by decide), h.2.trans (by decide)⟩
  · exact ⟨h.1.trans' (by decide), h.2.trans (by decide)⟩

theorem Plain.graphic (h : Plain text) : ∀ c ∈ text, Graphic c := by
  intro c hc
  have hplain := h c hc
  rw [plainChar, Bool.or_eq_true, decide_eq_true_eq] at hplain
  exact hplain.elim graphic_alpha fun hmem => (by decide : ∀ c ∈ ['-', '.', '/'], Graphic c) c hmem

theorem WordChar.graphic {c : Char} (h : WordChar c) : Graphic c := ⟨h.1, h.2.trans (by decide)⟩

theorem graphic_space {c : Char} (h : Graphic c) : Pattern.isSpace c = false := by
  simp only [Pattern.isSpace, List.mem_cons, List.not_mem_nil]
  grind [Graphic]

theorem graphic_break {c : Char} (h : Graphic c) : lineBreak c = false := by
  simp only [lineBreak, List.mem_cons, List.not_mem_nil]
  grind [Graphic]

/-- Labels with names and plain values. -/
def PlainLabels (labels : List Label) : Prop := ∀ label ∈ labels, isKey label.1 = true ∧ Plain label.2

theorem PlainLabels.led (h : PlainLabels labels) : ∀ p ∈ led labels, Led p := by
  cases labels with
  | nil => exact nofun
  | cons label labels =>
    obtain ⟨hlabel, hlabels⟩ := List.forall_mem_cons.mp h
    refine List.forall_mem_cons.mpr ⟨⟨.inl rfl, hlabel.1, hlabel.2⟩, fun p hp => ?_⟩
    obtain ⟨label', hmem, rfl⟩ := List.mem_map.mp hp
    exact ⟨.inr rfl, (hlabels label' hmem).1, (hlabels label' hmem).2⟩

theorem Led.graphic (h : Led p) : ∀ c ∈ ledLabel p, Graphic c := by
  have hname : ∀ c ∈ p.2.1, Graphic c := fun c hc =>
    (wordChar_name (by rw [nameChar, h.key c hc, Bool.true_or])).graphic
  rw [ledLabel, renderLabel, esc_plain h.plain]
  simp only [List.forall_mem_cons, List.forall_mem_append]
  exact ⟨by rcases h.apart with hp | hp <;> rw [hp] <;> decide, hname, by decide, by decide, h.plain.graphic, by decide,
    List.forall_mem_nil _⟩

theorem named_graphic (h : isName full = true) : ∀ c ∈ full, Graphic c :=
  fun c hc => (wordChar_name (isName_chars h c hc)).graphic

theorem series_graphic (hfull : isName full = true) (h : PlainLabels labels) : ∀ c ∈ series full labels, Graphic c := by
  unfold series
  split_ifs
  · exact named_graphic hfull
  · refine List.forall_mem_append.mpr ⟨named_graphic hfull, List.forall_mem_append.mpr ⟨fun c hc => ?_, by decide⟩⟩
    obtain ⟨p, hp, hc⟩ := List.mem_flatMap.mp hc
    exact (h.led p hp).graphic c hc

/-! ### Lines of a registry -/

section Written

variable {e : Entry} {es : List Entry} {declared : List (List Char)} {line : List Char}

theorem mem_written (h : line ∈ written declared es) : ∃ e ∈ es, line ∈ e.declaration ∨ line = e.line := by
  induction es generalizing declared with
  | nil => cases h
  | cons e es ih =>
    rw [written] at h
    split_ifs at h
    · rcases List.mem_cons.mp h with rfl | h
      · exact ⟨e, List.mem_cons_self, .inr rfl⟩
      · obtain ⟨e', he', hline⟩ := ih h
        exact ⟨e', List.mem_cons_of_mem _ he', hline⟩
    · rcases List.mem_append.mp h with h | h
      · exact ⟨e, List.mem_cons_self, .inl h⟩
      · rcases List.mem_cons.mp h with rfl | h
        · exact ⟨e, List.mem_cons_self, .inr rfl⟩
        · obtain ⟨e', he', hline⟩ := ih h
          exact ⟨e', List.mem_cons_of_mem _ he', hline⟩

theorem declaration_hash (h : line ∈ e.declaration) : line.head? = some '#' := by
  unfold Entry.declaration at h
  split_ifs at h
  · rw [List.nil_append, List.mem_singleton] at h
    rw [h]
    rfl
  · rw [List.singleton_append, List.mem_cons, List.mem_singleton] at h
    rcases h with h | h <;> rw [h] <;> rfl

theorem declaration_unbroken (hfull : isName e.full = true) (hkind : e.mtype ∈ kinds)
    (hhelp : ∀ c ∈ e.helpText, lineBreak c = false) (h : line ∈ e.declaration) : ∀ c ∈ line, lineBreak c = false := by
  have hname : ∀ c ∈ e.full, lineBreak c = false := fun c hc => graphic_break (named_graphic hfull c hc)
  have hkinds : ∀ kind ∈ kinds, ∀ c ∈ kind, lineBreak c = false := by decide
  have hblank : lineBreak ' ' = false := rfl
  have htype : ∀ c ∈ "# TYPE ".toList ++ (e.full ++ ' ' :: e.mtype), lineBreak c = false :=
    List.forall_mem_append.mpr ⟨by decide, List.forall_mem_append.mpr
      ⟨hname, List.forall_mem_cons.mpr ⟨hblank, hkinds _ hkind⟩⟩⟩
  unfold Entry.declaration at h
  split_ifs at h
  · rw [List.nil_append, List.mem_singleton] at h
    exact h ▸ htype
  · rw [List.singleton_append, List.mem_cons, List.mem_singleton] at h
    rcases h with rfl | rfl
    · exact List.forall_mem_append.mpr ⟨by decide, List.forall_mem_append.mpr
        ⟨hname, List.forall_mem_cons.mpr ⟨hblank, hhelp⟩⟩⟩
    · exact htype

/-- Whoever skips the comments reads the samples. -/
theorem foldlM_written {σ : Type*} {f : σ → List Char → Option σ}
    (h : ∀ s line, line.head? = some '#' → f s line = some s) (declared : List (List Char)) (es : List Entry) (s : σ) :
    (written declared es).foldlM f s = (es.map Entry.line).foldlM f s := by
  have hskip : ∀ lines : List (List Char), (∀ line ∈ lines, line.head? = some '#') →
      ∀ s, lines.foldlM f s = some s := by
    intro lines hlines
    induction lines with
    | nil => exact fun s => rfl
    | cons line lines ih =>
      obtain ⟨hline, hrest⟩ := List.forall_mem_cons.mp hlines
      intro s
      rw [List.foldlM_cons, h s line hline]
      exact ih hrest s
  induction es generalizing declared s with
  | nil => rfl
  | cons e es ih =>
    have hrest : ∀ declared, (fun s => (written declared es).foldlM f s) = fun s => (es.map Entry.line).foldlM f s :=
      fun declared => funext (ih declared)
    rw [written, List.map_cons]
    split_ifs
    · rw [List.foldlM_cons, List.foldlM_cons, hrest]
    · rw [List.foldlM_append, hskip _ (fun line => declaration_hash) s, Option.bind_eq_bind, Option.bind_some,
        List.foldlM_cons, List.foldlM_cons, hrest]

end Written

end GpuNodeHealth.Metrics
