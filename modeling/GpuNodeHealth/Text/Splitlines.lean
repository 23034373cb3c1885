import Mathlib.Data.List.Basic

/-! Splitting a text into lines as `str.splitlines` does, which ends a line at more
characters than a newline. -/

namespace GpuNodeHealth.Text

/-- The characters at which `splitlines` ends a line. -/
def lineBreak (c : Char) : Bool := c.toNat ∈ [10, 11, 12, 13, 28, 29, 30, 0x85, 0x2028, 0x2029]

def splitlinesAfter (start : List Char) : List Char → List (List Char)
  | [] => if start.isEmpty then [] else [start]
  | '\r' :: '\n' :: rest => start :: splitlinesAfter [] rest
  | c :: rest => if lineBreak c then start :: splitlinesAfter [] rest else splitlinesAfter (start ++ [c]) rest

/-- `str.splitlines` -/
def splitlines (text : List Char) : List (List Char) := splitlinesAfter [] text

@[simp] theorem splitlines_nil : splitlines [] = [] := rfl

theorem splitlinesAfter_cons {c : Char} {text : List Char} (h : ∀ rest, c = '\r' → text = '\n' :: rest → False)
    (start : List Char) : splitlinesAfter start (c :: text) =
      if lineBreak c then start :: splitlinesAfter [] text else splitlinesAfter (start ++ [c]) text := by
  rw [splitlinesAfter.eq_3]
  exact h

/-- A text up to a newline is split by itself. -/
theorem splitlinesAfter_newline (start text rest : List Char) :
    splitlinesAfter start (text ++ '\n' :: rest) = splitlinesAfter start (text ++ ['\n']) ++ splitlines rest := by
  induction text generalizing start with
  | nil => rfl
  | cons c text ih =>
    by_cases hpair : c = '\r' ∧ ∃ text', text = '\n' :: text'
    · obtain ⟨rfl, text', rfl⟩ := hpair
      have hrest : splitlines (text' ++ '\n' :: rest) = splitlines (text' ++ ['\n']) ++ splitlines rest := by
        simpa [splitlinesAfter, splitlines, lineBreak] using ih []
      simpa [splitlinesAfter, splitlines] using hrest
    · by_cases hlast : c = '\r' ∧ text = []
      · obtain ⟨rfl, rfl⟩ := hlast
        rfl
      · have hne : ∀ rest rest', c = '\r' → text ++ '\n' :: rest = '\n' :: rest' → False := by
          intro rest rest' hc htext
          cases text with
          | nil => exact hlast ⟨hc, rfl⟩
          | cons d text => exact hpair ⟨hc, text, by rw [(List.cons.inj htext).1]⟩
        rw [List.cons_append, List.cons_append, splitlinesAfter_cons (hne _), splitlinesAfter_cons (hne _), ih, ih]
        split_ifs <;> rfl

/-- The line up to a newline, if nothing in it ends it before. -/
theorem splitlinesAfter_unbroken {text : List Char} (h : ∀ c ∈ text, lineBreak c = false) (start rest : List Char) :
    splitlinesAfter start (text ++ '\n' :: rest) = (start ++ text) :: splitlines rest := by
  induction text generalizing start with
  | nil => simp [splitlinesAfter, splitlines, lineBreak]
  | cons c text ih =>
    obtain ⟨hc, htext⟩ := List.forall_mem_cons.mp h
    have hcr : ∀ rest', c = '\r' → text ++ '\n' :: rest = '\n' :: rest' → False := by
      rintro rest' rfl -
      cases hc
    rw [List.cons_append, splitlinesAfter_cons hcr, hc, if_neg Bool.false_ne_true, ih htext, List.append_assoc]
    rfl

/-- A text that nothing in it ends is the last line. -/
theorem splitlinesAfter_last {text : List Char} (h : ∀ c ∈ text, lineBreak c = false) (start : List Char) :
    splitlinesAfter start text = if (start ++ text).isEmpty then [] else [start ++ text] := by
  induction text generalizing start with
  | nil => rw [splitlinesAfter, List.append_nil]
  | cons c text ih =>
    obtain ⟨hc, htext⟩ := List.forall_mem_cons.mp h
    have hcr : ∀ rest', c = '\r' → text = '\n' :: rest' → False := by
      rintro rest' rfl -
      cases hc
    rw [splitlinesAfter_cons hcr, hc, if_neg Bool.false_ne_true, ih htext, List.append_assoc]
    rfl

theorem mem_splitlinesAfter {start text line : List Char} (hline : line ∈ splitlinesAfter start text) :
    ∀ c ∈ line, c ∈ start ∨ c ∈ text := by
  fun_induction splitlinesAfter start text with
  | case1 => cases hline
  | case2 start hstart =>
    obtain rfl := List.mem_singleton.mp hline
    exact fun c hc => .inl hc
  | case3 start text ih =>
    rcases List.mem_cons.mp hline with rfl | hline
    · exact fun c hc => .inl hc
    · intro c hc
      rcases ih hline c hc with hc | hc
      · cases hc
      · exact .inr (List.mem_cons_of_mem _ (List.mem_cons_of_mem _ hc))
  | case4 start d text hpair hbreak ih =>
    rcases List.mem_cons.mp hline with rfl | hline
    · exact fun c hc => .inl hc
    · intro c hc
      rcases ih hline c hc with hc | hc
      · cases hc
      · exact .inr (List.mem_cons_of_mem _ hc)
  | case5 start d text hpair hbreak ih =>
    intro c hc
    rcases ih hline c hc with hc | hc
    · rcases List.mem_append.mp hc with hc | hc
      · exact .inl hc
      · exact .inr (List.mem_singleton.mp hc ▸ List.mem_cons_self)
    · exact .inr (List.mem_cons_of_mem _ hc)

/-- A line has characters of the text. -/
theorem mem_splitlines {text line : List Char} (hline : line ∈ splitlines text) : ∀ c ∈ line, c ∈ text :=
  fun c hc => (mem_splitlinesAfter hline c hc).resolve_left List.not_mem_nil

/-- A line of the text, as newlines split it, that nothing in it ends. -/
theorem mem_splitlines_of_splitOn {text line : List Char} (hline : line ∈ text.splitOn '\n') (hne : line ≠ [])
    (h : ∀ c ∈ line, lineBreak c = false) : line ∈ splitlines text := by
  have htext : ['\n'].intercalate (text.splitOn '\n') = text := List.intercalate_splitOn '\n'
  rw [← htext]
  generalize text.splitOn '\n' = lines at hline
  induction lines with
  | nil => cases hline
  | cons l lines ih =>
    cases lines with
    | nil =>
      obtain rfl := List.mem_singleton.mp hline
      have hlast : splitlines line = [line] := by
        rw [splitlines, splitlinesAfter_last h]
        exact if_neg (by simpa using hne)
      simp [hlast]
    | cons l' lines =>
      rw [List.intercalate_cons_cons, List.append_assoc, List.singleton_append]
      rcases List.mem_cons.mp hline with rfl | hline
      · rw [splitlines, splitlinesAfter_unbroken h]
        exact List.mem_cons_self
      · rw [splitlines, splitlinesAfter_newline]
        exact List.mem_append_right _ (ih hline)

/-- Texts that each end in a newline are split one by one. -/
theorem splitlines_flatMap {α : Type*} (text : α → List Char) (xs : List α) :
    splitlines (xs.flatMap fun x => text x ++ ['\n']) = xs.flatMap fun x => splitlines (text x ++ ['\n']) := by
  induction xs with
  | nil => rfl
  | cons x xs ih =>
    rw [List.flatMap_cons, List.flatMap_cons, ← ih, List.append_assoc]
    exact splitlinesAfter_newline [] (text x) _

theorem splitlines_unbroken {text : List Char} (h : ∀ c ∈ text, lineBreak c = false) :
    splitlines (text ++ ['\n']) = [text] := splitlinesAfter_unbroken h [] []

/-- Lines that nothing in them ends come back. -/
theorem splitlines_lines {lines : List (List Char)} (h : ∀ line ∈ lines, ∀ c ∈ line, lineBreak c = false) :
    splitlines (lines.flatMap (· ++ ['\n'])) = lines := by
  rw [splitlines_flatMap fun line => line, List.flatMap_congr fun line hline => splitlines_unbroken (h line hline),
    List.flatMap_singleton']

end GpuNodeHealth.Text
