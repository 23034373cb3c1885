import GpuNodeHealth.Text.Lines
import Mathlib.Data.List.Induction

/-! A stream of bytes that is read while it is written. Whoever reads it takes what
there is since the last time for lines, so that each reading that comes inside a
line cuts it. The lines and the parts they are cut into are kept together. -/

namespace GpuNodeHealth.Text

/-- What is written, byte by byte, with the readings in between (`none`). -/
abbrev Readings := List (Option UInt8)

def Readings.bytes (rs : Readings) : List UInt8 := rs.filterMap id

/-- The finished lines, each as the parts it is read in; the parts of the line that
is not finished, and what has been written of it since it was last read. -/
structure Cut where
  whole : List (List (List UInt8)) := []
  parts : List (List UInt8) := []
  part : List UInt8 := []
  deriving DecidableEq

def Cut.step (c : Cut) : Option UInt8 → Cut
  | some b => if b = 10 then { whole := c.whole ++ [c.parts ++ [c.part]] } else { c with part := c.part ++ [b] }
  | none => if c.part = [] then c else { c with parts := c.parts ++ [c.part], part := [] }

def cut (rs : Readings) : Cut := rs.foldl Cut.step {}

/-- Nothing in some bytes ends a line. -/
def Unbroken (bytes : List UInt8) : Prop := ∀ b ∈ bytes, b ≠ 10 ∧ b ≠ 13

variable {rs start : Readings} {c : Cut} {bytes : List UInt8} {ls done : List Line} {r : Option UInt8}

theorem cut_concat (rs : Readings) (r : Option UInt8) : cut (rs ++ [r]) = (cut rs).step r :=
  List.foldl_append

theorem bytes_append (rs rs' : Readings) : (rs ++ rs').bytes = rs.bytes ++ rs'.bytes :=
  List.filterMap_append

theorem Unbroken.append {bytes' : List UInt8} (h : Unbroken bytes) (h' : Unbroken bytes') :
    Unbroken (bytes ++ bytes') := by
  intro b hb
  exact (List.mem_append.mp hb).elim (h b) (h' b)

/-- What is written in whole lines is read as these, before whatever follows. -/
theorem lines_written_append (ls : List Line) (rest : List UInt8) :
    lines (written ls ++ rest) = ls.map Line.bytes ++ lines rest := by
  induction ls with
  | nil => rfl
  | cons l ls ih =>
    rw [written, List.flatMap_cons, List.append_assoc, List.append_assoc, List.singleton_append, lines,
      linesAfter_whole l.whole, List.map_cons]
    exact congrArg _ ih

theorem lines_unbroken (h : Unbroken bytes) : lines bytes = if bytes = [] then [] else [bytes] := by
  have hafter : ∀ start, linesAfter start bytes = if start ++ bytes = [] then [] else [start ++ bytes] := by
    intro start
    induction bytes generalizing start with
    | nil => simp [linesAfter]
    | cons b bytes ih =>
      obtain ⟨hb, hbytes⟩ := List.forall_mem_cons.mp h
      rw [linesAfter.eq_3, if_neg (by simp [hb]), ih hbytes]
      · simp
      · exact fun _ hcr _ => hb.2 hcr
  exact hafter []

/-- Only one text of whole lines is a given one, and nothing is left over. -/
theorem written_unique (h : written ls = written done ++ bytes) (hbytes : Unbroken bytes) :
    done.map Line.bytes = ls.map Line.bytes ∧ bytes = [] := by
  have hlines : ls.map Line.bytes = done.map Line.bytes ++ if bytes = [] then [] else [bytes] := by
    rw [← lines_unbroken hbytes, ← lines_written_append, ← h, lines_written]
  by_cases hnil : bytes = []
  · rw [if_pos hnil, List.append_nil] at hlines
    exact ⟨hlines.symm, hnil⟩
  · rw [if_neg hnil] at hlines
    have hlength := congrArg List.length h
    have htext : ∀ us : List Line, written us = (us.map Line.bytes).flatMap (· ++ [10]) := by
      intro us
      rw [List.flatMap_map]
      rfl
    rw [htext, hlines, List.flatMap_append, ← htext] at hlength
    simp at hlength

theorem written_cr (ls : List Line) : 13 ∉ written ls := by
  intro h
  obtain ⟨l, -, hl⟩ := List.mem_flatMap.mp h
  rcases List.mem_append.mp hl with hl | hl
  · exact (l.whole 13 hl).2 rfl
  · exact absurd (List.mem_singleton.mp hl) (by decide)

/-! ### What the parts are parts of -/

/-- The parts are those of the lines that were written. -/
theorem cut_lines (rs : Readings) (h : 13 ∉ rs.bytes) : ∃ ls : List Line,
    ls.map Line.bytes = (cut rs).whole.map List.flatten ∧
      rs.bytes = written ls ++ ((cut rs).parts.flatten ++ (cut rs).part) ∧
        Unbroken ((cut rs).parts.flatten ++ (cut rs).part) := by
  induction rs using List.reverseRecOn with
  | nil => exact ⟨[], rfl, rfl, nofun⟩
  | append_singleton rs r ih =>
    rw [bytes_append, List.mem_append, not_or] at h
    obtain ⟨ls, hls, hbytes, hunbroken⟩ := ih h.1
    rw [cut_concat, bytes_append, hbytes]
    cases r with
    | none =>
      refine ⟨ls, ?_⟩
      rw [Cut.step]
      split_ifs
      · exact ⟨hls, List.append_nil _, hunbroken⟩
      · simp only [List.flatten_append, List.flatten_singleton, List.append_nil]
        exact ⟨hls, List.append_nil _, hunbroken⟩
    | some b =>
      rw [Cut.step]
      split_ifs with hb
      · refine ⟨ls ++ [⟨_, hunbroken⟩], ?_, ?_, nofun⟩
        · simp [hls]
        · rw [written_append, hb]
          simp [written, Readings.bytes]
      · refine ⟨ls, hls, ?_, ?_⟩
        · simp [Readings.bytes]
        · rw [← List.append_assoc]
          refine hunbroken.append fun b' hb' => ?_
          obtain rfl := List.mem_singleton.mp hb'
          exact ⟨hb, fun hcr => h.2 (by simp [Readings.bytes, hcr])⟩

/-- Once what is written is whole lines, nothing of a line is under way. -/
theorem cut_written (h : rs.bytes = written ls) : (cut rs).whole.map List.flatten = ls.map Line.bytes ∧
    (cut rs).parts.flatten = [] ∧ (cut rs).part = [] := by
  obtain ⟨done, hdone, hbytes, hunbroken⟩ := cut_lines rs (h ▸ written_cr ls)
  obtain ⟨hls, hnil⟩ := written_unique (h.symm.trans hbytes) hunbroken
  exact ⟨hdone.symm.trans hls, List.append_eq_nil_iff.mp hnil⟩

theorem cut_whole_prefix (h : start <+: rs) : (cut start).whole <+: (cut rs).whole := by
  induction rs using List.reverseRecOn with
  | nil =>
    obtain rfl := List.prefix_nil.mp h
    exact List.prefix_rfl
  | append_singleton rs r ih =>
    rcases List.prefix_concat_iff.mp h with rfl | h
    · exact List.prefix_rfl
    · refine (ih h).trans ?_
      rw [cut_concat]
      cases r with
      | none =>
        rw [Cut.step]
        split_ifs
        · exact List.prefix_rfl
        · exact List.prefix_rfl
      | some b =>
        rw [Cut.step]
        split_ifs
        · exact List.prefix_append _ _
        · exact List.prefix_rfl

/-- At the end of each line there was a beginning with the lines up to there. -/
theorem cut_beginning {front back : List (List (List UInt8))} (h : (cut rs).whole = front ++ back) :
    ∃ start, start <+: rs ∧ cut start = { whole := front } := by
  induction rs using List.reverseRecOn generalizing back with
  | nil =>
    obtain ⟨rfl, -⟩ := List.append_eq_nil_iff.mp h.symm
    exact ⟨[], List.prefix_rfl, rfl⟩
  | append_singleton rs r ih =>
    have hbefore : ∀ {back}, (cut rs).whole = front ++ back → ∃ start, start <+: rs ++ [r] ∧
        cut start = { whole := front } := by
      intro back hback
      obtain ⟨start, hstart, hcut⟩ := ih hback
      exact ⟨start, hstart.trans (List.prefix_append _ _), hcut⟩
    rw [cut_concat] at h
    cases r with
    | none =>
      rw [Cut.step] at h
      split_ifs at h
      · exact hbefore h
      · exact hbefore h
    | some b =>
      rw [Cut.step] at h
      split_ifs at h with hb
      · rcases List.eq_nil_or_concat back with rfl | ⟨back, last, rfl⟩
        · refine ⟨_, List.prefix_rfl, ?_⟩
          rw [cut_concat, Cut.step, if_pos hb]
          exact congrArg (Cut.mk · [] []) (h.trans (List.append_nil _))
        · rw [List.concat_eq_append, ← List.append_assoc] at h
          exact hbefore (List.append_inj_left' h rfl)
      · exact hbefore h

end GpuNodeHealth.Text
