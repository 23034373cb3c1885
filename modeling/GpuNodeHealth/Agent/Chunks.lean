import GpuNodeHealth.Agent.LogRuns
import GpuNodeHealth.Text.Cuts

/-! A kernel log that is pumped while it is written. The watcher takes what it finds
at the end of the file for a line, finished or not: a pump that comes inside a line
cuts it, and the parts are matched each for itself. So the counters are right only
if the parts match what the line does. -/

namespace GpuNodeHealth.Agent

open Files Text Interaction

/-- What happens to a log that is followed: a byte is written, or the watcher comes
by. An append of many bytes is as many marks with no pump among them. -/
inductive Mark where
  | byte (b : UInt8)
  | pump (now : ℚ)

def Mark.reading : Mark → Option UInt8
  | .byte b => some b
  | .pump _ => none

def LogWorld.mark (path : String) (w : LogWorld) : Mark → LogWorld
  | .byte b => { w with fs := w.fs.edit path (· ++ [b]) }
  | .pump now => w.step (.pump path now {})

def LogWorld.follow (path : String) (w : LogWorld) (marks : List Mark) : LogWorld := marks.foldl (LogWorld.mark path) w

/-- The bytes written. -/
def stream (marks : List Mark) : List UInt8 := Readings.bytes (marks.map Mark.reading)

/-- The lines written, each as the parts that the pumps cut it into. -/
def cutLines (marks : List Mark) : List (List (List UInt8)) := (cut (marks.map Mark.reading)).whole

/-- The watcher runs, with the file at the path open and read up to some rest. -/
structure LogWorld.Ahead (w : LogWorld) (path : String) (rest : List UInt8) : Prop where
  alive : w.alive = true
  fromStart : w.watcher.fromStart = false
  opened : ∃ file pos, w.fs.current path = some file ∧ w.watcher.handles path = some ⟨file, pos, false⟩ ∧
    pos ≤ (w.fs.content file).length ∧ (w.fs.content file).drop pos = rest

variable {w w₀ : LogWorld} {path : String} {rest bytes : List UInt8} {now : ℚ} {marks : List Mark} {ls : List Line}
  {c : Cut}

theorem LogWorld.Ahead.write (h : w.Ahead path rest) (bytes : List UInt8) :
    LogWorld.Ahead { w with fs := w.fs.edit path (· ++ bytes) } path (rest ++ bytes) := by
  obtain ⟨file, pos, hcurrent, hhandle, hpos, hrest⟩ := h.opened
  have hgrown : (w.fs.edit path (· ++ bytes)).content file = w.fs.content file ++ bytes := by
    rw [edit_content, if_pos hcurrent]
  refine ⟨h.alive, h.fromStart, file, pos, hcurrent, hhandle, ?_, ?_⟩
  · rw [hgrown, List.length_append]
    exact hpos.trans (Nat.le_add_right _ _)
  · rw [hgrown, List.drop_append_of_le_length hpos, hrest]

/-- A pump matches what it finds of the rest, as lines. -/
theorem LogWorld.Ahead.pump (h : w.Ahead path rest) (now : ℚ) :
    (w.step (.pump path now {})).Ahead path [] ∧ ∀ rule,
      (w.step (.pump path now {})).watcher.counts rule = w.watcher.counts rule + tally (lines rest) rule := by
  obtain ⟨file, pos, hcurrent, hhandle, hpos, hrest⟩ := h.opened
  have hlook : lookUp w.fs none path = .ok file := lookUp_ok.mpr ⟨rfl, hcurrent⟩
  rw [LogWorld.step, if_pos h.alive]
  rcases pump_cases h.fromStart path now {} with ⟨fh, -, hfh, hclosed, -, -⟩ | ⟨p, hp, -, hpump⟩
  · rw [hhandle, Option.some.injEq] at hfh
    subst hfh
    cases hclosed
  rw [hhandle] at hp
  cases hp with
  | unstattable hstat => cases hlook.symm.trans hstat
  | shut _ _ hopen => cases hlook.symm.trans hopen
  | rotated _ hstat hne => exact absurd (lookUp_unique hlook hstat) hne
  | truncated _ _ hcut => exact absurd hpos (not_le.mpr hcut)
  | same =>
    rw [hpump]
    refine ⟨⟨rfl, (matchAll_rest _).2.2.trans h.fromStart, file, _, hcurrent, pumped_handles _, le_rfl, ?_⟩, ?_⟩
    · exact List.drop_length
    · intro rule
      rw [pumped_counts, ← hrest]

/-- Whole lines that are appended and pumped count each under its rule. -/
theorem counts_whole (h : w.Ahead path []) (ls : List Line) (now : ℚ) (rule : Rule) :
    ((w.step (.file (.append path ls))).step (.pump path now {})).watcher.counts rule =
      w.watcher.counts rule + tally (ls.map Line.bytes) rule := by
  have hread := ((h.write (written ls)).pump now).2 rule
  rw [List.nil_append, lines_written] at hread
  exact hread

/-! ### What is matched of a stream -/

/-- What the watcher has ahead of it are lines that are finished since, and what
there is of the next one; the counters and these lines make up the parts. -/
structure Trails (w₀ w : LogWorld) (path : String) (c : Cut) : Prop where
  ahead : ∃ ls : List Line, w.Ahead path (written ls ++ c.part) ∧ ∀ rule,
    w.watcher.counts rule + tally (ls.map Line.bytes) rule =
      w₀.watcher.counts rule + tally (c.whole.flatten ++ c.parts) rule
  part : Unbroken c.part

theorem Trails.byte (h : Trails w₀ w path c) {b : UInt8} (hb : b ≠ 13) :
    Trails w₀ (w.mark path (.byte b)) path (c.step (some b)) := by
  obtain ⟨ls, hahead, hcounts⟩ := h.ahead
  rw [Cut.step]
  split_ifs with hnl
  · refine ⟨⟨ls ++ [⟨c.part, h.part⟩], ?_, ?_⟩, fun _ hb => absurd hb List.not_mem_nil⟩
    · have htext : written (ls ++ [⟨c.part, h.part⟩]) ++ [] = written ls ++ c.part ++ [b] := by
        simp [written, hnl]
      rw [htext]
      exact hahead.write [b]
    · intro rule
      have htally := hcounts rule
      rw [tally_append] at htally
      simp only [List.map_append, tally_append, List.map_singleton, List.flatten_append, List.flatten_singleton,
        List.append_nil]
      change w.watcher.counts rule + _ = _
      omega
  · refine ⟨⟨ls, ?_, hcounts⟩, h.part.append fun b' hb' => ?_⟩
    · rw [← List.append_assoc]
      exact hahead.write [b]
    · obtain rfl := List.mem_singleton.mp hb'
      exact ⟨hnl, hb⟩

theorem Trails.pump (h : Trails w₀ w path c) (now : ℚ) : Trails w₀ (w.mark path (.pump now)) path (c.step none) := by
  obtain ⟨ls, hahead, hcounts⟩ := h.ahead
  obtain ⟨hread, hmatched⟩ := hahead.pump now
  have hlines : lines (written ls ++ c.part) = ls.map Line.bytes ++ if c.part = [] then [] else [c.part] := by
    rw [lines_written_append, lines_unbroken h.part]
  rw [hlines] at hmatched
  rw [Cut.step]
  split_ifs with hpart
  · refine ⟨⟨[], ?_, ?_⟩, h.part⟩
    · rw [hpart]
      exact hread
    · intro rule
      rw [LogWorld.mark, hmatched, if_pos hpart, List.append_nil, hcounts]
      rfl
  · refine ⟨⟨[], hread, fun rule => ?_⟩, fun _ hb => absurd hb List.not_mem_nil⟩
    have htally := hcounts rule
    rw [LogWorld.mark, hmatched, if_neg hpart]
    simp only [tally_append] at htally ⊢
    change _ + 0 = _
    omega

/-- Along a stream the counters are those of the parts. -/
theorem follow_trails (h : w.Ahead path []) (marks : List Mark) (hcr : 13 ∉ stream marks) :
    Trails w (w.follow path marks) path (cut (marks.map Mark.reading)) := by
  induction marks using List.reverseRecOn with
  | nil => exact ⟨⟨[], h, fun _ => rfl⟩, nofun⟩
  | append_singleton marks m ih =>
    rw [stream, List.map_append, bytes_append, List.mem_append, not_or] at hcr
    rw [LogWorld.follow, List.foldl_append, List.foldl_cons, List.foldl_nil, ← LogWorld.follow, List.map_append,
      List.map_singleton, cut_concat]
    cases m with
    | byte b => exact (ih hcr.1).byte fun hb => hcr.2 (by simp [Mark.reading, Readings.bytes, hb])
    | pump now => exact (ih hcr.1).pump now

theorem ruleOfBytes_nil : ruleOfBytes [] = none := by decide +kernel

/-- Once whole lines are written and pumped, the parts they were cut into have been matched. -/
theorem follow_counts (h : w.Ahead path []) (hstream : stream marks = written ls) (now : ℚ) (rule : Rule) :
    (w.follow path (marks ++ [.pump now])).watcher.counts rule =
      w.watcher.counts rule + tally (cutLines marks).flatten rule := by
  obtain ⟨-, hparts, hpart⟩ := cut_written hstream
  obtain ⟨⟨done, hahead, hcounts⟩, -⟩ := follow_trails h marks (hstream ▸ written_cr ls)
  have hnone : tally (cut (marks.map Mark.reading)).parts rule = 0 := by
    refine List.countP_eq_zero.mpr fun part hmem => ?_
    rw [List.flatten_eq_nil_iff.mp hparts part hmem, ruleOfBytes_nil]
    simp
  have htally := hcounts rule
  rw [tally_append, hnone] at htally
  rw [LogWorld.follow, List.foldl_append, List.foldl_cons, List.foldl_nil, ← LogWorld.follow, LogWorld.mark,
    (hahead.pump now).2 rule, hpart, List.append_nil, lines_written, htally]
  rfl

/-! ### The law -/

/-- At the end of each line, once it is pumped, the counters are those of the lines
appended whole. -/
def CountsWhole (w : LogWorld) (path : String) (marks : List Mark) : Prop :=
  ∀ (start : List Mark) (ls : List Line) (now : ℚ) (rule : Rule), start <+: marks → stream start = written ls →
    (w.follow path (start ++ [.pump now])).watcher.counts rule =
      ((w.step (.file (.append path ls))).step (.pump path now {})).watcher.counts rule

theorem map_prefix_lift {rs : Readings} (h : rs <+: marks.map Mark.reading) :
    ∃ start, start <+: marks ∧ start.map Mark.reading = rs :=
  ⟨marks.take rs.length, List.take_prefix _ _, List.map_take.trans (List.prefix_iff_eq_take.mp h).symm⟩

/-- The first lines are the lines of a beginning of the run. -/
theorem start_of_cut {front back : List (List (List UInt8))} (hstream : stream marks = written ls)
    (hsplit : cutLines marks = front ++ back) :
    ∃ (start : List Mark) (done : List Line), start <+: marks ∧ stream start = written done ∧
      cutLines start = front := by
  obtain ⟨rs, hrs, hcut⟩ := cut_beginning hsplit
  obtain ⟨start, hstart, rfl⟩ := map_prefix_lift hrs
  have hcr : 13 ∉ stream start := fun hcr => written_cr ls <| by
    obtain ⟨more, rfl⟩ := hstart
    rw [← hstream, stream, List.map_append, bytes_append]
    exact List.mem_append_left _ hcr
  obtain ⟨done, -, hdone, -⟩ := cut_lines _ hcr
  rw [hcut] at hdone
  refine ⟨start, done, hstart, hdone.trans (List.append_nil _), ?_⟩
  rw [cutLines, hcut]

/-- At the end of a line the counters are right if all parts so far match as often as
the lines. -/
theorem follow_counts_iff (h : w.Ahead path []) (hstream : stream marks = written ls) (now : ℚ) (rule : Rule) :
    (w.follow path (marks ++ [.pump now])).watcher.counts rule =
        ((w.step (.file (.append path ls))).step (.pump path now {})).watcher.counts rule ↔
      tally (cutLines marks).flatten rule = tally ((cutLines marks).map List.flatten) rule := by
  rw [follow_counts h hstream, counts_whole h, cutLines, (cut_written hstream).1]
  exact Nat.add_left_cancel_iff

theorem tally_flatten {whole : List (List (List UInt8))} {rule : Rule}
    (h : ∀ parts ∈ whole, tally parts rule = tally [parts.flatten] rule) :
    tally whole.flatten rule = tally (whole.map List.flatten) rule := by
  induction whole with
  | nil => rfl
  | cons parts whole ih =>
    obtain ⟨hone, hrest⟩ := List.forall_mem_cons.mp h
    rw [List.flatten_cons, tally_append, ih hrest, List.map_cons, ← List.singleton_append, tally_append, hone]

/-- However the stream of some lines is cut by pumps, the counters are those of the
lines exactly if the parts of each line match as often, rule by rule, as the line. -/
theorem countsWhole_iff (h : w.Ahead path []) (hstream : stream marks = written ls) : CountsWhole w path marks ↔
    ∀ parts ∈ cutLines marks, ∀ rule, tally parts rule = tally [parts.flatten] rule := by
  constructor
  · intro hlaw parts hparts rule
    have hupto : ∀ {front back}, cutLines marks = front ++ back →
        tally front.flatten rule = tally (front.map List.flatten) rule := by
      intro front back hsplit
      obtain ⟨start, done, hstart, hdone, rfl⟩ := start_of_cut hstream hsplit
      exact (follow_counts_iff h hdone 0 rule).mp (hlaw start done 0 rule hstart hdone)
    -- the lines before this one, without it and with it
    obtain ⟨front, back, hsplit⟩ := List.append_of_mem hparts
    have hbefore := hupto hsplit
    have hwith := hupto (hsplit.trans (List.append_cons front parts back))
    simp only [List.flatten_append, List.flatten_singleton, List.map_append, List.map_singleton,
      tally_append] at hwith
    omega
  · intro hparts start done now rule hstart hdone
    have hsub : cutLines start <+: cutLines marks := cut_whole_prefix (hstart.map _)
    exact (follow_counts_iff h hdone now rule).mpr <| tally_flatten fun parts hmem =>
      hparts parts (hsub.subset hmem) rule

/-- A watcher that has its log open, still empty. -/
def attached : LogWorld :=
  (LogWorld.start (FileSystem.empty.rotate "kern.log") ["kern.log"]).step (.pump "kern.log" 0 {})

theorem attached_ahead : attached.Ahead "kern.log" [] :=
  ⟨by decide +kernel, by decide +kernel, ⟨"kern.log", 0⟩, 0, by decide +kernel, by decide +kernel, by decide +kernel,
    by decide +kernel⟩

def hungWorker : Line := ⟨ascii "INFO: task kworker/u266:10:1234 blocked for more than 122 seconds.", by decide +kernel⟩

/-- The line is written, and pumped after its first bytes. -/
def cutAfter (n : ℕ) : List Mark :=
  (hungWorker.bytes.take n).map .byte ++ .pump 1 :: (hungWorker.bytes.drop n ++ [10]).map .byte

theorem cutAfter_stream (n : ℕ) : stream (cutAfter n) = written [hungWorker] := by
  have hbytes : ∀ bytes : List UInt8, Readings.bytes ((bytes.map Mark.byte).map Mark.reading) = bytes := by
    intro bytes
    simp [Readings.bytes, List.filterMap_map, Function.comp_def, Mark.reading]
  rw [stream, cutAfter, List.map_append, List.map_cons, bytes_append, hbytes, ← List.singleton_append, bytes_append,
    hbytes]
  simp [written, Readings.bytes, Mark.reading, ← List.append_assoc]

theorem countsWhole_prologue : CountsWhole attached "kern.log" (cutAfter 5) :=
  (countsWhole_iff attached_ahead (cutAfter_stream 5)).mpr fun parts hparts rule => by
    have hcut : cutLines (cutAfter 5) = [[ascii "INFO:", hungWorker.bytes.drop 5]] := by decide +kernel
    have hfront : ruleOfBytes (ascii "INFO:") = none := by decide +kernel
    have hback : ruleOfBytes (hungWorker.bytes.drop 5) = some .gpuWorkqueueBlocked := by decide +kernel
    have hline : ruleOfBytes (ascii "INFO:" ++ hungWorker.bytes.drop 5) = some .gpuWorkqueueBlocked := by
      decide +kernel
    rw [hcut, List.mem_singleton] at hparts
    simp [hparts, tally, hfront, hback, hline]

/-- A pump in the middle of a hung-task report takes the worker's name from it, and
the report counts under the rule for tasks that are no GPU workers. -/
theorem counts_cut_worker : ¬∀ (w : LogWorld) (path : String) (marks : List Mark) (ls : List Line),
    w.Ahead path [] → stream marks = written ls → CountsWhole w path marks := by
  intro h
  have hlaw := h attached "kern.log" (cutAfter 26) [hungWorker] attached_ahead (cutAfter_stream 26) (cutAfter 26)
    [hungWorker] 2 .gpuWorkqueueBlocked List.prefix_rfl (cutAfter_stream 26)
  rw [follow_counts attached_ahead (cutAfter_stream 26), counts_whole attached_ahead] at hlaw
  exact absurd hlaw (by decide +kernel)

end GpuNodeHealth.Agent
