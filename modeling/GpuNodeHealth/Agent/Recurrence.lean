import GpuNodeHealth.Agent.Following
import GpuNodeHealth.Agent.WindowLaw

/-! Kernel lines, as a syslog daemon writes them to every file that is watched, and
the recurrence of engine timeouts as the evaluator takes it from the counters. A
line counts once for each file it is read from. -/

namespace GpuNodeHealth.Agent

open Files Text Interaction

/-- A line the kernel printed: which one it is, and when. -/
structure KernelLine where
  serial : ℕ
  time : ℚ
  line : Line
  deriving DecidableEq

/-- The line tells of a ring timeout or a job timeout. -/
def KernelLine.isEngine (l : KernelLine) : Bool := (ruleOfBytes l.line.bytes).any (· ∈ engineRules)

/-- The watcher and the evaluator on a host, with what the kernel printed. The rest
is kept for the record: up to where in the kernel's lines each path has been read,
which of them were read, and how many at each sample of the evaluator. -/
structure Host where
  log : LogWorld
  evaluator : ConditionEvaluator
  stream : List KernelLine := []
  seen : String → Option ℕ := fun _ => none
  reads : List KernelLine := []
  marks : List (ℚ × ℕ) := []

inductive HostStep where
  | print (time : ℚ) (line : Line)
  | pump (path : String) (now : ℚ)
  | evaluate (call : Evaluation)

/-- An evaluation takes the log as the watcher reports it. -/
def Host.call (w : Host) (call : Evaluation) : Evaluation := { call with kernlog := w.log.watcher.snapshot }

/-- The kernel's lines that a path has ahead of it, once it has been read. -/
def Host.unread (w : Host) (path : String) : List KernelLine :=
  match w.seen path with
  | none => []
  | some k => w.stream.drop k

def Host.step (paths : List String) (w : Host) : HostStep → Host
  | .print time line =>
    { w with
      log := w.log.run (paths.dedup.map fun path => .file (.append path [line]))
      stream := w.stream ++ [⟨w.stream.length, time, line⟩] }
  | .pump path now =>
    if path ∈ paths then
      { w with
        log := w.log.step (.pump path now {})
        reads := w.reads ++ w.unread path
        seen := if (w.log.fs.current path).isSome then Function.update w.seen path (some w.stream.length)
          else w.seen }
    else w
  | .evaluate call =>
    { w with
      evaluator := (w.evaluator.evaluate (w.call call)).2
      marks := Window.push w.evaluator.windowSeconds w.marks (call.now, w.reads.length) }

def Host.start (fs : FileSystem) (paths : List String) (evaluator : ConditionEvaluator) : Host where
  log := .start fs paths
  evaluator := evaluator

def Host.run (paths : List String) (w : Host) (steps : List HostStep) : Host := steps.foldl (Host.step paths) w

/-- The engine timeouts read since the baseline of an evaluation. -/
def Host.recent (w : Host) (call : Evaluation) : List KernelLine :=
  let marks := Window.push w.evaluator.windowSeconds w.marks (call.now, w.reads.length)
  (w.reads.drop ((marks.head?.map Prod.snd).getD w.reads.length)).filter KernelLine.isEngine

/-- The engine timeouts that occurred inside the window of an evaluation. -/
def Host.occurred (w : Host) (call : Evaluation) : List KernelLine :=
  w.stream.filter fun l => l.isEngine ∧ call.now - l.time ≤ w.evaluator.windowSeconds

/-- Whether an evaluation finds engine timeouts recurring. -/
def Host.engineTimeout (w : Host) (call : Evaluation) : Bool :=
  ((w.evaluator.evaluate (w.call call)).1 .gpuEngineTimeout).active

/-- None of them was read from two files, and none had to wait for longer than the window. -/
def Host.Single (w : Host) (call : Evaluation) : Prop :=
  (w.recent call).Nodup ∧ ∀ l ∈ w.recent call, call.now - l.time ≤ w.evaluator.windowSeconds

instance (w : Host) (call : Evaluation) : Decidable (w.Single call) := inferInstanceAs (Decidable (_ ∧ _))

variable {w : Host} {fs : FileSystem} {paths : List String} {path text : String} {window : ℚ} {recurrence : ℤ}
  {log : LogWorld} {fh : Handle}

/-- The counters that some reads make. -/
def countsOf (reads : List KernelLine) (n : ℕ) (rule : Rule) : ℤ :=
  tally ((reads.take n).map fun l => l.line.bytes) rule

/-- A line is an engine timeout if it counts under one of the two rules. -/
theorem tally_engine (ls : List KernelLine) : tally (ls.map fun l => l.line.bytes) .ringTimeout +
    tally (ls.map fun l => l.line.bytes) .jobTimedout = (ls.filter KernelLine.isEngine).length := by
  induction ls with
  | nil => rfl
  | cons l rest ih =>
    have hone : tally [l.line.bytes] .ringTimeout + tally [l.line.bytes] .jobTimedout =
        if l.isEngine then 1 else 0 := by
      cases hrule : ruleOfBytes l.line.bytes with
      | none => simp [tally, KernelLine.isEngine, hrule]
      | some rule => cases rule <;> simp [tally, KernelLine.isEngine, engineRules, hrule]
    rw [List.map_cons, ← List.singleton_append, tally_append, tally_append, List.filter_cons]
    split_ifs with hl
    · rw [if_pos hl] at hone
      rw [List.length_cons]
      omega
    · rw [if_neg hl] at hone
      omega

/-- The engine counters grow by the engine timeouts among the reads. -/
theorem hits_countsOf (reads : List KernelLine) (n : ℕ) :
    hits (countsOf reads reads.length) (countsOf reads n) engineRules =
      ((reads.drop n).filter KernelLine.isEngine).length := by
  have hgrown : ∀ rule, max 0 (countsOf reads reads.length rule - countsOf reads n rule) =
      tally ((reads.drop n).map fun l => l.line.bytes) rule := by
    intro rule
    have hsplit : tally (reads.map fun l => l.line.bytes) rule =
        tally ((reads.take n).map fun l => l.line.bytes) rule +
          tally ((reads.drop n).map fun l => l.line.bytes) rule := by
      rw [← tally_append, ← List.map_append, List.take_append_drop]
    unfold countsOf
    rw [List.take_length]
    omega
  simp only [hits, engineRules, List.map_cons, List.map_nil, List.sum_cons, List.sum_nil, hgrown]
  rw [← tally_engine]
  push_cast
  ring

/-! ### What the record is worth -/

/-- The samples of the evaluator are those the record tells of. -/
def Host.sampleOf (w : Host) : ℚ × ℕ → ℚ × (Rule → ℤ) := Prod.map id (countsOf w.reads)

/-- The record is right: the counters are those of the reads, and what a path has
ahead of it are the lines the kernel printed since it was last read. -/
structure Host.Recorded (paths : List String) (window : ℚ) (recurrence : ℤ) (w : Host) : Prop where
  log : w.log.Sound
  settings : w.evaluator.windowSeconds = window ∧ w.evaluator.engineTimeoutRecurrence = recurrence
  counts : ∀ rule, w.log.watcher.counts rule = tally (w.reads.map fun l => l.line.bytes) rule
  history : w.evaluator.history = w.marks.map w.sampleOf
  marks : ∀ m ∈ w.marks, m.2 ≤ w.reads.length
  printed : w.reads ⊆ w.stream
  ahead : ∀ path ∈ paths, match w.log.watcher.handles path with
    | none => w.seen path = none
    | some fh => ∃ k ≤ w.stream.length, w.seen path = some k ∧ (w.log.fs.current path).isSome = true ∧
      Ledger.Agrees { following := true, pending := (w.stream.drop k).map KernelLine.line } w.log.fs path fh

theorem Host.Recorded.start :
    (Host.start fs paths (.new window text recurrence)).Recorded paths window recurrence where
  log := .start
  settings := ⟨rfl, rfl⟩
  counts _ := rfl
  history := rfl
  marks := nofun
  printed := List.nil_subset _
  ahead _ _ := rfl

/-- Printing a line touches the content of the files alone. -/
theorem run_print (ps : List String) (line : Line) (log : LogWorld) :
    (log.run (ps.map fun path => .file (.append path [line]))).watcher = log.watcher ∧
      (log.run (ps.map fun path => .file (.append path [line]))).alive = log.alive ∧
        (log.run (ps.map fun path => .file (.append path [line]))).fs.current = log.fs.current := by
  induction ps generalizing log with
  | nil => exact ⟨rfl, rfl, rfl⟩
  | cons p rest ih => exact ih (log.step (.file (.append p [line])))

/-- A line that is printed to other files is not ahead. -/
theorem agrees_printed_other {ps : List String} (hpath : path ∉ ps) (line : Line) {ledger : Ledger}
    (hagrees : ledger.Agrees log.fs path fh) :
    ledger.Agrees (log.run (ps.map fun path => .file (.append path [line]))).fs path fh := by
  induction ps generalizing log with
  | nil => exact hagrees
  | cons p rest ih =>
    obtain ⟨hp, hrest⟩ := not_or.mp (mt List.mem_cons.mpr hpath)
    exact @ih (log.step (.file (.append p [line]))) hrest (hagrees.other (e := .append p [line]) (Ne.symm hp))

/-- A line that is printed to the file of a path is ahead of it, once. -/
theorem agrees_printed {ps : List String} (hnodup : ps.Nodup) (hpath : path ∈ ps) (line : Line)
    {pending : List Line} (hthere : (log.fs.current path).isSome = true)
    (hagrees : Ledger.Agrees { following := true, pending } log.fs path fh) :
    Ledger.Agrees { following := true, pending := pending ++ [line] }
      (log.run (ps.map fun path => .file (.append path [line]))).fs path fh := by
  induction ps generalizing log with
  | nil => cases hpath
  | cons p rest ih =>
    obtain ⟨hp, hrest⟩ := List.nodup_cons.mp hnodup
    by_cases heq : p = path
    · subst heq
      have hrecord := hagrees.record (e := .append p [line]) rfl fun _ => trivial
      rw [hthere] at hrecord
      exact @agrees_printed_other p (log.step (.file (.append p [line]))) fh rest hp line _ hrecord
    · have hmem := (List.mem_cons.mp hpath).resolve_left (Ne.symm heq)
      exact @ih (log.step (.file (.append p [line]))) hrest hmem hthere (hagrees.other (e := .append p [line]) heq)

theorem Host.Recorded.print (h : w.Recorded paths window recurrence) (time : ℚ) (line : Line) :
    (w.step paths (.print time line)).Recorded paths window recurrence := by
  obtain ⟨hwatcher, halive, hcurrent⟩ := run_print paths.dedup line w.log
  refine ⟨⟨?_, ?_, ?_⟩, h.settings, ?_, h.history, h.marks, ?_, ?_⟩
  · exact halive.trans h.log.alive
  · exact (congrArg _ hwatcher).trans h.log.fromStart
  · simp only [Host.step, hwatcher]
    exact h.log.opened
  · simp only [Host.step, hwatcher]
    exact h.counts
  · exact List.subset_append_of_subset_left _ h.printed
  · intro path hpath
    have hahead := h.ahead path hpath
    simp only [Host.step, hwatcher, hcurrent]
    cases hhandle : w.log.watcher.handles path with
    | none =>
      rw [hhandle] at hahead
      exact hahead
    | some fh =>
      rw [hhandle] at hahead
      obtain ⟨k, hk, hseen, hthere, hagrees⟩ := hahead
      refine ⟨k, ?_, hseen, hthere, ?_⟩
      · rw [List.length_append]
        omega
      · rw [List.drop_append_of_le_length hk, List.map_append, List.map_singleton]
        exact agrees_printed (List.nodup_dedup _) (List.mem_dedup.mpr hpath) line hthere hagrees

theorem Host.Recorded.counts_eq (h : w.Recorded paths window recurrence) (call : Evaluation) :
    (w.call call).kernlog.counts = countsOf w.reads w.reads.length := by
  funext rule
  rw [countsOf, List.take_length, ← h.counts]
  rfl

/-- The samples of an evaluation are again those the record tells of. -/
theorem Host.Recorded.pushed (h : w.Recorded paths window recurrence) (now : ℚ) :
    Window.push w.evaluator.windowSeconds w.evaluator.history (now, countsOf w.reads w.reads.length) =
      (Window.push w.evaluator.windowSeconds w.marks (now, w.reads.length)).map w.sampleOf := by
  have hlast : w.marks.map w.sampleOf ++ [(now, countsOf w.reads w.reads.length)] =
      (w.marks ++ [(now, w.reads.length)]).map (Prod.map id (countsOf w.reads)) := by
    rw [List.map_append]
    rfl
  rw [h.history, Window.push, hlast, Window.evict_map]
  rfl

theorem Host.Recorded.evaluate (h : w.Recorded paths window recurrence) (call : Evaluation) :
    (w.step paths (.evaluate call)).Recorded paths window recurrence := by
  refine ⟨h.log, h.settings, h.counts, ?_, ?_, h.printed, h.ahead⟩
  · simp only [Host.step, ConditionEvaluator.evaluate, h.counts_eq]
    exact h.pushed call.now
  · intro m hm
    rcases List.mem_append.mp (Window.evict_subset _ hm) with hm | hm
    · exact h.marks m hm
    · exact (List.mem_singleton.mp hm) ▸ le_rfl

/-- A pump reads what the path has ahead of it, and then nothing is. -/
theorem Host.Recorded.reads (h : w.Recorded paths window recurrence) (hpath : path ∈ paths) {p : Pumping}
    (hp : Pumped w.log.fs path {} (w.log.watcher.handles path) p) (hopened : ∀ fh ∈ p.handle, fh.closed = false) :
    p.lines = (w.unread path).map (fun l => l.line.bytes) ∧ match p.handle with
      | none => (w.log.fs.current path).isSome = false ∧ w.seen path = none
      | some fh => (w.log.fs.current path).isSome = true ∧ Ledger.Agrees { following := true } w.log.fs path fh := by
  have hahead := h.ahead path hpath
  cases hhandle : w.log.watcher.handles path with
  | none =>
    rw [hhandle] at hp hahead
    have hfinds : p.ok = true ↔ Finds w.log.fs path {} {} := (hp.ok_iff hopened rfl).1
    have hnone : w.unread path = [] := by
      simp [Host.unread, show w.seen path = none from hahead]
    rw [hnone]
    cases hok : p.ok with
    | true =>
      obtain ⟨hlines, fh', hfh', hagrees⟩ := hp.skips hok
      rw [hfh']
      exact ⟨hlines, (hfinds.mp hok).2.2, hagrees⟩
    | false =>
      obtain ⟨hlines, hkept⟩ := hp.fails hok hopened
      rw [hkept]
      refine ⟨hlines, ?_, hahead⟩
      by_contra hthere
      have hfound := hfinds.mpr ⟨rfl, fun _ => rfl, (Bool.not_eq_false _).mp hthere⟩
      simp [hok] at hfound
  | some fh =>
    rw [hhandle] at hp hahead
    obtain ⟨k, hk, hseen, hthere, hagrees⟩ := hahead
    have hfinds : p.ok = true ↔ Finds w.log.fs path { following := true } {} := (hp.ok_iff hopened rfl).1
    obtain ⟨hlines, fh', hfh', hagrees'⟩ := hp.reads (hfinds.mpr ⟨rfl, nofun, hthere⟩) hagrees nofun
    rw [hfh']
    refine ⟨?_, hthere, hagrees'⟩
    simp only [hlines, Host.unread, hseen, List.map_map]
    rfl

theorem Host.Recorded.pump (h : w.Recorded paths window recurrence) (path : String) (now : ℚ) :
    (w.step paths (.pump path now)).Recorded paths window recurrence := by
  by_cases hpath : path ∈ paths
  swap
  · rw [Host.step, if_neg hpath]
    exact h
  have hreopens := undenied_reopens (w := w.log) (l := .pump path now {}) rfl
  obtain ⟨p, hp, -, hopened, hpump⟩ := h.log.pump_cases now hreopens
  obtain ⟨hlines, hhandle⟩ := h.reads hpath hp hopened
  have hsound := h.log.step hreopens
  simp only [Host.step, if_pos hpath]
  refine ⟨hsound, h.settings, ?_, ?_, ?_, ?_, ?_⟩
  · intro rule
    simp only [hpump, pumped_counts, h.counts, hlines, List.map_append, tally_append]
  · rw [h.history]
    refine List.map_congr_left fun m hm => Prod.ext rfl (funext fun rule => ?_)
    simp only [Host.sampleOf, Prod.map_snd, countsOf, List.take_append_of_le_length (h.marks m hm)]
  · intro m hm
    simp only [List.length_append]
    exact (h.marks m hm).trans (Nat.le_add_right _ _)
  · refine List.append_subset.mpr ⟨h.printed, ?_⟩
    unfold Host.unread
    cases w.seen path with
    | none => exact List.nil_subset _
    | some k => exact List.drop_subset _ _
  · intro q hq
    simp only [hpump]
    by_cases hqp : q = path
    · subst hqp
      rw [pumped_handles]
      cases hfh : p.handle with
      | none =>
        rw [hfh] at hhandle
        obtain ⟨hthere, hseen⟩ := hhandle
        simp [hthere, hseen]
      | some fh =>
        rw [hfh] at hhandle
        obtain ⟨hthere, hagrees⟩ := hhandle
        refine ⟨w.stream.length, le_rfl, by simp [hthere], hthere, ?_⟩
        rw [List.drop_length]
        exact hagrees
    · have hseen : (if (w.log.fs.current path).isSome then Function.update w.seen path (some w.stream.length)
          else w.seen) q = w.seen q := by
        split_ifs
        · exact Function.update_of_ne hqp _ _
        · rfl
      rw [(pumped_of_ne hqp p).1, hseen]
      exact h.ahead q hq

theorem run_recorded (fs : FileSystem) (paths : List String) (steps : List HostStep) :
    ((Host.start fs paths (.new window text recurrence)).run paths steps).Recorded paths window recurrence := by
  induction steps using List.reverseRecOn with
  | nil => exact .start
  | append_singleton steps step ih =>
    rw [Host.run, List.foldl_append, List.foldl_cons, List.foldl_nil, ← Host.run]
    cases step with
    | print time line => exact ih.print time line
    | pump path now => exact ih.pump path now
    | evaluate call => exact ih.evaluate call

/-- The evaluator goes by the engine timeouts read since its baseline. -/
theorem Host.Recorded.engineTimeout (h : w.Recorded paths window recurrence) (call : Evaluation) :
    w.engineTimeout call = true ↔ recurrence ≤ (w.recent call).length := by
  have hpushed := h.pushed call.now
  simp only [Host.engineTimeout, Host.recent, ConditionEvaluator.evaluate, Agent.engineTimeout,
    decide_eq_true_eq, h.settings.2, h.counts_eq, ← hits_countsOf]
  rw [show (w.call call).now = call.now from rfl, hpushed]
  cases Window.push w.evaluator.windowSeconds w.marks (call.now, w.reads.length) <;> exact Iff.rfl

/-- Engine timeouts are not found recurring unless as many occurred inside the
window, if none that is counted was read from two files or had to wait too long. -/
theorem engineTimeout_distinct (fs : FileSystem) (paths : List String) (steps : List HostStep) (call : Evaluation)
    (hsingle : ((Host.start fs paths (.new window text recurrence)).run paths steps).Single call)
    (hactive : ((Host.start fs paths (.new window text recurrence)).run paths steps).engineTimeout call = true) :
    recurrence ≤
      (((Host.start fs paths (.new window text recurrence)).run paths steps).occurred call).toFinset.card := by
  have hrecorded := @run_recorded text window recurrence fs paths steps
  generalize (Host.start fs paths (.new window text recurrence)).run paths steps = w at *
  obtain ⟨hnodup, hinside⟩ := hsingle
  have hsub : w.recent call ⊆ w.occurred call := by
    intro l hl
    obtain ⟨hread, hengine⟩ := List.mem_filter.mp hl
    have hprinted := hrecorded.printed (List.drop_subset _ _ hread)
    exact List.mem_filter.mpr ⟨hprinted, decide_eq_true ⟨hengine, hinside l hl⟩⟩
  have hcard : (w.recent call).length ≤ (w.occurred call).toFinset.card := by
    rw [← List.toFinset_card_of_nodup hnodup]
    exact Finset.card_le_card fun l hl => List.mem_toFinset.mpr (hsub (List.mem_toFinset.mp hl))
  exact ((hrecorded.engineTimeout call).mp hactive).trans (by exact_mod_cast hcard)

/-- Both paths have a file. -/
def varLog : FileSystem := (FileSystem.empty.rotate "kern.log").rotate "syslog"

def bothLogs : List String := ["kern.log", "syslog"]

/-- Two ring timeouts are printed, and read from the one file. -/
def twoTimeouts : List HostStep :=
  [.pump "kern.log" 0, .evaluate { now := 0 }, .print 1 ringLine, .print 2 ringLine, .pump "kern.log" 3]

theorem engineTimeout_distinct_twice :
    (2 : ℤ) ≤ (((Host.start varLog bothLogs (.new 900 "900" 2)).run bothLogs twoTimeouts).occurred
      { now := 15 }).toFinset.card :=
  engineTimeout_distinct varLog bothLogs twoTimeouts { now := 15 } (by decide +kernel) (by decide +kernel)

/-- One ring timeout is printed, and read from both files. -/
def oneTimeout : List HostStep :=
  [.pump "kern.log" 0, .pump "syslog" 0, .evaluate { now := 0 }, .print 1 ringLine, .pump "kern.log" 2,
    .pump "syslog" 2]

theorem engineTimeout_doubled : ¬∀ (fs : FileSystem) (paths : List String) (window : ℚ) (text : String)
    (recurrence : ℤ) (steps : List HostStep) (call : Evaluation),
    ((Host.start fs paths (.new window text recurrence)).run paths steps).engineTimeout call = true →
      recurrence ≤
        (((Host.start fs paths (.new window text recurrence)).run paths steps).occurred call).toFinset.card := by
  intro h
  have hcard := h varLog bothLogs 900 "900" 2 oneTimeout { now := 15 } (by decide +kernel)
  exact absurd hcard (by decide +kernel)

end GpuNodeHealth.Agent
