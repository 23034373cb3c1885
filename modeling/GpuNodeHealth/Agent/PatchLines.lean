import GpuNodeHealth.Agent.LogRuns
import GpuNodeHealth.Agent.WindowLaw
import GpuNodeHealth.Text.Format

/-! The lines that the patched modules print, each under the format string of its
rule. Whatever the fields hold, a line counts under the rule of its format; and no
rule that drives a condition matches even a piece of one. -/

namespace GpuNodeHealth.Agent

open Files Text Interaction

/-- The messages of the patch set. -/
inductive PatchMessage where
  | d4Stalled | d4MapEvicted | d1Remediate | d9RingState | d7Reaped | ttmDeleteBlocked | ttmGivingUp
  deriving DecidableEq, Repr

namespace PatchMessage

def number : Format := .field "0123456789"

def hex : Format := .field "0123456789abcdefABCDEF"

/-- The name of a PCI device. -/
def device : Format := .field "0123456789abcdefABCDEF:."

/-- The name of a ring, or the state of a timer. -/
def word : Format := .field "abcdefghijklmnopqrstuvwxyz0123456789_."

/-- The format string. -/
def format : PatchMessage → Format
  | .d4Stalled => .text "amdgpu " ++ device ++ .text ": drm_sched " ++ word ++
      .text ": D4 watchdog: fence context " ++ number ++ .text " stalled: emitted=" ++ number ++
      .text " signaled=" ++ number ++ .text " stale=" ++ number ++ .text "s"
  | .d4MapEvicted => .text "drm_sched " ++ word ++
      .text ": D4 watchdog: map evicted pending-stalled context " ++ number ++ .text " (emit=" ++ number ++
      .text " done=" ++ number ++ .text ")"
  | .d1Remediate => .text "amdgpu " ++ device ++ .text ": drm_sched " ++ word ++
      .text ": D1 remediate: force-signaled " ++ number ++ .text " stalled fence(s) on context " ++ number ++
      .text " with -ECANCELED"
  | .d9RingState => .text "amdgpu " ++ device ++ .text ": amdgpu: ring " ++ word ++ .text " state: wptr=0x" ++
      hex ++ .text " rptr=0x" ++ hex ++ .text " fence emitted=" ++ number ++ .text " signaled=" ++ number ++
      .text " fallback_timer=" ++ word
  | .d7Reaped => .text "amdgpu " ++ device ++ .text ": amdgpu ring " ++ word ++ .text ": D7 reaped " ++ number ++
      .text " stranded fence(s) (hw past, unsignaled >" ++ number ++ .text "ms)"
  | .ttmDeleteBlocked => .text "[TTM] ttm: BO " ++ hex ++
      .text " delete blocked on unsignaled fences (attempt " ++ number ++ .text "/" ++ number ++ .text ")"
  | .ttmGivingUp => .text "[TTM] ttm: BO " ++ hex ++ .text " delete GIVING UP after " ++ number ++
      .text " attempts (~" ++ number ++
      .text "s); fences never signaled. Leaking BO instead of hanging TTM workqueue."

/-- The rule the message has to itself. -/
def rule : PatchMessage → Rule
  | .d4Stalled => .d4Watchdog
  | .d4MapEvicted => .d4MapEvicted
  | .d1Remediate => .d1Remediate
  | .d9RingState => .d9RingState
  | .d7Reaped => .d7Reap
  | .ttmDeleteBlocked => .ttmDeleteBlocked
  | .ttmGivingUp => .ttmGivingUp

end PatchMessage

/-- The rules that are tried before one. -/
def Rule.before (rule : Rule) : List Rule := rules.takeWhile (· ≠ rule)

/-- The lines of a format count under the rule: it must be found, and none before it may be. -/
def Rule.claims (rule : Rule) (t : Format) : Bool :=
  Format.mustSearch rule.pattern t && rule.before.all fun r => !Format.maySearch r.pattern t

/-- The rules that conditions go by. -/
def drivingRules : List Rule := fatalHangRules ++ workqueueRules ++ engineRules

/-- A line that the patch set printed. -/
def FromPatch (l : Line) : Prop :=
  ∃ (m : PatchMessage) (text : List Char), m.format.Prints text ∧ l.bytes = asciiBytes text

/-- A file holds what the patch set printed. -/
def PatchLog (content : List UInt8) : Prop := ∃ ls : List Line, (∀ l ∈ ls, FromPatch l) ∧ content = written ls

variable {t : Format} {rule : Rule} {line : List Char} {m : PatchMessage} {bytes : List UInt8} {fs : FileSystem}
  {w : LogWorld}

theorem Rule.claims.before (h : rule.claims t = true) : ∀ r ∈ rule.before, Format.maySearch r.pattern t = false := by
  intro r hr
  exact Bool.not_eq_true' _ ▸ List.all_eq_true.mp (Bool.and_eq_true_iff.mp h).2 r hr

theorem Rule.claims.ruleOf (h : rule.claims t = true) (hline : t.Prints line) : ruleOf line = some rule := by
  have hrules : rules = rule.before ++ rule :: (rules.dropWhile (· ≠ rule)).tail := by
    cases rule <;> decide
  refine List.find?_eq_some_iff_append.mpr ⟨hline.search_true (Bool.and_eq_true_iff.mp h).1, _, _, hrules, ?_⟩
  intro r hr
  rw [hline.search_false (Rule.claims.before h r hr)]
  rfl

/-- Each message is claimed by its own rule. -/
theorem rule_claims (m : PatchMessage) : m.rule.claims m.format = true := by
  cases m <;> decide +kernel

/-- The rules that drive a condition are tried before, and may not be found. -/
theorem driving_format (m : PatchMessage) : ∀ r ∈ drivingRules, Format.maySearch r.pattern m.format = false := by
  have hbefore : drivingRules ⊆ m.rule.before := by cases m <;> decide
  intro r hr
  exact Rule.claims.before (rule_claims m) r (hbefore hr)

theorem format_ascii (m : PatchMessage) : ∀ piece ∈ m.format, ∀ c ∈ piece.chars, c.toNat < 0x80 := by
  cases m <;> decide +kernel

/-- A piece of a message, read from anywhere in it, counts under no driving rule. -/
theorem ruleOfBytes_fragment {l : Line} (hl : FromPatch l) (hbytes : bytes <:+ l.bytes) :
    ∀ rule ∈ drivingRules, ruleOfBytes bytes ≠ some rule := by
  obtain ⟨m, text, hprints, hl⟩ := hl
  obtain ⟨front, hfront⟩ := hbytes
  obtain ⟨start, back, htext, -, rfl⟩ := List.map_eq_append_iff.mp (hl.symm.trans hfront.symm)
  have hascii : ∀ c ∈ back, c.toNat < 0x80 := by
    intro c hc
    obtain ⟨piece, hpiece, hchars⟩ := hprints.chars c (htext ▸ List.mem_append_right _ hc)
    exact format_ascii m piece hpiece c hchars
  intro rule hrule hof
  rw [ruleOfBytes, ← asciiBytes, decode_asciiBytes hascii] at hof
  have hfound : rule.pattern.search back = true :=
    @List.find?_some _ (fun r : Rule => r.pattern.search back) rule rules hof
  have hwhole := Pattern.search_suffix (List.suffix_append start back) hfound
  rw [← htext, hprints.search_false (driving_format m rule hrule)] at hwhole
  cases hwhole

/-! ### Runs -/

/-- A step writes to the logs what the patch set prints. -/
def LogStep.Patched : LogStep → Prop
  | .file (.append _ ls) => ∀ l ∈ ls, FromPatch l
  | _ => True

theorem PatchLog.nil : PatchLog [] := ⟨[], nofun, rfl⟩

theorem PatchLog.edit {path : String} {change : List UInt8 → List UInt8} (h : ∀ file, PatchLog (fs.content file))
    (hchange : ∀ content, PatchLog content → PatchLog (change content)) (file : FileId) :
    PatchLog ((fs.edit path change).content file) := by
  rw [edit_content]
  split_ifs
  · exact hchange _ (h file)
  · exact h file

theorem PatchLog.apply {e : FileEvent} (h : ∀ file, PatchLog (fs.content file)) (he : LogStep.Patched (.file e))
    (file : FileId) : PatchLog ((fs.apply e).content file) := by
  cases e with
  | append path ls =>
    refine @PatchLog.edit fs path (· ++ written ls) h (fun content => ?_) file
    rintro ⟨before, hbefore, rfl⟩
    exact ⟨before ++ ls, fun l hl => (List.mem_append.mp hl).elim (hbefore l) (he l), (written_append _ _).symm⟩
  | truncate path => exact @PatchLog.edit fs path (fun _ => []) h (fun _ _ => .nil) file
  | remove path => exact h file
  | rotate path =>
    by_cases hfile : file = ⟨path, fs.made path⟩
    · rw [hfile]
      simp only [FileSystem.apply, rotate_fresh]
      exact .nil
    · simp only [FileSystem.apply, rotate_content hfile]
      exact h file

/-- What a pump reads of such logs counts under no driving rule. -/
theorem linesRead_driving (h : ∀ file, PatchLog (fs.content file)) (path : String) (now : ℚ) (faults : Faults)
    (watcher : KernelLogWatcher) :
    ∀ bytes ∈ linesRead ((runPath path now).play (fun _ => serve fs faults) watcher []).2, ∀ rule ∈ drivingRules,
      ruleOfBytes bytes ≠ some rule := by
  intro bytes hbytes
  obtain ⟨⟨r, answer⟩, he, hread⟩ := List.mem_flatMap.mp hbytes
  have hanswer := Program.play_answered (serve fs faults) ((runPath path now).call watcher) _ he
  cases r with
  | readRest file pos =>
    obtain rfl : answer = .ok ((fs.content file).drop pos) := hanswer
    obtain ⟨ls, hls, hcontent⟩ := h file
    rw [hcontent] at hread
    obtain ⟨l, hl, hsuffix⟩ := lines_drop_written ls pos bytes hread
    exact ruleOfBytes_fragment (hls l hl) hsuffix
  | _ => cases hread

/-- In logs of the patch set nothing that was matched counts under a driving rule. -/
theorem run_driving (paths : List String) (steps : List LogStep) (h : ∀ file, PatchLog (fs.content file))
    (hsteps : ∀ step ∈ steps, step.Patched) :
    (∀ file, PatchLog (((LogWorld.start fs paths).run steps).fs.content file)) ∧
      ∀ m ∈ ((LogWorld.start fs paths).run steps).matched, ∀ rule ∈ drivingRules, ruleOfBytes m.2 ≠ some rule := by
  induction steps using List.reverseRecOn with
  | nil => exact ⟨h, nofun⟩
  | append_singleton steps step ih =>
    obtain ⟨hbefore, hstep⟩ := List.forall_mem_append.mp hsteps
    obtain ⟨hfiles, hmatched⟩ := ih hbefore
    rw [LogWorld.run, List.foldl_append, List.foldl_cons, List.foldl_nil, ← LogWorld.run]
    cases step with
    | file e => exact ⟨PatchLog.apply hfiles (hstep _ (List.mem_singleton_self _)), hmatched⟩
    | pump path now faults =>
      rw [LogWorld.step]
      split_ifs
      · refine ⟨hfiles, fun m hm => ?_⟩
        rcases List.mem_append.mp hm with hm | hm
        · exact hmatched m hm
        · obtain ⟨bytes, hbytes, rfl⟩ := List.mem_map.mp hm
          exact linesRead_driving hfiles path now faults _ bytes hbytes
      · exact ⟨hfiles, hmatched⟩

/-! ### Conditions -/

/-- The watcher and the evaluator of an agent. -/
structure Monitor where
  log : LogWorld
  evaluator : ConditionEvaluator

inductive MonitorStep where
  | log (step : LogStep)
  | evaluate (call : Evaluation)

/-- An evaluation takes the log as the watcher reports it. -/
def Monitor.call (w : Monitor) (call : Evaluation) : Evaluation := { call with kernlog := w.log.watcher.snapshot }

def Monitor.conditions (w : Monitor) (call : Evaluation) : ConditionName → ConditionInfo :=
  (w.evaluator.evaluate (w.call call)).1

def Monitor.step (w : Monitor) : MonitorStep → Monitor
  | .log step => { w with log := w.log.step step }
  | .evaluate call => { w with evaluator := (w.evaluator.evaluate (w.call call)).2 }

def Monitor.start (fs : FileSystem) (paths : List String) (evaluator : ConditionEvaluator) : Monitor where
  log := .start fs paths
  evaluator := evaluator

def Monitor.run (w : Monitor) (steps : List MonitorStep) : Monitor := steps.foldl Monitor.step w

def MonitorStep.Patched : MonitorStep → Prop
  | .log step => step.Patched
  | .evaluate _ => True

/-- No sample of the evaluator has a hit of a driving rule. -/
def Monitor.Unhit (w : Monitor) : Prop :=
  ∀ s ∈ w.evaluator.history, ∀ rule ∈ drivingRules, s.2 rule = 0

/-- The log of a monitor is that of its watcher's steps. -/
theorem run_log (w : Monitor) (steps : List MonitorStep) : (w.run steps).log =
    w.log.run (steps.filterMap fun | .log step => some step | .evaluate _ => none) := by
  induction steps generalizing w with
  | nil => rfl
  | cons step steps ih => cases step <;> exact ih _

/-- The counters of the driving rules stay where they started. -/
theorem run_unhit (paths : List String) (evaluator : ConditionEvaluator) (steps : List MonitorStep)
    (h : ∀ file, PatchLog (fs.content file)) (hsteps : ∀ step ∈ steps, step.Patched) :
    ∀ rule ∈ drivingRules, ((Monitor.start fs paths evaluator).run steps).log.watcher.counts rule = 0 := by
  intro rule hrule
  rw [run_log]
  generalize hlog : (steps.filterMap fun | .log step => some step | .evaluate _ => none) = logSteps
  have hpatched : ∀ step ∈ logSteps, step.Patched := by
    subst hlog
    intro step hstep
    obtain ⟨s, hs, heq⟩ := List.mem_filterMap.mp hstep
    cases s with
    | log step' =>
      cases heq
      exact hsteps _ hs
    | evaluate call => cases heq
  obtain ⟨-, hmatched⟩ := run_driving paths logSteps h hpatched
  rw [Monitor.start, (run_counts fs paths logSteps).2, tally, List.countP_eq_zero]
  intro bytes hbytes
  obtain ⟨m, hm, rfl⟩ := List.mem_map.mp hbytes
  rw [decide_eq_true_eq]
  exact hmatched m hm rule hrule

theorem Monitor.Unhit.pushed {w : Monitor} (h : w.Unhit)
    (hcounts : ∀ rule ∈ drivingRules, w.log.watcher.counts rule = 0) (call : Evaluation) :
    ∀ s ∈ Window.push w.evaluator.windowSeconds w.evaluator.history
        ((w.call call).now, (w.call call).kernlog.counts), ∀ rule ∈ drivingRules, s.2 rule = 0 := by
  intro s hs rule hrule
  rcases List.mem_append.mp (Window.evict_subset _ hs) with hs | hs
  · exact h s hs rule hrule
  · rw [List.mem_singleton.mp hs]
    change ((w.log.watcher.counts rule : ℕ) : ℤ) = 0
    rw [hcounts rule hrule]
    rfl

theorem run_history (paths : List String) (window : ℚ) (text : String) (recurrence : ℤ) (steps : List MonitorStep)
    (h : ∀ file, PatchLog (fs.content file)) (hsteps : ∀ step ∈ steps, step.Patched) :
    ((Monitor.start fs paths (.new window text recurrence)).run steps).Unhit ∧
      ((Monitor.start fs paths (.new window text recurrence)).run steps).evaluator.engineTimeoutRecurrence =
        recurrence := by
  induction steps using List.reverseRecOn with
  | nil => exact ⟨nofun, rfl⟩
  | append_singleton steps step ih =>
    obtain ⟨hbefore, -⟩ := List.forall_mem_append.mp hsteps
    obtain ⟨hunhit, hrecurrence⟩ := ih hbefore
    have hcounts := run_unhit paths (.new window text recurrence) steps h hbefore
    rw [Monitor.run, List.foldl_append, List.foldl_cons, List.foldl_nil, ← Monitor.run]
    cases step with
    | log step => exact ⟨hunhit, hrecurrence⟩
    | evaluate call => exact ⟨hunhit.pushed hcounts call, hrecurrence⟩

theorem hits_unhit {counts baseline : Rule → ℤ} {watched : List Rule} (hwatched : watched ⊆ drivingRules)
    (hcounts : ∀ rule ∈ drivingRules, counts rule = 0) (hbaseline : ∀ rule ∈ drivingRules, baseline rule = 0) :
    hits counts baseline watched = 0 := by
  refine List.sum_eq_zero fun n hn => ?_
  obtain ⟨rule, hrule, rfl⟩ := List.mem_map.mp hn
  rw [hcounts rule (hwatched hrule), hbaseline rule (hwatched hrule)]
  rfl

/-- What an evaluation adds up from driving rules is nothing. -/
theorem Monitor.Unhit.hits {w : Monitor} (h : w.Unhit)
    (hcounts : ∀ rule ∈ drivingRules, w.log.watcher.counts rule = 0) (call : Evaluation) {watched : List Rule}
    (hwatched : watched ⊆ drivingRules) :
    Agent.hits (w.call call).kernlog.counts
      (((Window.push w.evaluator.windowSeconds w.evaluator.history
        ((w.call call).now, (w.call call).kernlog.counts)).head?.map Prod.snd).getD (w.call call).kernlog.counts)
      watched = 0 := by
  have hnow : ∀ rule ∈ drivingRules, (w.call call).kernlog.counts rule = 0 := fun rule hrule =>
    congrArg (Nat.cast : ℕ → ℤ) (hcounts rule hrule)
  refine hits_unhit hwatched hnow fun rule hrule => ?_
  have hpushed := h.pushed hcounts call
  generalize Window.push w.evaluator.windowSeconds w.evaluator.history _ = history at hpushed
  cases history with
  | nil => exact hnow rule hrule
  | cons s history => exact hpushed s List.mem_cons_self rule hrule

/-- Whatever its fields hold, a message of the patch set counts under its own rule;
and in logs that hold nothing else, however they are written, rotated, cut and read,
no evaluation finds a fatal event or an engine timeout, or a blocked worker but for
the tasks that are stuck. -/
theorem patch_messages_inert :
    (∀ (m : PatchMessage) (text : List Char) (l : Line), m.format.Prints text → l.bytes = asciiBytes text →
      ruleOfBytes l.bytes = some m.rule) ∧
    ∀ (fs : FileSystem) (paths : List String) (window : ℚ) (text : String) (recurrence : ℤ)
      (steps : List MonitorStep) (call : Evaluation), 0 < recurrence → (∀ file, PatchLog (fs.content file)) →
      (∀ step ∈ steps, step.Patched) →
      let conditions := ((Monitor.start fs paths (.new window text recurrence)).run steps).conditions call
      (conditions .gpuUnrecoverable).active = false ∧ (conditions .gpuEngineTimeout).active = false ∧
        (conditions .gpuWorkqueueStalled).active = decide (0 < call.dstate.gpuStuck) := by
  constructor
  · intro m text l hprints hl
    have hascii : ∀ c ∈ text, c.toNat < 0x80 := by
      intro c hc
      obtain ⟨piece, hpiece, hchars⟩ := hprints.chars c hc
      exact format_ascii m piece hpiece c hchars
    rw [ruleOfBytes, hl, decode_asciiBytes hascii]
    exact Rule.claims.ruleOf (rule_claims m) hprints
  · intro fs paths window text recurrence steps call hrecurrence hfiles hsteps
    have hcounts := run_unhit paths (.new window text recurrence) steps hfiles hsteps
    obtain ⟨hunhit, hthreshold⟩ := run_history paths window text recurrence steps hfiles hsteps
    generalize (Monitor.start fs paths (.new window text recurrence)).run steps = w at *
    have hhits := @Monitor.Unhit.hits w hunhit hcounts call
    refine ⟨?_, ?_, ?_⟩
    · change (unrecoverable (hits _ _ fatalHangRules) _ _).active = false
      rw [unrecoverable, hhits (by decide : fatalHangRules ⊆ drivingRules)]
      rfl
    · change (engineTimeout (hits _ _ engineRules) _ _ _).active = false
      rw [engineTimeout, hhits (by decide : engineRules ⊆ drivingRules), hthreshold]
      exact decide_eq_false (not_le.mpr hrecurrence)
    · change (workqueueStalled (hits _ _ workqueueRules) _ _ _).active = _
      rw [workqueueStalled, hhits (by decide : workqueueRules ⊆ drivingRules)]
      simp [Monitor.call]

def retryText : List Char := "[TTM] ttm: BO 00000000deadbeef delete blocked on unsignaled fences (attempt 2/4)".toList

theorem retry_prints : PatchMessage.ttmDeleteBlocked.format.Prints retryText := by
  have hend : Format.Prints [] [] := rfl
  have htotal := (hend.text ")").field (s := "0123456789") ['4'] (by decide) (by decide)
  have hattempts := (htotal.text "/").field (s := "0123456789") ['2'] (by decide) (by decide)
  have hobject := (hattempts.text " delete blocked on unsignaled fences (attempt ").field
    (s := "0123456789abcdefABCDEF") "00000000deadbeef".toList (by decide) (by decide)
  exact hobject.text "[TTM] ttm: BO "

def retryLine : Line := ⟨asciiBytes retryText, by decide +kernel⟩

/-- The retry is written while the log is followed, and an evaluation before and after. -/
def retrySteps : List MonitorStep :=
  [.log (.pump "kern.log" 0 {}), .evaluate { now := 0 }, .log (.file (.append "kern.log" [retryLine])),
    .log (.pump "kern.log" 1 {})]

theorem patch_messages_inert_retry :
    ruleOfBytes retryLine.bytes = some .ttmDeleteBlocked ∧
      let conditions := ((Monitor.start (FileSystem.empty.rotate "kern.log") ["kern.log"]
        (.new 900 "900" 2)).run retrySteps).conditions { now := 15 }
      (conditions .gpuUnrecoverable).active = false ∧ (conditions .gpuEngineTimeout).active = false ∧
        (conditions .gpuWorkqueueStalled).active = decide (0 < 0) := by
  refine ⟨patch_messages_inert.1 .ttmDeleteBlocked retryText retryLine retry_prints rfl,
    patch_messages_inert.2 _ _ 900 "900" 2 retrySteps { now := 15 } (by decide) ?_ ?_⟩
  · intro file
    refine @PatchLog.apply FileSystem.empty (.rotate "kern.log") (fun _ => .nil) trivial file
  · intro step hstep
    simp only [retrySteps, List.mem_cons, List.not_mem_nil, or_false] at hstep
    rcases hstep with rfl | rfl | rfl | rfl
    · trivial
    · trivial
    · intro l hl
      obtain rfl := List.mem_singleton.mp hl
      exact ⟨.ttmDeleteBlocked, retryText, retry_prints, rfl⟩
    · trivial

end GpuNodeHealth.Agent
