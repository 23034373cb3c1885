import GpuNodeHealth.Agent.Collector
import GpuNodeHealth.Agent.DState
import GpuNodeHealth.Agent.LogRuns
import GpuNodeHealth.Metrics.Numbers

/-! What silence of GPUHealthDataStale says. One thread pumps the log files and
notes of each path how its latest pump went; another one collects, and goes by what
has been noted so far. A path that was never pumped is not noted, and so it passes
for one that can be read. -/

namespace GpuNodeHealth.Agent

open Files Interaction

/-- The part of the report that conditions go by; its seconds stand in their message,
as Python prints a float. -/
def DStateReport.signal (report : DStateReport) : DStateSignal where
  gpuStuck := report.gpuStuck
  gpuMaxSeconds := String.ofList (Metrics.repr (.round report.gpuMaxSeconds))
  readable := some report.readable

example : (DStateReport.signal { readable := true, gpuMaxSeconds := 60 }).gpuMaxSeconds = "60.0" := by decide +kernel

/-! ### The two threads -/

/-- The watcher, and what the collecting thread has; and a record of the pumps that
are over, by their paths and whether they succeeded. -/
structure Threads where
  watcher : KernelLogWatcher
  census : DStateCensus
  collector : Collector := {}
  pumps : List (String × Bool) := []

/-- What the system answers a pump, request by request. -/
abbrev Answers := List (Event FileApi) → (r : FileReq) → Except FileExc (FileAns r)

/-- What `collect_once` meets: its clock and that of the census, what listing /proc
gives, and the answers of the other sources. -/
structure Meeting where
  now : ℚ
  scannedAt : ℚ
  proc : Except ProcExc (List ProcEntry)
  exporter : Except Exc ExporterSignal
  patch : Except Exc PatchSignal

def Threads.start (paths : List String) (census : DStateCensus) : Threads where
  watcher := { paths }
  census := census

/-- The pump returns. -/
def Threads.succeeds (t : Threads) (path : String) (now : ℚ) (answer : Answers) : Bool :=
  ((Agent.pump path now).play answer t.watcher []).1.1 matches .ok _

/-- The pump returns or raises what `_run` catches. -/
def Threads.survives (t : Threads) (path : String) (now : ℚ) (answer : Answers) : Bool :=
  ((runPath path now).play answer t.watcher []).1.1 matches .ok _

def Threads.pump (t : Threads) (path : String) (now : ℚ) (answer : Answers) : Threads :=
  { t with
    watcher := ((runPath path now).play answer t.watcher []).1.2
    pumps := t.pumps ++ [(path, t.succeeds path now answer)] }

/-- What the sources answer a pass. -/
def Threads.pass (t : Threads) (met : Meeting) : Pass where
  now := met.now
  kernlog := .ok t.watcher.snapshot
  dstate := .ok (t.census.collect met.scannedAt met.proc).1.signal
  exporter := met.exporter
  patch := met.patch

def Threads.collect (cfg : Config) (t : Threads) (met : Meeting) : Threads :=
  { t with
    census := if cfg.dstateEnabled then (t.census.collect met.scannedAt met.proc).2 else t.census
    collector := t.collector.collectOnce cfg (t.pass met) }

/-- What the two threads come to, in whatever order they go and whatever is answered,
as long as the watcher's is alive. -/
inductive Reached (cfg : Config) (paths : List String) (census : DStateCensus) : Threads → Prop where
  | start : Reached cfg paths census (.start paths census)
  | pump {t : Threads} {path : String} {now : ℚ} {answer : Answers} (ht : Reached cfg paths census t)
      (hpath : path ∈ paths) (hsurvives : t.survives path now answer = true) :
      Reached cfg paths census (t.pump path now answer)
  | collect {t : Threads} (met : Meeting) (ht : Reached cfg paths census t) :
      Reached cfg paths census (t.collect cfg met)

/-- How the latest pump of a path went, if there was one. -/
def latest (pumps : List (String × Bool)) (path : String) : Option Bool :=
  (pumps.filter fun p => p.1 = path).getLast?.map Prod.snd

/-- The pass evaluates, and GPUHealthDataStale is inactive. -/
def Threads.Silent (t : Threads) (cfg : Config) (met : Meeting) : Prop :=
  ∃ collected evaluator, t.collector.attempt cfg (t.pass met) = .ok (collected, evaluator) ∧
    (collected.conditionDetail .gpuHealthDataStale).active = false

/-- The latest pump of every path succeeded, and the pass can list /proc. -/
def Threads.Fresh (t : Threads) (met : Meeting) : Prop :=
  (∀ path ∈ t.watcher.paths, latest t.pumps path = some true) ∧ ∃ entries, met.proc = .ok entries

variable {cfg : Config} {t : Threads} {met : Meeting} {paths : List String} {census : DStateCensus} {path : String}

/-! ### What is noted -/

theorem latest_snoc (pumps : List (String × Bool)) (q : String) (ok : Bool) :
    latest (pumps ++ [(q, ok)]) path = if q = path then some ok else latest pumps path := by
  unfold latest
  by_cases h : q = path <;> simp [h]

theorem matchAll_paths {now : ℚ} {watcher : KernelLogWatcher} (ls : List (List UInt8)) :
    (ls.foldl (KernelLogWatcher.matchLine now) watcher).paths = watcher.paths := by
  induction ls generalizing watcher with
  | nil => rfl
  | cons line rest ih =>
    rw [List.foldl_cons, ih]
    unfold KernelLogWatcher.matchLine
    cases ruleOfBytes line <;> rfl

/-- The paths, and what is noted of them. -/
def KernelLogWatcher.noted (watcher : KernelLogWatcher) : List String × (String → Option Bool) :=
  (watcher.paths, watcher.filesOk)

theorem keeps_setHandle (path : String) (fh : KernelLogWatcher → Handle) :
    (modify fun w => w.setHandle path (fh w) : Method FileApi FileExc KernelLogWatcher PUnit).Keeps
      KernelLogWatcher.noted :=
  Method.keeps_modify fun _ => rfl

theorem consume_keeps (path : String) (now : ℚ) : (consume path now).Keeps KernelLogWatcher.noted := by
  refine Method.keeps_get.bind fun watcher => ?_
  cases watcher.handles path with
  | none => exact Method.keeps_pure ()
  | some fh =>
    refine (Method.keeps_request (FileReq.readRest fh.file fh.pos)).bind fun bytes => Method.keeps_modify fun w => ?_
    exact Prod.ext (matchAll_paths _) (matchAll_rest _).2.1

theorem reopen_keeps (path : String) : (reopen path).Keeps KernelLogWatcher.noted := by
  refine (Method.keeps_request (FileReq.openFile path)).bind fun file => Method.keeps_get.bind fun watcher => ?_
  split_ifs
  · exact (Method.keeps_request (FileReq.sizeOf file)).bind fun size => keeps_setHandle path _
  · exact keeps_setHandle path _

theorem pump_keeps (path : String) (now : ℚ) : (pump path now).Keeps KernelLogWatcher.noted := by
  have hread := (reopen_keeps path).bind fun _ => consume_keeps path now
  refine (Method.keeps_request (FileReq.stat path)).bind fun st => Method.keeps_get.bind fun watcher => ?_
  cases watcher.handles path with
  | none => exact hread
  | some fh =>
    simp only
    split_ifs
    · exact Method.keeps_throw _
    · exact (consume_keeps path now).bind fun _ => (keeps_setHandle path _).bind fun _ => hread
    · exact (keeps_setHandle path _).bind fun _ => hread
    · exact consume_keeps path now

/-- A turn of `_run` notes of the path how the pump went. -/
theorem runPath_play (path : String) (now : ℚ) (answer : Answers) (watcher : KernelLogWatcher) :
    (runPath path now).play answer watcher [] =
      match (pump path now).play answer watcher [] with
      | ((.ok _, w), es) => ((.ok (), { w with filesOk := Function.update w.filesOk path (some true) }), es)
      | ((.error exc, w), es) =>
        if exc.isOSError then ((.ok (), { w with filesOk := Function.update w.filesOk path (some false) }), es)
        else ((.error exc, w), es) := by
  unfold runPath
  simp only [Method.play_bind, Method.play_tryCatch]
  generalize (pump path now).play answer watcher [] = out
  obtain ⟨⟨exc | _, w⟩, es⟩ := out
  · cases hexc : exc.isOSError <;> simp [hexc]
  · simp

/-- Of every path is noted how its latest pump went. -/
structure Threads.Noted (t : Threads) (paths : List String) : Prop where
  paths : t.watcher.paths = paths
  filesOk : ∀ path, t.watcher.filesOk path = latest t.pumps path

theorem Threads.Noted.pump (h : t.Noted paths) {now : ℚ} {answer : Answers}
    (hsurvives : t.survives path now answer = true) : (t.pump path now answer).Noted paths := by
  have hkeeps : ((Agent.pump path now).play answer t.watcher []).1.2.noted = t.watcher.noted :=
    pump_keeps path now answer t.watcher []
  have hrun := runPath_play path now answer t.watcher
  have hnoted (w : KernelLogWatcher) (ok : Bool) (hw : w.noted = t.watcher.noted) (q : String) :
      Function.update w.filesOk path (some ok) q = latest (t.pumps ++ [(path, ok)]) q := by
    have hfiles : w.filesOk = t.watcher.filesOk := congrArg Prod.snd hw
    rw [latest_snoc, Function.update_apply, hfiles, h.filesOk]
    simp only [eq_comm]
  unfold Threads.survives at hsurvives
  unfold Threads.pump Threads.succeeds
  generalize (Agent.pump path now).play answer t.watcher [] = out at hkeeps hrun ⊢
  obtain ⟨⟨exc | _, w⟩, es⟩ := out
  · cases hexc : exc.isOSError with
    | true =>
      simp only [hexc, if_true] at hrun
      rw [hrun]
      exact ⟨(congrArg Prod.fst hkeeps).trans h.paths, hnoted w false hkeeps⟩
    | false => simp [hrun, hexc] at hsurvives
  · simp only at hrun
    rw [hrun]
    exact ⟨(congrArg Prod.fst hkeeps).trans h.paths, hnoted w true hkeeps⟩

theorem Reached.noted (h : Reached cfg paths census t) : t.Noted paths := by
  induction h with
  | start => exact ⟨rfl, fun _ => rfl⟩
  | pump _ _ hsurvives ih => exact ih.pump hsurvives
  | collect met _ ih => exact ⟨ih.paths, ih.filesOk⟩

/-! ### What a silent pass says -/

theorem blindSources_eq_nil {dstate : DStateSignal} {filesOk : List (String × Bool)} :
    blindSources dstate filesOk = [] ↔ dstate.readable ≠ some false ∧ ∀ f ∈ filesOk, f.2 = true := by
  unfold blindSources
  rw [List.append_eq_nil_iff, List.map_eq_nil_iff, List.filter_eq_nil_iff]
  simp

/-- A pass that evaluates goes by what the sources answered. -/
theorem attempt_stale (hkernlog : cfg.kernlogEnabled = true) (hdstate : cfg.dstateEnabled = true)
    {collected : Collected} {evaluator : ConditionEvaluator}
    (h : t.collector.attempt cfg (t.pass met) = .ok (collected, evaluator)) :
    collected.conditionDetail .gpuHealthDataStale = healthDataStale
      (blindSources (t.census.collect met.scannedAt met.proc).1.signal t.watcher.snapshot.filesOk) := by
  have hasked : ask cfg.kernlogEnabled {} (t.pass met).kernlog = .ok t.watcher.snapshot := by
    rw [hkernlog]
    rfl
  have hscanned : ask cfg.dstateEnabled {} (t.pass met).dstate =
      .ok (t.census.collect met.scannedAt met.proc).1.signal := by
    rw [hdstate]
    rfl
  unfold Collector.attempt at h
  rw [hasked, hscanned] at h
  generalize ask cfg.exporterEnabled _ _ = exporter at h
  generalize ask cfg.patchCountersEnabled _ _ = patch at h
  cases exporter with
  | error exc => cases h
  | ok exporter =>
    cases patch with
    | error exc => cases h
    | ok patch =>
      cases h
      rfl

theorem readable_iff : (t.census.collect met.scannedAt met.proc).1.signal.readable ≠ some false ↔
    ∃ entries, met.proc = .ok entries := by
  cases met.proc with
  | error exc => simp [DStateCensus.collect, DStateReport.signal]
  | ok entries => simp [DStateCensus.collect, DStateReport.signal]

theorem snapshot_filesOk {watcher : KernelLogWatcher} : (∀ f ∈ watcher.snapshot.filesOk, f.2 = true) ↔
    ∀ path ∈ watcher.paths, watcher.filesOk path ≠ some false := by
  constructor
  · intro h path hpath hfalse
    exact Bool.false_ne_true (h (path, false) (by simpa [KernelLogWatcher.snapshot, hfalse] using hpath))
  · rintro h ⟨path, ok⟩ hf
    obtain ⟨q, hq, hqf⟩ := List.mem_filterMap.mp hf
    obtain ⟨ok', hok, heq⟩ := Option.map_eq_some_iff.mp hqf
    cases heq
    cases ok with
    | true => rfl
    | false => exact absurd hok (h path (List.mem_dedup.mp hq))

theorem silent_iff (hkernlog : cfg.kernlogEnabled = true) (hdstate : cfg.dstateEnabled = true) :
    t.Silent cfg met ↔ (t.pass met).raises cfg = false ∧ (∃ entries, met.proc = .ok entries) ∧
      ∀ path ∈ t.watcher.paths, t.watcher.filesOk path ≠ some false := by
  have hblind : (healthDataStale (blindSources (t.census.collect met.scannedAt met.proc).1.signal
      t.watcher.snapshot.filesOk)).active = false ↔ (∃ entries, met.proc = .ok entries) ∧
        ∀ path ∈ t.watcher.paths, t.watcher.filesOk path ≠ some false := by
    rw [← readable_iff (t := t), ← snapshot_filesOk, ← blindSources_eq_nil]
    simp [healthDataStale]
  rw [← hblind]
  constructor
  · rintro ⟨collected, evaluator, hok, hinactive⟩
    rw [attempt_stale hkernlog hdstate hok] at hinactive
    exact ⟨raises_of_ok hok, hinactive⟩
  · rintro ⟨hraises, hinactive⟩
    cases hattempt : t.collector.attempt cfg (t.pass met) with
    | error exc => simp [attempt_error_iff.mp ⟨exc, hattempt⟩] at hraises
    | ok result => exact ⟨result.1, result.2, hattempt, by rwa [attempt_stale hkernlog hdstate hattempt]⟩

/-- A silent pass says what it seems to say unless some path has not been pumped yet
while nothing else speaks: no path was last pumped without success, /proc can be
listed, and no source raises. -/
theorem silent_fresh_iff (hkernlog : cfg.kernlogEnabled = true) (hdstate : cfg.dstateEnabled = true)
    (ht : Reached cfg paths census t) : (t.Silent cfg met → t.Fresh met) ↔
      (∀ path ∈ paths, (latest t.pumps path).isSome) ∨ (∃ path ∈ paths, latest t.pumps path = some false) ∨
        (∃ exc, met.proc = .error exc) ∨ (t.pass met).raises cfg = true := by
  rw [silent_iff hkernlog hdstate, Threads.Fresh, ht.noted.paths]
  simp only [ht.noted.filesOk]
  constructor
  · intro hlaw
    by_contra hnone
    obtain ⟨hunpumped, hsuccess, hlisted, hraises⟩ := by simpa only [not_or] using hnone
    have hproc : ∃ entries, met.proc = .ok entries := by
      cases hproc : met.proc with
      | error exc => exact absurd ⟨exc, hproc⟩ hlisted
      | ok entries => exact ⟨entries, rfl⟩
    have hnotfalse : ∀ path ∈ paths, latest t.pumps path ≠ some false :=
      fun path hpath hfalse => hsuccess ⟨path, hpath, hfalse⟩
    obtain ⟨hfresh, -⟩ := hlaw ⟨eq_false_of_ne_true hraises, hproc, hnotfalse⟩
    exact hunpumped fun path hpath => by rw [hfresh path hpath]; rfl
  · rintro hwhen ⟨hraises, ⟨entries, hproc⟩, hnotfalse⟩
    refine ⟨fun path hpath => ?_, entries, hproc⟩
    rcases hwhen with hpumped | ⟨q, hq, hfalse⟩ | ⟨exc, hexc⟩ | hraised
    · obtain ⟨ok, hok⟩ := Option.isSome_iff_exists.mp (hpumped path hpath)
      cases ok with
      | true => exact hok
      | false => exact absurd hok (hnotfalse path hpath)
    · exact absurd hfalse (hnotfalse q hq)
    · cases hproc.symm.trans hexc
    · cases hraises.symm.trans hraised

def kernelLogs : List String := ["/var/log/kern.log", "/var/log/syslog"]

def quietCensus : DStateCensus := { stuckSeconds := 60, gpuPrefixes := [] }

/-- A pass that every source answers. -/
def quietMeeting : Meeting := ⟨30, 30, .ok [], .ok { reachable := some true }, .ok {}⟩

/-- The log is not there, and the watcher notes it. -/
def missingLog : Threads :=
  (Threads.start kernelLogs quietCensus).pump "/var/log/kern.log" 29 fun _ _ => .error .fileNotFound

theorem silent_fresh_iff_missingLog : (missingLog.Silent {} quietMeeting → missingLog.Fresh quietMeeting) ↔
    (∀ path ∈ kernelLogs, (latest missingLog.pumps path).isSome) ∨
      (∃ path ∈ kernelLogs, latest missingLog.pumps path = some false) ∨
        (∃ exc, quietMeeting.proc = .error exc) ∨ (missingLog.pass quietMeeting).raises {} = true :=
  silent_fresh_iff rfl rfl (.pump .start (by decide) rfl)

/-- The first pass may come before the first pump, and finds nothing amiss. -/
theorem unpumped_silent : ¬∀ (paths : List String) (census : DStateCensus) (t : Threads) (met : Meeting),
    paths ≠ [] → Reached {} paths census t → t.Silent {} met → t.Fresh met := by
  intro hlaw
  have hsilent : (Threads.start kernelLogs quietCensus).Silent {} quietMeeting := ⟨_, _, rfl, by decide +kernel⟩
  obtain ⟨hfresh, -⟩ := hlaw kernelLogs quietCensus _ quietMeeting (by decide) .start hsilent
  cases hfresh "/var/log/syslog" (by decide)

end GpuNodeHealth.Agent
