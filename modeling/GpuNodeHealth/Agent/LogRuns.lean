import GpuNodeHealth.Agent.KernelLog

/-! The watcher among its files. Files change between the pumps, and the `stat` or
the `open` of a pump may fail whatever there is at the path. What a pump does is
said once, case by case; and at any time the counters are those of the lines
matched so far. -/

namespace GpuNodeHealth.Agent

open Files Text Interaction

inductive Denial where
  | notFound | permission
  deriving DecidableEq, Repr

def Denial.exc : Denial → FileExc
  | .notFound => .fileNotFound
  | .permission => .permission

/-- Which calls of a pump fail although the file may be there. -/
structure Faults where
  stat : Option Denial := none
  openFile : Option Denial := none
  deriving DecidableEq, Repr

/-- Look a path up, unless that is denied. -/
def lookUp (fs : FileSystem) (denied : Option Denial) (path : String) : Except FileExc FileId :=
  match denied with
  | some denial => .error denial.exc
  | none => match fs.current path with
    | none => .error .fileNotFound
    | some file => .ok file

def serve (fs : FileSystem) (faults : Faults) : (r : FileReq) → Except FileExc (FileAns r)
  | .stat path => (lookUp fs faults.stat path).map fun file => ⟨file, (fs.content file).length⟩
  | .openFile path => lookUp fs faults.openFile path
  | .sizeOf file => .ok (fs.content file).length
  | .readRest file pos => .ok ((fs.content file).drop pos)

/-- The lines a pump read. -/
def linesRead (es : List (Event FileApi)) : List (List UInt8) :=
  es.flatMap fun
    | ⟨.readRest .., .ok bytes⟩ => lines bytes
    | _ => []

/-- The watcher's thread, which ends with the first exception `_run` does not
catch; and a record of the lines it matched, with their paths. -/
structure LogWorld where
  fs : FileSystem
  watcher : KernelLogWatcher
  alive : Bool := true
  matched : List (String × List UInt8) := []

inductive LogStep where
  | file (e : FileEvent)
  | pump (path : String) (now : ℚ) (faults : Faults)

def LogWorld.pump (w : LogWorld) (path : String) (now : ℚ) (faults : Faults) : LogWorld :=
  let out := (runPath path now).play (fun _ => serve w.fs faults) w.watcher []
  { fs := w.fs
    watcher := out.1.2
    alive := out.1.1 matches .ok _
    matched := w.matched ++ (linesRead out.2).map fun line => (path, line) }

/-- Whether the pump itself returns. -/
def LogWorld.pumpSucceeds (w : LogWorld) (path : String) (now : ℚ) (faults : Faults) : Bool :=
  ((Agent.pump path now).play (fun _ => serve w.fs faults) w.watcher []).1.1 matches .ok _

def LogWorld.step (w : LogWorld) : LogStep → LogWorld
  | .file e => { w with fs := w.fs.apply e }
  | .pump path now faults => if w.alive then w.pump path now faults else w

def LogWorld.run (w : LogWorld) (steps : List LogStep) : LogWorld := steps.foldl LogWorld.step w

/-! ### What a pump does -/

/-- The effect of a pump at its path: the handle it leaves, the lines it matched,
and whether it succeeded. -/
structure Pumping where
  handle : Option Handle
  lines : List (List UInt8)
  ok : Bool

/-- The pumps that `_run` survives, by what they find at the path and in the table. -/
inductive Pumped (fs : FileSystem) (path : String) (faults : Faults) : Option Handle → Pumping → Prop where
  | unstattable {before : Option Handle} {exc : FileExc} (hstat : lookUp fs faults.stat path = .error exc) :
      Pumped fs path faults before ⟨before, [], false⟩
  | unopened {exc : FileExc} (hopen : lookUp fs faults.openFile path = .error exc) :
      Pumped fs path faults none ⟨none, [], false⟩
  | first {file : FileId} (hstat : lookUp fs faults.stat path = .ok file)
      (hopen : lookUp fs faults.openFile path = .ok file) :
      Pumped fs path faults none ⟨some ⟨file, (fs.content file).length, false⟩, [], true⟩
  | same {fh : Handle} (hclosed : fh.closed = false) (hstat : lookUp fs faults.stat path = .ok fh.file)
      (hpos : fh.pos ≤ (fs.content fh.file).length) :
      Pumped fs path faults (some fh)
        ⟨some ⟨fh.file, (fs.content fh.file).length, false⟩, lines ((fs.content fh.file).drop fh.pos), true⟩
  | rotated {fh : Handle} {file : FileId} (hclosed : fh.closed = false)
      (hstat : lookUp fs faults.stat path = .ok file) (hne : fh.file ≠ file)
      (hopen : lookUp fs faults.openFile path = .ok file) :
      Pumped fs path faults (some fh) ⟨some ⟨file, (fs.content file).length, false⟩,
        lines ((fs.content fh.file).drop fh.pos) ++ lines (fs.content file), true⟩
  | truncated {fh : Handle} (hclosed : fh.closed = false) (hstat : lookUp fs faults.stat path = .ok fh.file)
      (hpos : (fs.content fh.file).length < fh.pos) (hopen : lookUp fs faults.openFile path = .ok fh.file) :
      Pumped fs path faults (some fh)
        ⟨some ⟨fh.file, (fs.content fh.file).length, false⟩, lines (fs.content fh.file), true⟩
  | shut {fh : Handle} {file : FileId} {exc : FileExc} {rest : List (List UInt8)} {pos : ℕ}
      (hstat : lookUp fs faults.stat path = .ok file)
      (hchanged : fh.file ≠ file ∨ (fs.content file).length < fh.pos)
      (hopen : lookUp fs faults.openFile path = .error exc) :
      Pumped fs path faults (some fh) ⟨some ⟨fh.file, pos, true⟩, rest, false⟩

/-- The watcher after a pump. -/
def KernelLogWatcher.pumped (watcher : KernelLogWatcher) (path : String) (now : ℚ) (p : Pumping) :
    KernelLogWatcher :=
  { p.lines.foldl (KernelLogWatcher.matchLine now) watcher with
    handles := Function.update watcher.handles path p.handle
    filesOk := Function.update watcher.filesOk path (some p.ok) }

variable {w : LogWorld} {watcher : KernelLogWatcher} {fs : FileSystem} {path : String} {now : ℚ} {faults : Faults}
  {es : List (Event FileApi)} {fh : Handle} {file : FileId} {exc : FileExc}

@[simp] theorem pumped_handles (p : Pumping) : (watcher.pumped path now p).handles path = p.handle :=
  Function.update_self _ _ _

@[simp] theorem pumped_filesOk (p : Pumping) : (watcher.pumped path now p).filesOk path = some p.ok :=
  Function.update_self _ _ _

/-- A pump leaves what is kept of the other paths alone. -/
theorem pumped_of_ne {q : String} (h : q ≠ path) (p : Pumping) :
    (watcher.pumped path now p).handles q = watcher.handles q ∧
      (watcher.pumped path now p).filesOk q = watcher.filesOk q :=
  ⟨Function.update_of_ne h _ _, Function.update_of_ne h _ _⟩

/-- Matching a line touches the counters and the last hits alone. -/
theorem matchLine_setHandle (line : List UInt8) :
    (watcher.setHandle path fh).matchLine now line = (watcher.matchLine now line).setHandle path fh := by
  unfold KernelLogWatcher.matchLine
  cases ruleOfBytes line <;> rfl

theorem matchAll_setHandle (ls : List (List UInt8)) :
    ls.foldl (KernelLogWatcher.matchLine now) (watcher.setHandle path fh) =
      (ls.foldl (KernelLogWatcher.matchLine now) watcher).setHandle path fh := by
  induction ls generalizing watcher with
  | nil => rfl
  | cons line rest ih => rw [List.foldl_cons, matchLine_setHandle, ih, List.foldl_cons]

theorem matchAll_rest (ls : List (List UInt8)) :
    (ls.foldl (KernelLogWatcher.matchLine now) watcher).handles = watcher.handles ∧
      (ls.foldl (KernelLogWatcher.matchLine now) watcher).filesOk = watcher.filesOk ∧
        (ls.foldl (KernelLogWatcher.matchLine now) watcher).fromStart = watcher.fromStart := by
  induction ls generalizing watcher with
  | nil => exact ⟨rfl, rfl, rfl⟩
  | cons line rest ih =>
    obtain ⟨hhandles, hfiles, hfrom⟩ := @ih (watcher.matchLine now line)
    rw [List.foldl_cons, hhandles, hfiles, hfrom]
    unfold KernelLogWatcher.matchLine
    cases ruleOfBytes line <;> exact ⟨rfl, rfl, rfl⟩

@[simp] theorem setHandle_self : (watcher.setHandle path fh).handles path = some fh := Function.update_self _ _ _

@[simp] theorem setHandle_setHandle (fh' : Handle) :
    (watcher.setHandle path fh').setHandle path fh = watcher.setHandle path fh := by
  simp [KernelLogWatcher.setHandle]

theorem consume_play (h : watcher.handles path = some fh) :
    (consume path now).play (fun _ => serve fs faults) watcher es =
      ((.ok (), ((lines ((fs.content fh.file).drop fh.pos)).foldl (KernelLogWatcher.matchLine now)
          watcher).setHandle path { fh with pos := fh.pos + ((fs.content fh.file).drop fh.pos).length }),
        es ++ [⟨.readRest fh.file fh.pos, .ok ((fs.content fh.file).drop fh.pos)⟩]) := by
  simp only [consume, Method.play_bind, Method.play_get, h, Method.play_request, serve, Method.play_modify]

theorem reopen_play_error (h : lookUp fs faults.openFile path = .error exc) :
    (reopen path).play (fun _ => serve fs faults) watcher es =
      ((.error exc, watcher), es ++ [⟨.openFile path, .error exc⟩]) := by
  simp only [reopen, Method.play_bind, Method.play_request, serve, h]

/-- A file opened again is read from its start. -/
theorem reopen_play_again (h : lookUp fs faults.openFile path = .ok file) (hfh : watcher.handles path = some fh) :
    (reopen path).play (fun _ => serve fs faults) watcher es =
      ((.ok (), watcher.setHandle path { file }), es ++ [⟨.openFile path, .ok file⟩]) := by
  simp [reopen, serve, h, hfh]

/-- A file at first sight is read from its end. -/
theorem reopen_play_first (h : lookUp fs faults.openFile path = .ok file) (hnone : watcher.handles path = none)
    (hfrom : watcher.fromStart = false) : (reopen path).play (fun _ => serve fs faults) watcher es =
      ((.ok (), watcher.setHandle path { file, pos := (fs.content file).length }),
        es ++ [⟨.openFile path, .ok file⟩, ⟨.sizeOf file, .ok (fs.content file).length⟩]) := by
  simp [reopen, serve, h, hnone, hfrom]

theorem lookUp_error {denied : Option Denial} (h : lookUp fs denied path = .error exc) : exc.isOSError = true := by
  unfold lookUp at h
  cases denied with
  | some denial =>
    cases h
    cases denial <;> rfl
  | none =>
    cases hc : fs.current path with
    | none =>
      rw [hc] at h
      cases h
      rfl
    | some file =>
      rw [hc] at h
      cases h

theorem lookUp_ok {denied : Option Denial} :
    lookUp fs denied path = .ok file ↔ denied = none ∧ fs.current path = some file := by
  unfold lookUp
  cases denied with
  | some denial => simp
  | none => cases fs.current path <;> simp

/-- The same file is found by both calls of a pump. -/
theorem lookUp_unique {denied denied' : Option Denial} {file' : FileId} (h : lookUp fs denied path = .ok file)
    (h' : lookUp fs denied' path = .ok file') : file = file' :=
  Option.some.inj ((lookUp_ok.mp h).2.symm.trans (lookUp_ok.mp h').2)

/-- What a pump leaves of the watcher, less the note of how it went. -/
def KernelLogWatcher.read (watcher : KernelLogWatcher) (path : String) (now : ℚ) (p : Pumping) : KernelLogWatcher :=
  { p.lines.foldl (KernelLogWatcher.matchLine now) watcher with
    handles := Function.update watcher.handles path p.handle }

theorem setHandle_read (ls : List (List UInt8)) (ok : Bool) :
    (ls.foldl (KernelLogWatcher.matchLine now) watcher).setHandle path fh =
      watcher.read path now ⟨some fh, ls, ok⟩ := by
  simp only [KernelLogWatcher.read, KernelLogWatcher.setHandle, matchAll_rest]

/-- A pump came out as a case says: it left the watcher so, read those lines, and
succeeded or raised an OSError. -/
def PumpsTo (watcher : KernelLogWatcher) (path : String) (now : ℚ)
    (out : (Except FileExc Unit × KernelLogWatcher) × List (Event FileApi)) (p : Pumping) : Prop :=
  out.1.2 = watcher.read path now p ∧ linesRead out.2 = p.lines ∧
    if p.ok then out.1.1 = .ok () else ∃ exc, out.1.1 = .error exc ∧ exc.isOSError = true

/-! The rest of a pump that has found a file at its path, by what the table holds. -/

section

variable {st : Except FileExc Stat}

theorem first_play (hfrom : watcher.fromStart = false) (hfh : watcher.handles path = none)
    (hstat : lookUp fs faults.stat path = .ok file) :
    ∃ p, Pumped fs path faults none p ∧ PumpsTo watcher path now
      (Method.play (fun _ => serve fs faults) (do reopen path; consume path now) watcher [⟨.stat path, st⟩]) p := by
  simp only [Method.play_bind]
  cases hopen : lookUp fs faults.openFile path with
  | error exc =>
    rw [reopen_play_error hopen]
    refine ⟨_, .unopened hopen, ?_, rfl, exc, rfl, lookUp_error hopen⟩
    simp [KernelLogWatcher.read, ← hfh]
  | ok file' =>
    obtain rfl := lookUp_unique hstat hopen
    rw [reopen_play_first hopen hfh hfrom]
    simp only [consume_play setHandle_self, List.drop_length, matchAll_setHandle, setHandle_setHandle]
    exact ⟨_, .first hstat hopen, setHandle_read [] true, rfl, rfl⟩

theorem rotated_play (hfh : watcher.handles path = some fh) (hclosed : fh.closed = false)
    (hstat : lookUp fs faults.stat path = .ok file) (hne : fh.file ≠ file) :
    ∃ p, Pumped fs path faults (some fh) p ∧ PumpsTo watcher path now
      (Method.play (fun _ => serve fs faults) (do
        consume path now
        modify fun w => w.setHandle path { (w.handles path).getD fh with closed := true }
        reopen path
        consume path now) watcher [⟨.stat path, st⟩]) p := by
  simp only [Method.play_bind, consume_play hfh, Method.play_modify, setHandle_self, Option.getD_some,
    setHandle_setHandle]
  cases hopen : lookUp fs faults.openFile path with
  | error exc =>
    rw [reopen_play_error hopen]
    refine ⟨_, .shut hstat (.inl hne) hopen, setHandle_read _ false, ?_, exc, rfl, lookUp_error hopen⟩
    simp [linesRead]
  | ok file' =>
    obtain rfl := lookUp_unique hstat hopen
    rw [reopen_play_again hopen setHandle_self]
    simp only [consume_play setHandle_self, setHandle_setHandle, matchAll_setHandle, List.drop_zero, Nat.zero_add]
    refine ⟨_, .rotated hclosed hstat hne hopen, ?_, ?_, rfl⟩
    · rw [← List.foldl_append]
      exact setHandle_read _ true
    · simp [linesRead]

theorem truncated_play (hclosed : fh.closed = false) (hstat : lookUp fs faults.stat path = .ok fh.file)
    (hcut : (fs.content fh.file).length < fh.pos) :
    ∃ p, Pumped fs path faults (some fh) p ∧ PumpsTo watcher path now
      (Method.play (fun _ => serve fs faults) (do
        modify fun w => w.setHandle path { fh with closed := true }
        reopen path
        consume path now) watcher [⟨.stat path, st⟩]) p := by
  simp only [Method.play_bind, Method.play_modify]
  cases hopen : lookUp fs faults.openFile path with
  | error exc =>
    rw [reopen_play_error hopen]
    exact ⟨_, .shut hstat (.inr hcut) hopen, setHandle_read [] false, rfl, exc, rfl, lookUp_error hopen⟩
  | ok file' =>
    obtain rfl := lookUp_unique hstat hopen
    rw [reopen_play_again hopen setHandle_self]
    simp only [consume_play setHandle_self, setHandle_setHandle, matchAll_setHandle, List.drop_zero, Nat.zero_add]
    refine ⟨_, .truncated hclosed hstat hcut hopen, setHandle_read _ true, ?_, rfl⟩
    simp [linesRead]

theorem same_play (hfh : watcher.handles path = some fh) (hclosed : fh.closed = false)
    (hstat : lookUp fs faults.stat path = .ok fh.file) (hpos : fh.pos ≤ (fs.content fh.file).length) :
    ∃ p, Pumped fs path faults (some fh) p ∧ PumpsTo watcher path now
      (Method.play (fun _ => serve fs faults) (consume path now) watcher [⟨.stat path, st⟩]) p := by
  have hend : fh.pos + ((fs.content fh.file).drop fh.pos).length = (fs.content fh.file).length := by
    rw [List.length_drop]
    omega
  rw [consume_play hfh, hend, hclosed]
  refine ⟨_, .same hclosed hstat hpos, setHandle_read _ true, ?_, rfl⟩
  simp [linesRead]

end

/-- A pump on a closed file that it finds again raises what `_run` does not catch;
every other pump is one of the cases. -/
theorem pump_play (hfrom : watcher.fromStart = false) (path : String) (now : ℚ) (faults : Faults) :
    (∃ fh file es, watcher.handles path = some fh ∧ fh.closed = true ∧ lookUp fs faults.stat path = .ok file ∧
        (pump path now).play (fun _ => serve fs faults) watcher [] =
          ((.error (.valueError "I/O operation on closed file."), watcher), es) ∧ linesRead es = []) ∨
      ∃ p, Pumped fs path faults (watcher.handles path) p ∧
        PumpsTo watcher path now ((pump path now).play (fun _ => serve fs faults) watcher []) p := by
  unfold pump
  simp only [Method.play_bind, Method.play_request, Method.play_get, serve]
  cases hstat : lookUp fs faults.stat path with
  | error exc =>
    refine .inr ⟨_, .unstattable hstat, ?_, rfl, exc, rfl, lookUp_error hstat⟩
    simp [Except.map, KernelLogWatcher.read]
  | ok file =>
    simp only [Except.map]
    cases hfh : watcher.handles path with
    | none => exact .inr (first_play hfrom hfh hstat)
    | some fh =>
      cases hclosed : fh.closed with
      | true =>
        simp only [hclosed, if_true, Method.play_throw]
        exact .inl ⟨fh, file, _, rfl, hclosed, rfl, rfl, rfl⟩
      | false =>
        simp only [hclosed, Bool.false_eq_true, if_false]
        split_ifs with hne hcut
        · exact .inr (rotated_play hfh hclosed hstat hne)
        · obtain rfl : fh.file = file := not_not.mp hne
          exact .inr (truncated_play hclosed hstat hcut)
        · obtain rfl : fh.file = file := not_not.mp hne
          exact .inr (same_play hfh hclosed hstat (not_lt.mp hcut))

/-- A pump of a live watcher either ends the thread, on a closed file that it finds
again, or is one of the cases. -/
theorem pump_cases (hfrom : w.watcher.fromStart = false) (path : String) (now : ℚ) (faults : Faults) :
    (∃ fh file, w.watcher.handles path = some fh ∧ fh.closed = true ∧ lookUp w.fs faults.stat path = .ok file ∧
        w.pump path now faults = { w with alive := false }) ∨
      ∃ p, Pumped w.fs path faults (w.watcher.handles path) p ∧ p.ok = w.pumpSucceeds path now faults ∧
        w.pump path now faults = { fs := w.fs, watcher := w.watcher.pumped path now p
                                   matched := w.matched ++ p.lines.map fun line => (path, line) } := by
  unfold LogWorld.pump LogWorld.pumpSucceeds runPath
  simp only [Method.play_bind, Method.play_tryCatch]
  rcases @pump_play w.watcher w.fs hfrom path now faults with
    ⟨fh, file, es, hfh, hclosed, hstat, hplay, hread⟩ | ⟨p, hp, hwatcher, hread, hresult⟩
  · refine .inl ⟨fh, file, hfh, hclosed, hstat, ?_⟩
    simp [hplay, hread, FileExc.isOSError]
  · refine .inr ⟨p, hp, ?_⟩
    generalize (pump path now).play (fun _ => serve w.fs faults) w.watcher [] = out at hwatcher hread hresult
    obtain ⟨⟨v, watcher⟩, es⟩ := out
    obtain rfl : watcher = w.watcher.read path now p := hwatcher
    obtain ⟨handle, ls, ok⟩ := p
    obtain rfl : linesRead es = ls := hread
    cases ok with
    | true =>
      obtain rfl : v = .ok () := hresult
      simp [KernelLogWatcher.pumped, KernelLogWatcher.read, matchAll_rest]
    | false =>
      obtain ⟨exc, rfl, hexc⟩ := hresult
      simp [KernelLogWatcher.pumped, KernelLogWatcher.read, matchAll_rest, hexc]

/-! ### Runs -/

/-- A watcher just started. -/
def LogWorld.start (fs : FileSystem) (paths : List String) : LogWorld where
  fs := fs
  watcher := { paths }

/-- How many of some lines count under a rule. -/
def tally (ls : List (List UInt8)) (rule : Rule) : ℕ := ls.countP fun line => ruleOfBytes line = some rule

theorem tally_append (ls ls' : List (List UInt8)) (rule : Rule) :
    tally (ls ++ ls') rule = tally ls rule + tally ls' rule :=
  List.countP_append

theorem matchAll_counts (ls : List (List UInt8)) (rule : Rule) :
    (ls.foldl (KernelLogWatcher.matchLine now) watcher).counts rule = watcher.counts rule + tally ls rule := by
  induction ls generalizing watcher with
  | nil => rfl
  | cons line rest ih =>
    rw [List.foldl_cons, ih, ← List.singleton_append, tally_append, ← Nat.add_assoc]
    congr 1
    unfold KernelLogWatcher.matchLine
    cases hrule : ruleOfBytes line with
    | none => simp [tally, hrule]
    | some other =>
      by_cases heq : rule = other
      · simp [tally, hrule, heq]
      · simp [tally, hrule, heq, Ne.symm heq]

theorem pumped_counts (p : Pumping) (rule : Rule) :
    (watcher.pumped path now p).counts rule = watcher.counts rule + tally p.lines rule :=
  matchAll_counts p.lines rule

/-- The counters are those of the lines matched so far. -/
theorem run_counts (fs : FileSystem) (paths : List String) (steps : List LogStep) :
    (((LogWorld.start fs paths).run steps).watcher.fromStart = false) ∧ ∀ rule,
      ((LogWorld.start fs paths).run steps).watcher.counts rule =
        tally (((LogWorld.start fs paths).run steps).matched.map Prod.snd) rule := by
  induction steps using List.reverseRecOn with
  | nil => exact ⟨rfl, fun _ => rfl⟩
  | append_singleton steps step ih =>
    obtain ⟨hfrom, hcounts⟩ := ih
    rw [LogWorld.run, List.foldl_append, List.foldl_cons, List.foldl_nil, ← LogWorld.run]
    cases step with
    | file e => exact ⟨hfrom, hcounts⟩
    | pump path now faults =>
      rw [LogWorld.step]
      split_ifs
      · rcases pump_cases hfrom path now faults with ⟨fh, file, -, -, -, hdead⟩ | ⟨p, -, -, hp⟩
        · rw [hdead]
          exact ⟨hfrom, hcounts⟩
        · rw [hp]
          refine ⟨?_, fun rule => ?_⟩
          · simp only [KernelLogWatcher.pumped, matchAll_rest, hfrom]
          · simp only [pumped_counts, hcounts, List.map_append, List.map_map, tally_append]
            congr 2
            exact (List.map_id _).symm
      · exact ⟨hfrom, hcounts⟩

end GpuNodeHealth.Agent
