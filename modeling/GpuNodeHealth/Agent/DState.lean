import GpuNodeHealth.Agent.Evaluator
import GpuNodeHealth.Guard.Supervisor
import GpuNodeHealth.Text.Lines
import Mathlib.Data.List.DropRight
import Mathlib.Data.List.Infix

/-! The census of tasks in uninterruptible sleep. A pass lists the processes, the
threads of each and the state of every thread; the threads in state D are timed from
the pass that first found them so. Threads that are not found so any more are
forgotten. -/

namespace GpuNodeHealth.Agent

open Text
open Guard (roundTenth)

/-! ### What /proc shows -/

/-- The exceptions of reading /proc; all of them are OSErrors. -/
inductive ProcExc where
  | fileNotFound
  | processLookup
  | permission
  | otherOS (text : String)
  deriving DecidableEq, Repr

/-- A thread under its process, with what reading its files gives. -/
structure TaskEntry where
  tid : String
  stat : Except ProcExc (List UInt8)
  wchan : Except ProcExc (List UInt8)

/-- An entry of /proc, with what listing its threads gives. -/
structure ProcEntry where
  pid : String
  task : Except ProcExc (List TaskEntry)

/-- `isdigit`; the kernel names threads in decimal digits. -/
def isdigit (name : String) : Bool := !name.toList.isEmpty && name.toList.all Pattern.isDecimal

/-- The value of a text of decimal digits. -/
def decimal (digits : List Char) : ℕ :=
  let value (c : Char) := (Pattern.decimalZeros.find? fun z => z ≤ c.toNat && c.toNat < z + 10).elim 0 (c.toNat - ·)
  digits.foldl (fun n c => 10 * n + value c) 0

/-- `int` of a text without blanks: a sign, then digits, between which single
underscores may stand; it refuses more than 4300 digits. -/
def int? (text : List Char) : Option ℤ :=
  let (negative, body) := match text with
    | '-' :: body => (true, body)
    | '+' :: body => (false, body)
    | body => (false, body)
  let groups := body.splitOn '_'
  let digits := groups.flatten
  if (groups.all fun g => !g.isEmpty && g.all Pattern.isDecimal) && digits.length ≤ 4300 then
    some (if negative then -decimal digits else decimal digits)
  else none

/-- `split` at blanks. -/
def split (text : List Char) : List (List Char) := (text.splitOnP Pattern.isSpace).filter (!·.isEmpty)

def strip (text : List Char) : List Char := (text.dropWhile Pattern.isSpace).rdropWhile Pattern.isSpace

structure StatInfo where
  comm : List Char
  state : List Char
  starttime : ℤ
  deriving DecidableEq, Repr

/-- `_read_stat`: the name of the thread may hold anything, so it ends at the last
parenthesis. -/
def readStat : Except ProcExc (List UInt8) → Option StatInfo
  | .error _ => none
  | .ok bytes =>
    let raw := decode bytes
    let close := raw.length - 1 - raw.reverse.idxOf ')'
    let openParen := raw.idxOf '('
    if ')' ∉ raw ∨ '(' ∉ raw ∨ close < openParen then none
    else do
      let rest := split (raw.drop (close + 2))
      let state ← rest[0]?
      -- fewer than twenty fields are refused
      let starttime ← rest[19]? >>= int?
      return { comm := (raw.take close).drop (openParen + 1), state, starttime }

example : readStat (.ok (ascii "7 (a) S (b) D 1 7 7 0 -1 0 0 0 0 0 0 0 0 0 20 0 1 0 100 0")) =
    some ⟨"a) S (b".toList, ['D'], 100⟩ := by decide +kernel

/-- `WCHAN_DENIED`, which no kernel symbol equals. -/
def wchanDenied : List Char := Char.ofNat 0 :: "denied".toList

/-- `_read_wchan` -/
def readWchan : Except ProcExc (List UInt8) → List Char
  | .error .permission => wchanDenied
  | .error _ => []
  | .ok bytes =>
    let value := strip (decode bytes)
    if value = ['0'] then [] else value

/-! ### The census -/

/-- What a thread is timed under: its number, and when it started. -/
abbrev TaskKey := String × ℤ

structure DStateCensus where
  stuckSeconds : ℚ
  gpuPrefixes : List (List Char)
  gpuWchan : List (List Char) := []
  since : TaskKey → Option ℚ := fun _ => none

structure Offender where
  tid : ℕ
  pid : ℕ
  comm : List Char
  wchan : List Char
  wchanDenied : Bool
  seconds : ℚ
  gpuWorker : Bool
  deriving DecidableEq, Repr

/-- What a pass reports. -/
structure DStateReport where
  total : ℕ := 0
  stuck : ℕ := 0
  gpuTotal : ℕ := 0
  gpuStuck : ℕ := 0
  maxSeconds : ℚ := 0
  gpuMaxSeconds : ℚ := 0
  readable : Bool
  offenders : List Offender := []
  wchanDenied : ℕ := 0
  deriving DecidableEq, Repr

/-- `_is_gpu_task`: where a thread is blocked says more than its name. -/
def DStateCensus.isGpuTask (census : DStateCensus) (comm wchan : List Char) : Bool :=
  if wchan ≠ [] ∧ wchan ≠ Agent.wchanDenied then census.gpuWchan.any (· <:+: wchan)
  else census.gpuPrefixes.any (· <+: comm)

/-- `_iter_tasks`: the threads of a process, none if they cannot be listed. -/
def iterTasks (process : ProcEntry) : List TaskEntry :=
  match process.task with
  | .error _ => []
  | .ok tasks => tasks.filter (isdigit ·.tid)

/-- A thread in state D. -/
structure Sleeper where
  pid : String
  tid : String
  starttime : ℤ
  comm : List Char
  wchan : List Char
  deriving DecidableEq, Repr

def Sleeper.key (s : Sleeper) : TaskKey := (s.tid, s.starttime)

/-- What a pass makes of a thread: nothing, unless its state reads as D. -/
def sleeper? (pid : String) (task : TaskEntry) : Option Sleeper :=
  match readStat task.stat with
  | none => none
  | some info =>
    if info.state ≠ ['D'] then none
    else some { pid, tid := task.tid, starttime := info.starttime, comm := info.comm, wchan := readWchan task.wchan }

/-- The locals of `collect` while it goes over the threads. -/
@[ext] structure Tally where
  since : TaskKey → Option ℚ
  seen : List TaskKey := []
  total : ℕ := 0
  stuck : ℕ := 0
  gpuTotal : ℕ := 0
  gpuStuck : ℕ := 0
  wchanDenied : ℕ := 0
  maxSecs : ℚ := 0
  gpuMaxSecs : ℚ := 0
  offenders : List Offender := []

/-- Count a thread in state D. -/
def DStateCensus.note (census : DStateCensus) (now : ℚ) (tally : Tally) (s : Sleeper) : Tally :=
  let first := (tally.since s.key).getD now
  let secs := now - first
  let denied := decide (s.wchan = Agent.wchanDenied)
  let isGpu := census.isGpuTask s.comm s.wchan
  let isStuck := decide (census.stuckSeconds ≤ secs)
  { since := Function.update tally.since s.key (some first)
    seen := tally.seen ++ [s.key]
    total := tally.total + 1
    stuck := tally.stuck + if isStuck then 1 else 0
    gpuTotal := tally.gpuTotal + if isGpu then 1 else 0
    gpuStuck := tally.gpuStuck + if isStuck && isGpu then 1 else 0
    wchanDenied := tally.wchanDenied + if denied then 1 else 0
    maxSecs := max tally.maxSecs secs
    gpuMaxSecs := if isGpu then max tally.gpuMaxSecs secs else tally.gpuMaxSecs
    offenders := tally.offenders ++ if isStuck then
      [{ tid := decimal s.tid.toList, pid := decimal s.pid.toList, comm := s.comm
         wchan := if denied then [] else s.wchan
         wchanDenied := denied, seconds := roundTenth secs, gpuWorker := isGpu }]
      else [] }

/-- The turn of the loops of `collect` for a thread. -/
def DStateCensus.scanTask (census : DStateCensus) (now : ℚ) (pid : String) (tally : Tally) (task : TaskEntry) :
    Tally :=
  match sleeper? pid task with
  | none => tally
  | some s => census.note now tally s

/-- `collect`, at a time and by what listing /proc gives: the report, and what the
census remembers. -/
def DStateCensus.collect (census : DStateCensus) (now : ℚ) :
    Except ProcExc (List ProcEntry) → DStateReport × DStateCensus
  | .error _ => ({ readable := false }, census)
  | .ok entries =>
    let tally := (entries.filter (isdigit ·.pid)).foldl
      (fun tally process => (iterTasks process).foldl (census.scanTask now process.pid) tally) { since := census.since }
    ({ total := tally.total
       stuck := tally.stuck
       gpuTotal := tally.gpuTotal
       gpuStuck := tally.gpuStuck
       maxSeconds := roundTenth tally.maxSecs
       gpuMaxSeconds := roundTenth tally.gpuMaxSecs
       readable := true
       offenders := (tally.offenders.mergeSort fun o o' => o'.seconds ≤ o.seconds).take 20
       wchanDenied := tally.wchanDenied },
     -- threads that were not seen are forgotten
     { census with since := fun key => if key ∈ tally.seen then tally.since key else none })

end GpuNodeHealth.Agent
