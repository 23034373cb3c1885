import GpuNodeHealth.Agent.Evaluator
import GpuNodeHealth.Files.FileSystem
import GpuNodeHealth.Interaction.Method

/-! The watcher that follows the kernel logs and counts the lines that match a
rule. It pumps every path in turn: it compares the file at the path with the one
it has open, drains and reopens when the file was rotated, reopens when it was
cut, and reads to the end. -/

namespace GpuNodeHealth.Agent

open Files Text Interaction

/-! ### The file system, as the watcher sees it -/

structure Stat where
  file : FileId
  size : ℕ
  deriving DecidableEq, Repr

/-- What the watcher asks of the system; `openFile` is `open` and `fstat`, `sizeOf`
what seeking to the end finds, `readRest` what is read up to the end. -/
inductive FileReq where
  | stat (path : String)
  | openFile (path : String)
  | sizeOf (file : FileId)
  | readRest (file : FileId) (pos : ℕ)
  deriving DecidableEq, Repr

abbrev FileAns : FileReq → Type
  | .stat _ => Stat
  | .openFile _ => FileId
  | .sizeOf _ => ℕ
  | .readRest .. => List UInt8

/-- The exceptions of file operations; only those that are OSErrors are expected. -/
inductive FileExc where
  | fileNotFound
  | permission
  | otherOS (text : String)
  | valueError (text : String)
  deriving DecidableEq, Repr

def FileExc.isOSError : FileExc → Bool
  | .valueError _ => false
  | _ => true

abbrev FileApi : Interface := Fallible FileReq FileExc FileAns

/-! ### The watcher -/

/-- The watcher, with the table of open files that `_run` keeps. -/
structure KernelLogWatcher where
  paths : List String
  fromStart : Bool := false
  counts : Rule → ℕ := fun _ => 0
  lastHit : Rule → Option (ℚ × String) := fun _ => none
  filesOk : String → Option Bool := fun _ => none
  handles : String → Option Handle := fun _ => none

def KernelLogWatcher.setHandle (watcher : KernelLogWatcher) (path : String) (fh : Handle) : KernelLogWatcher :=
  { watcher with handles := Function.update watcher.handles path (some fh) }

/-- The rule a line of a file counts under. -/
def ruleOfBytes (line : List UInt8) : Option Rule := ruleOf (decode line)

/-- `_match`: the first rule that matches takes the line. -/
def KernelLogWatcher.matchLine (now : ℚ) (watcher : KernelLogWatcher) (line : List UInt8) : KernelLogWatcher :=
  match ruleOfBytes line with
  | none => watcher
  | some rule =>
    let text := decode line
    { watcher with
      counts := Function.update watcher.counts rule (watcher.counts rule + 1)
      lastHit := Function.update watcher.lastHit rule
        (some (now, String.ofList (text.drop (text.length - 400)))) }

/-- `_consume`: match every line up to the end of the file. -/
def consume (path : String) (now : ℚ) : Method FileApi FileExc KernelLogWatcher Unit := do
  let watcher ← get
  match watcher.handles path with
  | none => return ()
  | some fh =>
    let bytes : List UInt8 ← Method.request (FileReq.readRest fh.file fh.pos)
    modify fun w => ((lines bytes).foldl (KernelLogWatcher.matchLine now) w).setHandle path
      { fh with pos := fh.pos + bytes.length }

/-- Open the file at a path; at first sight its backlog is skipped. -/
def reopen (path : String) : Method FileApi FileExc KernelLogWatcher Unit := do
  let file : FileId ← Method.request (FileReq.openFile path)
  let watcher ← get
  if !watcher.fromStart && (watcher.handles path).isNone then
    let size : ℕ ← Method.request (FileReq.sizeOf file)
    modify fun w => w.setHandle path { file, pos := size }
  else
    modify fun w => w.setHandle path { file }

/-- `_pump`. The table keeps the old file, closed, until another one is open; a
closed file does not tell its position. -/
def pump (path : String) (now : ℚ) : Method FileApi FileExc KernelLogWatcher Unit := do
  let st : Stat ← Method.request (FileReq.stat path)
  let watcher ← get
  match watcher.handles path with
  | none =>
    reopen path
    consume path now
  | some fh =>
    if fh.closed then throw (.valueError "I/O operation on closed file.")
    else if fh.file ≠ st.file then
      -- drain what is left of the old file before letting go of it
      consume path now
      modify fun w => w.setHandle path { (w.handles path).getD fh with closed := true }
      reopen path
      consume path now
    else if st.size < fh.pos then
      modify fun w => w.setHandle path { fh with closed := true }
      reopen path
      consume path now
    else
      consume path now

/-- One turn of the loop of `_run` over the paths. -/
def runPath (path : String) (now : ℚ) : Method FileApi FileExc KernelLogWatcher Unit := do
  let ok ← tryCatch (do
    pump path now
    return true) fun exc => if exc.isOSError then return false else throw exc
  modify fun w => { w with filesOk := Function.update w.filesOk path (some ok) }

/-- `snapshot` -/
def KernelLogWatcher.snapshot (watcher : KernelLogWatcher) : KernlogSignal where
  counts rule := watcher.counts rule
  lastHit := watcher.lastHit
  filesOk := watcher.paths.dedup.filterMap fun path => (watcher.filesOk path).map fun ok => (path, ok)

end GpuNodeHealth.Agent
