import GpuNodeHealth.Agent.DState
import GpuNodeHealth.Text.Search
import GpuNodeHealth.Text.Splitlines

/-! What the stress recorder makes of the guard's metrics: the view of one node, taken
from the text with string operations. -/

namespace GpuNodeHealth.Tools

open Agent (strip)
open Text

structure View where
  reason : List Char := ['?']
  level : List Char := ['?']
  cordons : List Char := ['?']
  capacity : List Char := ['?']
  loopErrors : List Char := ['?']
  eventErrors : List Char := ['?']
  deriving DecidableEq, Repr

/-- What stands between the first two quotes behind a label, if it is in the key. Without
a quote behind it this is an `IndexError`. -/
def field (label key old : List Char) : Option (List Char) :=
  match after? label key with
  | none => some old
  | some rest => (rest.splitOn '"')[1]?

/-- The label of a node. -/
def nodeLabel (node : List Char) : List Char := "node=".toList ++ '"' :: (node ++ ['"'])

/-- One series with its value. -/
def readSeries (node : List Char) (view : View) (key val : List Char) : Option View :=
  if "gpuguard_decision\x7b".toList <+: key ∧ (after? (nodeLabel node) key).isSome then
    -- only the active decision carries 1
    if strip val ∈ ["1".toList, "1.0".toList] then do
      let reason ← field "reason=".toList key view.reason
      let level ← field "level=".toList key view.level
      some { view with reason, level }
    else some view
  else if key = "gpuguard_cordons_total".toList then some { view with cordons := strip val }
  else if key = "gpuguard_healthy_capacity".toList then some { view with capacity := strip val }
  else if key = "gpuguard_loop_errors_total".toList then some { view with loopErrors := strip val }
  else if key = "gpuguard_event_errors_total".toList then some { view with eventErrors := strip val }
  else some view

def readLine (node : List Char) (view : View) (line : List Char) : Option View :=
  if line.head? = some '#' ∨ ' ' ∉ line then some view
  else readSeries node view (rpartition ' ' line).1 (rpartition ' ' line).2

/-- `guard_view` -/
def guardView (text node : List Char) : Option View :=
  if text = [] then some {} else (splitlines text).foldlM (readLine node) {}

end GpuNodeHealth.Tools
