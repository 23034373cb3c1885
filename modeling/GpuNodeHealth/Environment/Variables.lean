import GpuNodeHealth.Agent.DState
import GpuNodeHealth.Text.Search

/-! Settings from environment variables. A variable that is not set has its default, and
so has a number that is not one; a switch that is set is on for four words only. -/

namespace GpuNodeHealth.Environment

open Agent (int? strip)

/-- The environment of a process. -/
abbrev Variables := String → Option String

def getenv (env : Variables) (name default : String) : String := (env name).getD default

/-- `str.lower`. The words it is compared with are of ASCII letters, and no other letter
becomes one of these. -/
def lower (text : List Char) : List Char := text.map Char.toLower

/-- `_int` -/
def intOf (env : Variables) (name : String) (default : ℤ) : ℤ :=
  (int? (strip (getenv env name (toString default)).toList)).getD default

/-- `_bool` -/
def boolOf (env : Variables) (name : String) (default : Bool) : Bool :=
  match env name with
  | none => default
  | some raw => lower (strip raw.toList) ∈ ["1", "true", "yes", "on"].map String.toList

/-- The parts of a text between commas, without blanks around them; empty ones are dropped. -/
def listOf (env : Variables) (name default : String) : List String :=
  ((((getenv env name default).toList.splitOn ',').map strip).filter (!·.isEmpty)).map String.ofList

end GpuNodeHealth.Environment
