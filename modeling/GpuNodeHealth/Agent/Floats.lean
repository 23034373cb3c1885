import GpuNodeHealth.Agent.DState
import Mathlib.Data.Int.Log

/-! Python's `float`: what it reads from a text without blanks, and the double it
rounds to. -/

namespace GpuNodeHealth.Agent

open Text
open Guard (roundHalfEven)

inductive Double where
  | finite (q : ℚ)
  | infinity (negative : Bool)
  | nan
  deriving DecidableEq, Repr

namespace Double

/-- The double nearest to a number, ties to even; beyond the largest it is infinite. -/
def round (q : ℚ) : Double :=
  if q = 0 then finite 0
  else
    let exponent := max (Int.log 2 |q|) (-1022)
    let ulp : ℚ := 2 ^ (exponent - 52)
    let size := roundHalfEven (|q| / ulp) * ulp
    if 2 ^ 1024 ≤ size then infinity (q < 0)
    else finite (if q < 0 then -size else size)

/-- `value >= 1.0`, which no NaN is. -/
def atLeastOne : Double → Bool
  | finite q => 1 ≤ q
  | infinity negative => !negative
  | nan => false

/-- `value < 1.0`, which no NaN is either. -/
def belowOne : Double → Bool
  | finite q => q < 1
  | infinity negative => negative
  | nan => false

def isInfinite : Double → Bool
  | infinity _ => true
  | _ => false

end Double

/-- The digits of a part of a number; single underscores may stand between digits. -/
def digits? (text : List Char) : Option (List Char) :=
  if text = [] then some []
  else
    let groups := text.splitOn '_'
    if groups.all fun g => !g.isEmpty && g.all Pattern.isDecimal then some groups.flatten else none

/-- The sign in front of a text, and the rest. -/
def signed : List Char → Bool × List Char
  | '-' :: body => (true, body)
  | '+' :: body => (false, body)
  | body => (false, body)

/-- An exponent with its `e`; there need not be one. -/
def exponent? : List Char → Option ℤ
  | [] => some 0
  | _ :: text => do
    let (negative, body) := signed text
    let digits ← digits? body
    guard (digits ≠ [])
    return if negative then -(decimal digits : ℤ) else decimal digits

/-- A number in decimal notation, without its sign. -/
def number? (text : List Char) : Option ℚ := do
  let (mantissa, power) := text.span fun c => c ≠ 'e' && c ≠ 'E'
  let (whole, fraction) := mantissa.span (· ≠ '.')
  let whole ← digits? whole
  let fraction ← digits? (fraction.drop 1)
  guard (whole ++ fraction ≠ [])
  let power ← exponent? power
  return decimal (whole ++ fraction) * 10 ^ (power - fraction.length)

/-- `float`; nothing where it raises a ValueError. -/
def float? (text : List Char) : Option Double :=
  let (negative, body) := signed text
  let word := body.map Char.toLower
  if word = "inf".toList ∨ word = "infinity".toList then some (.infinity negative)
  else if word = "nan".toList then some .nan
  else (number? body).map fun q => .round (if negative then -q else q)

example : float? "-1_0.5e-1".toList = some (.finite (-4728779608739021 / 4503599627370496)) := by decide +kernel
example : float? "0.99999999999999999".toList = some (.finite 1) := by decide +kernel
example : float? "1e999".toList = some (.infinity false) := by decide +kernel
example : float? "0x1p0".toList = none := by decide +kernel

end GpuNodeHealth.Agent
