import GpuNodeHealth.Text.Search
import Mathlib.Data.List.Nodup

/-! A reader of the text exposition format, version 0.0.4. A text consists of lines, each
with a newline; a line is blank, a comment, the help or the type of a family, or a
sample. Blanks and tabs may stand between the tokens. What the text of a value means is
up to a parameter. -/

namespace GpuNodeHealth.Metrics

open Text

/-! ### Lines -/

abbrev Label := List Char × List Char

structure Sample (β : Type*) where
  name : List Char
  labels : List Label
  value : β
  timestamp : Option (List Char) := none
  deriving DecidableEq, Repr

inductive Line (β : Type*) where
  | blank
  | comment
  | help (name doc : List Char)
  | type (name kind : List Char)
  | sample (s : Sample β)
  deriving DecidableEq, Repr

/-! ### Tokens -/

def isBlank (c : Char) : Bool := c = ' ' || c = '\t'

def skip (text : List Char) : List Char := text.dropWhile isBlank

/-- What stands up to the next blank, and the rest. -/
def token (text : List Char) : List Char × List Char := text.span (!isBlank ·)

def keyStart (c : Char) : Bool := ('a' ≤ c && c ≤ 'z') || ('A' ≤ c && c ≤ 'Z') || c = '_'

def keyChar (c : Char) : Bool := keyStart c || ('0' ≤ c && c ≤ '9')

def nameStart (c : Char) : Bool := keyStart c || c = ':'

def nameChar (c : Char) : Bool := keyChar c || c = ':'

/-- The name of a label. -/
def isKey (name : List Char) : Bool := name.head?.any keyStart && name.all keyChar

/-- The name of a metric. -/
def isName (name : List Char) : Bool := name.head?.any nameStart && name.all nameChar

/-! ### Label sets -/

/-- A value up to its quote; a backslash, a quote and a newline are escaped in it. -/
def labelValue : List Char → Option (List Char × List Char)
  | [] => none
  | '"' :: rest => some ([], rest)
  | '\\' :: '\\' :: rest => (labelValue rest).map fun (v, tail) => ('\\' :: v, tail)
  | '\\' :: '"' :: rest => (labelValue rest).map fun (v, tail) => ('"' :: v, tail)
  | '\\' :: 'n' :: rest => (labelValue rest).map fun (v, tail) => ('\n' :: v, tail)
  | '\\' :: _ => none
  | c :: rest => (labelValue rest).map fun (v, tail) => (c :: v, tail)

def label? (text : List Char) : Option (Label × List Char) :=
  let (name, rest) := text.span keyChar
  let rest := skip rest
  if isKey name && rest.head? = some '=' then
    let rest := skip rest.tail
    if rest.head? = some '"' then (labelValue rest.tail).map fun (v, tail) => ((name, v), tail) else none
  else none

/-- The labels up to the brace, at most so many; a comma may follow the last one. -/
def labels? : ℕ → List Char → Option (List Label × List Char)
  | 0, _ => none
  | fuel + 1, text =>
    let text := skip text
    if text.head? = some '}' then some ([], text.tail)
    else do
      let (label, rest) ← label? text
      let rest := skip rest
      if rest.head? = some '}' then some ([label], rest.tail)
      else if rest.head? = some ',' then
        let (labels, rest) ← labels? fuel rest.tail
        some (label :: labels, rest)
      else none

/-! ### Samples -/

section Reading

variable {β : Type*} (readValue : List Char → Option β)

/-- Milliseconds since the epoch. -/
def isTimestamp (text : List Char) : Bool :=
  let digits := if text.head? = some '-' ∨ text.head? = some '+' then text.tail else text
  !digits.isEmpty && digits.all Char.isDigit

/-- What follows the name and the labels: a value, and perhaps a timestamp. -/
def sampleEnd (name : List Char) (labels : List Label) (text : List Char) : Option (Sample β) :=
  let (word, rest) := token (skip text)
  let (stamp, rest') := token (skip rest)
  if word = [] || skip rest' ≠ [] then none
  else if stamp = [] then (readValue word).map fun value => { name, labels, value }
  else if isTimestamp stamp then (readValue word).map fun value => { name, labels, value, timestamp := some stamp }
  else none

def sample? (text : List Char) : Option (Sample β) :=
  let (name, rest) := text.span nameChar
  if isName name then
    let rest := skip rest
    if rest.head? = some '{' then
      (labels? rest.length rest.tail).bind fun (labels, rest) => sampleEnd readValue name labels rest
    else sampleEnd readValue name [] rest
  else none

/-- The types there are. -/
def kinds : List (List Char) := ["counter", "gauge", "histogram", "summary", "untyped"].map String.toList

/-- A line that starts with a hash. -/
def comment? (text : List Char) : Option (Line β) :=
  let (word, rest) := token (skip text)
  let (name, rest) := token (skip rest)
  if word = "HELP".toList then
    if isName name then some (.help name (skip rest)) else none
  else if word = "TYPE".toList then
    let (kind, rest) := token (skip rest)
    if isName name && kind ∈ kinds && skip rest = [] then some (.type name kind) else none
  else some .comment

def line? (text : List Char) : Option (Line β) :=
  let text := skip text
  if text = [] then some .blank
  else if text.head? = some '#' then comment? text.tail
  else (sample? readValue text).map .sample

/-- The lines of a text; the last one has a newline as well. -/
def lines? (text : List Char) : Option (List (List Char)) :=
  let pieces := text.splitOn '\n'
  if pieces.getLast? = some [] then some pieces.dropLast else none

def parse (text : List Char) : Option (List (Line β)) := (lines? text).bind fun lines => lines.mapM (line? readValue)

end Reading

/-! ### What the lines are about -/

section Families

variable {β : Type*}

def Line.sample? : Line β → Option (Sample β)
  | sample s => some s
  | _ => none

/-- The family a line belongs to. -/
def Line.family? : Line β → Option (List Char)
  | blank => none
  | comment => none
  | help name _ => some name
  | type name _ => some name
  | sample s => some s.name

/-- It gives the type of a family. -/
def Line.types (name : List Char) : Line β → Bool
  | type name' _ => name' = name
  | _ => false

/-- The labels as a map. -/
def Sample.labelMap (s : Sample β) (key : List Char) : Option (List Char) := s.labels.lookup key

/-- The families of the lines of a text that belong to one, in order. -/
def families (text : List Char) : List (List Char) :=
  (text.splitOn '\n').filterMap fun line => (line? some line).bind Line.family?

end Families

end GpuNodeHealth.Metrics
