import GpuNodeHealth.Metrics.Grammar
import GpuNodeHealth.Metrics.Numbers

/-! A registry of lines, as both programs render their metrics: a family is declared
where it is first used, and every use adds a sample. What such lines are read as. -/

namespace GpuNodeHealth.Metrics

open Text

/-! ### Writing -/

/-- What `metric` is called with. -/
structure Metric where
  name : String
  value : Number
  labels : List (String × String) := []
  mtype : String := "gauge"
  helpText : String := ""
  deriving DecidableEq, Repr

def Metric.labelSet (m : Metric) : List Label := m.labels.map fun (k, v) => (k.toList, v.toList)

/-- What `metric` makes of it: the family, and the line of the sample. -/
structure Entry where
  full : List Char
  mtype : List Char
  helpText : List Char
  line : List Char
  deriving DecidableEq, Repr

structure Registry where
  lines : List (List Char) := []
  declared : List (List Char) := []
  deriving DecidableEq, Repr

def Entry.declaration (e : Entry) : List (List Char) :=
  (if e.helpText = [] then [] else ["# HELP ".toList ++ (e.full ++ ' ' :: e.helpText)]) ++
    ["# TYPE ".toList ++ (e.full ++ ' ' :: e.mtype)]

def Registry.write (r : Registry) (e : Entry) : Registry :=
  if e.full ∈ r.declared then { r with lines := r.lines ++ [e.line] }
  else { lines := r.lines ++ (e.declaration ++ [e.line]), declared := r.declared ++ [e.full] }

def Registry.text (r : Registry) : List Char := ['\n'].intercalate r.lines ++ ['\n']

/-- The line of a sample; without labels it has no braces. -/
def sampleLine (full : List Char) (labels : List Label) (value : List Char) : List Char :=
  let rendered := [','].intercalate (labels.map renderLabel)
  full ++ ((if rendered = [] then [] else '{' :: (rendered ++ ['}'])) ++ ' ' :: value)

/-- A call of `metric`, by the full name of the family and the labels of the line. -/
def Metric.entry (m : Metric) (full : List Char) (labels : List Label) : Entry where
  full
  mtype := m.mtype.toList
  helpText := m.helpText.toList
  line := sampleLine full labels m.value.str

/-- The lines that some entries come to, where some families are declared already. -/
def written : List (List Char) → List Entry → List (List Char)
  | _, [] => []
  | declared, e :: es =>
    if e.full ∈ declared then e.line :: written declared es
    else e.declaration ++ e.line :: written (declared ++ [e.full]) es

variable {e : Entry} {es : List Entry} {declared : List (List Char)} {name full value rest : List Char}
  {labels : List Label}

theorem lines_foldl (r : Registry) (es : List Entry) :
    (es.foldl Registry.write r).lines = r.lines ++ written r.declared es := by
  induction es generalizing r with
  | nil => exact (List.append_nil _).symm
  | cons e es ih =>
    rw [List.foldl_cons, ih, Registry.write, written]
    split_ifs
    · rw [List.append_assoc, List.singleton_append]
    · rw [List.append_assoc, List.append_assoc, List.singleton_append]

/-- Every line with its newline. -/
theorem text_eq {r : Registry} (h : r.lines ≠ []) : r.text = r.lines.flatMap (· ++ ['\n']) := by
  rw [Registry.text]
  generalize r.lines = lines at h
  induction lines with
  | nil => exact absurd rfl h
  | cons line lines ih =>
    cases lines with
    | nil => simp
    | cons line' lines =>
      have hrest := ih (List.cons_ne_nil _ _)
      rw [List.intercalate_cons_cons, List.flatMap_cons, ← hrest, List.append_assoc, List.append_assoc]

/-- Cut at newlines, whatever the lines are. -/
theorem splitOn_flatMap (lines : List (List Char)) :
    (lines.flatMap (· ++ ['\n'])).splitOn '\n' = lines.flatMap (List.splitOn '\n') ++ [[]] := by
  induction lines with
  | nil => rfl
  | cons line lines ih =>
    rw [List.flatMap_cons, List.flatMap_cons, List.append_assoc, List.singleton_append,
      List.splitOn_append_cons_self, ih, List.append_assoc]

theorem flatMap_splitOn {lines : List (List Char)} (h : ∀ line ∈ lines, '\n' ∉ line) :
    lines.flatMap (List.splitOn '\n') = lines := by
  rw [List.flatMap_congr fun line hline => List.splitOn_eq_singleton (h line hline), List.flatMap_singleton']

/-- The lines of a text come back. -/
theorem lines?_flatMap {lines : List (List Char)} (h : ∀ line ∈ lines, '\n' ∉ line) :
    lines? (lines.flatMap (· ++ ['\n'])) = some lines := by
  unfold lines?
  rw [splitOn_flatMap, flatMap_splitOn h]
  simp

/-! ### Reading a line -/

section Reading

variable {β : Type*} {readValue : List Char → Option β} {v : β} {s : Sample β}

theorem numeral_blank {c : Char} (h : numeralChar c = true) : isBlank c = false ∧ c ≠ '{' ∧ c ≠ '\n' :=
  ⟨class_blank h rfl rfl, class_ne h rfl, class_ne h rfl⟩

theorem wordChar_numeral {c : Char} (h : numeralChar c = true) : WordChar c := by
  have hother : ∀ c ∈ ['-', '+', '.', 'e', 'i', 'n', 'f', 'a'], WordChar c := by decide
  rw [numeralChar, Bool.or_eq_true, decide_eq_true_eq] at h
  exact h.elim wordChar_digit (hother c)

/-- The line of a sample is read as the sample. -/
theorem line?_sampleLine (hfull : isName full = true) (hlabels : ∀ label ∈ labels, isKey label.1 = true)
    (h : ∀ c ∈ value, numeralChar c = true) (hne : value ≠ []) (hread : readValue value = some v) :
    line? readValue (sampleLine full labels value) = some (.sample { name := full, labels, value := v }) := by
  let s : SampleSyntax readValue := {
    lead := noBlanks
    name := full
    named := hfull
    set := if labels = [] then none else some (.tight labels hlabels)
    gap := oneBlank
    apart := fun _ => by decide
    value
    number := v
    valued := hread
    timestamp := none
    trail := noBlanks }
  have hparts : s.render = sampleLine full labels value ∧ s.sample = { name := full, labels, value := v } := by
    by_cases hlabels' : labels = []
    · have hset : s.set = none := if_pos hlabels'
      rw [SampleSyntax.render, SampleSyntax.sample, hset, sampleLine, hlabels']
      exact ⟨by simp [s, SampleSyntax.tail, SampleSyntax.rest, noBlanks, oneBlank], rfl⟩
    · have hset : s.set = some (.tight labels hlabels) := if_neg hlabels'
      rw [SampleSyntax.render, SampleSyntax.sample, hset, sampleLine, if_neg (mt intercalate_render_eq_nil.mp hlabels')]
      dsimp only
      rw [LabelSet.inside_tight, Option.map_some, LabelSet.pairs_tight]
      exact ⟨by simp [s, SampleSyntax.tail, SampleSyntax.rest, LabelSet.tight, noBlanks, oneBlank], rfl⟩
  obtain ⟨hrender, hsample⟩ := hparts
  rw [← hrender, s.line?_render ⟨hne, fun c hc => wordChar_numeral (h c hc)⟩, hsample]

end Reading

end GpuNodeHealth.Metrics
