import GpuNodeHealth.Agent.Collector
import GpuNodeHealth.Agent.Floats
import GpuNodeHealth.Metrics.Format
import GpuNodeHealth.Text.Splitlines

/-! What the probe makes of the exporter's metrics. The body is split into lines; a
line that two regular expressions take for a sample counts if it is about the health
of a card or the number of cards. What follows the request stands outside of the
`try`, so an exception there ends the pass of the collector. -/

namespace GpuNodeHealth.Agent

open Metrics (keyChar keyStart nameChar nameStart)
open Text

/-! ### Samples -/

structure Sample where
  name : List Char
  labels : List Char
  value : List Char
  deriving DecidableEq, Repr

/-- `\s+(\S+)\s*$` -/
def sampleTail (text : List Char) : Option (List Char) :=
  let rest := text.dropWhile Pattern.isSpace
  let value := rest.takeWhile (!Pattern.isSpace ·)
  if text.takeWhile Pattern.isSpace ≠ [] ∧ value ≠ [] ∧
      (rest.dropWhile (!Pattern.isSpace ·)).all Pattern.isSpace = true then some value
  else none

/-- `(.*)\}` and the tail: the labels reach up to the last brace that a tail follows. -/
def labelsValue : List Char → Option (List Char × List Char)
  | [] => none
  | c :: rest =>
    match if c = '\n' then none else labelsValue rest with
    | some (labels, value) => some (c :: labels, value)
    | none => if c = '}' then (sampleTail rest).map fun value => ([], value) else none

/-- `_SAMPLE.match` -/
def sample? (line : List Char) : Option Sample :=
  if line.head?.any nameStart then
    match line.dropWhile nameChar with
    | '{' :: rest => (labelsValue rest).map fun (labels, value) => ⟨line.takeWhile nameChar, labels, value⟩
    | _ => none
  else none

/-! ### Labels -/

/-- `((?:[^"\\]|\\.)*)"` and what is left. -/
def quoted : List Char → Option (List Char × List Char)
  | [] => none
  | '"' :: rest => some ([], rest)
  | '\\' :: [] => none
  | '\\' :: c :: rest => if c = '\n' then none else (quoted rest).map fun (v, tail) => ('\\' :: c :: v, tail)
  | c :: rest => (quoted rest).map fun (v, tail) => (c :: v, tail)

/-- A match of `_LABEL` at the start of a text, and what is left. -/
def labelAt (text : List Char) : Option ((List Char × List Char) × List Char) :=
  if text.head?.any keyStart then
    match text.dropWhile keyChar with
    | '=' :: '"' :: rest => (quoted rest).map fun (v, tail) => ((text.takeWhile keyChar, v), tail)
    | _ => none
  else none

/-- `_LABEL.finditer`, after so many characters that belong to the match before. -/
def labelsFrom : ℕ → List Char → List (List Char × List Char)
  | _, [] => []
  | n + 1, _ :: rest => labelsFrom n rest
  | 0, c :: rest =>
    match labelAt (c :: rest) with
    | some (label, tail) => label :: labelsFrom (rest.length - tail.length) rest
    | none => labelsFrom 0 rest

/-- `replace('\\"', '"')` -/
def unquote : List Char → List Char
  | '\\' :: '"' :: rest => '"' :: unquote rest
  | c :: rest => c :: unquote rest
  | [] => []

/-- `_parse_labels`; of two labels with one name the later one is kept. -/
def parseLabels (raw : List Char) (key : String) : Option (List Char) :=
  ((labelsFrom 0 raw).reverse.find? fun label => label.1 = key.toList).map fun label => unquote label.2

/-! ### The body -/

/-- A card that is not healthy, and who has it. -/
structure Card extends UnhealthyGpu where
  container : String

def Card.ofLabels (labels : String → Option (List Char)) : Card where
  gpuId := ((labels "gpu_id").map String.ofList).getD "?"
  ns := ((labels "namespace").map String.ofList).getD ""
  pod := ((labels "pod").map String.ofList).getD ""
  container := ((labels "container").map String.ofList).getD ""

/-- What a line comes to. -/
inductive Reading where
  | nothing
  | total (n : ℤ)
  | overflow
  | healthy
  | unhealthy (card : Card)

/-- `int(float(text))`; a number that is no number raises a ValueError, an infinite
one an OverflowError. -/
def totalOf (text : List Char) : Reading :=
  match float? text with
  | none => .nothing
  | some .nan => .nothing
  | some (.infinity _) => .overflow
  | some (.finite q) => .total (if 0 ≤ q then ⌊q⌋ else ⌈q⌉)

def healthOf (sample : Sample) : Reading :=
  match float? sample.value with
  | none => .nothing
  | some value => if value.atLeastOne then .healthy else .unhealthy (.ofLabels (parseLabels sample.labels))

def gpuNodesTotal : List Char := "gpu_nodes_total".toList

def gpuHealth : List Char := "gpu_health".toList

def reading (line : List Char) : Reading :=
  if line.head? = some '#' ∨ line = [] then .nothing
  else match sample? line with
    | none => .nothing
    | some sample =>
      if sample.name = gpuNodesTotal then totalOf sample.value
      else if sample.name = gpuHealth then healthOf sample
      else .nothing

/-- The counts of `collect`. -/
structure Counts where
  gpuTotal : ℤ := 0
  healthy : ℕ := 0
  unhealthy : List Card := []

def Counts.note (counts : Counts) : Reading → Except Exc Counts
  | .nothing => .ok counts
  | .total n => .ok { counts with gpuTotal := n }
  | .overflow => .error (.other "cannot convert float infinity to integer")
  | .healthy => .ok { counts with healthy := counts.healthy + 1 }
  | .unhealthy card => .ok { counts with unhealthy := counts.unhealthy ++ [card] }

/-- `collect`, from the body on. -/
def readBody (body : List Char) : Except Exc Counts :=
  (splitlines body).foldlM (fun counts line => counts.note (reading line)) {}

/-- The result of `collect` for a response, as far as the conditions go. -/
def Counts.signal (counts : Counts) : ExporterSignal where
  reachable := some true
  gpuTotal := counts.gpuTotal
  healthy := counts.healthy
  unhealthy := counts.unhealthy.map Card.toUnhealthyGpu

def scraped (bytes : List UInt8) : Except Exc ExporterSignal := (readBody (decode bytes)).map Counts.signal

/-! ### What is counted -/

def Reading.isHealthy : Reading → Bool
  | .healthy => true
  | _ => false

def Reading.card? : Reading → Option Card
  | .unhealthy card => some card
  | _ => none

/-- The number of cards after a line that may tell it. -/
def Reading.totalAfter (total : ℤ) : Reading → ℤ
  | .total n => n
  | _ => total

/-- The number of cards that some lines tell last. -/
def toldTotal (lines : List (List Char)) : ℤ := lines.foldl (fun total line => (reading line).totalAfter total) 0

variable {lines : List (List Char)} {counts : Counts} {line : List Char} {bytes : List UInt8}

/-- Unless a line ends it, the body comes to the lines that read as healthy, the cards
of those that do not, and the number of cards told last. -/
theorem foldl_note (h : ∀ line ∈ lines, reading line ≠ .overflow) (counts : Counts) :
    lines.foldlM (fun counts line => counts.note (reading line)) counts =
      .ok ⟨lines.foldl (fun total line => (reading line).totalAfter total) counts.gpuTotal,
        counts.healthy + lines.countP fun line => (reading line).isHealthy,
        counts.unhealthy ++ lines.filterMap fun line => (reading line).card?⟩ := by
  induction lines generalizing counts with
  | nil => simp [pure, Except.pure]
  | cons line lines ih =>
    obtain ⟨hline, hlines⟩ := List.forall_mem_cons.mp h
    have hnote : counts.note (reading line) = .ok ⟨(reading line).totalAfter counts.gpuTotal,
        counts.healthy + (reading line).isHealthy.toNat, counts.unhealthy ++ (reading line).card?.toList⟩ := by
      cases hreading : reading line with
      | overflow => exact absurd hreading hline
      | nothing => simp [Counts.note, Reading.isHealthy, Reading.card?, Reading.totalAfter]
      | total n => simp [Counts.note, Reading.isHealthy, Reading.card?, Reading.totalAfter]
      | healthy => simp [Counts.note, Reading.isHealthy, Reading.card?, Reading.totalAfter]
      | unhealthy card => simp [Counts.note, Reading.isHealthy, Reading.card?, Reading.totalAfter]
    rw [List.foldlM_cons, hnote]
    refine (ih hlines _).trans ?_
    congr 2
    · rw [List.countP_cons, Nat.add_assoc, Nat.add_comm (Bool.toNat _)]
      cases (reading line).isHealthy <;> rfl
    · rw [List.append_assoc, List.filterMap_cons]
      cases (reading line).card? <;> rfl

/-- The counts of a body no line of which raises. -/
theorem readBody_eq {body : List Char} (h : ∀ line ∈ splitlines body, reading line ≠ .overflow) :
    readBody body = .ok ⟨toldTotal (splitlines body), (splitlines body).countP fun line => (reading line).isHealthy,
      (splitlines body).filterMap fun line => (reading line).card?⟩ := by
  rw [readBody, foldl_note h, Nat.zero_add, List.nil_append]
  rfl

theorem foldl_overflow (h : ∃ line ∈ lines, reading line = .overflow) (counts : Counts) :
    ∃ e, lines.foldlM (fun counts line => counts.note (reading line)) counts = .error e := by
  induction lines generalizing counts with
  | nil =>
    obtain ⟨line, hline, -⟩ := h
    cases hline
  | cons line lines ih =>
    rw [List.foldlM_cons]
    cases hnote : counts.note (reading line) with
    | error e => exact ⟨e, rfl⟩
    | ok between =>
      obtain ⟨line', hline', hoverflow⟩ := h
      rcases List.mem_cons.mp hline' with rfl | hline'
      · rw [hoverflow] at hnote
        cases hnote
      · exact ih ⟨line', hline', hoverflow⟩ between

theorem readBody_ok_iff {body : List Char} :
    (∃ counts, readBody body = .ok counts) ↔ ∀ line ∈ splitlines body, reading line ≠ .overflow := by
  constructor
  · rintro ⟨counts, hok⟩ line hline hoverflow
    obtain ⟨e, he⟩ := foldl_overflow ⟨line, hline, hoverflow⟩ {}
    rw [readBody, he] at hok
    cases hok
  · exact fun h => ⟨_, readBody_eq h⟩

theorem scraped_ok_iff :
    (∃ signal, scraped bytes = .ok signal) ↔ ∀ line ∈ splitlines (decode bytes), reading line ≠ .overflow := by
  rw [← readBody_ok_iff, scraped]
  cases readBody (decode bytes) with
  | error e => exact ⟨nofun, nofun⟩
  | ok counts => exact ⟨fun _ => ⟨counts, rfl⟩, fun _ => ⟨_, rfl⟩⟩

theorem reading_none (h : sample? line = none) : reading line = .nothing := by
  rw [reading, h]
  split_ifs <;> rfl

theorem reading_sample {sample : Sample} (h : sample? line = some sample) : reading line =
    if sample.name = gpuNodesTotal then totalOf sample.value
    else if sample.name = gpuHealth then healthOf sample
    else .nothing := by
  rw [reading, if_neg, h]
  -- neither a comment nor an empty line is a sample
  rintro (hhash | rfl)
  · rw [sample?, hhash] at h
    cases h
  · cases h

/-- An exception comes of an infinite number of cards alone. -/
theorem reading_overflow_iff : reading line = .overflow ↔ ∃ sample value, sample? line = some sample ∧
    sample.name = gpuNodesTotal ∧ float? sample.value = some value ∧ value.isInfinite = true := by
  have hhealth : ∀ sample, healthOf sample ≠ .overflow := by
    intro sample
    unfold healthOf
    cases float? sample.value with
    | none => nofun
    | some value =>
      dsimp only
      split_ifs <;> nofun
  have htotal : ∀ text, totalOf text = .overflow ↔ ∃ value, float? text = some value ∧ value.isInfinite = true := by
    intro text
    unfold totalOf
    cases float? text with
    | none => simp
    | some value => cases value <;> simp [Double.isInfinite]
  cases hsample : sample? line with
  | none => simp [reading_none hsample]
  | some sample =>
    rw [reading_sample hsample]
    split_ifs with hname hname'
    · simp [htotal, hname]
    · simp [hhealth, hname]
    · simp [hname]

/-- The pass of a collector that asks every source, of which the others answer. -/
def passWith (now : ℚ) (kernlog : KernlogSignal) (dstate : DStateSignal) (bytes : List UInt8) (patch : PatchSignal) :
    Pass :=
  ⟨now, .ok kernlog, .ok dstate, scraped bytes, .ok patch⟩

/-- A response is taken without an exception, and the pass evaluates what the other
sources tell, exactly if no line of it gives an infinite number of cards. -/
theorem scrape_survived_iff (bytes : List UInt8) :
    (∃ signal, scraped bytes = .ok signal ∧ ∀ (collector : Collector) (now : ℚ) (kernlog : KernlogSignal)
      (dstate : DStateSignal) (patch : PatchSignal),
        (collector.collectOnce {} (passWith now kernlog dstate bytes patch)).collectErrors = collector.collectErrors ∧
          ∀ name, (collector.collectOnce {} (passWith now kernlog dstate bytes patch)).detail name =
            some ((collector.evaluator.evaluate { now, kernlog, dstate, exporter := signal }).1 name)) ↔
    ∀ line ∈ splitlines (decode bytes), ∀ sample value, sample? line = some sample →
      sample.name = gpuNodesTotal → float? sample.value = some value → value.isInfinite = false := by
  have hlines : (∀ line ∈ splitlines (decode bytes), reading line ≠ .overflow) ↔
      ∀ line ∈ splitlines (decode bytes), ∀ sample value, sample? line = some sample →
        sample.name = gpuNodesTotal → float? sample.value = some value → value.isInfinite = false := by
    refine forall₂_congr fun line _ => ?_
    rw [ne_eq, reading_overflow_iff]
    simp only [not_exists, not_and, Bool.not_eq_true]
  rw [← hlines, ← scraped_ok_iff]
  constructor
  · rintro ⟨signal, hok, -⟩
    exact ⟨signal, hok⟩
  · rintro ⟨signal, hok⟩
    refine ⟨signal, hok, fun collector now kernlog dstate patch => ?_⟩
    simp only [passWith, hok]
    exact ⟨rfl, fun name => rfl⟩

/-- An infinite number of cards ends the pass. -/
theorem infinite_total_raises : ¬∀ bytes, ∃ signal, scraped bytes = .ok signal := by
  intro h
  obtain ⟨signal, hok⟩ := h (ascii "gpu_nodes_total{} +Inf\n")
  have hraised : (scraped (ascii "gpu_nodes_total{} +Inf\n")).toBool = false := by decide +kernel
  rw [hok] at hraised
  cases hraised

end GpuNodeHealth.Agent
