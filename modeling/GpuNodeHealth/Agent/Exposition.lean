import GpuNodeHealth.Agent.Samples
import Mathlib.Data.List.Induction

/-! The probe on bodies in the text exposition format, however their samples are written.
What the numbers mean is up to Go's `ParseFloat`, a parameter here. Of the samples of a
body about the health of cards the probe counts those that are written compactly. -/

namespace GpuNodeHealth.Agent

open Metrics (Blanks Timestamp Word WordChar nameChar nameStart noBlanks oneBlank)
open Text

/-! ### Bodies -/

/-- The samples of the format, with Go's numbers. -/
abbrev SampleSyntax (parseFloat : List Char → Option Double) := Metrics.SampleSyntax parseFloat

variable {parseFloat : List Char → Option Double}

namespace SampleSyntax

/-- Nothing in front of the name, a label set right behind it, something between that
and the value, and no timestamp. -/
def Compact (s : SampleSyntax parseFloat) : Prop :=
  s.lead.chars = [] ∧ (∃ set, s.set = some set ∧ set.gap.chars = []) ∧ s.gap.chars ≠ [] ∧ s.timestamp = none

end SampleSyntax

/-- A line of the format; the other comments are its help and type lines too. -/
inductive ExpositionLine (parseFloat : List Char → Option Double) where
  | blank (blanks : Blanks)
  | comment (lead : Blanks) (text : List Char) (whole : '\n' ∉ text)
  | sample (s : SampleSyntax parseFloat)

def ExpositionLine.render : ExpositionLine parseFloat → List Char
  | blank blanks => blanks.chars
  | comment lead text _ => lead.chars ++ '#' :: text
  | sample s => s.render

/-- A body of the format; every line ends with a newline. -/
def exposition (lines : List (ExpositionLine parseFloat)) : List Char := lines.flatMap fun line => line.render ++ ['\n']

/-- What a line is about, for the health of the cards. -/
def ExpositionLine.means : ExpositionLine parseFloat → Reading
  | sample s =>
    if s.name = gpuHealth then
      if s.number.atLeastOne then .healthy else .unhealthy (.ofLabels (parseLabels s.inside))
    else .nothing
  | _ => .nothing

/-- What is relied on of `ParseFloat`: it reads no empty text and none with blanks or
braces, and where `float` reads a text as well, they read the same number. -/
structure GoFloat (parseFloat : List Char → Option Double) : Prop where
  plain : ∀ {text number}, parseFloat text = some number → Word text
  agrees : ∀ {text number number'}, parseFloat text = some number → float? text = some number' → number' = number

/-! ### Reading a sample -/

theorem word_space {c : Char} (h : WordChar c) : Pattern.isSpace c = false := by
  simp only [Pattern.isSpace, List.mem_cons, List.not_mem_nil]
  grind [WordChar]

theorem space_blank {c : Char} (h : Metrics.isBlank c = true) : Pattern.isSpace c = true := by
  rw [Metrics.isBlank, Bool.or_eq_true, decide_eq_true_eq, decide_eq_true_eq] at h
  rcases h with rfl | rfl <;> rfl

theorem word_brace {text : List Char} (h : Word text) : '}' ∉ text :=
  fun hmem => absurd (h.2 _ hmem) (by decide)

namespace SampleSyntax

open Metrics.SampleSyntax (inside render rest tail)

variable (hgo : GoFloat parseFloat) (s : SampleSyntax parseFloat)

theorem rest_space : s.rest.all Pattern.isSpace = true ↔ s.timestamp = none := by
  rw [List.all_eq_true, rest]
  cases s.timestamp with
  | none => simpa using fun c hc => space_blank (s.trail.isBlank c hc)
  | some stamp =>
    obtain ⟨hne, hplain⟩ := stamp.word
    obtain ⟨c, hc⟩ := List.exists_mem_of_ne_nil _ hne
    simp only [reduceCtorEq, iff_false, not_forall]
    refine ⟨c, by simp [hc], ?_⟩
    rw [word_space (hplain c hc)]
    exact Bool.false_ne_true

/-- A blank behind the name ends the match. -/
theorem sample?_blank {blanks : Blanks} (hne : blanks.chars ≠ []) (rest : List Char) :
    sample? (s.name ++ (blanks.chars ++ rest)) = none := by
  obtain ⟨c, chars, hchars⟩ := List.exists_cons_of_ne_nil hne
  have hc : nameChar c = false ∧ c ≠ '{' := by
    rcases blanks.blank c (hchars ▸ List.mem_cons_self) with rfl | rfl <;> decide
  rw [hchars, List.cons_append, sample?_named s.named hc.1, if_neg hc.2]

include hgo

/-- A tail follows the label set if the value stands apart from it and nothing follows. -/
theorem sampleTail_tail :
    sampleTail s.tail = if s.gap.chars ≠ [] ∧ s.timestamp = none then some s.value else none := by
  obtain ⟨hne, hplain⟩ := hgo.plain s.valued
  rw [tail, sampleTail_written (fun c hc => space_blank (s.gap.isBlank c hc)) hne
    (fun c hc => word_space (hplain c hc)) fun c hc => space_blank (s.rest_head hc)]
  simp only [rest_space]

theorem tail_brace : '}' ∉ s.tail := by
  have hvalue : '}' ∉ s.value := word_brace (hgo.plain s.valued)
  have hrest : '}' ∉ s.rest := by
    rw [rest]
    cases s.timestamp with
    | none => exact s.trail.brace
    | some stamp => simp [stamp.gap.brace, word_brace stamp.word, s.trail.brace]
  simp [tail, s.gap.brace, hvalue, hrest]

/-- A compact sample is read as it was written. -/
theorem sample?_compact (h : s.Compact) (hline : '\n' ∉ s.inside) :
    sample? s.render = some ⟨s.name, s.inside, s.value⟩ := by
  obtain ⟨hlead, ⟨set, hset, hgap⟩, hapart, hstamp⟩ := h
  have hinside : s.inside = set.inside := by rw [inside, hset]; rfl
  have htail : sampleTail s.tail = some s.value := by rw [s.sampleTail_tail hgo, if_pos ⟨hapart, hstamp⟩]
  rw [render, hlead, hset]
  dsimp only
  rw [hgap, List.nil_append, List.nil_append, sample?_named s.named rfl, if_pos rfl,
    labelsValue_written (hinside ▸ hline) (s.tail_brace hgo) htail, ← hinside]
  rfl

/-- If another sample is taken for one at all, its value is no number. -/
theorem sample?_loose (h : ¬s.Compact) {sample : Sample} (hsample : sample? s.render = some sample) :
    '}' ∈ sample.value := by
  by_cases hlead : s.lead.chars = []
  · rw [render, hlead, List.nil_append] at hsample
    cases hset : s.set with
    | none =>
      rw [hset] at hsample
      rw [tail, s.sample?_blank (s.apart hset)] at hsample
      cases hsample
    | some set =>
      rw [hset] at hsample
      by_cases hgap : set.gap.chars = []
      · have htail : sampleTail s.tail = none := by
          rw [s.sampleTail_tail hgo, if_neg]
          rintro ⟨hapart, hstamp⟩
          exact h ⟨hlead, ⟨set, hset, hgap⟩, hapart, hstamp⟩
        dsimp only at hsample
        rw [hgap, List.nil_append, sample?_named s.named rfl, if_pos rfl] at hsample
        obtain ⟨⟨labels, value⟩, hfound, rfl⟩ := Option.map_eq_some_iff.mp hsample
        exact labelsValue_elsewhere (s.tail_brace hgo) htail hfound
      · dsimp only at hsample
        rw [s.sample?_blank hgap] at hsample
        cases hsample
  · obtain ⟨c, chars, hchars⟩ := List.exists_cons_of_ne_nil hlead
    have hblank : nameStart c = false := by
      rcases s.lead.blank c (hchars ▸ List.mem_cons_self) with rfl | rfl <;> rfl
    rw [sample?_head] at hsample
    · cases hsample
    · rw [render, hchars]
      rintro _ ⟨⟩
      exact hblank

theorem reading_compact (h : s.Compact) (hline : '\n' ∉ s.inside) : reading s.render =
    if s.name = gpuNodesTotal then totalOf s.value
    else if s.name = gpuHealth then healthOf ⟨s.name, s.inside, s.value⟩
    else .nothing :=
  reading_sample (s.sample?_compact hgo h hline)

theorem reading_loose (h : ¬s.Compact) : reading s.render = .nothing := by
  cases hsample : sample? s.render with
  | none => exact reading_none hsample
  | some sample =>
    have hfloat := float?_brace (s.sample?_loose hgo h hsample)
    rw [reading_sample hsample, totalOf, healthOf, hfloat]
    simp only [ite_self]

omit hgo in
theorem inside_render : ∀ c ∈ s.inside, c ∈ s.render := by
  intro c hc
  unfold inside at hc
  unfold render
  cases hset : s.set with
  | none => simp [hset] at hc
  | some set =>
    rw [hset] at hc
    have hmem : c ∈ set.inside := hc
    simp [hmem]

end SampleSyntax

/-! ### What a line shows -/

variable {line : List Char}

/-- A line in the shape of a sample, about an infinite number of cards. -/
def InfiniteLine (line : List Char) : Prop :=
  ∃ inside value number, Written line gpuNodesTotal inside value ∧ float? value = some number ∧
    number.isInfinite = true

/-- A line in the shape of a sample about the health of a card, and what it gives. -/
def Gives (line : List Char) (health : Reading) : Prop :=
  ∃ inside value number, Written line gpuHealth inside value ∧ float? value = some number ∧
    health = if number.atLeastOne then .healthy else .unhealthy (.ofLabels (parseLabels inside))

def Reading.ofHealth : Reading → Bool
  | healthy => true
  | unhealthy _ => true
  | _ => false

theorem float?_braceless {text : List Char} {number : Double} (h : float? text = some number) : '}' ∉ text := by
  intro hbrace
  rw [float?_brace hbrace] at h
  cases h

theorem reading_overflow_iff_line : reading line = .overflow ↔ InfiniteLine line := by
  rw [reading_overflow_iff]
  constructor
  · rintro ⟨sample, number, hsample, hname, hnumber, hinfinite⟩
    exact ⟨_, _, number, hname ▸ sample?_shape hsample, hnumber, hinfinite⟩
  · rintro ⟨inside, value, number, hwritten, hnumber, hinfinite⟩
    exact ⟨_, number, hwritten.sample? (float?_braceless hnumber), rfl, hnumber, hinfinite⟩

theorem totalOf_ofHealth (text : List Char) : (totalOf text).ofHealth = false := by
  unfold totalOf
  cases float? text with
  | none => rfl
  | some number => cases number <;> rfl

/-- What is read as the health of a card has the shape of it. -/
theorem gives_iff {health : Reading} : Gives line health ↔ reading line = health ∧ health.ofHealth = true := by
  have hne : gpuHealth ≠ gpuNodesTotal := by decide
  constructor
  · rintro ⟨inside, value, number, hwritten, hnumber, rfl⟩
    rw [reading_sample (hwritten.sample? (float?_braceless hnumber)), if_neg hne, if_pos rfl, healthOf, hnumber]
    refine ⟨rfl, ?_⟩
    split_ifs <;> rfl
  · rintro ⟨rfl, hhealth⟩
    cases hsample : sample? line with
    | none =>
      rw [reading_none hsample] at hhealth
      cases hhealth
    | some sample =>
      rw [reading_sample hsample] at hhealth ⊢
      split_ifs at hhealth ⊢ with htotal hname
      · rw [totalOf_ofHealth] at hhealth
        cases hhealth
      · rw [healthOf] at hhealth ⊢
        cases hnumber : float? sample.value with
        | none =>
          rw [hnumber] at hhealth
          cases hhealth
        | some number => exact ⟨sample.labels, sample.value, number, hname ▸ sample?_shape hsample, hnumber, rfl⟩
      · cases hhealth

/-- At most one of some readings is about the health of a card if they come to a single
reading, all in all. -/
theorem counted_iff (readings : List Reading) (reading : Reading) :
    (readings.countP (·.isHealthy) = reading.isHealthy.toNat ∧ readings.filterMap (·.card?) = reading.card?.toList) ↔
      readings.filter Reading.ofHealth = [reading].filter Reading.ofHealth := by
  have hcount : readings.countP (·.isHealthy) = (readings.filter Reading.ofHealth).countP (·.isHealthy) := by
    rw [List.countP_filter]
    refine List.countP_congr fun r _ => ?_
    cases r <;> simp [Reading.isHealthy, Reading.ofHealth]
  have hcards : readings.filterMap (·.card?) = (readings.filter Reading.ofHealth).filterMap (·.card?) := by
    rw [List.filterMap_filter]
    refine List.filterMap_congr fun r _ => ?_
    cases r <;> rfl
  have hhealth : ∀ r ∈ readings.filter Reading.ofHealth, r.ofHealth = true := fun r hr => (List.mem_filter.mp hr).2
  rw [hcount, hcards]
  generalize readings.filter Reading.ofHealth = shown at hhealth
  have hlength : shown.length = shown.countP (·.isHealthy) + (shown.filterMap (·.card?)).length := by
    clear hcount hcards
    induction shown with
    | nil => rfl
    | cons r shown ih =>
      obtain ⟨hr, hshown⟩ := List.forall_mem_cons.mp hhealth
      have hrest := ih hshown
      cases r with
      | healthy => simp [Reading.isHealthy, Reading.card?, hrest]; omega
      | unhealthy card => simp [Reading.isHealthy, Reading.card?, hrest]; omega
      | _ => cases hr
  constructor
  · rintro ⟨hhealthy, hcard⟩
    rw [hhealthy, hcard] at hlength
    cases reading with
    | healthy =>
      obtain ⟨r, rfl⟩ := List.length_eq_one_iff.mp hlength
      cases r with
      | healthy => rfl
      | unhealthy card => cases hcard
      | _ => cases hhealth _ List.mem_cons_self
    | unhealthy card =>
      obtain ⟨r, rfl⟩ := List.length_eq_one_iff.mp hlength
      cases r with
      | healthy => cases hcard
      | unhealthy card' =>
        obtain rfl := List.singleton_inj.mp hcard
        rfl
      | _ => cases hhealth _ List.mem_cons_self
    | _ => exact List.eq_nil_of_length_eq_zero hlength
  · intro hshown
    rw [hshown]
    cases reading <;> exact ⟨rfl, rfl⟩

theorem filter_eq_singleton_iff {α : Type} {p : α → Bool} {l : List α} {a : α} : l.filter p = [a] ↔
    ∃ before after, l = before ++ a :: after ∧ p a = true ∧ ∀ x ∈ before ++ after, p x = false := by
  rw [List.filter_eq_cons_iff]
  simp only [List.filter_eq_nil_iff, List.forall_mem_append, Bool.not_eq_true]
  constructor
  · rintro ⟨before, after, hl, hbefore, ha, hafter⟩
    exact ⟨before, after, hl, ha, hbefore, hafter⟩
  · rintro ⟨before, after, hl, ha, hbefore, hafter⟩
    exact ⟨before, after, hl, hbefore, ha, hafter⟩

/-! ### Reading a body -/

namespace ExpositionLine

/-- The lines that `splitlines` makes of a line. -/
def fragments (line : ExpositionLine parseFloat) : List (List Char) := splitlines (line.render ++ ['\n'])

def ofHealth : ExpositionLine parseFloat → Bool
  | sample s => s.name = gpuHealth
  | _ => false

/-- A line reads as what it is about, all in all. -/
def Tells (line : ExpositionLine parseFloat) : Prop :=
  (∀ fragment ∈ line.fragments, reading fragment ≠ .overflow) ∧
    (line.fragments.countP fun fragment => (reading fragment).isHealthy) = line.means.isHealthy.toNat ∧
    (line.fragments.filterMap fun fragment => (reading fragment).card?) = line.means.card?.toList

/-- None of the pieces of a line is about an infinite number of cards. If the line is
about the health of a card, one of them gives what the line is about and no other gives
any; else none does. -/
def Pieced (line : ExpositionLine parseFloat) : Prop :=
  (∀ piece ∈ line.fragments, ¬InfiniteLine piece) ∧
    if line.ofHealth then
      ∃ before piece after, line.fragments = before ++ piece :: after ∧ Gives piece line.means ∧
        ∀ other ∈ before ++ after, ∀ health, ¬Gives other health
    else ∀ piece ∈ line.fragments, ∀ health, ¬Gives piece health

/-- A line in which nothing ends a line for `splitlines` is compact, with a number that
`float` reads, if it is about the health of a card, and if it is compact and about the
number of cards, that is not infinite. Any other line is cut to pieces. -/
def Legible (line : ExpositionLine parseFloat) : Prop :=
  if line.render.any lineBreak then line.Pieced
  else match line with
    | sample s =>
      (s.name = gpuHealth → s.Compact ∧ ∃ number, float? s.value = some number) ∧
        (s.name = gpuNodesTotal → s.Compact → ∀ number, float? s.value = some number → number.isInfinite = false)
    | _ => True

theorem means_ofHealth (line : ExpositionLine parseFloat) : line.means.ofHealth = line.ofHealth := by
  cases line with
  | blank blanks => rfl
  | comment lead text whole => rfl
  | sample s =>
    rw [means, ofHealth]
    split_ifs with hname hnumber
    · exact (decide_eq_true hname).symm
    · exact (decide_eq_true hname).symm
    · exact (decide_eq_false hname).symm

/-- The pieces tell what the line is about. -/
theorem pieced_iff (line : ExpositionLine parseFloat) : line.Pieced ↔ line.Tells := by
  have hinfinite : (∀ piece ∈ line.fragments, ¬InfiniteLine piece) ↔
      ∀ fragment ∈ line.fragments, reading fragment ≠ .overflow := by
    simp only [← reading_overflow_iff_line, ne_eq]
  have hnone : ∀ piece, (∀ health, ¬Gives piece health) ↔ (reading piece).ofHealth = false := by
    intro piece
    simp only [gives_iff, not_and, Bool.not_eq_true]
    exact ⟨fun h => h _ rfl, fun h health hhealth => hhealth ▸ h⟩
  have hcounted := counted_iff (line.fragments.map reading) line.means
  rw [List.countP_map, List.filterMap_map] at hcounted
  rw [Pieced, hinfinite, Tells]
  refine and_congr_right fun _ => Iff.trans ?_ hcounted.symm
  simp only [hnone, ← line.means_ofHealth]
  cases hmeans : line.means.ofHealth with
  | false =>
    rw [if_neg Bool.false_ne_true, List.filter_cons_of_neg (by simp [hmeans]), List.filter_nil, List.filter_eq_nil_iff]
    simp
  | true =>
    rw [if_pos rfl, List.filter_cons_of_pos hmeans, List.filter_nil, List.filter_map, List.map_eq_singleton_iff]
    simp only [filter_eq_singleton_iff, gives_iff, hmeans, and_true, Function.comp_apply]
    constructor
    · rintro ⟨before, piece, after, hpieces, hpiece, hothers⟩
      exact ⟨piece, ⟨before, after, hpieces, hpiece ▸ hmeans, hothers⟩, hpiece⟩
    · rintro ⟨piece, ⟨before, after, hpieces, -, hothers⟩, hpiece⟩
      exact ⟨before, piece, after, hpieces, hpiece, hothers⟩

theorem means_count (line : ExpositionLine parseFloat) :
    line.means.isHealthy.toNat + line.means.card?.toList.length = line.ofHealth.toNat := by
  cases line with
  | blank blanks => rfl
  | comment lead text whole => rfl
  | sample s =>
    simp only [means, ofHealth]
    split_ifs with hname hnumber
    · simp [hname, Reading.isHealthy, Reading.card?]
    · simp [hname, Reading.isHealthy, Reading.card?]
    · simp [hname, Reading.isHealthy, Reading.card?]

theorem tells_unbroken {line : ExpositionLine parseFloat} (h : ∀ c ∈ line.render, lineBreak c = false) :
    line.Tells ↔ reading line.render ≠ .overflow ∧
      (reading line.render).isHealthy = line.means.isHealthy ∧ (reading line.render).card? = line.means.card? := by
  have hcount : ([line.render].countP fun fragment => (reading fragment).isHealthy) =
      (reading line.render).isHealthy.toNat := by
    rw [List.countP_singleton]
    cases (reading line.render).isHealthy <;> rfl
  have hcards : ([line.render].filterMap fun fragment => (reading fragment).card?) =
      (reading line.render).card?.toList := by
    rw [List.filterMap_cons]
    cases (reading line.render).card? <;> rfl
  rw [Tells, fragments, splitlines_unbroken h, hcount, hcards, List.forall_mem_singleton]
  refine and_congr_right fun _ => and_congr ?_ ?_
  · cases (reading line.render).isHealthy <;> cases line.means.isHealthy <;> decide
  · cases (reading line.render).card? <;> cases line.means.card? <;> simp

theorem means_health {s : SampleSyntax parseFloat} (hname : s.name = gpuHealth) : (sample s).means =
    if s.number.atLeastOne then .healthy else .unhealthy (.ofLabels (parseLabels s.inside)) :=
  if_pos hname

theorem means_other {s : SampleSyntax parseFloat} (hname : s.name ≠ gpuHealth) : (sample s).means = .nothing :=
  if_neg hname

/-- A sample about the health of a card reads as one if it is compact and `float` reads
its number. -/
theorem tells_health (hgo : GoFloat parseFloat) {s : SampleSyntax parseFloat}
    (hline : ∀ c ∈ (sample s).render, lineBreak c = false) (hname : s.name = gpuHealth) :
    (sample s).Tells ↔ s.Compact ∧ ∃ number, float? s.value = some number := by
  have hcounted : reading s.render = .nothing → ¬(sample s).Tells := by
    intro hreading htells
    have hmeans := (tells_unbroken hline).mp htells
    rw [render, hreading, means_health hname] at hmeans
    split_ifs at hmeans with hnumber
    · cases hmeans.2.1
    · cases hmeans.2.2
  have hinside : '\n' ∉ s.inside := fun h => absurd (hline _ (s.inside_render _ h)) (by decide)
  by_cases hcompact : s.Compact
  · have hreading := s.reading_compact hgo hcompact hinside
    rw [hname, if_neg (by decide), if_pos rfl] at hreading
    cases hfloat : float? s.value with
    | none =>
      rw [healthOf, hfloat] at hreading
      exact iff_of_false (hcounted hreading) (by simp)
    | some number =>
      obtain rfl := hgo.agrees s.valued hfloat
      rw [healthOf, hfloat] at hreading
      refine iff_of_true ?_ ⟨hcompact, _, rfl⟩
      rw [tells_unbroken hline, means_health hname, render, hreading]
      dsimp only
      split_ifs <;> exact ⟨nofun, rfl, rfl⟩
  · exact iff_of_false (hcounted (s.reading_loose hgo hcompact)) fun h => hcompact h.1

/-- Any other is not counted; it may only raise. -/
theorem tells_other (hgo : GoFloat parseFloat) {s : SampleSyntax parseFloat}
    (hline : ∀ c ∈ (sample s).render, lineBreak c = false) (hname : s.name ≠ gpuHealth) :
    (sample s).Tells ↔ (s.name = gpuNodesTotal → s.Compact →
      ∀ number, float? s.value = some number → number.isInfinite = false) := by
  rw [tells_unbroken hline, means_other hname, render]
  have hinside : '\n' ∉ s.inside := fun h => absurd (hline _ (s.inside_render _ h)) (by decide)
  by_cases hcompact : s.Compact
  · rw [s.reading_compact hgo hcompact hinside, if_neg hname]
    by_cases htotal : s.name = gpuNodesTotal
    · rw [if_pos htotal, totalOf]
      cases float? s.value with
      | none => simp [Reading.isHealthy, Reading.card?]
      | some number => cases number <;> simp [htotal, hcompact, Reading.isHealthy, Reading.card?, Double.isInfinite]
    · simp [htotal]
  · rw [s.reading_loose hgo hcompact]
    simp [hcompact]

theorem reading_unsampled {line : ExpositionLine parseFloat} (h : ∀ s, line ≠ sample s) :
    reading line.render = .nothing := by
  refine reading_none (sample?_head fun c hc => ?_)
  cases line with
  | sample s => exact absurd rfl (h s)
  | blank blanks => rcases blanks.blank c (List.mem_of_head? hc) with rfl | rfl <;> rfl
  | comment lead text whole =>
    rw [render, List.head?_append] at hc
    cases hlead : lead.chars.head? with
    | none =>
      rw [hlead] at hc
      obtain rfl := Option.some.inj hc
      rfl
    | some d =>
      rw [hlead] at hc
      obtain rfl := Option.some.inj hc
      rcases lead.blank d (List.mem_of_head? hlead) with rfl | rfl <;> rfl

theorem tells_unsampled {line : ExpositionLine parseFloat} (h : ∀ s, line ≠ sample s)
    (hline : ∀ c ∈ line.render, lineBreak c = false) : line.Tells := by
  have hmeans : line.means = .nothing := by
    cases line with
    | sample s => exact absurd rfl (h s)
    | blank blanks => rfl
    | comment lead text whole => rfl
  rw [tells_unbroken hline, reading_unsampled h, hmeans]
  exact ⟨nofun, rfl, rfl⟩

theorem legible_iff (hgo : GoFloat parseFloat) (line : ExpositionLine parseFloat) : line.Legible ↔ line.Tells := by
  unfold Legible
  split_ifs with hbreak
  · exact line.pieced_iff
  · have hline : ∀ c ∈ line.render, lineBreak c = false := by simpa using hbreak
    cases line with
    | blank blanks => exact iff_of_true trivial (tells_unsampled nofun hline)
    | comment lead text whole => exact iff_of_true trivial (tells_unsampled nofun hline)
    | sample s =>
      by_cases hname : s.name = gpuHealth
      · have hnames : s.name ≠ gpuNodesTotal := by rw [hname]; decide
        rw [tells_health hgo hline hname]
        exact ⟨fun h => h.1 hname, fun h => ⟨fun _ => h, fun htotal => absurd htotal hnames⟩⟩
      · rw [tells_other hgo hline hname]
        exact ⟨fun h => h.2, fun h => ⟨fun hhealth => absurd hhealth hname, h⟩⟩

/-- Where nothing else ends a line, what goes wrong is an exception or a sample that is
dropped. -/
theorem tells_or_dropped (hgo : GoFloat parseFloat) {line : ExpositionLine parseFloat}
    (hline : ∀ c ∈ line.render, lineBreak c = false) (hraises : reading line.render ≠ .overflow) :
    line.Tells ∨ (line.ofHealth = true ∧ reading line.render = .nothing) := by
  cases line with
  | blank blanks => exact .inl (tells_unsampled nofun hline)
  | comment lead text whole => exact .inl (tells_unsampled nofun hline)
  | sample s =>
    have hinside : '\n' ∉ s.inside := fun h => absurd (hline _ (s.inside_render _ h)) (by decide)
    by_cases hname : s.name = gpuHealth
    · by_cases htells : (sample s).Tells
      · exact .inl htells
      · refine .inr ⟨decide_eq_true hname, ?_⟩
        rw [tells_health hgo hline hname, not_and, not_exists] at htells
        by_cases hcompact : s.Compact
        · have hfloat := Option.eq_none_iff_forall_ne_some.mpr (htells hcompact)
          rw [render, s.reading_compact hgo hcompact hinside, totalOf, healthOf, hfloat]
          simp only [ite_self]
        · exact s.reading_loose hgo hcompact
    · refine .inl ((tells_other hgo hline hname).mpr fun htotal hcompact number hnumber => ?_)
      by_contra hinfinite
      exact hraises (reading_overflow_iff.mpr ⟨_, number, s.sample?_compact hgo hcompact hinside, htotal, hnumber,
        by simpa using hinfinite⟩)

end ExpositionLine

/-- What `collect` makes of the body counts every sample about the health of a card once,
and lists the card of each that is not at or above one. -/
def Complete (lines : List (ExpositionLine parseFloat)) : Prop :=
  ∃ counts, readBody (exposition lines) = .ok counts ∧
    counts.healthy + counts.unhealthy.length = lines.countP ExpositionLine.ofHealth ∧
    counts.unhealthy = lines.filterMap fun line => line.means.card?

variable {lines : List (ExpositionLine parseFloat)}

theorem splitlines_exposition : splitlines (exposition lines) = lines.flatMap ExpositionLine.fragments :=
  splitlines_flatMap _ lines

theorem complete_fragments_iff : Complete lines ↔
    (∀ fragment ∈ lines.flatMap ExpositionLine.fragments, reading fragment ≠ .overflow) ∧
      ((lines.flatMap ExpositionLine.fragments).countP fun fragment => (reading fragment).isHealthy) +
        ((lines.flatMap ExpositionLine.fragments).filterMap fun fragment => (reading fragment).card?).length =
          lines.countP ExpositionLine.ofHealth ∧
      ((lines.flatMap ExpositionLine.fragments).filterMap fun fragment => (reading fragment).card?) =
        lines.filterMap fun line => line.means.card? := by
  rw [← splitlines_exposition]
  constructor
  · rintro ⟨counts, hok, hsum, hcards⟩
    have hraises := readBody_ok_iff.mp ⟨counts, hok⟩
    obtain rfl := Except.ok.inj ((readBody_eq hraises).symm.trans hok)
    exact ⟨hraises, hsum, hcards⟩
  · rintro ⟨hraises, hsum, hcards⟩
    exact ⟨_, readBody_eq hraises, hsum, hcards⟩

/-- After lines that are counted as they should be, another one has to read as what it
is about. -/
theorem complete_append_iff {line : ExpositionLine parseFloat} (h : Complete lines) :
    Complete (lines ++ [line]) ↔ line.Tells := by
  obtain ⟨hraises, hsum, hcards⟩ := complete_fragments_iff.mp h
  have hfragments : (lines ++ [line]).flatMap ExpositionLine.fragments =
      lines.flatMap ExpositionLine.fragments ++ line.fragments := by simp
  have hcount : (lines ++ [line]).countP ExpositionLine.ofHealth =
      lines.countP ExpositionLine.ofHealth + line.ofHealth.toNat := by
    rw [List.countP_append, List.countP_singleton]
    cases line.ofHealth <;> rfl
  have hlist : ((lines ++ [line]).filterMap fun line => line.means.card?) =
      (lines.filterMap fun line => line.means.card?) ++ line.means.card?.toList := by
    rw [List.filterMap_append, List.filterMap_cons]
    cases line.means.card? <;> rfl
  rw [complete_fragments_iff, hfragments, hcount, hlist, List.forall_mem_append, List.countP_append,
    List.filterMap_append, ← hcards, List.append_cancel_left_eq, List.length_append, ← hsum, ← line.means_count]
  constructor
  · rintro ⟨⟨-, hline⟩, hhealthy, hcard⟩
    rw [hcard] at hhealthy
    exact ⟨hline, by omega, hcard⟩
  · rintro ⟨hline, hhealthy, hcard⟩
    rw [hhealthy, hcard]
    exact ⟨⟨hraises, hline⟩, by omega, rfl⟩

theorem fronts_iff (lines : List (ExpositionLine parseFloat)) :
    (∀ front, front <+: lines → Complete front) ↔ ∀ line ∈ lines, line.Tells := by
  induction lines using List.reverseRecOn with
  | nil =>
    refine iff_of_true (fun front hfront => ?_) nofun
    rw [List.prefix_nil.mp hfront]
    exact ⟨{}, rfl, rfl, rfl⟩
  | append_singleton lines line ih =>
    rw [List.forall_mem_append, List.forall_mem_singleton, ← ih]
    constructor
    · intro h
      have hlines : ∀ front, front <+: lines → Complete front := fun front hfront =>
        h front (hfront.trans (List.prefix_append lines [line]))
      exact ⟨hlines, (complete_append_iff (hlines lines (List.prefix_refl lines))).mp (h _ (List.prefix_refl _))⟩
    · rintro ⟨hlines, hline⟩ front hfront
      rcases List.prefix_concat_iff.mp hfront with rfl | hfront
      · exact (complete_append_iff (hlines lines (List.prefix_refl lines))).mpr hline
      · exact hlines front hfront

/-- What is read of lines in which nothing ends a line before: at most as many samples as
there are, and if all of them, every line tells. -/
theorem counted_le (hgo : GoFloat parseFloat) (hlines : ∀ line ∈ lines, ∀ c ∈ line.render, lineBreak c = false)
    (hraises : ∀ fragment ∈ lines.flatMap ExpositionLine.fragments, reading fragment ≠ .overflow) :
    ((lines.flatMap ExpositionLine.fragments).countP fun fragment => (reading fragment).isHealthy) +
        ((lines.flatMap ExpositionLine.fragments).filterMap fun fragment => (reading fragment).card?).length ≤
          lines.countP ExpositionLine.ofHealth ∧
      (((lines.flatMap ExpositionLine.fragments).countP fun fragment => (reading fragment).isHealthy) +
        ((lines.flatMap ExpositionLine.fragments).filterMap fun fragment => (reading fragment).card?).length =
          lines.countP ExpositionLine.ofHealth → ∀ line ∈ lines, line.Tells) := by
  induction lines with
  | nil => exact ⟨le_rfl, nofun⟩
  | cons line lines ih =>
    obtain ⟨hline, hlines⟩ := List.forall_mem_cons.mp hlines
    have hfragments : line.fragments = [line.render] := splitlines_unbroken hline
    rw [List.flatMap_cons, hfragments, List.singleton_append] at hraises ⊢
    obtain ⟨hraise, hraises⟩ := List.forall_mem_cons.mp hraises
    obtain ⟨hle, hall⟩ := ih hlines hraises
    have hcards : (line.render :: lines.flatMap ExpositionLine.fragments).filterMap
        (fun fragment => (reading fragment).card?) = (reading line.render).card?.toList ++
          (lines.flatMap ExpositionLine.fragments).filterMap fun fragment => (reading fragment).card? := by
      rw [List.filterMap_cons]
      cases (reading line.render).card? <;> rfl
    have htoNat : ∀ b : Bool, (if b = true then 1 else 0) = b.toNat := by decide
    rw [hcards, List.length_append, List.countP_cons, List.countP_cons, htoNat, htoNat]
    rcases line.tells_or_dropped hgo hline hraise with htells | ⟨hhealth, hnothing⟩
    · obtain ⟨-, hhealthy, hcard⟩ := (ExpositionLine.tells_unbroken hline).mp htells
      rw [hhealthy, hcard, ← line.means_count]
      refine ⟨by omega, fun hsum => List.forall_mem_cons.mpr ⟨htells, hall (by omega)⟩⟩
    · have hhealthy : Reading.nothing.isHealthy.toNat = 0 := rfl
      have hcard : Reading.nothing.card?.toList.length = 0 := rfl
      rw [hnothing, hhealth, hhealthy, hcard, Bool.toNat_true]
      exact ⟨by omega, fun hsum => absurd hsum (by omega)⟩

/-- At every line of a body the samples so far are counted exactly if all lines of it
are legible. Without the other ends of lines it is enough that they are counted at the
end of the body. -/
theorem complete_iff (hgo : GoFloat parseFloat) (lines : List (ExpositionLine parseFloat)) :
    ((∀ front, front <+: lines → Complete front) ↔ ∀ line ∈ lines, line.Legible) ∧
      ((∀ line ∈ lines, ∀ c ∈ line.render, lineBreak c = false) →
        (Complete lines ↔ ∀ line ∈ lines, line.Legible)) := by
  have hfronts : (∀ front, front <+: lines → Complete front) ↔ ∀ line ∈ lines, line.Legible := by
    simp only [ExpositionLine.legible_iff hgo, fronts_iff]
  refine ⟨hfronts, fun hlines => ⟨fun h line hline => ?_, fun h => hfronts.mpr h lines (List.prefix_refl lines)⟩⟩
  obtain ⟨hraises, hsum, -⟩ := complete_fragments_iff.mp h
  exact (line.legible_iff hgo).mpr ((counted_le hgo hlines hraises).2 hsum line hline)

/-! ### Two cards -/

/-- `float`, for a text that `ParseFloat` may read as well. -/
def plainFloat (text : List Char) : Option Double :=
  if text ≠ [] ∧ ∀ c ∈ text, 0x21 ≤ c.toNat ∧ c.toNat ≤ 0x7a ∧ c ≠ '_' then float? text else none

theorem plainFloat_go : GoFloat plainFloat where
  plain h := by
    unfold plainFloat at h
    split_ifs at h with hplain
    exact ⟨hplain.1, fun c hc => ⟨(hplain.2 c hc).1, (hplain.2 c hc).2.1⟩⟩
  agrees h h' := by
    unfold plainFloat at h
    split_ifs at h
    exact Option.some.inj (h'.symm.trans h)

/-- The health of the card 3. -/
def cardSample (value : List Char) (number : Double) (valued : plainFloat value = some number)
    (timestamp : Option Timestamp) : SampleSyntax plainFloat where
  lead := noBlanks
  name := gpuHealth
  named := by decide
  set := some ⟨noBlanks, [⟨noBlanks, "gpu_id".toList, by decide, noBlanks, noBlanks, ['3'], noBlanks⟩], false, nofun,
    noBlanks⟩
  gap := oneBlank
  apart := nofun
  value
  number
  valued
  timestamp
  trail := noBlanks

def deadCard : SampleSyntax plainFloat := cardSample ['0'] (.finite 0) (by decide +kernel) none

def stampedCard : SampleSyntax plainFloat :=
  cardSample ['0'] (.finite 0) (by decide +kernel) (some ⟨oneBlank, by decide, "1700000000".toList, by decide⟩)

example : stampedCard.render = "gpu_health\x7bgpu_id=\"3\"\x7d 0 1700000000".toList := by decide +kernel

theorem complete_iff_dead :
    Complete [.comment noBlanks " TYPE gpu_health gauge".toList (by decide), .sample deadCard] := by
  have hread : ∃ number, float? deadCard.value = some number := ⟨.finite 0, by decide +kernel⟩
  refine ((complete_iff plainFloat_go _).2 (by decide +kernel)).mpr (List.forall_mem_cons.mpr ⟨?_, ?_⟩)
  · exact (ExpositionLine.legible_iff plainFloat_go _).mpr (ExpositionLine.tells_unsampled nofun (by decide +kernel))
  · rw [List.forall_mem_singleton, ExpositionLine.Legible, if_neg (by decide +kernel)]
    exact ⟨fun _ => ⟨⟨rfl, ⟨_, rfl, rfl⟩, nofun, rfl⟩, hread⟩, fun h => absurd h (by decide)⟩

/-- A sample with a timestamp is dropped. -/
theorem stamped_dropped : ¬Complete [.sample stampedCard] := by
  intro h
  have htells := (complete_append_iff ⟨{}, rfl, rfl, rfl⟩).mp (List.nil_append [_] ▸ h)
  have hline : ∀ c ∈ (ExpositionLine.sample stampedCard).render, lineBreak c = false := by decide +kernel
  have hcompact := ((ExpositionLine.tells_health plainFloat_go hline rfl).mp htells).1
  cases hcompact.2.2.2

end GpuNodeHealth.Agent
