import GpuNodeHealth.Agent.Exposition

/-! When no failure of the probe stands for cards that are well. The condition looks at
whether the exporter answered and at the list of unhealthy cards, never at how many
samples there were or how many cards there should be. A body without samples reads as
one without unhealthy cards, and so do one that hides a dead card from the pattern and
one that shows fewer cards than it says there are. -/

namespace GpuNodeHealth.Agent

open Metrics (isName_cons nameChar_start wordChar_name)
open Text

/-! ### What a body says -/

/-- A line in the shape of a sample, about a card that is not at or above one. -/
def SickLine (line : List Char) : Prop :=
  ∃ inside value number, Written line gpuHealth inside value ∧ float? value = some number ∧ number.atLeastOne = false

/-- A line in the shape of a sample, about so many cards. -/
def TotalLine (line : List Char) (n : ℤ) : Prop :=
  ∃ inside value q, Written line gpuNodesTotal inside value ∧ float? value = some (.finite q) ∧
    n = if 0 ≤ q then ⌊q⌋ else ⌈q⌉

/-- The number of cards that lines give last. -/
def StatedTotal (lines : List (List Char)) (n : ℤ) : Prop :=
  ∃ before line after, lines = before ++ line :: after ∧ TotalLine line n ∧ ∀ l ∈ after, ∀ m, ¬TotalLine l m

section

open scoped Classical

variable (parseFloat : List Char → Option Double)

/-- A line of the format that gives the health of a card. -/
def GivesHealth (line : List Char) (number : Double) : Prop :=
  ∃ s : SampleSyntax parseFloat, s.render = line ∧ s.name = gpuHealth ∧ s.number = number

/-- The samples of the body at or above one. -/
noncomputable def healthySamples (body : List Char) : ℕ :=
  (body.splitOn '\n').countP fun line => ∃ number, GivesHealth parseFloat line number ∧ number.atLeastOne = true

/-- What no failure should stand for: a sample, none below one, and as many at or above
one as there are cards. -/
def Vouched (body : List Char) (gpuTotal : ℤ) : Prop :=
  (∃ line ∈ body.splitOn '\n', ∃ number, GivesHealth parseFloat line number) ∧
    (∀ line ∈ body.splitOn '\n', ∀ number, GivesHealth parseFloat line number → number.belowOne = false) ∧
    gpuTotal ≤ healthySamples parseFloat body

/-- There is no sample about the health of a card. -/
def Silent (body : List Char) : Prop := ∀ line ∈ body.splitOn '\n', ∀ number, ¬GivesHealth parseFloat line number

/-- A sample below one is written otherwise than compactly, with a number that `float`
does not read, or with an end of a line in a label. -/
def HidesSick (body : List Char) : Prop :=
  ∃ s : SampleSyntax parseFloat, s.render ∈ body.splitOn '\n' ∧ s.name = gpuHealth ∧ s.number.belowOne = true ∧
    ¬(s.Compact ∧ (float? s.value).isSome = true ∧ ∀ c ∈ s.render, lineBreak c = false)

/-- There are fewer samples at or above one than the body says there are cards. -/
def Short (body : List Char) : Prop :=
  ∃ n, StatedTotal (splitlines body) n ∧ (healthySamples parseFloat body : ℤ) < n

end

variable {parseFloat : List Char → Option Double} {bytes : List UInt8} {signal : ExporterSignal} {line : List Char}

/-! ### What is made of it -/

theorem reading_unhealthy_iff : (∃ card, reading line = .unhealthy card) ↔ SickLine line := by
  constructor
  · rintro ⟨card, hcard⟩
    obtain ⟨inside, value, number, hwritten, hnumber, hgives⟩ := gives_iff.mpr ⟨hcard, rfl⟩
    refine ⟨inside, value, number, hwritten, hnumber, ?_⟩
    by_contra hwell
    rw [Bool.not_eq_false] at hwell
    rw [if_pos hwell] at hgives
    cases hgives
  · rintro ⟨inside, value, number, hwritten, hnumber, hsick⟩
    exact ⟨_, (gives_iff.mp ⟨inside, value, number, hwritten, hnumber, (if_neg (by simp [hsick])).symm⟩).1⟩

theorem reading_total_iff {n : ℤ} : reading line = .total n ↔ TotalLine line n := by
  constructor
  · intro htotal
    cases hsample : sample? line with
    | none =>
      rw [reading_none hsample] at htotal
      cases htotal
    | some sample =>
      rw [reading_sample hsample] at htotal
      split_ifs at htotal with hname hhealth
      · cases hnumber : float? sample.value with
        | none => simp [totalOf, hnumber] at htotal
        | some number =>
          cases number with
          | finite q =>
            simp only [totalOf, hnumber, Reading.total.injEq] at htotal
            exact ⟨_, _, q, hname ▸ sample?_shape hsample, hnumber, htotal.symm⟩
          | _ => simp [totalOf, hnumber] at htotal
      · cases hnumber : float? sample.value with
        | none => simp [healthOf, hnumber] at htotal
        | some number =>
          simp only [healthOf, hnumber] at htotal
          split_ifs at htotal
  · rintro ⟨inside, value, q, hwritten, hnumber, rfl⟩
    rw [reading_sample (hwritten.sample? (float?_braceless hnumber)), if_pos rfl, totalOf, hnumber]

/-! ### The number of cards -/

theorem statedTotal_concat {lines : List (List Char)} {n : ℤ} : StatedTotal (lines ++ [line]) n ↔
    TotalLine line n ∨ (∀ m, ¬TotalLine line m) ∧ StatedTotal lines n := by
  constructor
  · rintro ⟨before, l, after, heq, hl, hafter⟩
    rcases List.eq_nil_or_concat after with rfl | ⟨after, last, rfl⟩
    · obtain ⟨-, hlast⟩ := List.append_inj' heq rfl
      exact .inl (List.singleton_inj.mp hlast ▸ hl)
    · rw [List.concat_eq_append] at heq hafter
      rw [← List.cons_append, ← List.append_assoc] at heq
      obtain ⟨rfl, hlast⟩ := List.append_inj' heq rfl
      rw [List.forall_mem_append] at hafter
      exact .inr ⟨hafter.2 line (hlast ▸ List.mem_singleton_self _), before, l, after, rfl, hl, hafter.1⟩
  · rintro (hline | ⟨hline, before, l, after, rfl, hl, hafter⟩)
    · exact ⟨lines, line, [], rfl, hline, by simp⟩
    · exact ⟨before, l, after ++ [line], by simp, hl,
        List.forall_mem_append.mpr ⟨hafter, List.forall_mem_singleton.mpr hline⟩⟩

/-- The number of cards that `collect` comes to is the one stated last. -/
theorem toldTotal_le_iff {lines : List (List Char)} {k : ℕ} :
    toldTotal lines ≤ k ↔ ¬∃ n, StatedTotal lines n ∧ (k : ℤ) < n := by
  induction lines using List.reverseRecOn with
  | nil => exact iff_of_true (by simp [toldTotal]) (by simp [StatedTotal])
  | append_singleton lines line ih =>
    have htold : toldTotal (lines ++ [line]) = (reading line).totalAfter (toldTotal lines) := by
      simp [toldTotal]
    rw [htold]
    simp only [statedTotal_concat, ← reading_total_iff]
    cases hreading : reading line with
    | total n => simp [Reading.totalAfter]
    | _ => simpa [Reading.totalAfter] using ih

/-! ### What the condition goes by -/

theorem scraped_eq (h : scraped bytes = .ok signal) : signal =
    Counts.signal ⟨toldTotal (splitlines (decode bytes)),
      (splitlines (decode bytes)).countP fun line => (reading line).isHealthy,
      (splitlines (decode bytes)).filterMap fun line => (reading line).card?⟩ := by
  have hraises := scraped_ok_iff.mp ⟨signal, h⟩
  rw [scraped, readBody_eq hraises] at h
  exact (Except.ok.inj h).symm

theorem probeFailed_signal (counts : Counts) : (probeFailed counts.signal).active = false ↔ counts.unhealthy = [] := by
  have hreachable : counts.signal.reachable ≠ some false := by simp [Counts.signal]
  have hcards : counts.signal.unhealthy = [] ↔ counts.unhealthy = [] := List.map_eq_nil_iff
  rw [probeFailed, if_neg hreachable, ← hcards]
  split_ifs with h
  · simpa using h
  · simpa using h

/-- What the condition goes by. -/
theorem probeFailed_scraped (h : scraped bytes = .ok signal) : (probeFailed signal).active = false ↔
    ∀ line ∈ splitlines (decode bytes), ∀ card, reading line ≠ .unhealthy card := by
  rw [scraped_eq h, probeFailed_signal, List.filterMap_eq_nil_iff]
  refine forall₂_congr fun line _ => ?_
  cases reading line <;> simp [Reading.card?]

/-! ### What it should stand for -/

theorem belowOne_atLeastOne {number : Double} (h : number.belowOne = true) : number.atLeastOne = false := by
  cases number with
  | finite q => simpa [Double.belowOne, Double.atLeastOne] using h
  | infinity negative => simpa [Double.belowOne, Double.atLeastOne] using h
  | nan => rfl

/-- A compact sample below one on a line of its own shows. -/
theorem sickLine_compact (hgo : GoFloat parseFloat) {s : SampleSyntax parseFloat} (hname : s.name = gpuHealth)
    (hbelow : s.number.belowOne = true) (hcompact : s.Compact) (hread : (float? s.value).isSome = true)
    (hline : ∀ c ∈ s.render, lineBreak c = false) : SickLine s.render := by
  have hinside : '\n' ∉ s.inside := fun h => absurd (hline _ (s.inside_render _ h)) (by decide)
  obtain ⟨number, hnumber⟩ := Option.isSome_iff_exists.mp hread
  obtain rfl := hgo.agrees s.valued hnumber
  exact ⟨_, _, _, hname ▸ sample?_shape (s.sample?_compact hgo hcompact hinside), hnumber, belowOne_atLeastOne hbelow⟩

/-- Where no sick card shows, the samples of a body vouch for its cards unless there is
none of them, one of them is sick, or there are too few. -/
theorem vouched_iff (hgo : GoFloat parseFloat) {body : List Char} (hshown : ∀ line ∈ splitlines body, ¬SickLine line) :
    Vouched parseFloat body (toldTotal (splitlines body)) ↔
      ¬(Silent parseFloat body ∨ HidesSick parseFloat body ∨ Short parseFloat body) := by
  have hsample : (∃ line ∈ body.splitOn '\n', ∃ number, GivesHealth parseFloat line number) ↔
      ¬Silent parseFloat body := by
    simp [Silent]
  have hsick : (∀ line ∈ body.splitOn '\n', ∀ number, GivesHealth parseFloat line number → number.belowOne = false) ↔
      ¬HidesSick parseFloat body := by
    constructor
    · rintro hwell ⟨s, hs, hname, hbelow, -⟩
      rw [hwell _ hs _ ⟨s, rfl, hname, rfl⟩] at hbelow
      cases hbelow
    · rintro hhides _ hline _ ⟨s, rfl, hname, rfl⟩
      by_contra hbelow
      rw [Bool.not_eq_false] at hbelow
      refine hhides ⟨s, hline, hname, hbelow, ?_⟩
      rintro ⟨hcompact, hread, hunbroken⟩
      have hsickLine := sickLine_compact hgo hname hbelow hcompact hread hunbroken
      obtain ⟨_, _, _, hwritten, -⟩ := id hsickLine
      exact hshown _ (mem_splitlines_of_splitOn hline hwritten.ne_nil hunbroken) hsickLine
  rw [Vouched, hsample, hsick, toldTotal_le_iff, not_or, not_or]
  rfl

/-- No failure stands for cards that are well exactly if the body shows a sick card, or
raises, or has samples, hides no sick card, and is not short of cards. -/
theorem probe_vouched_iff (hgo : GoFloat parseFloat) (bytes : List UInt8) :
    (∀ signal, scraped bytes = .ok signal → ∀ (evaluator : ConditionEvaluator) (call : Evaluation),
      call.exporter = signal → ((evaluator.evaluate call).1 .gpuProbeFailed).active = false →
        Vouched parseFloat (decode bytes) signal.gpuTotal) ↔
    (∃ line ∈ splitlines (decode bytes), SickLine line ∨ InfiniteLine line) ∨
      ¬(Silent parseFloat (decode bytes) ∨ HidesSick parseFloat (decode bytes) ∨ Short parseFloat (decode bytes)) := by
  by_cases hshown : ∃ line ∈ splitlines (decode bytes), SickLine line ∨ InfiniteLine line
  · refine iff_of_true ?_ (.inl hshown)
    obtain ⟨line, hline, hsick | hinfinite⟩ := hshown
    · rintro signal hok evaluator call rfl hinactive
      obtain ⟨card, hcard⟩ := reading_unhealthy_iff.mpr hsick
      exact absurd hcard ((probeFailed_scraped hok).mp hinactive line hline card)
    · rintro signal hok
      exact absurd (reading_overflow_iff_line.mpr hinfinite) (scraped_ok_iff.mp ⟨_, hok⟩ line hline)
  · simp only [not_exists, not_and, not_or] at hshown
    obtain ⟨signal, hok⟩ := scraped_ok_iff.mpr fun line hline => mt reading_overflow_iff_line.mp (hshown line hline).2
    have hinactive := (probeFailed_scraped hok).mpr fun line hline card hcard =>
      (hshown line hline).1 (reading_unhealthy_iff.mp ⟨card, hcard⟩)
    have htotal : signal.gpuTotal = toldTotal (splitlines (decode bytes)) := by rw [scraped_eq hok]; rfl
    rw [or_iff_right (by simpa using hshown), ← vouched_iff hgo fun line hline => (hshown line hline).1, ← htotal]
    constructor
    · exact fun h => h signal hok {} { now := 0, exporter := signal } rfl hinactive
    · intro hvouched signal' hok' evaluator call _ _
      cases hok.symm.trans hok'
      exact hvouched

/-- That there are two cards, a healthy one, and a dead one with a timestamp. -/
def twoCards : List UInt8 :=
  ascii "gpu_nodes_total\x7b\x7d 2\ngpu_health\x7bgpu_id=\"0\"\x7d 1\ngpu_health\x7bgpu_id=\"1\"\x7d 0 1700000000\n"

theorem probe_vouched_iff_twoCards :
    (∀ signal, scraped twoCards = .ok signal → ∀ (evaluator : ConditionEvaluator) (call : Evaluation),
      call.exporter = signal → ((evaluator.evaluate call).1 .gpuProbeFailed).active = false →
        Vouched plainFloat (decode twoCards) signal.gpuTotal) ↔
    (∃ line ∈ splitlines (decode twoCards), SickLine line ∨ InfiniteLine line) ∨
      ¬(Silent plainFloat (decode twoCards) ∨ HidesSick plainFloat (decode twoCards) ∨
        Short plainFloat (decode twoCards)) :=
  probe_vouched_iff plainFloat_go twoCards

/-! ### Blank bodies -/

/-- A body of whitespace alone, which the guard takes for that of a dead exporter, is
no failure of the probe. -/
theorem blank_inactive (h : ∀ c ∈ decode bytes, Pattern.isSpace c = true) :
    ∃ signal, scraped bytes = .ok signal ∧ (probeFailed signal).active = false := by
  have hnothing : ∀ line ∈ splitlines (decode bytes), reading line = .nothing := by
    intro line hline
    refine reading_none (sample?_head fun c hc => ?_)
    have hspace := h c (mem_splitlines hline c (List.mem_of_head? hc))
    by_contra hstart
    rw [word_space (wordChar_name (nameChar_start (by simpa using hstart)))] at hspace
    cases hspace
  obtain ⟨signal, hok⟩ := scraped_ok_iff.mpr fun line hline => by rw [hnothing line hline]; nofun
  exact ⟨signal, hok, (probeFailed_scraped hok).mpr fun line hline card => by rw [hnothing line hline]; nofun⟩

theorem blank_silent {body : List Char} (h : ∀ c ∈ body, Pattern.isSpace c = true) : Silent parseFloat body := by
  rintro line hline number ⟨s, hrender, -⟩
  obtain ⟨c, name, hname, hstart⟩ := isName_cons s.named
  have hline' : c ∈ line := by
    rw [← hrender, Metrics.SampleSyntax.render, hname]
    simp
  have hsplit : ['\n'].intercalate (body.splitOn '\n') = body := List.intercalate_splitOn '\n'
  have hbody : c ∈ body := hsplit ▸ mem_intercalate_of_mem hline hline'
  have hspace := h c hbody
  rw [word_space (wordChar_name (nameChar_start hstart))] at hspace
  cases hspace

/-- So is an empty one. -/
theorem empty_body_healthy : ¬∀ bytes signal, scraped bytes = .ok signal →
    ∀ (evaluator : ConditionEvaluator) (call : Evaluation), call.exporter = signal →
      ((evaluator.evaluate call).1 .gpuProbeFailed).active = false →
        Vouched plainFloat (decode bytes) signal.gpuTotal := by
  intro h
  have hblank : ∃ signal, scraped [] = .ok signal ∧ (probeFailed signal).active = false := blank_inactive (by decide)
  obtain ⟨signal, hok, hinactive⟩ := hblank
  obtain ⟨⟨line, hline, number, hhealth⟩, -⟩ := h [] signal hok {} { now := 0, exporter := signal } rfl hinactive
  exact blank_silent (by decide) line hline number hhealth

end GpuNodeHealth.Agent
