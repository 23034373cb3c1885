import GpuNodeHealth.Agent.Exposition

/-! Labels from the writer to the reader. The agent escapes three characters of a label
value; the probe takes back the escape of one of them, the quote. -/

namespace GpuNodeHealth.Agent

open Metrics (cons_of_head esc esc_eq esc_newline escaped isKey isKey_chars isKey_iff keyChar keyStart renderLabel)
open Text (mem_intercalate)

variable {c : Char} {value rest : List Char}

/-! ### Writing -/

/-- A line as `metric` writes it. -/
def metricLine (full : List Char) (labels : List (List Char × List Char)) (value : List Char) : List Char :=
  full ++ '{' :: ([','].intercalate (labels.map renderLabel) ++ '}' :: ' ' :: value)

/-! ### Reading -/

/-- An escaped value ends at the quote behind it. -/
theorem quoted_esc (value rest : List Char) : quoted (esc value ++ '"' :: rest) = some (esc value, rest) := by
  rw [esc_eq]
  induction value with
  | nil => rfl
  | cons c value ih =>
    rw [List.flatMap_cons, List.append_assoc]
    by_cases hbackslash : c = '\\'
    · subst hbackslash
      simp [escaped, quoted, ih]
    by_cases hquote : c = '"'
    · subst hquote
      simp [escaped, quoted, ih]
    by_cases hnewline : c = '\n'
    · subst hnewline
      simp [escaped, quoted, ih]
    simp [escaped, hbackslash, hquote, hnewline, quoted, ih]

theorem escaped_head (value : List Char) : (value.flatMap escaped).head? ≠ some '"' := by
  cases value with
  | nil => nofun
  | cons c value =>
    rw [List.flatMap_cons, escaped]
    split_ifs with hbackslash hquote hnewline
    · exact (by decide : '\\' ≠ '"') ∘ Option.some.inj
    · exact (by decide : '\\' ≠ '"') ∘ Option.some.inj
    · exact (by decide : '\\' ≠ '"') ∘ Option.some.inj
    · exact fun h => hquote (Option.some.inj h)

/-- A backslash stays, unless a quote follows. -/
theorem unquote_cons (h : c ≠ '\\' ∨ rest.head? ≠ some '"') : unquote (c :: rest) = c :: unquote rest := by
  rw [unquote.eq_2]
  rintro rest' rfl rfl
  exact h.elim (absurd rfl) (absurd rfl)

/-- What a character is after both. -/
def doubled (c : Char) : List Char := if c = '"' then ['"'] else escaped c

theorem unquote_esc (value : List Char) : unquote (esc value) = value.flatMap doubled := by
  rw [esc_eq]
  induction value with
  | nil => rfl
  | cons c value ih =>
    rw [List.flatMap_cons, List.flatMap_cons, ← ih]
    by_cases hbackslash : c = '\\'
    · subst hbackslash
      have hdoubled : doubled '\\' = ['\\', '\\'] := rfl
      have hescaped : escaped '\\' = ['\\', '\\'] := rfl
      rw [hdoubled, hescaped]
      exact (unquote_cons (.inr (by simp))).trans
        (congrArg _ (unquote_cons (.inr (escaped_head value))))
    by_cases hquote : c = '"'
    · subst hquote
      simp [escaped, doubled, unquote]
    by_cases hnewline : c = '\n'
    · subst hnewline
      simp [escaped, doubled, unquote]
    simp [escaped, doubled, hbackslash, hquote, hnewline, unquote]

theorem length_doubled (value : List Char) : value.length ≤ (value.flatMap doubled).length := by
  induction value with
  | nil => exact le_rfl
  | cons c value ih =>
    have hc : 1 ≤ (doubled c).length := by
      unfold doubled escaped
      split_ifs <;> simp
    rw [List.flatMap_cons, List.length_append, List.length_cons]
    omega

/-- A value comes back unless it has a backslash or a newline. -/
theorem unquote_esc_iff : unquote (esc value) = value ↔ '\\' ∉ value ∧ '\n' ∉ value := by
  rw [unquote_esc]
  induction value with
  | nil => simp
  | cons c value ih =>
    rw [List.flatMap_cons]
    by_cases hplain : c = '\\' ∨ c = '\n'
    · have hlonger : (doubled c).length = 2 := by rcases hplain with rfl | rfl <;> rfl
      refine iff_of_false (fun h => ?_) fun h => ?_
      · have hlength := congrArg List.length h
        have hrest := length_doubled value
        rw [List.length_append, List.length_cons] at hlength
        omega
      · rcases hplain with rfl | rfl
        · exact h.1 List.mem_cons_self
        · exact h.2 List.mem_cons_self
    · obtain ⟨hbackslash, hnewline⟩ := not_or.mp hplain
      have hdoubled : doubled c = [c] := by
        by_cases hquote : c = '"' <;> simp [doubled, escaped, hbackslash, hquote, hnewline]
      rw [hdoubled, List.singleton_append, List.cons.injEq, ih]
      simp [Ne.symm hbackslash, Ne.symm hnewline]

/-! ### A label set -/

theorem labelAt_render {name : List Char} (h : isKey name = true) (value rest : List Char) :
    labelAt (renderLabel (name, value) ++ rest) = some ((name, esc value), rest) := by
  rw [isKey_iff] at h
  have htext : renderLabel (name, value) ++ rest = name ++ '=' :: '"' :: (esc value ++ '"' :: rest) := by
    simp [renderLabel]
  have hhead : (name ++ '=' :: '"' :: (esc value ++ '"' :: rest)).head?.any keyStart = true := by
    obtain ⟨c, name, rfl, hc⟩ := cons_of_head h.1
    exact hc
  have hstop : ¬keyChar '=' = true := by decide
  rw [htext, labelAt, if_pos hhead, List.dropWhile_append_of_pos h.2, List.takeWhile_append_of_pos h.2,
    List.dropWhile_cons_of_neg hstop, List.takeWhile_cons_of_neg hstop, List.append_nil]
  show (quoted (esc value ++ '"' :: rest)).map (fun p => ((name, p.1), p.2)) = _
  rw [quoted_esc]
  rfl

theorem labelsFrom_length (text rest : List Char) : labelsFrom text.length (text ++ rest) = labelsFrom 0 rest := by
  induction text with
  | nil => rfl
  | cons c text ih => exact ih

/-- A label is found, and the search goes on behind it. -/
theorem labelsFrom_render {name : List Char} (h : isKey name = true) (value rest : List Char) :
    labelsFrom 0 (renderLabel (name, value) ++ rest) = (name, esc value) :: labelsFrom 0 rest := by
  have hat := labelAt_render h value rest
  cases hrender : renderLabel (name, value) with
  | nil => simp [renderLabel] at hrender
  | cons c text =>
    rw [hrender, List.cons_append] at hat
    rw [List.cons_append, labelsFrom, hat]
    dsimp only
    rw [List.length_append, Nat.add_sub_cancel, labelsFrom_length]

theorem labelsFrom_rendered {labels : List (List Char × List Char)} (h : ∀ label ∈ labels, isKey label.1 = true) :
    labelsFrom 0 ([','].intercalate (labels.map renderLabel)) = labels.map fun label => (label.1, esc label.2) := by
  induction labels with
  | nil => rfl
  | cons label labels ih =>
    obtain ⟨hlabel, hlabels⟩ := List.forall_mem_cons.mp h
    cases labels with
    | nil =>
      rw [List.map_singleton, List.intercalate_singleton, ← List.append_nil (renderLabel label)]
      exact labelsFrom_render hlabel label.2 []
    | cons label' labels =>
      have hcomma : ∀ rest, labelsFrom 0 (',' :: rest) = labelsFrom 0 rest := fun rest => rfl
      rw [List.map_cons, List.map_cons, List.intercalate_cons_cons, List.append_assoc]
      refine (labelsFrom_render hlabel label.2 _).trans ?_
      rw [List.singleton_append, hcomma, ← List.map_cons, ih hlabels]
      rfl

/-! ### A card -/

/-- The labels that say which card it is, and who has it. -/
def cardLabels (gpuId ns pod container : List Char) : List (List Char × List Char) :=
  [("gpu_id".toList, gpuId), ("namespace".toList, ns), ("pod".toList, pod), ("container".toList, container)]

/-- The labels of a card come back from the line of its sample. -/
def ReadsBack (gpuId ns pod container : List Char) : Prop :=
  ∃ sample, sample? (metricLine gpuHealth (cardLabels gpuId ns pod container) ['0']) = some sample ∧
    sample.name = gpuHealth ∧ parseLabels sample.labels "gpu_id" = some gpuId ∧
    parseLabels sample.labels "namespace" = some ns ∧ parseLabels sample.labels "pod" = some pod ∧
    parseLabels sample.labels "container" = some container

theorem cardLabels_named {gpuId ns pod container : List Char} :
    ∀ label ∈ cardLabels gpuId ns pod container, isKey label.1 = true := by
  unfold cardLabels
  simp only [List.forall_mem_cons]
  decide

theorem cardLabels_nodup {gpuId ns pod container : List Char} :
    ((cardLabels gpuId ns pod container).map Prod.fst).Nodup := by
  simp only [cardLabels, List.map_cons, List.map_nil]
  decide

theorem sample?_metricLine {labels : List (List Char × List Char)} (h : ∀ label ∈ labels, isKey label.1 = true) :
    sample? (metricLine gpuHealth labels ['0']) =
      some ⟨gpuHealth, [','].intercalate (labels.map renderLabel), ['0']⟩ := by
  have hinside : '\n' ∉ [','].intercalate (labels.map renderLabel) := by
    intro hnewline
    rcases mem_intercalate hnewline with hc | ⟨text, htext, hc⟩
    · cases hc
    · obtain ⟨label, hlabel, rfl⟩ := List.mem_map.mp htext
      have hname : '\n' ∉ label.1 := fun hmem => absurd (isKey_chars (h label hlabel) _ hmem) (by decide)
      simp [renderLabel, hname, esc_newline] at hc
  rw [metricLine, sample?_named (by decide) rfl, if_pos rfl,
    labelsValue_written hinside (by decide) (show sampleTail [' ', '0'] = some ['0'] from rfl)]
  rfl

/-- Of labels with names of their own each is found under its name. -/
theorem find?_reverse {labels : List (List Char × List Char)} (hnodup : (labels.map Prod.fst).Nodup)
    {label : List Char × List Char} (h : label ∈ labels) :
    (labels.reverse.find? fun l => l.1 = label.1) = some label := by
  cases hfind : labels.reverse.find? fun l => l.1 = label.1 with
  | none => simpa using List.find?_eq_none.mp hfind label (List.mem_reverse.mpr h)
  | some found =>
    have hmem := List.mem_reverse.mp (List.mem_of_find?_eq_some hfind)
    have hname : found.1 = label.1 := by simpa using List.find?_some hfind
    rw [List.inj_on_of_nodup_map hnodup hmem h hname]

theorem parseLabels_rendered {labels : List (List Char × List Char)} (hnamed : ∀ label ∈ labels, isKey label.1 = true)
    (hnodup : (labels.map Prod.fst).Nodup) {key : String} {value : List Char} (h : (key.toList, value) ∈ labels) :
    parseLabels ([','].intercalate (labels.map renderLabel)) key = some (unquote (esc value)) := by
  have hmem : (key.toList, esc value) ∈ labels.map fun label => (label.1, esc label.2) :=
    List.mem_map.mpr ⟨_, h, rfl⟩
  have hnames : (labels.map fun label => (label.1, esc label.2)).map Prod.fst = labels.map Prod.fst :=
    List.map_map
  rw [parseLabels, labelsFrom_rendered hnamed, find?_reverse (hnames ▸ hnodup) hmem]
  rfl

/-- The labels come back exactly if no value has a backslash or a newline. -/
theorem reads_back_iff (gpuId ns pod container : List Char) :
    ReadsBack gpuId ns pod container ↔ ∀ value ∈ [gpuId, ns, pod, container], '\\' ∉ value ∧ '\n' ∉ value := by
  have hread : ∀ key value, (String.toList key, value) ∈ cardLabels gpuId ns pod container →
      (parseLabels ([','].intercalate ((cardLabels gpuId ns pod container).map renderLabel)) key = some value ↔
        '\\' ∉ value ∧ '\n' ∉ value) := by
    intro key value h
    rw [parseLabels_rendered cardLabels_named cardLabels_nodup h, Option.some.injEq, unquote_esc_iff]
  have hgpu := hread "gpu_id" gpuId (by simp [cardLabels])
  have hns := hread "namespace" ns (by simp [cardLabels])
  have hpod := hread "pod" pod (by simp [cardLabels])
  have hcontainer := hread "container" container (by simp [cardLabels])
  rw [ReadsBack, sample?_metricLine cardLabels_named]
  simp only [Option.some.injEq, exists_eq_left', true_and, hgpu, hns, hpod, hcontainer, List.forall_mem_cons,
    List.not_mem_nil, IsEmpty.forall_iff, implies_true, and_true]

/-- One with a backslash does not. -/
theorem backslash_misread : ¬ReadsBack ['3'] ['a', '\\', 'b'] ['p'] ['c'] := by
  rintro ⟨sample, hsample, -, -, hns, -⟩
  rw [sample?_metricLine cardLabels_named] at hsample
  obtain rfl := Option.some.inj hsample
  revert hns
  decide +kernel

end GpuNodeHealth.Agent
