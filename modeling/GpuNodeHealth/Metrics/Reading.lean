import GpuNodeHealth.Metrics.Registry

/-! What a rendered registry is read as: the samples that were written, in order, and in
front of the first of each family its type, once. -/

namespace GpuNodeHealth.Metrics

open Text

variable {β : Type*} {readValue : List Char → Option β} {e : Entry} {s : Sample β}
  {declared : List (List Char)} {es : List Entry} {ps : List (Entry × Sample β)} {name : List Char}

/-- An entry whose lines are whole, and whose sample is read as one. -/
structure Entry.Reads (readValue : List Char → Option β) (e : Entry) (s : Sample β) : Prop where
  family : s.name = e.full
  named : isName e.full = true
  kind : e.mtype ∈ kinds
  help : '\n' ∉ e.helpText
  line : line? readValue e.line = some (.sample s)
  whole : '\n' ∉ e.line

/-- What the declaration of a family is read as. -/
def Entry.comments (β : Type*) (e : Entry) : List (Line β) :=
  (if e.helpText = [] then [] else [.help e.full (skip e.helpText)]) ++ [.type e.full e.mtype]

/-- What some entries are read as, where some families are declared already. -/
def readLines : List (List Char) → List (Entry × Sample β) → List (Line β)
  | _, [] => []
  | declared, (e, s) :: ps =>
    if e.full ∈ declared then .sample s :: readLines declared ps
    else e.comments β ++ .sample s :: readLines (declared ++ [e.full]) ps

/-! ### Line by line -/

theorem named_chars (h : isName name = true) {c : Char} (hc : c ∈ name) : isBlank c = false ∧ c ≠ '\n' :=
  have hchar := isName_chars h c hc
  ⟨class_blank hchar rfl rfl, class_ne hchar rfl⟩

theorem token_named (h : isName name = true) (rest : List Char) :
    token (name ++ ' ' :: rest) = (name, ' ' :: rest) := by
  refine span_written (fun c hc => by rw [(named_chars h hc).1]; rfl) ?_
  rintro _ ⟨⟩
  rfl

theorem line?_help (h : isName name = true) (doc : List Char) :
    line? readValue ("# HELP ".toList ++ (name ++ ' ' :: doc)) = some (.help name (skip doc)) := by
  have hword : token (skip (" HELP ".toList ++ (name ++ ' ' :: doc))) =
      ("HELP".toList, ' ' :: (name ++ ' ' :: doc)) := rfl
  have hskip : ∀ text, skip (' ' :: text) = skip text := fun text => rfl
  show comment? (" HELP ".toList ++ (name ++ ' ' :: doc)) = _
  rw [comment?, hword]
  dsimp only
  rw [hskip, skip_named h, token_named h]
  dsimp only
  rw [if_pos rfl, if_pos h, hskip]

theorem kinds_plain : ∀ kind ∈ kinds, token kind = (kind, []) ∧ skip kind = kind ∧ '\n' ∉ kind := by
  decide

theorem line?_type (h : isName name = true) {kind : List Char} (hkind : kind ∈ kinds) :
    line? readValue ("# TYPE ".toList ++ (name ++ ' ' :: kind)) = some (.type name kind) := by
  obtain ⟨htoken, hskipped, -⟩ := kinds_plain kind hkind
  have hword : token (skip (" TYPE ".toList ++ (name ++ ' ' :: kind))) =
      ("TYPE".toList, ' ' :: (name ++ ' ' :: kind)) := rfl
  have hskip : ∀ text, skip (' ' :: text) = skip text := fun text => rfl
  have hend : skip [] = [] := rfl
  show comment? (" TYPE ".toList ++ (name ++ ' ' :: kind)) = _
  rw [comment?, hword]
  dsimp only
  rw [hskip, skip_named h, token_named h]
  dsimp only
  rw [if_neg (by decide), if_pos rfl, hskip, hskipped, htoken]
  dsimp only
  rw [hend, h, decide_eq_true hkind]
  rfl

/-- The declaration of a family. -/
theorem Entry.Reads.declaration (h : e.Reads readValue s) :
    e.declaration.mapM (line? readValue) = some (e.comments β) ∧ ∀ line ∈ e.declaration, '\n' ∉ line := by
  have htype := @line?_type β readValue _ h.named _ h.kind
  have hhelp := @line?_help β readValue _ h.named e.helpText
  have hname : '\n' ∉ e.full := fun hmem => (named_chars h.named hmem).2 rfl
  have hkind := (kinds_plain _ h.kind).2.2
  have hdoc := h.help
  unfold Entry.declaration Entry.comments
  split_ifs
  · refine ⟨?_, ?_⟩
    · rw [List.nil_append, List.mapM_cons, htype]
      rfl
    · simp [hname, hkind]
  · refine ⟨?_, ?_⟩
    · rw [List.singleton_append, List.mapM_cons, hhelp, List.mapM_cons, htype]
      rfl
    · simp [hname, hkind, hdoc]

/-- All entries. -/
theorem mapM_written (h : ∀ p ∈ ps, p.1.Reads readValue p.2) (declared : List (List Char)) :
    (written declared (ps.map Prod.fst)).mapM (line? readValue) = some (readLines declared ps) ∧
      ∀ line ∈ written declared (ps.map Prod.fst), '\n' ∉ line := by
  induction ps generalizing declared with
  | nil => exact ⟨rfl, nofun⟩
  | cons p ps ih =>
    obtain ⟨e, s⟩ := p
    obtain ⟨hentry, hentries⟩ := List.forall_mem_cons.mp h
    obtain ⟨hdeclaration, hplain⟩ := hentry.declaration
    rw [List.map_cons, written, readLines]
    split_ifs
    · obtain ⟨hrest, hwhole⟩ := ih hentries declared
      refine ⟨?_, List.forall_mem_cons.mpr ⟨hentry.whole, hwhole⟩⟩
      rw [List.mapM_cons, hentry.line, hrest]
      rfl
    · obtain ⟨hrest, hwhole⟩ := ih hentries (declared ++ [e.full])
      refine ⟨?_, List.forall_mem_append.mpr ⟨hplain, List.forall_mem_cons.mpr ⟨hentry.whole, hwhole⟩⟩⟩
      rw [List.mapM_append, hdeclaration, List.mapM_cons, hentry.line, hrest]
      rfl

theorem written_ne_nil (h : es ≠ []) (declared : List (List Char)) : written declared es ≠ [] := by
  obtain ⟨e, es, rfl⟩ := List.exists_cons_of_ne_nil h
  rw [written]
  split_ifs <;> simp

/-- The text of a registry is read as its entries. -/
theorem parse_text (h : ∀ p ∈ ps, p.1.Reads readValue p.2) (hne : ps ≠ []) :
    parse readValue ((ps.map Prod.fst).foldl Registry.write {}).text = some (readLines [] ps) := by
  obtain ⟨hread, hwhole⟩ := mapM_written h []
  have hlines := lines_foldl {} (ps.map Prod.fst)
  rw [List.nil_append] at hlines
  have hsome : ((ps.map Prod.fst).foldl Registry.write {}).lines ≠ [] := by
    rw [hlines]
    exact written_ne_nil (by simpa using hne) _
  rw [parse, text_eq hsome, hlines, lines?_flatMap hwhole]
  exact hread

/-! ### The calls of `metric` -/

theorem isKey_newline (h : isKey name = true) : '\n' ∉ name := class_not_mem (isKey_chars h) rfl

theorem sampleLine_newline {labels : List Label} {value : List Char} (hname : isName name = true)
    (hlabels : ∀ label ∈ labels, isKey label.1 = true) (hvalue : '\n' ∉ value) :
    '\n' ∉ sampleLine name labels value := by
  have hfull : '\n' ∉ name := fun hmem => (named_chars hname hmem).2 rfl
  have hinside : '\n' ∉ [','].intercalate (labels.map renderLabel) := by
    intro hmem
    rcases mem_intercalate hmem with hcomma | ⟨text, htext, hmem⟩
    · cases hcomma
    · obtain ⟨label, hlabel, rfl⟩ := List.mem_map.mp htext
      simp [renderLabel, isKey_newline (hlabels label hlabel), esc_newline] at hmem
  unfold sampleLine
  dsimp only
  split_ifs
  · simp [hfull, hvalue]
  · simp [hfull, hvalue, hinside]

/-- The value of a metric, with its labels. -/
def Metric.sample (m : Metric) (full : List Char) (value : β) : Sample β where
  name := full
  labels := m.labelSet
  value

/-- A metric that is well named is read as what it is. -/
theorem Metric.entry_reads {m : Metric} {full : List Char} {v : β} (hfull : isName full = true)
    (hlabels : ∀ label ∈ m.labelSet, isKey label.1 = true) (hkind : m.mtype.toList ∈ kinds)
    (hhelp : '\n' ∉ m.helpText.toList) (hread : readValue m.value.str = some v) :
    (m.entry full m.labelSet).Reads readValue (m.sample full v) where
  family := rfl
  named := hfull
  kind := hkind
  help := hhelp
  line := line?_sampleLine hfull hlabels m.value.str_numeral m.value.str_ne_nil hread
  whole := sampleLine_newline hfull hlabels fun hmem => (numeral_blank (m.value.str_numeral _ hmem)).2.2 rfl

/-! ### What the lines are -/

theorem comments_unsampled (e : Entry) : ∀ line ∈ e.comments β, line.sample? = none := by
  unfold Entry.comments
  split_ifs <;> simp [Line.sample?]

theorem comments_types (e : Entry) (name : List Char) :
    (e.comments β).countP (Line.types name) = if e.full = name then 1 else 0 := by
  unfold Entry.comments
  split_ifs <;> simp_all [Line.types]

/-- The samples, in order. -/
theorem samples_readLines (declared : List (List Char)) (ps : List (Entry × Sample β)) :
    (readLines declared ps).filterMap Line.sample? = ps.map Prod.snd := by
  induction ps generalizing declared with
  | nil => rfl
  | cons p ps ih =>
    obtain ⟨e, s⟩ := p
    rw [readLines]
    split_ifs
    · exact congrArg (s :: ·) (ih declared)
    · rw [List.filterMap_append, List.filterMap_eq_nil_iff.mpr (comments_unsampled e), List.nil_append]
      exact congrArg (s :: ·) (ih _)

/-- A declared family is not declared again. -/
theorem types_declared (h : name ∈ declared) (ps : List (Entry × Sample β)) :
    (readLines declared ps).countP (Line.types name) = 0 := by
  induction ps generalizing declared with
  | nil => rfl
  | cons p ps ih =>
    obtain ⟨e, s⟩ := p
    rw [readLines]
    split_ifs with hdeclared
    · rw [List.countP_cons_of_neg (by simp [Line.types]), ih h]
    · have hother : e.full ≠ name := fun heq => hdeclared (heq ▸ h)
      rw [List.countP_append, comments_types, if_neg hother, List.countP_cons_of_neg (by simp [Line.types]),
        ih (List.mem_append_left _ h)]

/-- In front of a sample its family is declared once, unless it was before, and behind
it is not. -/
theorem types_once (hfamily : ∀ p ∈ ps, p.2.name = p.1.full) {front back : List (Line β)}
    (hlines : readLines declared ps = front ++ .sample s :: back) :
    front.countP (Line.types s.name) = (if s.name ∈ declared then 0 else 1) ∧
      back.countP (Line.types s.name) = 0 := by
  induction ps generalizing declared front with
  | nil => exact absurd hlines.symm (by simp [readLines])
  | cons p ps ih =>
    obtain ⟨e, s'⟩ := p
    obtain ⟨hentry, hentries⟩ := List.forall_mem_cons.mp hfamily
    have hentry : s'.name = e.full := hentry
    rw [readLines] at hlines
    split_ifs at hlines with hdeclared
    · cases front with
      | nil =>
        rw [List.nil_append, List.cons.injEq, Line.sample.injEq] at hlines
        obtain ⟨rfl, rfl⟩ := hlines
        have hmem : s'.name ∈ declared := hentry ▸ hdeclared
        exact ⟨(if_pos hmem).symm, types_declared hmem ps⟩
      | cons line front =>
        rw [List.cons_append, List.cons.injEq] at hlines
        obtain ⟨rfl, hrest⟩ := hlines
        rw [List.countP_cons_of_neg (by simp [Line.types])]
        exact ih hentries hrest
    · -- the declaration has no sample, so it is in front
      obtain ⟨front', rfl, hrest⟩ : ∃ front', front = e.comments β ++ front' ∧
          .sample s' :: readLines (declared ++ [e.full]) ps = front' ++ .sample s :: back := by
        rcases List.append_eq_append_iff.mp hlines with ⟨front', hfront, hrest⟩ | ⟨behind, hcomments, hrest⟩
        · exact ⟨front', hfront, hrest⟩
        · cases behind with
          | nil => exact ⟨[], by rw [hcomments, List.append_nil, List.append_nil], hrest.symm⟩
          | cons line behind =>
            obtain ⟨rfl, -⟩ := List.cons.inj hrest
            have hmem : Line.sample s ∈ e.comments β := by rw [hcomments]; simp
            cases comments_unsampled e _ hmem
      rw [List.countP_append, comments_types]
      cases front' with
      | nil =>
        rw [List.nil_append, List.cons.injEq, Line.sample.injEq] at hrest
        obtain ⟨rfl, rfl⟩ := hrest
        rw [if_pos hentry.symm, hentry, if_neg hdeclared]
        exact ⟨rfl, types_declared (by simp) ps⟩
      | cons line front' =>
        rw [List.cons_append, List.cons.injEq] at hrest
        obtain ⟨rfl, hrest⟩ := hrest
        obtain ⟨hfront, hback⟩ := ih hentries hrest
        rw [List.countP_cons_of_neg (by simp [Line.types]), hfront]
        refine ⟨?_, hback⟩
        by_cases hname : e.full = s.name
        · simp [hname, hname ▸ hdeclared]
        · simp [hname, Ne.symm hname]

end GpuNodeHealth.Metrics
