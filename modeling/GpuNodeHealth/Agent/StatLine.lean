import GpuNodeHealth.Agent.DState

/-! The line in which the kernel shows a task. The name of the task stands between
parentheses and may hold anything; the fields after it hold neither blanks nor
parentheses. So whatever the name, the line is read back. -/

namespace GpuNodeHealth.Agent

open Text

/-- A field after the name. -/
structure StatField where
  text : List Char
  nonempty : text ≠ []
  plain : ∀ c ∈ text, Pattern.isSpace c = false ∧ c ≠ ')'

/-- What a task is shown with; its state is one character. -/
structure StatLine where
  pid : ℕ
  comm : List Char
  state : Char
  fields : List StatField
  stateful : Pattern.isSpace state = false ∧ state ≠ ')'

/-- The fields after the state, each with a blank before it. -/
def renderFields (fields : List StatField) : List Char := fields.flatMap fun f => ' ' :: f.text

def StatLine.render (l : StatLine) : List Char :=
  (toString l.pid).toList ++ ' ' :: '(' :: (l.comm ++ ')' :: ' ' :: l.state :: renderFields l.fields)

/-- `_read_stat`, from the decoded text on. -/
def parseStat (raw : List Char) : Option StatInfo :=
  let close := raw.length - 1 - raw.reverse.idxOf ')'
  let openParen := raw.idxOf '('
  if ')' ∉ raw ∨ '(' ∉ raw ∨ close < openParen then none
  else do
    let rest := split (raw.drop (close + 2))
    let state ← rest[0]?
    let starttime ← rest[19]? >>= int?
    return { comm := (raw.take close).drop (openParen + 1), state, starttime }

variable {word rest before comm : List Char} {fields : List StatField} {l l' : StatLine} {starttime starttime' : ℤ}

theorem readStat_ok (bytes : List UInt8) : readStat (.ok bytes) = parseStat (decode bytes) := rfl

/-! ### Splitting -/

theorem split_blank (h : ∀ c ∈ rest, Pattern.isSpace c = true) : split rest = [] := by
  induction rest with
  | nil => simp [split]
  | cons c rest ih =>
    obtain ⟨hc, hrest⟩ := List.forall_mem_cons.mp h
    have hsplit : List.splitOnP Pattern.isSpace (c :: rest) = [] :: List.splitOnP Pattern.isSpace rest :=
      List.splitOnP_append_cons [] rest hc
    rw [split, hsplit, List.filter_cons_of_neg (by simp)]
    exact ih hrest

/-- A word ends at a blank, or with the text. -/
theorem split_word (hne : word ≠ []) (hword : ∀ c ∈ word, Pattern.isSpace c = false)
    (hrest : ∀ c ∈ rest.head?, Pattern.isSpace c = true) : split (word ++ rest) = word :: split rest := by
  have hkept : ∀ ws : List (List Char), (word :: ws).filter (!·.isEmpty) = word :: ws.filter (!·.isEmpty) :=
    fun ws => List.filter_cons_of_pos (by simpa using hne)
  cases rest with
  | nil =>
    rw [List.append_nil, split, List.splitOnP_eq_singleton hword, hkept]
    simp [split]
  | cons c rest =>
    have hc : Pattern.isSpace c = true := hrest c rfl
    have hnil : List.splitOnP Pattern.isSpace (c :: rest) = [] :: List.splitOnP Pattern.isSpace rest :=
      List.splitOnP_append_cons [] rest hc
    rw [split, List.splitOnP_append_cons word rest hc, List.splitOnP_eq_singleton hword, List.singleton_append,
      hkept, split, hnil, List.filter_cons_of_neg (by simp)]

/-- What follows a word is a blank. -/
theorem head_fields (fields : List StatField) (hrest : ∀ c ∈ rest, Pattern.isSpace c = true) :
    ∀ c ∈ (renderFields fields ++ rest).head?, Pattern.isSpace c = true := by
  intro c hc
  cases fields with
  | nil => exact hrest c (List.mem_of_mem_head? hc)
  | cons f fields =>
    obtain rfl : ' ' = c := Option.some.inj hc
    decide

theorem split_fields (fields : List StatField) (hrest : ∀ c ∈ rest, Pattern.isSpace c = true) :
    split (renderFields fields ++ rest) = fields.map StatField.text := by
  induction fields with
  | nil => exact split_blank hrest
  | cons f fields ih =>
    have hblank : Pattern.isSpace ' ' = true := by decide
    have hfront : List.splitOnP Pattern.isSpace (' ' :: (f.text ++ (renderFields fields ++ rest))) =
        [] :: List.splitOnP Pattern.isSpace (f.text ++ (renderFields fields ++ rest)) :=
      List.splitOnP_append_cons [] _ hblank
    rw [renderFields, List.flatMap_cons, ← renderFields, List.append_assoc, List.cons_append, split, hfront,
      List.filter_cons_of_neg (by simp), ← split, split_word f.nonempty (fun c hc => (f.plain c hc).1)
        (head_fields fields hrest), ih, List.map_cons]

/-! ### Reading a line back -/

theorem idxOf_first {c : Char} (h : c ∉ before) : (before ++ c :: rest).idxOf c = before.length := by
  rw [List.idxOf_append, if_neg h, List.idxOf_cons_self, Nat.zero_add]

/-- What a name between parentheses is cut out by, if no parenthesis opens before
it, and none closes after it. -/
theorem parseStat_cut (hopen : '(' ∉ before) (hclose : ')' ∉ rest) :
    parseStat (before ++ '(' :: (comm ++ ')' :: ' ' :: rest)) = do
      let state ← (split rest)[0]?
      let starttime ← (split rest)[19]? >>= int?
      return ⟨comm, state, starttime⟩ := by
  have hraw : before ++ '(' :: (comm ++ ')' :: ' ' :: rest) =
      (before ++ '(' :: comm) ++ ')' :: ' ' :: rest := by simp
  have hlast : (before ++ '(' :: (comm ++ ')' :: ' ' :: rest)).length - 1 -
      (before ++ '(' :: (comm ++ ')' :: ' ' :: rest)).reverse.idxOf ')' = (before ++ '(' :: comm).length := by
    have hreverse : (before ++ '(' :: (comm ++ ')' :: ' ' :: rest)).reverse =
        (' ' :: rest).reverse ++ ')' :: (before ++ '(' :: comm).reverse := by simp
    have hnot : ')' ∉ (' ' :: rest).reverse := by
      rw [List.mem_reverse, List.mem_cons, not_or]
      exact ⟨by decide, hclose⟩
    rw [hreverse, idxOf_first hnot, hraw]
    simp only [List.length_append, List.length_cons, List.length_reverse]
    omega
  have htake : ((before ++ '(' :: comm) ++ ')' :: ' ' :: rest).take (before ++ '(' :: comm).length =
      before ++ '(' :: comm := List.take_left
  have hdrop : ((before ++ '(' :: comm) ++ ')' :: ' ' :: rest).drop ((before ++ '(' :: comm).length + 2) = rest := by
    rw [← List.drop_drop, List.drop_left]
    rfl
  have hname : (before ++ '(' :: comm).drop (before.length + 1) = comm := by
    rw [← List.drop_drop, List.drop_left]
    rfl
  unfold parseStat
  simp only [hlast, idxOf_first hopen]
  rw [if_neg (by simp), hraw, htake, hdrop, hname]

theorem digits_closed (n : ℕ) : ∀ c ∈ (toString n).toList, c ≠ '(' := by
  intro c hc
  rw [show toString n = String.ofList (Nat.toDigits 10 n) from rfl, String.toList_ofList] at hc
  have hdigit := Nat.isDigit_of_mem_toDigits (by omega) (by omega) hc
  rintro rfl
  exact absurd hdigit (by decide)

/-- A task's line is read back, blanks at its end or not. -/
theorem parseStat_render (h : l.fields[18]?.bind (fun f => int? f.text) = some starttime)
    (hrest : ∀ c ∈ rest, Pattern.isSpace c = true) :
    parseStat (l.render ++ rest) = some ⟨l.comm, [l.state], starttime⟩ := by
  have hshape : l.render ++ rest = ((toString l.pid).toList ++ [' ']) ++
      '(' :: (l.comm ++ ')' :: ' ' :: (l.state :: renderFields l.fields ++ rest)) := by
    simp [StatLine.render]
  have hopen : '(' ∉ (toString l.pid).toList ++ [' '] := by
    intro hmem
    rcases List.mem_append.mp hmem with hmem | hmem
    · exact digits_closed l.pid _ hmem rfl
    · exact absurd (List.mem_singleton.mp hmem) (by decide)
  have hclose : ')' ∉ l.state :: renderFields l.fields ++ rest := by
    intro hmem
    rcases List.mem_append.mp hmem with hmem | hmem
    · rcases List.mem_cons.mp hmem with heq | hmem
      · exact l.stateful.2 heq.symm
      · obtain ⟨f, -, hmem⟩ := List.mem_flatMap.mp hmem
        rcases List.mem_cons.mp hmem with heq | hmem
        · exact absurd heq (by decide)
        · exact (f.plain _ hmem).2 rfl
    · exact absurd (hrest _ hmem) (by decide)
  have hsplit : split (l.state :: renderFields l.fields ++ rest) = [l.state] :: l.fields.map StatField.text := by
    have hword : split ([l.state] ++ (renderFields l.fields ++ rest)) = [l.state] :: split _ :=
      split_word (by simp) (by simpa using l.stateful.1) (head_fields l.fields hrest)
    rw [← split_fields l.fields hrest]
    exact hword
  obtain ⟨f, hf, hint⟩ := Option.bind_eq_some_iff.mp h
  rw [hshape, parseStat_cut hopen hclose, hsplit]
  simp [List.getElem?_map, hf, hint]

/-- The line of a task is read back as its name, its state and its start, whatever
the name; so the lines of two tasks that differ in these are told apart. -/
theorem stat_reads_back :
    (∀ bytes, readStat (.ok bytes) = parseStat (decode bytes)) ∧
    (∀ (l : StatLine) (starttime : ℤ) (rest : List Char), l.fields[18]?.bind (fun f => int? f.text) = some starttime →
      (∀ c ∈ rest, Pattern.isSpace c = true) →
        parseStat (l.render ++ rest) = some ⟨l.comm, [l.state], starttime⟩) ∧
    ∀ (l l' : StatLine) (starttime starttime' : ℤ) (rest rest' : List Char),
      l.fields[18]?.bind (fun f => int? f.text) = some starttime →
      l'.fields[18]?.bind (fun f => int? f.text) = some starttime' →
      (∀ c ∈ rest, Pattern.isSpace c = true) → (∀ c ∈ rest', Pattern.isSpace c = true) →
      (l.comm, l.state, starttime) ≠ (l'.comm, l'.state, starttime') →
        parseStat (l.render ++ rest) ≠ parseStat (l'.render ++ rest') := by
  refine ⟨readStat_ok, fun l starttime rest h hrest => parseStat_render h hrest, ?_⟩
  intro l l' starttime starttime' rest rest' h h' hrest hrest' hne heq
  rw [parseStat_render h hrest, parseStat_render h' hrest', Option.some.injEq, StatInfo.mk.injEq] at heq
  obtain ⟨hcomm, hstate, hstart⟩ := heq
  refine hne ?_
  rw [hcomm, List.singleton_inj.mp hstate, hstart]

def statField (s : String) (h : s.toList ≠ [] ∧ ∀ c ∈ s.toList, Pattern.isSpace c = false ∧ c ≠ ')') : StatField :=
  ⟨s.toList, h.1, h.2⟩

/-- A thread that calls itself after the end of a line. -/
def spoofed (state : Char) (h : Pattern.isSpace state = false ∧ state ≠ ')') : StatLine where
  pid := 4242
  comm := "x) R 1 1 1 0 -1 0 0 0 0 0 0 0 0 0 20 0 1 0 7 (y".toList
  state := state
  fields := List.replicate 18 (statField "0" (by decide)) ++ [statField "98765" (by decide)]
  stateful := h

theorem stat_reads_back_spoofed :
    parseStat ((spoofed 'D' (by decide)).render ++ ['\n']) =
        some ⟨"x) R 1 1 1 0 -1 0 0 0 0 0 0 0 0 0 20 0 1 0 7 (y".toList, ['D'], 98765⟩ ∧
      parseStat ((spoofed 'D' (by decide)).render ++ ['\n']) ≠ parseStat ((spoofed 'S' (by decide)).render ++ []) :=
  ⟨stat_reads_back.2.1 _ _ _ (by decide +kernel) (by decide),
    stat_reads_back.2.2 _ _ 98765 98765 _ _ (by decide +kernel) (by decide +kernel) (by decide) (by decide)
      (by simp [spoofed])⟩

end GpuNodeHealth.Agent
