import GpuNodeHealth.Text.Pattern
import Mathlib.Data.List.Infix

/-! Formats of printed lines: fixed text, and fields whose characters are known. A
pattern is run on a format as on a text. What it may leave of a format covers what
it leaves of any line so printed; what it must leave, it leaves of each of them. -/

namespace GpuNodeHealth.Text

/-! ### The texts a pattern matches -/

namespace Pattern

def Matches : Pattern → List Char → Prop
  | lit s, w => w = s.toList
  | cls q, w => ∃ c, w = [c] ∧ q c = true
  | many q, w => ∀ c ∈ w, q c = true
  | seq a b, w => ∃ u v, w = u ++ v ∧ a.Matches u ∧ b.Matches v
  | alt a b, w => a.Matches w ∨ b.Matches w

variable {q : Char → Bool} {text rest w : List Char} {p : Pattern}

theorem mem_manyRests : rest ∈ manyRests q text ↔ ∃ w, text = w ++ rest ∧ ∀ c ∈ w, q c = true := by
  induction text with
  | nil =>
    rw [manyRests, List.mem_singleton]
    constructor
    · rintro rfl
      exact ⟨[], rfl, nofun⟩
    · rintro ⟨w, hw, -⟩
      exact (List.append_eq_nil_iff.mp hw.symm).2
  | cons c text ih =>
    rw [manyRests]
    constructor
    · intro h
      split_ifs at h with hc
      · rcases List.mem_cons.mp h with rfl | h
        · exact ⟨[], rfl, nofun⟩
        · obtain ⟨w, rfl, hw⟩ := ih.mp h
          exact ⟨c :: w, rfl, List.forall_mem_cons.mpr ⟨hc, hw⟩⟩
      · exact ⟨[], (List.mem_singleton.mp h).symm, nofun⟩
    · rintro ⟨w, hw, hall⟩
      cases w with
      | nil =>
        rw [show rest = c :: text from hw.symm]
        split_ifs <;> simp
      | cons d w =>
        obtain ⟨rfl, rfl⟩ := List.cons.inj hw
        obtain ⟨hc, hall⟩ := List.forall_mem_cons.mp hall
        rw [if_pos hc]
        exact List.mem_cons_of_mem _ (ih.mpr ⟨w, rfl, hall⟩)

/-- What may be left of a text is what follows a match at its start. -/
theorem mem_rests : rest ∈ p.rests text ↔ ∃ w, text = w ++ rest ∧ p.Matches w := by
  induction p generalizing text rest with
  | lit s =>
    rw [rests]
    constructor
    · intro h
      split_ifs at h with hpre
      · obtain ⟨more, rfl⟩ := List.isPrefixOf_iff_prefix.mp hpre
        rw [List.mem_singleton, List.drop_left] at h
        exact ⟨s.toList, by rw [h], rfl⟩
      · cases h
    · rintro ⟨w, rfl, rfl⟩
      rw [if_pos (List.isPrefixOf_iff_prefix.mpr (List.prefix_append _ _)), List.drop_left]
      exact List.mem_singleton_self _
  | cls q =>
    cases text with
    | nil =>
      refine ⟨nofun, ?_⟩
      rintro ⟨w, hw, c, rfl, -⟩
      cases hw
    | cons c text =>
      rw [rests]
      constructor
      · intro h
        split_ifs at h with hc
        · exact ⟨[c], by rw [List.mem_singleton.mp h]; rfl, c, rfl, hc⟩
        · cases h
      · rintro ⟨w, hw, d, rfl, hd⟩
        obtain ⟨rfl, rfl⟩ := List.cons.inj hw
        rw [if_pos hd]
        exact List.mem_singleton_self _
  | many q => exact mem_manyRests
  | seq a b iha ihb =>
    rw [rests, List.mem_flatMap]
    constructor
    · rintro ⟨between, ha, hb⟩
      obtain ⟨u, rfl, hu⟩ := iha.mp ha
      obtain ⟨v, rfl, hv⟩ := ihb.mp hb
      exact ⟨u ++ v, (List.append_assoc _ _ _).symm, u, v, rfl, hu, hv⟩
    · rintro ⟨w, rfl, u, v, rfl, hu, hv⟩
      exact ⟨v ++ rest, iha.mpr ⟨u, List.append_assoc _ _ _, hu⟩, ihb.mpr ⟨v, rfl, hv⟩⟩
  | alt a b iha ihb =>
    rw [rests, List.mem_append, iha, ihb]
    constructor
    · rintro (⟨w, hw, h⟩ | ⟨w, hw, h⟩)
      · exact ⟨w, hw, .inl h⟩
      · exact ⟨w, hw, .inr h⟩
    · rintro ⟨w, hw, h | h⟩
      · exact .inl ⟨w, hw, h⟩
      · exact .inr ⟨w, hw, h⟩

theorem search_iff : p.search text = true ↔ ∃ start rest, start <:+ text ∧ rest ∈ p.rests start := by
  rw [search, List.any_eq_true]
  constructor
  · rintro ⟨start, hstart, hsome⟩
    rw [Bool.not_eq_true', List.isEmpty_eq_false_iff_exists_mem] at hsome
    obtain ⟨rest, hrest⟩ := hsome
    exact ⟨start, rest, (List.mem_tails _ _).mp hstart, hrest⟩
  · rintro ⟨start, rest, hstart, hrest⟩
    refine ⟨start, (List.mem_tails _ _).mpr hstart, ?_⟩
    rw [Bool.not_eq_true', List.isEmpty_eq_false_iff_exists_mem]
    exact ⟨rest, hrest⟩

/-- What is found in the end of a text is found in the text. -/
theorem search_suffix {text' : List Char} (h : text' <:+ text) (hsearch : p.search text' = true) :
    p.search text = true := by
  obtain ⟨start, rest, hstart, hrest⟩ := search_iff.mp hsearch
  exact search_iff.mpr ⟨start, rest, hstart.trans h, hrest⟩

end Pattern

/-! ### Formats -/

/-- A character, or a field: as many of some characters as one likes, or at least one. -/
inductive Piece where
  | char (c : Char)
  | many (cs : List Char)
  | some (cs : List Char)
  deriving DecidableEq

def Piece.chars : Piece → List Char
  | .char c => [c]
  | .many cs => cs
  | .some cs => cs

abbrev Format := List Piece

namespace Format

def text (s : String) : Format := s.toList.map .char

def field (cs : String) : Format := [.some cs.toList]

/-- The lines of a format. -/
def Prints : Format → List Char → Prop
  | [], line => line = []
  | .char c :: t, line => ∃ rest, line = c :: rest ∧ Prints t rest
  | .many cs :: t, line => ∃ value rest, line = value ++ rest ∧ (∀ c ∈ value, c ∈ cs) ∧ Prints t rest
  | .some cs :: t, line =>
    ∃ value rest, line = value ++ rest ∧ value ≠ [] ∧ (∀ c ∈ value, c ∈ cs) ∧ Prints t rest

variable {t t' : Format} {cs value line rest : List Char} {q : Char → Bool} {c : Char} {p : Pattern}

theorem Prints.text (h : Prints t rest) (s : String) : Prints (text s ++ t) (s.toList ++ rest) := by
  rw [Format.text]
  generalize s.toList = cs
  induction cs with
  | nil => exact h
  | cons c cs ih => exact ⟨_, rfl, ih⟩

theorem Prints.field (h : Prints t rest) {s : String} (value : List Char) (hne : value ≠ [])
    (hvalue : ∀ c ∈ value, c ∈ s.toList) : Prints (field s ++ t) (value ++ rest) :=
  ⟨value, rest, rfl, hne, hvalue, h⟩

/-- A line has the characters of its format. -/
theorem Prints.chars (h : Prints t line) : ∀ c ∈ line, ∃ piece ∈ t, c ∈ piece.chars := by
  induction t generalizing line with
  | nil =>
    rw [show line = [] from h]
    nofun
  | cons piece t ih =>
    have hfield : ∀ (value : List Char) {rest : List Char}, (∀ c ∈ value, c ∈ piece.chars) → Prints t rest →
        ∀ c ∈ value ++ rest, ∃ piece' ∈ piece :: t, c ∈ piece'.chars := by
      intro value rest hvalue hprints c hc
      rcases List.mem_append.mp hc with hc | hc
      · exact ⟨piece, List.mem_cons_self, hvalue c hc⟩
      · obtain ⟨piece', hmem, hchars⟩ := ih hprints c hc
        exact ⟨piece', List.mem_cons_of_mem _ hmem, hchars⟩
    cases piece with
    | char c =>
      obtain ⟨rest, rfl, hprints⟩ := h
      exact hfield [c] (fun d hd => hd) hprints
    | many cs =>
      obtain ⟨value, rest, rfl, hvalue, hprints⟩ := h
      exact hfield value hvalue hprints
    | some cs =>
      obtain ⟨value, rest, rfl, -, hvalue, hprints⟩ := h
      exact hfield value hvalue hprints

/-- A field may be empty if it need not have a character. -/
theorem Prints.many (h : Prints (.some cs :: t) line) : Prints (.many cs :: t) line := by
  obtain ⟨value, rest, hline, -, hvalue, hprints⟩ := h
  exact ⟨value, rest, hline, hvalue, hprints⟩

/-! ### What a pattern may leave -/

def mayChar (q : Char → Bool) : Format → List Format
  | [] => []
  | .char c :: t => if q c then [t] else []
  | .many cs :: t => (if cs.any q then [.many cs :: t] else []) ++ mayChar q t
  | .some cs :: t => if cs.any q then [.many cs :: t] else []

def mayMany (q : Char → Bool) : Format → List Format
  | [] => [[]]
  | .char c :: t => (.char c :: t) :: if q c then mayMany q t else []
  | .many cs :: t => (.many cs :: t) :: mayMany q t
  | .some cs :: t => (.many cs :: t) :: mayMany q t

/-- One after the other. -/
def each (one : (Char → Bool) → Format → List Format) : List Char → Format → List Format
  | [], t => [t]
  | c :: cs, t => (one (· = c) t).flatMap (each one cs)

/-- A pattern run on a format, given what classes do. -/
def onFormat (one many : (Char → Bool) → Format → List Format) : Pattern → Format → List Format
  | .lit s, t => each one s.toList t
  | .cls q, t => one q t
  | .many q, t => many q t
  | .seq a b, t => (onFormat one many a t).flatMap (onFormat one many b)
  | .alt a b, t => onFormat one many a t ++ onFormat one many b t

abbrev may : Pattern → Format → List Format := onFormat mayChar mayMany

/-- The formats of what is left of a line at some place. -/
def ends : Format → List Format
  | [] => [[]]
  | .char c :: t => (.char c :: t) :: ends t
  | .many cs :: t => (.many cs :: t) :: ends t
  | .some cs :: t => (.many cs :: t) :: ends t

/-- A pattern may be found in a line of the format. -/
def maySearch (p : Pattern) (t : Format) : Bool := (ends t).any fun t' => !(may p t').isEmpty

theorem Prints.mayChar (h : Prints t (c :: rest)) (hc : q c = true) : ∃ t' ∈ mayChar q t, Prints t' rest := by
  induction t with
  | nil => cases show c :: rest = [] from h
  | cons piece t ih =>
    have hany : ∀ {cs : List Char}, c ∈ cs → cs.any q = true := fun hmem => List.any_eq_true.mpr ⟨c, hmem, hc⟩
    cases piece with
    | char d =>
      obtain ⟨tail, heq, hprints⟩ := h
      obtain ⟨rfl, rfl⟩ := List.cons.inj heq
      exact ⟨t, by rw [Format.mayChar, if_pos hc]; exact List.mem_singleton_self _, hprints⟩
    | many cs =>
      obtain ⟨value, tail, heq, hvalue, hprints⟩ := h
      rw [Format.mayChar]
      cases value with
      | nil =>
        obtain ⟨t', hmem, ht'⟩ := ih (heq ▸ hprints)
        exact ⟨t', List.mem_append_right _ hmem, ht'⟩
      | cons d value =>
        obtain ⟨rfl, rfl⟩ := List.cons.inj heq
        obtain ⟨hd, hvalue⟩ := List.forall_mem_cons.mp hvalue
        rw [if_pos (hany hd)]
        exact ⟨_, List.mem_append_left _ (List.mem_singleton_self _), value, tail, rfl, hvalue, hprints⟩
    | some cs =>
      obtain ⟨value, tail, heq, hne, hvalue, hprints⟩ := h
      obtain ⟨d, value, rfl⟩ := List.exists_cons_of_ne_nil hne
      obtain ⟨rfl, rfl⟩ := List.cons.inj heq
      obtain ⟨hd, hvalue⟩ := List.forall_mem_cons.mp hvalue
      rw [Format.mayChar, if_pos (hany hd)]
      exact ⟨_, List.mem_singleton_self _, value, tail, rfl, hvalue, hprints⟩

/-- Where a text splits, one of two parts does. -/
theorem append_split {w value tail : List Char} (h : w ++ rest = value ++ tail) :
    (∃ more, value = w ++ more ∧ rest = more ++ tail) ∨ ∃ more, w = value ++ more ∧ tail = more ++ rest := by
  rcases List.append_eq_append_iff.mp h with ⟨more, hvalue, hrest⟩ | ⟨more, hw, htail⟩
  · exact .inl ⟨more, hvalue, hrest⟩
  · exact .inr ⟨more, hw, htail⟩

theorem Prints.mayMany {w : List Char} (h : Prints t (w ++ rest)) (hw : ∀ c ∈ w, q c = true) :
    ∃ t' ∈ mayMany q t, Prints t' rest := by
  induction t generalizing w with
  | nil =>
    obtain ⟨-, rfl⟩ := List.append_eq_nil_iff.mp h
    exact ⟨[], List.mem_singleton_self _, rfl⟩
  | cons piece t ih =>
    have hfield : ∀ {cs : List Char}, Prints (.many cs :: t) (w ++ rest) →
        ∃ t' ∈ (.many cs :: t) :: Format.mayMany q t, Prints t' rest := by
      rintro cs ⟨value, tail, heq, hvalue, hprints⟩
      rcases append_split heq with ⟨more, rfl, rfl⟩ | ⟨more, rfl, rfl⟩
      · exact ⟨_, List.mem_cons_self, more, tail, rfl, fun c hc => hvalue c (List.mem_append_right _ hc), hprints⟩
      · obtain ⟨t', hmem, ht'⟩ := ih hprints fun c hc => hw c (List.mem_append_right _ hc)
        exact ⟨t', List.mem_cons_of_mem _ hmem, ht'⟩
    cases piece with
    | char d =>
      rw [Format.mayMany]
      cases w with
      | nil => exact ⟨_, List.mem_cons_self, h⟩
      | cons c w =>
        obtain ⟨tail, heq, hprints⟩ := h
        obtain ⟨rfl, rfl⟩ := List.cons.inj heq
        obtain ⟨hc, hw⟩ := List.forall_mem_cons.mp hw
        obtain ⟨t', hmem, ht'⟩ := ih hprints hw
        rw [if_pos hc]
        exact ⟨t', List.mem_cons_of_mem _ hmem, ht'⟩
    | many cs => exact hfield h
    | some cs => exact hfield h.many

theorem Prints.each (h : Prints t (cs ++ rest)) : ∃ t' ∈ each Format.mayChar cs t, Prints t' rest := by
  induction cs generalizing t with
  | nil => exact ⟨t, List.mem_singleton_self _, h⟩
  | cons c cs ih =>
    obtain ⟨t₁, hmem₁, ht₁⟩ := Prints.mayChar (q := (· = c)) h (decide_eq_true rfl)
    obtain ⟨t₂, hmem₂, ht₂⟩ := ih ht₁
    exact ⟨t₂, List.mem_flatMap.mpr ⟨t₁, hmem₁, hmem₂⟩, ht₂⟩

/-- What a pattern leaves of a line is a line of what it may leave of the format. -/
theorem Prints.may (h : Prints t line) (hrest : rest ∈ p.rests line) : ∃ t' ∈ may p t, Prints t' rest := by
  induction p generalizing t line rest with
  | lit s =>
    obtain ⟨w, rfl, rfl⟩ := Pattern.mem_rests.mp hrest
    exact h.each
  | cls q =>
    obtain ⟨w, rfl, c, rfl, hc⟩ := Pattern.mem_rests.mp hrest
    exact Prints.mayChar h hc
  | many q =>
    obtain ⟨w, rfl, hw⟩ := Pattern.mem_rests.mp hrest
    exact Prints.mayMany h hw
  | seq a b iha ihb =>
    obtain ⟨between, ha, hb⟩ := List.mem_flatMap.mp hrest
    obtain ⟨t₁, hmem₁, ht₁⟩ := iha h ha
    obtain ⟨t₂, hmem₂, ht₂⟩ := ihb ht₁ hb
    exact ⟨t₂, List.mem_flatMap.mpr ⟨t₁, hmem₁, hmem₂⟩, ht₂⟩
  | alt a b iha ihb =>
    rcases List.mem_append.mp hrest with ha | hb
    · obtain ⟨t', hmem, ht'⟩ := iha h ha
      exact ⟨t', List.mem_append_left _ hmem, ht'⟩
    · obtain ⟨t', hmem, ht'⟩ := ihb h hb
      exact ⟨t', List.mem_append_right _ hmem, ht'⟩

theorem Prints.ends (h : Prints t line) (hrest : rest <:+ line) : ∃ t' ∈ ends t, Prints t' rest := by
  obtain ⟨w, rfl⟩ := hrest
  induction t generalizing w with
  | nil =>
    obtain ⟨-, rfl⟩ := List.append_eq_nil_iff.mp h
    exact ⟨[], List.mem_singleton_self _, rfl⟩
  | cons piece t ih =>
    have hfield : ∀ {cs : List Char}, Prints (.many cs :: t) (w ++ rest) →
        ∃ t' ∈ (.many cs :: t) :: Format.ends t, Prints t' rest := by
      rintro cs ⟨value, tail, heq, hvalue, hprints⟩
      rcases append_split heq with ⟨more, rfl, rfl⟩ | ⟨more, rfl, rfl⟩
      · exact ⟨_, List.mem_cons_self, more, tail, rfl, fun c hc => hvalue c (List.mem_append_right _ hc), hprints⟩
      · obtain ⟨t', hmem, ht'⟩ := ih more hprints
        exact ⟨t', List.mem_cons_of_mem _ hmem, ht'⟩
    cases piece with
    | char d =>
      cases w with
      | nil => exact ⟨_, List.mem_cons_self, h⟩
      | cons c w =>
        obtain ⟨tail, heq, hprints⟩ := h
        obtain ⟨rfl, rfl⟩ := List.cons.inj heq
        obtain ⟨t', hmem, ht'⟩ := ih w hprints
        exact ⟨t', List.mem_cons_of_mem _ hmem, ht'⟩
    | many cs => exact hfield h
    | some cs => exact hfield h.many

/-- A pattern that may not be found in a format is in none of its lines. -/
theorem Prints.search_false (h : Prints t line) (hmay : maySearch p t = false) : p.search line = false := by
  by_contra hsearch
  obtain ⟨start, rest, hstart, hrest⟩ := Pattern.search_iff.mp (Bool.not_eq_false _ ▸ hsearch)
  obtain ⟨t', hmem, ht'⟩ := h.ends hstart
  obtain ⟨t'', hmem', -⟩ := ht'.may hrest
  have hnone := List.any_eq_false.mp hmay t' hmem
  rw [Bool.not_eq_true', List.isEmpty_eq_false_iff_exists_mem] at hnone
  exact hnone ⟨t'', hmem'⟩

/-! ### What a pattern must leave -/

def mustChar (q : Char → Bool) : Format → List Format
  | .char c :: t => if q c then [t] else []
  | .some cs :: t => if cs.all q then [.many cs :: t] else []
  | _ => []

def mustMany (q : Char → Bool) : Format → List Format
  | [] => [[]]
  | .char c :: t => (.char c :: t) :: if q c then mustMany q t else []
  | .many cs :: t => (.many cs :: t) :: if cs.all q then mustMany q t else []
  | .some cs :: t => (.some cs :: t) :: if cs.all q then mustMany q t else []

abbrev must : Pattern → Format → List Format := onFormat mustChar mustMany

/-- A pattern is found in every line of the format. -/
def mustSearch (p : Pattern) (t : Format) : Bool := t.tails.any fun t' => !(must p t').isEmpty

theorem Prints.mustChar (h : Prints t line) (ht' : t' ∈ mustChar q t) :
    ∃ c rest, line = c :: rest ∧ q c = true ∧ Prints t' rest := by
  cases t with
  | nil => cases ht'
  | cons piece t =>
    cases piece with
    | char c =>
      obtain ⟨rest, rfl, hprints⟩ := h
      rw [Format.mustChar] at ht'
      split_ifs at ht' with hc
      · obtain rfl := List.mem_singleton.mp ht'
        exact ⟨c, rest, rfl, hc, hprints⟩
      · cases ht'
    | many cs => cases ht'
    | some cs =>
      obtain ⟨value, rest, rfl, hne, hvalue, hprints⟩ := h
      rw [Format.mustChar] at ht'
      split_ifs at ht' with hall
      · obtain rfl := List.mem_singleton.mp ht'
        obtain ⟨c, value, rfl⟩ := List.exists_cons_of_ne_nil hne
        obtain ⟨hc, hvalue⟩ := List.forall_mem_cons.mp hvalue
        exact ⟨c, value ++ rest, rfl, List.all_eq_true.mp hall c hc, value, rest, rfl, hvalue, hprints⟩
      · cases ht'

theorem Prints.mustMany (h : Prints t line) (ht' : t' ∈ mustMany q t) :
    ∃ w rest, line = w ++ rest ∧ (∀ c ∈ w, q c = true) ∧ Prints t' rest := by
  induction t generalizing line with
  | nil =>
    obtain rfl := List.mem_singleton.mp ht'
    exact ⟨[], line, rfl, nofun, h⟩
  | cons piece t ih =>
    have hfield : ∀ (cs : List Char) {value rest : List Char}, (∀ c ∈ value, c ∈ cs) → Prints t rest →
        line = value ++ rest → t' ∈ (if cs.all q then Format.mustMany q t else []) →
          ∃ w rest, line = w ++ rest ∧ (∀ c ∈ w, q c = true) ∧ Prints t' rest := by
      intro cs value rest hvalue hprints hline ht'
      split_ifs at ht' with hall
      · obtain ⟨w, rest, rfl, hw, hprints'⟩ := ih hprints ht'
        refine ⟨value ++ w, rest, by rw [hline, List.append_assoc], fun c hc => ?_, hprints'⟩
        exact (List.mem_append.mp hc).elim (fun hc => List.all_eq_true.mp hall c (hvalue c hc)) (hw c)
      · cases ht'
    cases piece with
    | char c =>
      rcases List.mem_cons.mp ht' with rfl | ht'
      · exact ⟨[], line, rfl, nofun, h⟩
      · obtain ⟨rest, hline, hprints⟩ := h
        refine hfield [c] (fun d (hd : d ∈ [c]) => hd) hprints hline ?_
        simpa using ht'
    | many cs =>
      rcases List.mem_cons.mp ht' with rfl | ht'
      · exact ⟨[], line, rfl, nofun, h⟩
      · obtain ⟨value, rest, hline, hvalue, hprints⟩ := h
        exact hfield cs hvalue hprints hline ht'
    | some cs =>
      rcases List.mem_cons.mp ht' with rfl | ht'
      · exact ⟨[], line, rfl, nofun, h⟩
      · obtain ⟨value, rest, hline, -, hvalue, hprints⟩ := h
        exact hfield cs hvalue hprints hline ht'

theorem Prints.eachMust (h : Prints t line) (ht' : t' ∈ Format.each Format.mustChar cs t) :
    ∃ rest, line = cs ++ rest ∧ Prints t' rest := by
  induction cs generalizing t line with
  | nil =>
    obtain rfl := List.mem_singleton.mp ht'
    exact ⟨line, rfl, h⟩
  | cons c cs ih =>
    obtain ⟨t₁, ht₁, ht'⟩ := List.mem_flatMap.mp ht'
    obtain ⟨d, rest, rfl, hd, hprints⟩ := h.mustChar ht₁
    obtain ⟨rest, rfl, hprints'⟩ := ih hprints ht'
    exact ⟨rest, by rw [of_decide_eq_true hd]; rfl, hprints'⟩

/-- What a pattern must leave of a format, it leaves of each line. -/
theorem Prints.must (h : Prints t line) (ht' : t' ∈ must p t) : ∃ rest ∈ p.rests line, Prints t' rest := by
  induction p generalizing t t' line with
  | lit s =>
    obtain ⟨rest, rfl, hprints⟩ := h.eachMust ht'
    exact ⟨rest, Pattern.mem_rests.mpr ⟨_, rfl, rfl⟩, hprints⟩
  | cls q =>
    obtain ⟨c, rest, rfl, hc, hprints⟩ := h.mustChar ht'
    exact ⟨rest, Pattern.mem_rests.mpr ⟨[c], rfl, c, rfl, hc⟩, hprints⟩
  | many q =>
    obtain ⟨w, rest, rfl, hw, hprints⟩ := h.mustMany ht'
    exact ⟨rest, Pattern.mem_rests.mpr ⟨w, rfl, hw⟩, hprints⟩
  | seq a b iha ihb =>
    obtain ⟨t₁, ht₁, ht'⟩ := List.mem_flatMap.mp ht'
    obtain ⟨between, ha, hprints⟩ := iha h ht₁
    obtain ⟨rest, hb, hprints'⟩ := ihb hprints ht'
    exact ⟨rest, List.mem_flatMap.mpr ⟨between, ha, hb⟩, hprints'⟩
  | alt a b iha ihb =>
    rcases List.mem_append.mp ht' with ht' | ht'
    · obtain ⟨rest, ha, hprints⟩ := iha h ht'
      exact ⟨rest, List.mem_append_left _ ha, hprints⟩
    · obtain ⟨rest, hb, hprints⟩ := ihb h ht'
      exact ⟨rest, List.mem_append_right _ hb, hprints⟩

/-- A line of a format ends in a line of each of its ends. -/
theorem Prints.tail (h : Prints t line) (ht' : t' <:+ t) : ∃ rest, rest <:+ line ∧ Prints t' rest := by
  induction t generalizing line with
  | nil =>
    obtain rfl := List.suffix_nil.mp ht'
    exact ⟨line, List.suffix_rfl, h⟩
  | cons piece t ih =>
    rcases List.suffix_cons_iff.mp ht' with rfl | ht'
    · exact ⟨line, List.suffix_rfl, h⟩
    · have hdown : ∃ value tail, line = value ++ tail ∧ Prints t tail := by
        cases piece with
        | char c =>
          obtain ⟨tail, rfl, hprints⟩ := h
          exact ⟨[c], tail, rfl, hprints⟩
        | many cs =>
          obtain ⟨value, tail, rfl, -, hprints⟩ := h
          exact ⟨value, tail, rfl, hprints⟩
        | some cs =>
          obtain ⟨value, tail, rfl, -, -, hprints⟩ := h
          exact ⟨value, tail, rfl, hprints⟩
      obtain ⟨value, tail, rfl, hprints⟩ := hdown
      obtain ⟨rest, hrest, hprints'⟩ := ih hprints ht'
      exact ⟨rest, hrest.trans (List.suffix_append _ _), hprints'⟩

/-- A pattern that must be found in a format is in all of its lines. -/
theorem Prints.search_true (h : Prints t line) (hmust : mustSearch p t = true) : p.search line = true := by
  obtain ⟨t', hmem, hsome⟩ := List.any_eq_true.mp hmust
  rw [Bool.not_eq_true', List.isEmpty_eq_false_iff_exists_mem] at hsome
  obtain ⟨t'', ht''⟩ := hsome
  obtain ⟨start, hstart, hprints⟩ := h.tail ((List.mem_tails _ _).mp hmem)
  obtain ⟨rest, hrest, -⟩ := hprints.must ht''
  exact Pattern.search_iff.mpr ⟨start, rest, hstart, hrest⟩

end Format

end GpuNodeHealth.Text
