import GpuNodeHealth.Metrics.Reading

/-! Lines in groups: between two lines of one family stands no line of another. A text
has the groups of its entries, however many lines each of them comes to. -/

namespace GpuNodeHealth.Metrics

section Grouped

variable {α : Type*}

/-- Equal elements stand together. -/
def Grouped (l : List α) : Prop := ∀ x y, [x, y, x].Sublist l → y = x

/-- Every element of a list once or several times. -/
inductive Stretched : List α → List α → Prop
  | nil : Stretched [] []
  | cons {l l' : List α} (x : α) (n : ℕ) : Stretched l l' → Stretched (x :: l) (List.replicate (n + 1) x ++ l')

variable {x y : α} {l l' m m' p : List α}

theorem Grouped.sublist (h : Grouped l) (hsub : l'.Sublist l) : Grouped l' :=
  fun x y hxy => h x y (hxy.trans hsub)

theorem grouped_of_nodup (h : l.Nodup) : Grouped l := by
  intro x y hxy
  have hnodup := hxy.nodup h
  simp at hnodup

theorem Stretched.refl (l : List α) : Stretched l l := by
  induction l with
  | nil => exact .nil
  | cons x l ih => exact .cons x 0 ih

theorem Stretched.append (h : Stretched l l') (hm : Stretched m m') : Stretched (l ++ m) (l' ++ m') := by
  induction h with
  | nil => exact hm
  | cons x n _ ih =>
    rw [List.cons_append, List.append_assoc]
    exact .cons x n ih

theorem Stretched.replicate (x : α) (n : ℕ) : Stretched [x] (List.replicate (n + 1) x) := by
  have hcons := Stretched.cons x n .nil
  rwa [List.append_nil] at hcons

theorem grouped_map_iff {β : Type*} {f : α → β} (hf : Function.Injective f) : Grouped (l.map f) ↔ Grouped l := by
  constructor
  · intro h x y hxy
    exact hf (h (f x) (f y) (hxy.map f))
  · intro h x y hxy
    obtain ⟨p, hp, heq⟩ := List.sublist_map_iff.mp hxy
    obtain ⟨x', behind, rfl, hx, hbehind⟩ := List.map_eq_cons_iff.mp heq.symm
    obtain ⟨y', last, rfl, hy, hlast⟩ := List.map_eq_cons_iff.mp hbehind
    obtain ⟨z', none, rfl, hz, hnone⟩ := List.map_eq_cons_iff.mp hlast
    obtain rfl := List.map_eq_nil_iff.mp hnone
    obtain rfl := hf (hz.trans hx.symm)
    rw [← hx, ← hy, h z' y' hp]

/-- Of a pattern without repetition at most one element is matched by copies of one. -/
theorem chain_sublist_replicate (hp : p.IsChain (· ≠ ·)) {n : ℕ} (h : p.Sublist (List.replicate n x)) :
    p = [] ∨ p = [x] := by
  obtain ⟨k, -, rfl⟩ := List.sublist_replicate_iff.mp h
  match k, hp with
  | 0, _ => exact .inl rfl
  | 1, _ => exact .inr rfl
  | k + 2, hp => exact absurd rfl (List.isChain_cons_cons.mp hp).1

/-- Such a pattern does not tell a list from a stretched one. -/
theorem Stretched.sublist_iff (h : Stretched l l') (hp : p.IsChain (· ≠ ·)) : p.Sublist l' ↔ p.Sublist l := by
  induction h generalizing p with
  | nil => exact .rfl
  | @cons l l' x n _ ih =>
    rw [List.sublist_cons_iff]
    constructor
    · intro hsub
      obtain ⟨front, back, rfl, hfront, hback⟩ := List.sublist_append_iff.mp hsub
      obtain ⟨hpfront, hpback, -⟩ := List.isChain_append.mp hp
      rcases chain_sublist_replicate hpfront hfront with rfl | rfl
      · exact .inl ((ih hpback).mp hback)
      · exact .inr ⟨back, rfl, (ih hpback).mp hback⟩
    · rintro (hsub | ⟨rest, rfl, hsub⟩)
      · exact ((ih hp).mpr hsub).trans (List.sublist_append_right _ _)
      · have hrest := (ih hp.tail).mpr hsub
        exact (List.singleton_sublist.mpr (List.mem_replicate.mpr ⟨n.succ_ne_zero, rfl⟩)).append hrest

theorem Stretched.grouped_iff (h : Stretched l l') : Grouped l' ↔ Grouped l := by
  refine forall₂_congr fun x y => ?_
  by_cases hxy : y = x
  · simp [hxy]
  · have hp : [x, y, x].IsChain (· ≠ ·) := by simp [Ne.symm hxy, hxy]
    rw [h.sublist_iff hp]

end Grouped

/-! ### The families of a text -/

section Families

variable {β : Type*} {e : Entry} {s : Sample (List Char)} {es es' : List Entry} {ps : List (Entry × Sample (List Char))}

/-- The family of a line, if it belongs to one. -/
def family? (line : List Char) : Option (List Char) := (line? some line).bind Line.family?

theorem families_eq (text : List Char) : families text = (text.splitOn '\n').filterMap family? := rfl

theorem comments_families (e : Entry) : ∃ n, (e.comments β).filterMap Line.family? = List.replicate (n + 1) e.full := by
  unfold Entry.comments
  split_ifs
  · exact ⟨0, rfl⟩
  · exact ⟨1, rfl⟩

theorem readLines_families (declared : List (List Char)) {ps : List (Entry × Sample β)}
    (h : ∀ p ∈ ps, p.2.name = p.1.full) :
    Stretched (ps.map fun p => p.1.full) ((readLines declared ps).filterMap Line.family?) := by
  induction ps generalizing declared with
  | nil => exact .nil
  | cons p ps ih =>
    obtain ⟨e, s⟩ := p
    obtain ⟨hfamily, hfamilies⟩ := List.forall_mem_cons.mp h
    have hsample : (Line.sample s).family? = some e.full := congrArg some hfamily
    rw [readLines, List.map_cons]
    split_ifs
    · rw [List.filterMap_cons_some hsample]
      exact .cons e.full 0 (ih declared hfamilies)
    · obtain ⟨n, hn⟩ := @comments_families β e
      rw [List.filterMap_append, hn, List.filterMap_cons_some hsample, List.append_cons, ← List.replicate_succ']
      exact .cons e.full (n + 1) (ih _ hfamilies)

theorem filterMap_mapM {lines : List (List Char)} {ls : List (Line (List Char))}
    (h : lines.mapM (line? some) = some ls) : lines.filterMap family? = ls.filterMap Line.family? := by
  induction lines generalizing ls with
  | nil =>
    obtain rfl := Option.some.inj h
    rfl
  | cons line lines ih =>
    rw [List.mapM_cons] at h
    obtain ⟨l, hl, h⟩ := Option.bind_eq_some_iff.mp h
    obtain ⟨ls', hls', h⟩ := Option.bind_eq_some_iff.mp h
    obtain rfl := Option.some.inj h
    have hfamily : family? line = l.family? := by rw [family?, hl, Option.bind_some]
    rw [List.filterMap_cons, List.filterMap_cons, hfamily, ih hls']

theorem families_flatMap (lines : List (List Char)) :
    families (lines.flatMap (· ++ ['\n'])) = (lines.flatMap (List.splitOn '\n')).filterMap family? := by
  have hempty : ([[]] : List (List Char)).filterMap family? = [] := rfl
  rw [families_eq, splitOn_flatMap, List.filterMap_append, hempty, List.append_nil]

theorem families_text (hne : es ≠ []) : families ((es.foldl Registry.write {}).text) =
    ((written [] es).flatMap (List.splitOn '\n')).filterMap family? := by
  have hlines := lines_foldl {} es
  rw [List.nil_append] at hlines
  have hsome : (es.foldl Registry.write {}).lines ≠ [] := by
    rw [hlines]
    exact written_ne_nil hne _
  rw [text_eq hsome, families_flatMap, hlines]

/-- The groups of a text are those of its entries. -/
theorem grouped_text_iff (h : ∀ p ∈ ps, p.1.Reads some p.2) (hne : ps ≠ []) :
    Grouped (families ((ps.map Prod.fst).foldl Registry.write {}).text) ↔ Grouped (ps.map fun p => p.1.full) := by
  obtain ⟨hread, hwhole⟩ := mapM_written h []
  rw [families_text (by simpa using hne), flatMap_splitOn hwhole, filterMap_mapM hread]
  exact (readLines_families [] fun p hp => (h p hp).family).grouped_iff

/-- An entry whose line is whole and belongs to its family. -/
structure Entry.Tells (e : Entry) : Prop where
  family : family? e.line = some e.full
  whole : '\n' ∉ e.line

theorem lines_sublist_written (declared : List (List Char)) (es : List Entry) :
    (es.map Entry.line).Sublist (written declared es) := by
  induction es generalizing declared with
  | nil => exact List.Sublist.refl _
  | cons e es ih =>
    rw [written, List.map_cons]
    split_ifs
    · exact (ih _).cons_cons _
    · exact ((ih _).cons_cons _).trans (List.sublist_append_right _ _)

/-- Whatever the other lines are, the families of some entries are among those of the text. -/
theorem families_sublist (hsub : es'.Sublist es) (h : ∀ e ∈ es', e.Tells) (hne : es ≠ []) :
    (es'.map Entry.full).Sublist (families ((es.foldl Registry.write {}).text)) := by
  have hlines : (es'.map Entry.line).Sublist (written [] es) := (hsub.map _).trans (lines_sublist_written [] es)
  have hwhole : (es'.map Entry.line).flatMap (List.splitOn '\n') = es'.map Entry.line := by
    refine flatMap_splitOn fun line hline => ?_
    obtain ⟨e, he, rfl⟩ := List.mem_map.mp hline
    exact (h e he).whole
  have hfamilies : (es'.map Entry.line).filterMap family? = es'.map Entry.full := by
    rw [List.filterMap_map, ← List.filterMap_eq_map]
    exact List.filterMap_congr fun e he => (h e he).family
  rw [families_text hne, ← hfamilies]
  refine List.Sublist.filterMap _ ?_
  rw [← hwhole]
  exact hlines.flatMap _

end Families

end GpuNodeHealth.Metrics
