import GpuNodeHealth.Metrics.Format
import Mathlib.Data.List.Dedup

/-! Queries over the samples a store has at one instant. A selector takes the samples of a
family whose labels match; vectors are mapped, filtered and aggregated, and joined by the
labels of their elements. What the values are is up to a parameter; a filter behind an
aggregation is told by the elements that were aggregated. -/

namespace GpuNodeHealth.Alerts

open Metrics (Label Sample)

/-- The value of a label; one that is not there is empty. -/
def valueOf (labels : List Label) (key : List Char) : List Char := (labels.lookup key).getD []

/-- Some of the labels, without those that are empty. -/
def group (keys : List (List Char)) (labels : List Label) : List Label :=
  (keys.map fun key => (key, valueOf labels key)).filter fun label => label.2 ≠ []

structure Element (β : Type*) where
  labels : List Label
  value : β
  deriving DecidableEq, Repr

/-- `key="value"` and `key=~"value|..."`, of plain words. -/
inductive Matcher where
  | is (key value : List Char)
  | oneOf (key : List Char) (values : List (List Char))
  deriving DecidableEq, Repr

def Matcher.accepts (labels : List Label) : Matcher → Bool
  | is key value => valueOf labels key = value
  | oneOf key values => valueOf labels key ∈ values

inductive Query (β : Type*) where
  | select (name : List Char) (matchers : List Matcher)
  | map (f : β → β) (q : Query β)
  | filter (p : β → Bool) (q : Query β)
  | maxBy (keys : List (List Char)) (q : Query β)
  | countBy (keys : List (List Char)) (q : Query β)
  | absent (q : Query β)
  | or (q q' : Query β)
  | andOn (keys : List (List Char)) (q q' : Query β)
  | without (q q' : Query β)

section Evaluation

variable {β : Type*}

def selected (name : List Char) (matchers : List Matcher) (s : Sample β) : Bool :=
  s.name = name && matchers.all (Matcher.accepts s.labels)

/-- The groups of the elements, each once. -/
def groups (keys : List (List Char)) (es : List (Element β)) : List (List Label) :=
  (es.map fun e => group keys e.labels).dedup

/-- The values of one group. -/
def valuesIn (keys : List (List Char)) (es : List (Element β)) (g : List Label) : List β :=
  (es.filter fun e => group keys e.labels = g).map Element.value

/-- The labels of two elements are the same; the order does not matter. -/
def sameLabels (labels labels' : List Label) : Bool :=
  (labels.map Prod.fst ++ labels'.map Prod.fst).all fun key => valueOf labels key = valueOf labels' key

variable [Max β] [NatCast β]

def Query.eval (store : List (Sample β)) : Query β → List (Element β)
  | select name matchers => (store.filter (selected name matchers)).map fun s => ⟨s.labels, s.value⟩
  | map f q => (q.eval store).map fun e => { e with value := f e.value }
  | filter p q => (q.eval store).filter fun e => p e.value
  | maxBy keys q =>
    let es := q.eval store
    (groups keys es).filterMap fun g => (valuesIn keys es g).max?.map fun value => ⟨g, value⟩
  | countBy keys q =>
    let es := q.eval store
    (groups keys es).map fun g => ⟨g, ((valuesIn keys es g).length : β)⟩
  | absent q => if (q.eval store).isEmpty then [⟨[], (1 : ℕ)⟩] else []
  | or q q' =>
    let es := q.eval store
    es ++ (q'.eval store).filter fun e => !es.any fun e' => sameLabels e'.labels e.labels
  | andOn keys q q' => (q.eval store).filter fun e =>
    (q'.eval store).any fun e' => group keys e'.labels = group keys e.labels
  | without q q' => (q.eval store).filter fun e => !(q'.eval store).any fun e' => sameLabels e'.labels e.labels

variable {store : List (Sample β)} {keys : List (List Char)} {q q' : Query β}

theorem eval_select (name : List Char) (matchers : List Matcher) : (Query.select name matchers).eval store =
    (store.filter (selected name matchers)).map fun s => ⟨s.labels, s.value⟩ := rfl

theorem eval_map (f : β → β) : (q.map f).eval store = (q.eval store).map fun e => { e with value := f e.value } := rfl

theorem eval_filter (p : β → Bool) : (q.filter p).eval store = (q.eval store).filter fun e => p e.value := rfl

theorem eval_maxBy : (q.maxBy keys).eval store = (groups keys (q.eval store)).filterMap fun g =>
    (valuesIn keys (q.eval store) g).max?.map fun value => ⟨g, value⟩ := rfl

theorem eval_countBy : (q.countBy keys).eval store =
    (groups keys (q.eval store)).map fun g => ⟨g, ((valuesIn keys (q.eval store) g).length : β)⟩ := rfl

theorem eval_absent : q.absent.eval store = if (q.eval store).isEmpty then [⟨[], (1 : ℕ)⟩] else [] := rfl

theorem eval_or : (q.or q').eval store = q.eval store ++
    (q'.eval store).filter fun e => !(q.eval store).any fun e' => sameLabels e'.labels e.labels := rfl

theorem eval_andOn : (q.andOn keys q').eval store = (q.eval store).filter fun e =>
    (q'.eval store).any fun e' => group keys e'.labels = group keys e.labels := rfl

theorem eval_without : (q.without q').eval store =
    (q.eval store).filter fun e => !(q'.eval store).any fun e' => sameLabels e'.labels e.labels := rfl

end Evaluation

/-! ### Grouping -/

section Grouping

variable {keys : List (List Char)} {labels : List Label} {key : List Char}

theorem lookup_filter (p : List Char → Bool) (ks : List (List Char)) (f : List Char → List Char) :
    ((ks.map fun k => (k, f k)).filter fun label => p label.2).lookup key =
      if key ∈ ks ∧ p (f key) = true then some (f key) else none := by
  induction ks with
  | nil => simp
  | cons k ks ih =>
    rw [List.map_cons]
    by_cases hk : key = k
    · subst hk
      cases hp : p (f key) with
      | true => simp [hp]
      | false =>
        rw [List.filter_cons_of_neg (by simp [hp]), ih]
        simp [hp]
    · have hne : (key == k) = false := beq_false_of_ne hk
      cases hp : p (f k) with
      | true =>
        rw [List.filter_cons_of_pos (by simp [hp]), List.lookup_cons, hne, ih]
        simp [hk]
      | false =>
        rw [List.filter_cons_of_neg (by simp [hp]), ih]
        simp [hk]

/-- A label that is grouped by has its value. -/
theorem valueOf_group (h : key ∈ keys) : valueOf (group keys labels) key = valueOf labels key := by
  have hlookup := @lookup_filter key (fun value => decide (value ≠ [])) keys (valueOf labels)
  rw [valueOf, group, hlookup]
  by_cases hvalue : valueOf labels key = []
  · simp [hvalue]
  · simp [h, hvalue]

/-- Groups go by the values of the keys alone. -/
theorem group_congr {labels' : List Label} (h : ∀ key ∈ keys, valueOf labels key = valueOf labels' key) :
    group keys labels = group keys labels' := by
  rw [group, group, List.map_congr_left fun key hkey => by rw [h key hkey]]

theorem valueOf_of_sameLabels {labels' : List Label} (h : sameLabels labels labels' = true) (key : List Char) :
    valueOf labels key = valueOf labels' key := by
  by_cases hkey : key ∈ labels.map Prod.fst ++ labels'.map Prod.fst
  · exact of_decide_eq_true (List.all_eq_true.mp h key hkey)
  · have hnone (ls : List Label) (hls : key ∉ ls.map Prod.fst) : ls.lookup key = none := by
      refine List.lookup_eq_none_iff.mpr fun label hlabel => ?_
      have hne : key ≠ label.1 := fun heq => hls (heq ▸ List.mem_map_of_mem hlabel)
      simpa using hne
    rw [List.mem_append, not_or] at hkey
    rw [valueOf, valueOf, hnone _ hkey.1, hnone _ hkey.2]

theorem group_group : group keys (group keys labels) = group keys labels := by
  have hvalues : (keys.map fun key => (key, valueOf (group keys labels) key)) =
      keys.map fun key => (key, valueOf labels key) :=
    List.map_congr_left fun key hkey => by rw [valueOf_group hkey]
  rw [group, hvalues]
  rfl

end Grouping

/-! ### What the elements are -/

section Meaning

variable {β : Type*} {store : List (Sample β)} {name : List Char} {matchers : List Matcher} {keys : List (List Char)}
  {g : List Label} {p : β → Bool} {es : List (Element β)}

theorem mem_groups : g ∈ groups keys es ↔ ∃ e ∈ es, group keys e.labels = g := by
  rw [groups, List.mem_dedup, List.mem_map]

theorem mem_valuesIn {x : β} : x ∈ valuesIn keys es g ↔ ∃ e ∈ es, group keys e.labels = g ∧ e.value = x := by
  simp [valuesIn, and_assoc]

variable [Max β]

/-- A test that the larger of two values passes if one of them does. -/
def Rising (p : β → Bool) : Prop := ∀ a b, p (max a b) = (p a || p b)

theorem Rising.max? (hp : Rising p) (l : List β) : l.max?.any p = l.any p := by
  cases l with
  | nil => rfl
  | cons a l =>
    rw [List.max?_cons', Option.any_some]
    induction l generalizing a with
    | nil => simp
    | cons b l ih => rw [List.foldl_cons, ih, List.any_cons, List.any_cons, List.any_cons, hp, Bool.or_assoc]

variable [NatCast β] {q q' : Query β}

theorem mem_select {e : Element β} : e ∈ (Query.select name matchers).eval store ↔
    ∃ s ∈ store, s.name = name ∧ (∀ m ∈ matchers, m.accepts s.labels = true) ∧ e = ⟨s.labels, s.value⟩ := by
  simp only [eval_select, List.mem_map, List.mem_filter, selected, Bool.and_eq_true, decide_eq_true_eq,
    List.all_eq_true, and_assoc, eq_comm (a := e)]

/-- The labels of the elements. -/
def Query.found (q : Query β) (store : List (Sample β)) : List (List Label) := (q.eval store).map Element.labels

theorem mem_found : g ∈ q.found store ↔ ∃ e ∈ q.eval store, e.labels = g := List.mem_map

/-- The largest value of a group passes a test if some value does. -/
theorem found_above (hp : Rising p) : g ∈ ((q.maxBy keys).filter p).found store ↔
    ∃ e ∈ q.eval store, group keys e.labels = g ∧ p e.value = true := by
  have hmax := hp.max? (valuesIn keys (q.eval store) g)
  rw [mem_found]
  simp only [eval_filter, eval_maxBy, List.mem_filter, List.mem_filterMap, Option.map_eq_some_iff]
  constructor
  · rintro ⟨e, ⟨⟨g', hg', value, hvalue, rfl⟩, hpass⟩, rfl⟩
    rw [hvalue, Option.any_some, hpass] at hmax
    obtain ⟨x, hx, hpx⟩ := List.any_eq_true.mp hmax.symm
    obtain ⟨e, he, hgroup, rfl⟩ := mem_valuesIn.mp hx
    exact ⟨e, he, hgroup, hpx⟩
  · rintro ⟨e, he, hgroup, hpass⟩
    have hany : (valuesIn keys (q.eval store) g).any p = true :=
      List.any_eq_true.mpr ⟨e.value, mem_valuesIn.mpr ⟨e, he, hgroup, rfl⟩, hpass⟩
    rw [hany] at hmax
    obtain ⟨value, hvalue, hpass⟩ := (Option.any_eq_true _ _).mp hmax
    exact ⟨⟨g, value⟩, ⟨⟨g, mem_groups.mpr ⟨e, he, hgroup⟩, value, hvalue, rfl⟩, hpass⟩, rfl⟩

theorem found_filter : g ∈ (q.filter p).found store ↔ ∃ e ∈ q.eval store, e.labels = g ∧ p e.value = true := by
  simp only [mem_found, eval_filter, List.mem_filter]
  exact exists_congr fun e => by rw [and_assoc, and_comm (a := p e.value = true)]

/-- A group that is counted has an element, and as many as there are. -/
theorem found_count : g ∈ ((q.countBy keys).filter p).found store ↔
    (∃ e ∈ q.eval store, group keys e.labels = g) ∧ p ((valuesIn keys (q.eval store) g).length : β) = true := by
  rw [found_filter]
  simp only [eval_countBy, List.mem_map, mem_groups]
  constructor
  · rintro ⟨_, ⟨g, hg, rfl⟩, rfl, hpass⟩
    exact ⟨hg, hpass⟩
  · rintro ⟨hg, hpass⟩
    exact ⟨_, ⟨g, hg, rfl⟩, rfl, hpass⟩

theorem found_map (f : β → β) : ((q.map f).filter p).found store = (q.filter (p ∘ f)).found store := by
  unfold Query.found
  rw [eval_filter, eval_map, eval_filter, List.filter_map, List.map_map]
  rfl

/-- Without labels to group by there is one group. -/
theorem eval_max : (q.maxBy []).eval store =
    (((q.eval store).map Element.value).max?.map fun value => ⟨[], value⟩).toList := by
  have hvalues : valuesIn [] (q.eval store) [] = (q.eval store).map Element.value := by simp [valuesIn, group]
  cases hes : q.eval store with
  | nil => simp [eval_maxBy, hes, groups]
  | cons e es =>
    have hgroups : groups [] (e :: es) = [[]] := by
      have hconst : ((e :: es).map fun e => group [] e.labels) = List.replicate (es.length + 1) [] := by
        rw [← List.length_cons, ← List.map_const']
        rfl
      rw [groups, hconst, List.replicate_dedup (Nat.succ_ne_zero _)]
    rw [hes] at hvalues
    simp only [eval_maxBy, hes, hgroups, List.filterMap_cons, hvalues, List.filterMap_nil]
    cases ((e :: es).map Element.value).max? <;> rfl

/-- Where the largest value of all is one of them, and it does not pass, some value does not. -/
theorem exists_of_max [Std.MaxEqOr β] (hne : q.eval store ≠ []) (h : ((q.maxBy []).filter p).found store = []) :
    ∃ e ∈ q.eval store, p e.value = false := by
  cases hvalue : ((q.eval store).map Element.value).max? with
  | none => exact absurd (List.map_eq_nil_iff.mp (List.max?_eq_none_iff.mp hvalue)) hne
  | some value =>
    obtain ⟨e, he, rfl⟩ := List.mem_map.mp (List.max?_mem hvalue)
    refine ⟨e, he, Bool.eq_false_iff.mpr fun hpass => ?_⟩
    have hfound : ([] : List Label) ∈ ((q.maxBy []).filter p).found store := by
      rw [found_filter, eval_max, hvalue]
      exact ⟨_, List.mem_singleton_self _, rfl, hpass⟩
    rw [h] at hfound
    cases hfound

/-- Whatever test the largest values pass, they are of groups that have an element. -/
theorem exists_of_found (h : g ∈ ((q.maxBy keys).filter p).found store) :
    ∃ e ∈ q.eval store, group keys e.labels = g := by
  obtain ⟨e, hmax, rfl, -⟩ := found_filter.mp h
  rw [eval_maxBy, List.mem_filterMap] at hmax
  obtain ⟨g, hg, hvalue⟩ := hmax
  obtain ⟨value, -, rfl⟩ := Option.map_eq_some_iff.mp hvalue
  exact mem_groups.mp hg

/-- Of values that are all the same the largest is that one. -/
theorem found_constant [Std.MaxEqOr β] {x : β} (hx : p x = true) (h : ∀ e ∈ q.eval store, e.value = x) :
    g ∈ ((q.maxBy keys).filter p).found store ↔ ∃ e ∈ q.eval store, group keys e.labels = g := by
  have hsame : ∀ value ∈ valuesIn keys (q.eval store) g, value = x := by
    intro value hvalue
    obtain ⟨e, he, -, rfl⟩ := mem_valuesIn.mp hvalue
    exact h e he
  refine ⟨exists_of_found, ?_⟩
  rintro ⟨e, he, hgroup⟩
  have hmem : e.value ∈ valuesIn keys (q.eval store) g := mem_valuesIn.mpr ⟨e, he, hgroup, rfl⟩
  obtain ⟨value, hvalue⟩ := Option.isSome_iff_exists.mp (List.isSome_max?_of_mem hmem)
  have hmax : (⟨g, value⟩ : Element β) ∈ (q.maxBy keys).eval store := by
    rw [eval_maxBy, List.mem_filterMap]
    exact ⟨g, mem_groups.mpr ⟨e, he, hgroup⟩, by rw [hvalue, Option.map_some]⟩
  exact found_filter.mpr ⟨_, hmax, rfl, hsame value (List.max?_mem hvalue) ▸ hx⟩

/-- What a difference leaves out has a partner with the same labels. -/
theorem exists_of_without (h : (q.without q').found store = []) (hg : g ∈ q.found store) :
    ∃ g' ∈ q'.found store, sameLabels g' g = true := by
  obtain ⟨e, he, rfl⟩ := mem_found.mp hg
  rw [Query.found, List.map_eq_nil_iff, eval_without, List.filter_eq_nil_iff] at h
  obtain ⟨e', he', hsame⟩ : ∃ e' ∈ q'.eval store, sameLabels e'.labels e.labels = true := by simpa using h e he
  exact ⟨e'.labels, mem_found.mpr ⟨e', he', rfl⟩, hsame⟩

/-- The elements of a join that have a partner. -/
theorem found_andOn : g ∈ (q.andOn keys q').found store ↔
    ∃ e ∈ q.eval store, e.labels = g ∧ ∃ g' ∈ q'.found store, group keys g' = group keys g := by
  simp only [mem_found, eval_andOn, List.mem_filter, List.any_eq_true, decide_eq_true_eq]
  constructor
  · rintro ⟨e, ⟨he, e', he', hgroup⟩, rfl⟩
    exact ⟨e, he, rfl, _, ⟨e', he', rfl⟩, hgroup⟩
  · rintro ⟨e, he, rfl, _, ⟨e', he', rfl⟩, hgroup⟩
    exact ⟨e, ⟨he, e', he', hgroup⟩, rfl⟩

theorem found_absent : (q.absent.found store = []) ↔ q.found store ≠ [] := by
  unfold Query.found
  rw [eval_absent]
  cases q.eval store <;> simp

theorem found_or : ((q.or q').found store = []) ↔ q.found store = [] ∧ q'.found store = [] := by
  unfold Query.found
  rw [eval_or]
  simp only [List.map_eq_nil_iff, List.append_eq_nil_iff]
  refine and_congr_right fun hnil => ?_
  rw [hnil]
  simp

end Meaning

end GpuNodeHealth.Alerts
