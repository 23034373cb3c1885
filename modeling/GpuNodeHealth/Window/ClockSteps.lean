import GpuNodeHealth.Window.Baseline
import Mathlib.Order.Interval.Set.Basic

/-! The window under a clock that may step. Eviction looks at the front alone, so a
sample taken before the clock stepped back shields the ones behind it. Once the clock
goes on without a step, whatever the queue held then is cleared from the front on up
to the first sample that is not too old. -/

namespace GpuNodeHealth.Window

variable {α σ : Type*} [AddCommGroup α] [LinearOrder α] {window now : α} {sample : ℕ → α × σ} {m n : ℕ}

/-- Too old at some time. -/
def old (window now : α) (s : α × σ) : Bool := window < now - s.1

/-- The front is cleared of what is too old, and the last sample stays. -/
theorem evict_concat (queue : List (α × σ)) (s : α × σ) :
    evict now window (queue ++ [s]) = queue.dropWhile (old window now) ++ [s] := by
  induction queue with
  | nil => rfl
  | cons t queue ih =>
    obtain ⟨t', rest, hrest⟩ : ∃ t' rest, queue ++ [s] = t' :: rest :=
      List.exists_cons_of_ne_nil (List.append_ne_nil_of_right_ne_nil queue (List.cons_ne_nil s []))
    rw [List.cons_append, hrest, evict, ← hrest, List.dropWhile_cons, old, ih]
    simp only [decide_eq_true_eq]
    split_ifs
    · rfl
    · rfl

theorem queued_succ (k : ℕ) : queued window sample (k + 1) =
    (queued window sample k).dropWhile (old window (sample (k + 1)).1) ++ [sample (k + 1)] :=
  evict_concat _ _

/-- The newest samples are kept, so many of them. -/
theorem queued_suffix (k : ℕ) : queued window sample k <:+ (List.range (k + 1)).map sample := by
  induction k with
  | zero => exact List.suffix_refl _
  | succ k ih =>
    rw [queued_succ, List.range_succ, List.map_append, List.map_singleton]
    obtain ⟨front, hfront⟩ := (List.dropWhile_suffix _).trans ih
    exact ⟨front, by rw [← hfront, List.append_assoc]⟩

section Clearing

variable {β : Type*} {p q : β → Bool} {bad : β → Prop} {last : β}

theorem dropWhile_dropWhile_append (h : ∀ x, q x = true → p x = true) (l l' : List β) :
    (l.dropWhile q ++ l').dropWhile p = (l ++ l').dropWhile p := by
  induction l with
  | nil => rfl
  | cons x l ih =>
    by_cases hq : q x = true
    · rw [List.dropWhile_cons_of_pos hq, ih, List.cons_append, List.dropWhile_cons_of_pos (h x hq)]
    · rw [List.dropWhile_cons_of_neg hq]

/-- Nothing of a first part is left exactly if all of it is dropped. -/
theorem dropWhile_append_suffix_iff (l l' : List β) :
    (l ++ l').dropWhile p ++ [last] <:+ l' ++ [last] ↔ ∀ x ∈ l, p x = true := by
  induction l with
  | nil =>
    obtain ⟨front, hfront⟩ := List.dropWhile_suffix (l := l') p
    exact iff_of_true ⟨front, by rw [← List.append_assoc]; exact congrArg (· ++ [last]) hfront⟩ nofun
  | cons x l ih =>
    by_cases hp : p x = true
    · rw [List.cons_append, List.dropWhile_cons_of_pos hp, ih, List.forall_mem_cons, and_iff_right hp]
    · refine iff_of_false (fun hsuffix => ?_) fun hall => hp (hall x List.mem_cons_self)
      have hlength := hsuffix.length_le
      rw [List.cons_append, List.dropWhile_cons_of_neg hp] at hlength
      simp only [List.length_append, List.length_cons, List.length_nil] at hlength
      omega

/-- Where whatever stands before something bad is bad itself, and nothing behind the
first part is, the front is bad exactly if something bad of it is not dropped. -/
theorem head_dropWhile_bad_iff {l l' : List β} (hbefore : l.Pairwise fun x y => bad y → bad x)
    (hbehind : ∀ x ∈ l' ++ [last], ¬bad x) :
    (∃ x, ((l ++ l').dropWhile p ++ [last]).head? = some x ∧ bad x) ↔ ∃ x ∈ l, ¬p x = true ∧ bad x := by
  induction l with
  | nil =>
    refine iff_of_false ?_ (by simp)
    rintro ⟨x, hx, hbad⟩
    refine hbehind x ?_ hbad
    rcases List.mem_append.mp (List.mem_of_head? hx) with hx | hx
    · exact List.mem_append_left _ ((List.dropWhile_suffix _).subset hx)
    · exact List.mem_append_right _ hx
  | cons x l ih =>
    obtain ⟨hfirst, hrest⟩ := List.pairwise_cons.mp hbefore
    by_cases hp : p x = true
    · rw [List.cons_append, List.dropWhile_cons_of_pos hp, ih hrest]
      simp [hp]
    · rw [List.cons_append, List.dropWhile_cons_of_neg hp, List.cons_append, List.head?_cons]
      constructor
      · rintro ⟨y, hy, hbad⟩
        obtain rfl := Option.some.inj hy
        exact ⟨x, List.mem_cons_self, hp, hbad⟩
      · rintro ⟨y, hy, -, hbad⟩
        refine ⟨x, rfl, ?_⟩
        rcases List.mem_cons.mp hy with rfl | hy
        · exact hbad
        · exact hfirst y hy hbad

end Clearing

variable [IsOrderedAddMonoid α]

/-- What is too old stays too old while the clock goes on. -/
theorem old_later {later : α} (h : now ≤ later) (s : α × σ) (hold : old window now s = true) :
    old window later s = true :=
  decide_eq_true ((of_decide_eq_true hold).trans_le (sub_le_sub_right h _))

/-- From a call on after which the clock does not step back, the queue is what it held
then with the samples since, cleared from the front once. -/
theorem queued_since (hmn : m < n) (hclock : MonotoneOn (fun i => (sample i).1) (Set.Icc m n)) :
    queued window sample n = (queued window sample m ++ (List.range' (m + 1) (n - (m + 1))).map sample).dropWhile
      (old window (sample n).1) ++ [sample n] := by
  induction n, Nat.succ_le_of_lt hmn using Nat.le_induction with
  | base => rw [queued_succ, Nat.sub_self, List.range'_zero, List.map_nil, List.append_nil]
  | succ n hle ih =>
    have hmn' : m ≤ n := Nat.le_of_succ_le hle
    have hnext : (sample n).1 ≤ (sample (n + 1)).1 :=
      hclock ⟨hmn', Nat.le_succ n⟩ ⟨hmn'.trans (Nat.le_succ n), le_rfl⟩ (Nat.le_succ n)
    have hbefore := ih hle (hclock.mono (Set.Icc_subset_Icc_right (Nat.le_succ n)))
    have hrange : List.range' (m + 1) (n + 1 - (m + 1)) = List.range' (m + 1) (n - (m + 1)) ++ [n] := by
      rw [show n + 1 - (m + 1) = n - (m + 1) + 1 by omega, List.range'_concat (n := n - (m + 1))]
      congr 2
      omega
    rw [queued_succ, hbefore, dropWhile_dropWhile_append (old_later hnext), hrange, List.map_append,
      List.map_singleton, List.append_assoc]

end GpuNodeHealth.Window
