import Mathlib.Data.List.Induction

/-! Streaks. A value is observed again and again, and one remembers the value
together with where it came up: an equal observation leaves the memory alone, a
different one replaces it. The memory is then the start of the streak of equal
values that the observations end in. -/

namespace GpuNodeHealth.Debounce

variable {α τ υ : Type*} [DecidableEq α]

/-- One more observation, a value and where it came up. -/
def hold (held : Option (α × τ)) (obs : α × τ) : Option (α × τ) :=
  match held with
  | some (value, since) => if value = obs.1 then some (value, since) else some obs
  | none => some obs

/-- What is remembered of all observations. -/
def held (obs : List (α × τ)) : Option (α × τ) := obs.foldl hold none

theorem held_snoc (obs : List (α × τ)) (o : α × τ) : held (obs ++ [o]) = hold (held obs) o := by
  simp [held]

/-- The value remembered is the last one observed. -/
theorem fst_hold (h : Option (α × τ)) (o : α × τ) : (hold h o).map Prod.fst = some o.1 := by
  rcases h with _ | ⟨value, since⟩
  · rfl
  · simp only [hold]
    split_ifs with heq
    · simp [heq]
    · rfl

theorem held_value (obs : List (α × τ)) : (held obs).map Prod.fst = obs.getLast?.map Prod.fst := by
  induction obs using List.reverseRecOn with
  | nil => rfl
  | append_singleton obs o =>
    rw [held_snoc, fst_hold, List.getLast?_append, List.getLast?_singleton]
    rfl

/-- Where values come up may be read off as they are observed or afterwards. -/
theorem hold_map (f : τ → υ) (h : Option (α × τ)) (o : α × τ) :
    hold (h.map (Prod.map id f)) (Prod.map id f o) = (hold h o).map (Prod.map id f) := by
  rcases h with _ | ⟨value, since⟩
  · rfl
  · simp only [hold, Option.map_some, Prod.map_apply, Prod.map_fst, id_eq]
    split_ifs <;> rfl

/-- What is remembered starts the streak of equal values the observations end in. -/
theorem held_streak {obs : List (α × τ)} {value : α} {since : τ} (h : held obs = some (value, since)) :
    ∃ before streak, obs = before ++ (value, since) :: streak ∧ (∀ o ∈ streak, o.1 = value) ∧
      ∀ o ∈ before.getLast?, o.1 ≠ value := by
  induction obs using List.reverseRecOn generalizing value since with
  | nil => simp [held] at h
  | append_singleton obs o ih =>
    have hlast := held_value obs
    rw [held_snoc] at h
    rcases hobs : held obs with _ | ⟨value', since'⟩
    · obtain rfl : o = (value, since) := by simpa [hobs, hold] using h
      refine ⟨obs, [], rfl, by simp, fun o' ho' => ?_⟩
      rw [hobs, Option.mem_def.mp ho'] at hlast
      cases hlast
    · obtain ⟨before, streak, hsplit, hstreak, hbefore⟩ := ih hobs
      rw [hobs] at h
      simp only [hold] at h
      split_ifs at h with heq
      · obtain ⟨rfl, rfl⟩ := Prod.mk.inj (Option.some.inj h)
        refine ⟨before, streak ++ [o], by simp [hsplit], fun o' ho' => ?_, hbefore⟩
        rcases List.mem_append.mp ho' with ho' | ho'
        · exact hstreak o' ho'
        · rw [List.mem_singleton.mp ho', heq]
      · obtain rfl := Option.some.inj h
        refine ⟨obs, [], rfl, by simp, fun o' ho' => ?_⟩
        rw [hobs, Option.mem_def.mp ho'] at hlast
        rw [← Option.some.inj hlast]
        exact heq

/-- Observations of the same value leave the start of a streak alone. -/
theorem held_append (obs : List (α × τ)) {o : α × τ} {streak : List (α × τ)} (h : ∀ o' ∈ streak, o'.1 = o.1) :
    held (obs ++ o :: streak) = held (obs ++ [o]) := by
  induction streak using List.reverseRecOn with
  | nil => rfl
  | append_singleton streak o' ih =>
    have hrest := ih fun p hp => h p (List.mem_append_left _ hp)
    have hvalue := held_value (obs ++ [o])
    rw [List.getLast?_concat] at hvalue
    rw [← List.cons_append, ← List.append_assoc, held_snoc, hrest]
    rcases hheld : held (obs ++ [o]) with _ | ⟨value, since⟩
    · rw [hheld] at hvalue
      cases hvalue
    · rw [hheld] at hvalue
      have heq : value = o'.1 := (Option.some.inj hvalue).trans (h o' (by simp)).symm
      simp only [hold, if_pos heq]

/-- A streak starts where its value was observed. -/
theorem held_mem {obs : List (α × τ)} {o : α × τ} (h : held obs = some o) : o ∈ obs := by
  obtain ⟨before, streak, hsplit, -, -⟩ := held_streak h
  rw [hsplit]
  exact List.mem_append_right _ List.mem_cons_self

end GpuNodeHealth.Debounce
