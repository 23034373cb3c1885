import GpuNodeHealth.Interaction.Method

/-! An object in use: one method called again and again, each call on what the
call before left behind. The record of the calls says what each was given, what
it exchanged with the environment and what came out; an invariant of such runs
is kept by every single call. -/

namespace GpuNodeHealth.Interaction

/-- A call as it went. -/
structure Call (I : Interface) (ε σ ι α : Type) where
  arg : ι
  object : σ
  events : List (Event I)
  result : Except ε α

variable {I : Interface} {ε σ ι α : Type} {m : ι → Method I ε σ α} {s₀ : σ}

/-- `Calls m s₀ calls s`: the calls, in order, take the object from `s₀` to `s`. -/
inductive Calls (m : ι → Method I ε σ α) (s₀ : σ) : List (Call I ε σ ι α) → σ → Prop where
  | nil : Calls m s₀ [] s₀
  | snoc {calls : List (Call I ε σ ι α)} {s s' : σ} {arg : ι} {events : List (Event I)}
      {result : Except ε α} (before : Calls m s₀ calls s)
      (returns : ((m arg).call s).Returns events (result, s')) :
      Calls m s₀ (calls ++ [⟨arg, s, events, result⟩]) s'

/-- The call against fixed answers. -/
def Call.play (m : ι → Method I ε σ α) (answer : List (Event I) → (r : I.Req) → I.Val r) (arg : ι) (s : σ) :
    Call I ε σ ι α :=
  ⟨arg, s, (((m arg).call s).play answer []).2, (((m arg).call s).play answer []).1.1⟩

theorem Calls.play {calls : List (Call I ε σ ι α)} {s : σ} (h : Calls m s₀ calls s)
    (answer : List (Event I) → (r : I.Req) → I.Val r) (arg : ι) :
    Calls m s₀ (calls ++ [Call.play m answer arg s]) (((m arg).call s).play answer []).1.2 :=
  h.snoc (Program.play_returns answer _)

/-- What holds at first and is kept by every call holds after every run. -/
theorem Calls.invariant {P : List (Call I ε σ ι α) → σ → Prop} {calls : List (Call I ε σ ι α)} {s : σ}
    (h : Calls m s₀ calls s) (h₀ : P [] s₀)
    (hstep : ∀ calls s arg, P calls s →
      (m arg).wp (fun _ _ => True) (fun es v s' => P (calls ++ [⟨arg, s, es, v⟩]) s') s []) :
    P calls s := by
  induction h with
  | nil => exact h₀
  | snoc _ hr ih => exact Program.wp_returns (hstep _ _ _ ih) hr

/-- Every call of a run was made on what the calls before it left. -/
theorem Calls.before {before after : List (Call I ε σ ι α)} {call : Call I ε σ ι α} {s : σ}
    (h : Calls m s₀ (before ++ call :: after) s) :
    Calls m s₀ before call.object ∧
      ∃ s', ((m call.arg).call call.object).Returns call.events (call.result, s') := by
  generalize hcalls : before ++ call :: after = calls at h
  induction h generalizing after with
  | nil => simp at hcalls
  | snoc hb hr ih =>
    rcases List.eq_nil_or_concat after with rfl | ⟨after', last, rfl⟩
    · obtain ⟨rfl, hc⟩ := List.append_inj' hcalls rfl
      cases hc
      exact ⟨hb, _, hr⟩
    · rw [List.concat_eq_append, ← List.cons_append, ← List.append_assoc] at hcalls
      exact ih (List.append_inj' hcalls rfl).1

end GpuNodeHealth.Interaction
